import Mathlib

/-! # The event store

`append_event` of `events/store.py`, in the pieces other transactions can get
between: the checks it makes before its savepoint, and the insert inside it. An
event is checked and inserted against what its transaction sees, the committed
events and its own.
-/

namespace FeatureGen.Events

/-- `NewEvent`; `π` stands for its payload, actor, provenance and further ids. -/
structure NewEvent (π : Type) where
  aggregate : String
  aggregateId : String
  type : String
  schemaVersion : ℕ
  detail : π

/-- A row of `events`. -/
structure Event (π : Type) where
  eventId : String
  globalSeq : ℕ
  aggregate : String
  aggregateId : String
  streamVersion : ℕ
  type : String
  schemaVersion : ℕ
  tableVersion : ℕ
  detail : π

inductive AppendError where
  /-- The registry or the inline-PII check refuses the event. -/
  | rejected
  /-- `ConcurrencyError`. -/
  | concurrency (message : String)
  /-- Any other constraint of the table. -/
  | violation

section Append

variable {π : Type}

/-- `coalesce(max(stream_version), 0)` of one stream. -/
def streamHead (visible : List (Event π)) (aggregate aggregateId : String) : ℕ :=
  ((visible.filter fun e => e.aggregate = aggregate ∧ e.aggregateId = aggregateId).map
    (·.streamVersion)).foldr max 0

/-- What `append_event` checks first. `accepts` is the registry and the PII check. -/
def checkAppend (accepts : NewEvent π → Bool) (visible : List (Event π)) (event : NewEvent π)
    (expectedVersion : ℕ) : Except AppendError Unit :=
  if accepts event then
    let current := streamHead visible event.aggregate event.aggregateId
    if current = expectedVersion then .ok ()
    else .error (.concurrency (s!"{event.aggregate}:{event.aggregateId} at stream_version " ++
      s!"{current}, expected {expectedVersion}"))
  else .error .rejected

theorem checkAppend_ok {accepts : NewEvent π → Bool} {visible : List (Event π)}
    {event : NewEvent π} {expectedVersion : ℕ}
    (h : checkAppend accepts visible event expectedVersion = .ok ()) :
    accepts event = true ∧
      streamHead visible event.aggregate event.aggregateId = expectedVersion := by
  unfold checkAppend at h
  split at h
  · next accepted =>
      refine ⟨accepted, ?_⟩
      by_contra hne
      simp [hne] at h
  · cases h

/-- The unique key of a stream position. -/
def Event.position (e : Event π) : String × String × ℕ :=
  (e.aggregate, e.aggregateId, e.streamVersion)

/-- The row an append inserts, with the number it has drawn. -/
def NewEvent.row (event : NewEvent π) (expectedVersion tableVersion : ℕ) (eventId : String)
    (globalSeq : ℕ) : Event π where
  eventId := eventId
  globalSeq := globalSeq
  aggregate := event.aggregate
  aggregateId := event.aggregateId
  streamVersion := expectedVersion + 1
  type := event.type
  schemaVersion := event.schemaVersion
  tableVersion := tableVersion
  detail := event.detail

/-- The insert of a row; `fault` is a violation of any constraint the model
    leaves out. -/
def insertEvent (visible : List (Event π)) (row : Event π) (fault : Bool) :
    Except AppendError (Event π) :=
  if fault ∨ ∃ e ∈ visible, e.eventId = row.eventId then .error .violation
  else if ∃ e ∈ visible, e.position = row.position then
    .error (.concurrency (s!"{row.aggregate}:{row.aggregateId} lost a concurrent append at " ++
      s!"expected_version {row.streamVersion - 1}"))
  else .ok row

theorem insertEvent_ok {visible : List (Event π)} {row row' : Event π} {fault : Bool}
    (h : insertEvent visible row fault = .ok row') : row' = row := by
  unfold insertEvent at h
  split at h
  · cases h
  · split at h
    · cases h
    · exact (Except.ok.inj h).symm

end Append

end FeatureGen.Events
