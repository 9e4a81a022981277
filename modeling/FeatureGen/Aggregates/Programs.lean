import Mathlib
import FeatureGen.Events.Store
import FeatureGen.Lib.SortedLog

/-! # The aggregates' events

The events of requests, runs and features (`aggregates/events.py`). An event's
type is that of its payload. The registry wants the identifiers of a payload to
be nonempty, and no text of a payload may carry a secret inline.

A command is a program over the event log: it reads the events it sees, appends
and mints ids. `aggregates/_append.py` reads the head of a stream once more to
append to it. `Prog.run` is a program run with nobody else about.
-/

namespace FeatureGen.Aggregates

open FeatureGen.Events

/-- The events of request and run streams, and the feature a request creates. -/
inductive Payload where
  | candidateAdded (requestId runId : String)
  | candidateSelected (requestId selectedRunId featureId : String) (candidatesExploredCount : ℤ)
  | candidateRejected (requestId runId : String) (reason : Option String)
  | featureCreated (featureId requestId : String) (conceptKey originRunId : Option String)
  | runCreated (runId : String) (requestId reopenedFrom featureId origin : Option String)
  | runCancelled (runId : String) (reason : Option String)
  | runWithdrawn (runId : String) (reason : Option String)
  | runRejected (runId : String) (reason : Option String)
  | runParked (runId : String) (owner waitingOnFact : Option String)
  | runUnparked (runId : String)
  | factConfirmedResume (runId factKey : String)
  | sourceChangedRevalidate (runId sourceRef : String) (newSnapshot : Option String)

namespace Payload

def type : Payload → String
  | .candidateAdded .. => "CANDIDATE_ADDED"
  | .candidateSelected .. => "CANDIDATE_SELECTED"
  | .candidateRejected .. => "CANDIDATE_REJECTED"
  | .featureCreated .. => "FEATURE_CREATED"
  | .runCreated .. => "RUN_CREATED"
  | .runCancelled .. => "RUN_CANCELLED"
  | .runWithdrawn .. => "RUN_WITHDRAWN"
  | .runRejected .. => "RUN_REJECTED"
  | .runParked .. => "RUN_PARKED"
  | .runUnparked .. => "RUN_UNPARKED"
  | .factConfirmedResume .. => "FACT_CONFIRMED_RESUME"
  | .sourceChangedRevalidate .. => "SOURCE_CHANGED_REVALIDATE"

/-- The fields that must not be empty. -/
def ids : Payload → List String
  | .candidateAdded requestId runId => [requestId, runId]
  | .candidateSelected requestId selectedRunId featureId _ => [requestId, selectedRunId, featureId]
  | .candidateRejected requestId runId _ => [requestId, runId]
  | .featureCreated featureId requestId _ _ => [featureId, requestId]
  | .runCreated runId _ _ _ _ | .runCancelled runId _ | .runWithdrawn runId _
  | .runRejected runId _ | .runParked runId _ _ | .runUnparked runId
  | .factConfirmedResume runId _ | .sourceChangedRevalidate runId _ _ => [runId]

/-- The other text fields. -/
def texts : Payload → List String
  | .candidateAdded .. | .candidateSelected .. | .runUnparked .. => []
  | .candidateRejected _ _ reason | .runCancelled _ reason | .runWithdrawn _ reason
  | .runRejected _ reason => reason.toList
  | .featureCreated _ _ conceptKey originRunId => conceptKey.toList ++ originRunId.toList
  | .runCreated _ requestId reopenedFrom featureId origin =>
      requestId.toList ++ reopenedFrom.toList ++ featureId.toList ++ origin.toList
  | .runParked _ owner waitingOnFact => owner.toList ++ waitingOnFact.toList
  | .factConfirmedResume _ factKey => [factKey]
  | .sourceChangedRevalidate _ sourceRef newSnapshot => sourceRef :: newSnapshot.toList

/-- The registry's check and `assert_no_inline_pii`; `clean` says of a text that no
    detector finds a secret in it. -/
def accepted (clean : String → Bool) (payload : Payload) : Bool :=
  payload.ids.all (fun id => id ≠ "") ∧ (payload.ids ++ payload.texts).all clean

/-- The run whose stream an event of this type belongs to. -/
def run? : Payload → Option String
  | .runCreated runId .. | .runCancelled runId _ | .runWithdrawn runId _ | .runRejected runId _
  | .runParked runId .. | .runUnparked runId | .factConfirmedResume runId _
  | .sourceChangedRevalidate runId .. => some runId
  | _ => none

end Payload

/-- The columns of an event the aggregates read. -/
structure Detail where
  requestId : Option String
  featureId : Option String
  runId : Option String
  payload : Payload

/-- The `NewEvent` that `append` builds. -/
def newEvent (aggregate aggregateId : String) (payload : Payload)
    (requestId featureId runId : Option String) : NewEvent Detail where
  aggregate := aggregate
  aggregateId := aggregateId
  type := payload.type
  schemaVersion := 1
  detail := ⟨requestId, featureId, runId, payload⟩

def runEvent (runId : String) (payload : Payload) : NewEvent Detail :=
  newEvent "run" runId payload none none (some runId)

def accepts (clean : String → Bool) (event : NewEvent Detail) : Bool :=
  event.detail.payload.accepted clean

section Streams

variable {π : Type}

def stream (e : Event π) : String × String := (e.aggregate, e.aggregateId)

/-- The log's streams are numbered 1, 2, …. -/
abbrev Contiguous (log : List (Event π)) : Prop :=
  Streams.Contiguous stream Event.streamVersion log

def loadStream (visible : List (Event π)) (aggregate aggregateId : String) : List (Event π) :=
  (Streams.ofKey stream visible (aggregate, aggregateId)).insertionSort
    fun e e' => e.streamVersion ≤ e'.streamVersion

theorem loadStream_eq {log : List (Event π)} (h : Contiguous log) (aggregate aggregateId : String) :
    loadStream log aggregate aggregateId = Streams.ofKey stream log (aggregate, aggregateId) :=
  h.sorted (aggregate, aggregateId)

def currentVersion (visible : List (Event π)) (aggregate aggregateId : String) : ℕ :=
  match (loadStream visible aggregate aggregateId).getLast? with
  | some e => e.streamVersion
  | none => 0

theorem currentVersion_eq {log : List (Event π)} (h : Contiguous log)
    (aggregate aggregateId : String) :
    currentVersion log aggregate aggregateId =
      (Streams.ofKey stream log (aggregate, aggregateId)).length := by
  rw [currentVersion, loadStream_eq h]
  have versions := h (aggregate, aggregateId)
  generalize Streams.ofKey stream log (aggregate, aggregateId) = events at versions ⊢
  induction events using List.reverseRecOn with
  | nil => rfl
  | append_singleton events e _ =>
      rw [List.map_append, List.length_append, List.length_singleton, List.range'_concat] at versions
      have last := (List.append_inj versions (by simp)).2
      simp only [List.map_cons, List.map_nil, List.cons.injEq, and_true] at last
      rw [List.getLast?_concat, List.length_append, List.length_singleton]
      dsimp only
      omega

theorem streamHead_eq {log : List (Event π)} (h : Contiguous log) (aggregate aggregateId : String) :
    streamHead log aggregate aggregateId =
      (Streams.ofKey stream log (aggregate, aggregateId)).length := by
  rw [← h.head_eq, Streams.head, streamHead, Streams.ofKey]
  congr 3
  funext e
  simp [stream]

end Streams

end FeatureGen.Aggregates

namespace FeatureGen.Aggregates

open FeatureGen.Events

abbrev Row := Event Detail

inductive Prog (α : Type) where
  /-- It returns, or its append raises. -/
  | done (result : Except AppendError α)
  /-- One query over the events the transaction sees. -/
  | select (next : List Row → Prog α)
  | mint (next : String → Prog α)
  /-- `append`; without an expected version it appends at the head it reads. -/
  | append (event : NewEvent Detail) (expectedVersion : Option ℕ) (next : Row → Prog α)

namespace Prog

variable {α β : Type}

def bind : Prog α → (α → Prog β) → Prog β
  | .done (.ok a), f => f a
  | .done (.error e), _ => .done (.error e)
  | .select next, f => .select fun visible => (next visible).bind f
  | .mint next, f => .mint fun minted => (next minted).bind f
  | .append event expectedVersion next, f =>
      .append event expectedVersion fun row => (next row).bind f

instance : Monad Prog where
  pure a := .done (.ok a)
  bind := bind

/-- Every append the program can make meets `P`. -/
def Appends (P : NewEvent Detail → Option ℕ → Prop) : Prog α → Prop
  | .done _ => True
  | .select next => ∀ visible, (next visible).Appends P
  | .mint next => ∀ minted, (next minted).Appends P
  | .append event expectedVersion next =>
      P event expectedVersion ∧ ∀ row, (next row).Appends P

theorem Appends.bind {P : NewEvent Detail → Option ℕ → Prop} {prog : Prog α}
    {f : α → Prog β} (h : prog.Appends P) (hf : ∀ a, (f a).Appends P) :
    (prog.bind f).Appends P := by
  induction prog with
  | done result =>
      cases result with
      | ok a => exact hf a
      | error e => trivial
  | select next ih => exact fun visible => ih visible (h visible)
  | mint next ih => exact fun minted => ih minted (h minted)
  | append event expectedVersion next ih => exact ⟨h.1, fun row => ih row (h.2 row)⟩

end Prog

/-- The events the transaction sees. -/
def visibleEvents : Prog (List Row) := .select pure

/-- `new_feature_id` and its like. -/
def mintId : Prog String := .mint pure

def append (event : NewEvent Detail) : Prog Row := .append event none pure

/-- `append` to a stream that has to be new. -/
def appendFirst (event : NewEvent Detail) : Prog Row := .append event (some 0) pure

/-- What a program draws as its log grows; minted ids are new. -/
structure Draws where
  minted : List Row → String
  globalSeq : List Row → ℕ
  tableVersion : List Row → ℕ
  fresh : ∀ log, ∀ e ∈ log, e.eventId ≠ minted log

def longerIds : Draws where
  minted log := String.ofList (List.replicate ((log.map (·.eventId.length)).sum + 1) 'e')
  globalSeq log := log.length + 1
  tableVersion _ := 1
  fresh := by
    intro log e he heq
    have longest := List.le_sum_of_mem (List.mem_map_of_mem (f := fun e : Row => e.eventId.length) he)
    have length := congrArg String.length heq
    simp only [String.length_ofList, List.length_replicate] at length
    omega

/-- `append_event` with nothing between its check and its insert. -/
def appendEvent (accepts : NewEvent Detail → Bool) (draws : Draws) (log : List Row)
    (event : NewEvent Detail) (expectedVersion : ℕ) : Except AppendError Row := do
  checkAppend accepts log event expectedVersion
  insertEvent log (event.row expectedVersion (draws.tableVersion log) (draws.minted log)
    (draws.globalSeq log)) false

/-- The program's result and the log it leaves. -/
def Prog.run {α : Type} (accepts : NewEvent Detail → Bool) (draws : Draws) :
    Prog α → List Row → Except AppendError α × List Row
  | .done result, log => (result, log)
  | .select next, log => (next log).run accepts draws log
  | .mint next, log => (next (draws.minted log)).run accepts draws log
  | .append event expectedVersion next, log =>
      let expected := expectedVersion.getD (currentVersion log event.aggregate event.aggregateId)
      match appendEvent accepts draws log event expected with
      | .ok row => (next row).run accepts draws (log ++ [row])
      | .error error => (.error error, log)

theorem Prog.run_bind {α β : Type} {accepts : NewEvent Detail → Bool} {draws : Draws}
    {prog : Prog α} {f : α → Prog β} {log : List Row} :
    (prog >>= f).run accepts draws log =
      match prog.run accepts draws log with
      | (.ok a, log') => (f a).run accepts draws log'
      | (.error error, log') => (.error error, log') := by
  change (prog.bind f).run accepts draws log = _
  induction prog generalizing log with
  | done result => cases result <;> rfl
  | select next ih => exact ih log
  | mint next ih => exact ih (draws.minted log)
  | append event expectedVersion next ih =>
      simp only [Prog.bind, Prog.run]
      split
      · next row _ => exact ih row
      · rfl

def headRow (draws : Draws) (log : List Row) (event : NewEvent Detail) : Row :=
  event.row (currentVersion log event.aggregate event.aggregateId) (draws.tableVersion log)
    (draws.minted log) (draws.globalSeq log)

theorem appendEvent_head {accepts : NewEvent Detail → Bool} {draws : Draws} {log : List Row}
    {event : NewEvent Detail} (contiguous : Contiguous log) (accepted : accepts event = true) :
    appendEvent accepts draws log event
      (currentVersion log event.aggregate event.aggregateId) = .ok (headRow draws log event) := by
  have head : streamHead log event.aggregate event.aggregateId =
      currentVersion log event.aggregate event.aggregateId := by
    rw [streamHead_eq contiguous, currentVersion_eq contiguous]
  have checked : checkAppend accepts log event
      (currentVersion log event.aggregate event.aggregateId) = .ok () := by
    simp [checkAppend, accepted, head]
  have minted : ¬ ∃ e ∈ log, e.eventId = (headRow draws log event).eventId := by
    rintro ⟨e, he, hid⟩
    exact draws.fresh log e he hid
  have free : ¬ ∃ e ∈ log, e.position = (headRow draws log event).position := by
    rintro ⟨e, he, hposition⟩
    simp only [Event.position, headRow, NewEvent.row, Prod.mk.injEq] at hposition
    obtain ⟨haggregate, haggregateId, hversion⟩ := hposition
    have key : stream e = (event.aggregate, event.aggregateId) := by
      rw [stream, haggregate, haggregateId]
    have bound := contiguous.mem_versions.mp ⟨e, he, key, hversion⟩
    rw [currentVersion_eq contiguous] at bound
    omega
  rw [appendEvent, checked]
  simp only [insertEvent, headRow] at minted free ⊢
  simp [bind, Except.bind, minted, free]

/-- An event of a run's type is meant for the run's stream. -/
def Placed (event : NewEvent Detail) : Prop :=
  ∀ runId, event.detail.payload.run? = some runId →
    event.aggregate = "run" ∧ event.aggregateId = runId ∧ event.detail.runId = some runId

theorem placed_runEvent {runId : String} {payload : Payload} (h : payload.run? = some runId) :
    Placed (runEvent runId payload) := by
  intro runId' hrun
  obtain rfl := Option.some.inj (h.symm.trans hrun)
  exact ⟨rfl, rfl, rfl⟩

/-- What appends leave: numbered streams, runs' events in the runs' streams, and
    nothing the checks refuse. -/
structure WellFormed (clean : String → Bool) (log : List Row) : Prop where
  contiguous : Contiguous log
  placed : ∀ e ∈ log, ∀ runId, e.detail.payload.run? = some runId →
    stream e = ("run", runId) ∧ e.detail.runId = some runId
  accepted : ∀ e ∈ log, e.detail.payload.accepted clean = true

theorem Contiguous.headRow {draws : Draws} {log : List Row} (h : Contiguous log)
    (event : NewEvent Detail) : Contiguous (log ++ [headRow draws log event]) := by
  apply Streams.Contiguous.append_single h
  simp only [Aggregates.headRow, NewEvent.row, stream, currentVersion_eq h]

theorem WellFormed.nil {clean : String → Bool} : WellFormed clean [] :=
  ⟨Streams.Contiguous.nil, by simp, by simp⟩

theorem WellFormed.headRow {clean : String → Bool} {draws : Draws} {log : List Row}
    {event : NewEvent Detail} (h : WellFormed clean log) (placed : Placed event)
    (accepted : accepts clean event = true) :
    WellFormed clean (log ++ [headRow draws log event]) := by
  constructor
  · exact h.contiguous.headRow event
  · intro e he runId hrun
    rcases List.mem_append.mp he with old | new
    · exact h.placed e old runId hrun
    · obtain rfl := List.mem_singleton.mp new
      obtain ⟨haggregate, haggregateId, hrunId⟩ := placed runId hrun
      exact ⟨Prod.ext haggregate haggregateId, hrunId⟩
  · intro e he
    rcases List.mem_append.mp he with old | new
    · exact h.accepted e old
    · obtain rfl := List.mem_singleton.mp new
      exact accepted

def appendAll (draws : Draws) (log : List Row) (events : List (NewEvent Detail)) : List Row :=
  events.foldl (fun log event => log ++ [headRow draws log event]) log

theorem WellFormed.appendAll {clean : String → Bool} {draws : Draws} {log : List Row}
    {events : List (NewEvent Detail)} (h : WellFormed clean log)
    (sound : ∀ event ∈ events, Placed event ∧ accepts clean event = true) :
    WellFormed clean (appendAll draws log events) := by
  induction events generalizing log with
  | nil => exact h
  | cons event events ih =>
      obtain ⟨placed, accepted⟩ := sound event List.mem_cons_self
      exact ih (h.headRow placed accepted) fun event' hmem =>
        sound event' (List.mem_cons_of_mem _ hmem)

end FeatureGen.Aggregates
