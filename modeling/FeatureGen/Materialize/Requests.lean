import FeatureGen.Lib.Json
import FeatureGen.Lib.KeySort
import FeatureGen.Lib.Outcomes
import FeatureGen.Lib.RowLocks
import FeatureGen.Lib.Transition
import FeatureGen.Overlay.Identity
import FeatureGen.Runtime.Queue

/-! # Materialization requests

`materialize/request_store.py` over the table of migration 1053. Each statement is one
function of the rows, of the transaction that makes it and of its own clock; instants
are microseconds.

The calls of `materialize/request_store.py` as sessions make them at READ COMMITTED,
several in one transaction where they like. `record_request` and `advance_lifecycle` are
two statements each; a session makes no other call between them.
-/

namespace FeatureGen.Materialize

open FeatureGen.Overlay (strip)
open FeatureGen.Runtime RowLocks

inductive RequestLifecycle where
  | requested
  | accepted
  | running
  | committed
  | failed
  deriving DecidableEq

namespace RequestLifecycle

def all : List RequestLifecycle := [.requested, .accepted, .running, .committed, .failed]

end RequestLifecycle

def legalLifecycleTransitions : RequestLifecycle → List RequestLifecycle
  | .requested => [.accepted]
  | .accepted => [.running, .failed]
  | .running => [.committed, .failed]
  | .committed | .failed => []

def RequestLifecycle.isTerminal (state : RequestLifecycle) : Bool :=
  legalLifecycleTransitions state = []

def legalFrom (target : RequestLifecycle) : List RequestLifecycle :=
  RequestLifecycle.all.filter fun source => target ∈ legalLifecycleTransitions source

def leasedStates : List RequestLifecycle := [.accepted, .running]

structure MaterializationRequest where
  requestId : String
  logicalGroupName : String
  requestedBy : String
  authorizedRoles : List String
  idempotencyKey : String
  activationState : Json
  lifecycleState : RequestLifecycle
  generationId : Option String
  runId : Option String
  resolvedInputDigest : Option String
  requestedAt : Instant
  acceptedAt : Option Instant
  leaseExpiresAt : Option Instant
  updatedAt : Instant
  consideredRevisionId : Option String
  optionId : Option String
  deriving DecidableEq

namespace MaterializationRequest

/-- What `__post_init__` demands of the texts, the roles and the governed option. -/
def checked (r : MaterializationRequest) : Bool :=
  [r.requestId, r.logicalGroupName, r.requestedBy, r.idempotencyKey].all (strip · ≠ "") &&
    r.authorizedRoles ≠ [] && r.authorizedRoles.all (strip · ≠ "") &&
    [r.generationId, r.runId, r.resolvedInputDigest, r.consideredRevisionId, r.optionId].all
      (·.all (strip · ≠ "")) &&
    r.consideredRevisionId.isNone = r.optionId.isNone

/-- `IDEMPOTENT_IDENTITY_FIELDS`. -/
def identity (r : MaterializationRequest) :
    String × String × Option String × Option String × Option String :=
  (r.logicalGroupName, r.requestedBy, r.resolvedInputDigest, r.consideredRevisionId, r.optionId)

end MaterializationRequest

abbrev Requests := Rows String MaterializationRequest

/-- The arguments of `record_request`. -/
structure NewRequest where
  requestId : String
  logicalGroupName : String
  requestedBy : String
  authorizedRoles : List String
  idempotencyKey : String
  activationState : Json
  resolvedInputDigest : Option String
  consideredRevisionId : Option String
  optionId : Option String

def NewRequest.row (new : NewRequest) (instant : Instant) : MaterializationRequest where
  requestId := new.requestId
  logicalGroupName := new.logicalGroupName
  requestedBy := new.requestedBy
  authorizedRoles := new.authorizedRoles
  idempotencyKey := new.idempotencyKey
  activationState := new.activationState
  lifecycleState := .requested
  generationId := none
  runId := none
  resolvedInputDigest := new.resolvedInputDigest
  requestedAt := instant
  acceptedAt := none
  leaseExpiresAt := none
  updatedAt := instant
  consideredRevisionId := new.consideredRevisionId
  optionId := new.optionId

/-- What the INSERT of `record_request` comes to. -/
inductive RecordedRequest where
  | waits
  /-- A check or the primary key fails. -/
  | raises
  /-- The idempotency key names a row already. -/
  | conflicts
  | rows (rows : Requests)

/-- Another transaction holds a row that has the idempotency key, or had it. -/
def keyHeld (rows : Requests) (txn : ℕ) (key : String) : Bool :=
  rows.keys.any fun id => !rows.free txn id &&
    ((rows.committed id).any (·.idempotencyKey = key) ||
      ((rows.drafts id).bind (·.row)).any (·.idempotencyKey = key))

/-- The INSERT, `ON CONFLICT (idempotency_key) DO NOTHING`. -/
def insertRequest (rows : Requests) (txn : ℕ) (new : NewRequest) (instant : Instant) :
    RecordedRequest :=
  if ¬ (new.row instant).checked then .raises
  else if keyHeld rows txn new.idempotencyKey then .waits
  else if rows.scan txn (·.idempotencyKey = new.idempotencyKey) ≠ [] then .conflicts
  else if ¬ rows.free txn new.requestId then .waits
  else if (rows.visible txn new.requestId).isSome then .raises
  else .rows (rows.write txn new.requestId (some (new.row instant)))

/-- The read by idempotency key, after a conflict: none if it raises. -/
def storedRequest (rows : Requests) (txn : ℕ) (new : NewRequest) :
    Option MaterializationRequest :=
  ((rows.scan txn (·.idempotencyKey = new.idempotencyKey)).head?.bind (rows.visible txn)).filter
    fun existing => existing.identity = (new.row 0).identity

def acceptRequest (rows : Requests) (txn : ℕ) (requestId : String) (leaseSeconds : ℚ)
    (instant : Instant) : Updated String MaterializationRequest :=
  if leaseSeconds ≤ 0 then .unmatched
  else rows.update txn requestId (·.lifecycleState = .requested) fun r =>
    { r with
      lifecycleState := .accepted
      acceptedAt := some instant
      leaseExpiresAt := some (instant + makeInterval leaseSeconds)
      updatedAt := instant }

def renewLease (rows : Requests) (txn : ℕ) (requestId : String) (leaseSeconds : ℚ)
    (instant : Instant) : Updated String MaterializationRequest :=
  if leaseSeconds ≤ 0 then .unmatched
  else rows.update txn requestId (·.lifecycleState ∈ leasedStates) fun r =>
    { r with leaseExpiresAt := some (instant + makeInterval leaseSeconds), updatedAt := instant }

/-- The arguments of `advance_lifecycle`. -/
structure Advance where
  requestId : String
  toState : RequestLifecycle
  generationId : Option String
  runId : Option String
  expectedFrom : Option RequestLifecycle

namespace Advance

/-- Before any read. -/
def checked (advance : Advance) : Bool :=
  advance.generationId.all (strip · ≠ "") && advance.runId.all (strip · ≠ "") &&
    advance.toState ≠ .accepted

/-- The states the UPDATE matches. -/
def sources (advance : Advance) : List RequestLifecycle :=
  match advance.expectedFrom with
  | some source => [source]
  | none => legalFrom advance.toState

/-- What it demands of the row it reads first. -/
def allows (advance : Advance) (existing : MaterializationRequest) : Bool :=
  advance.toState ∈ legalLifecycleTransitions existing.lifecycleState &&
    (advance.generationId.isNone || existing.generationId.isNone ||
      advance.generationId = existing.generationId) &&
    (advance.runId.isNone || existing.runId.isNone || advance.runId = existing.runId) &&
    (advance.toState ≠ .running || (advance.runId.or existing.runId).isSome) &&
    advance.expectedFrom.all (· ∈ legalFrom advance.toState)

def move (advance : Advance) (instant : Instant) (r : MaterializationRequest) :
    MaterializationRequest :=
  { r with
    lifecycleState := advance.toState
    generationId := advance.generationId.or r.generationId
    runId := advance.runId.or r.runId
    updatedAt := instant }

def update (advance : Advance) (rows : Requests) (txn : ℕ) (instant : Instant) :
    Updated String MaterializationRequest :=
  rows.update txn advance.requestId (·.lifecycleState ∈ advance.sources) (advance.move instant)

end Advance

def committedRequests (rows : Requests) : List MaterializationRequest :=
  rows.keys.filterMap rows.committed

/-- `expired_requests`, of a session that has written none. -/
def expiredRequests (rows : Requests) (now : Instant) (limit : ℕ) : List MaterializationRequest :=
  (KeySort.sortBy (fun r => toLex (r.leaseExpiresAt.getD 0, r.requestId))
    ((committedRequests rows).filter fun r => !r.lifecycleState.isTerminal &&
      r.leaseExpiresAt.any (· < now))).take limit

end FeatureGen.Materialize

namespace FeatureGen.Materialize

open FeatureGen.Runtime RowLocks

/-- A call of `advance_lifecycle` whose UPDATE is next. -/
structure AdvanceCall where
  advance : Advance
  /-- The row that it has read. -/
  existing : MaterializationRequest

/-- A row that `record_request` has returned. -/
structure ReturnedRequest where
  new : NewRequest
  row : MaterializationRequest

structure RequestStore where
  requests : Requests
  /-- Per transaction, the call of `record_request` whose INSERT has met a conflict. -/
  recordings : ℕ → Option NewRequest
  advances : ℕ → Option AdvanceCall
  recorded : List (Outcome ReturnedRequest)
  /-- The requests that `accept_request` has returned. -/
  accepted : List (Outcome String)

inductive StoreAction where
  /-- `record_request`, up to its INSERT. -/
  | record (txn : ℕ) (new : NewRequest) (instant : Instant)
  /-- The read by idempotency key. -/
  | readRecorded (txn : ℕ)
  | accept (txn : ℕ) (requestId : String) (leaseSeconds : ℚ) (instant : Instant)
  | renew (txn : ℕ) (requestId : String) (leaseSeconds : ℚ) (instant : Instant)
  /-- `advance_lifecycle`, up to its UPDATE. -/
  | advance (txn : ℕ) (advance : Advance)
  | advanceUpdate (txn : ℕ) (instant : Instant)
  | commit (txn : ℕ)
  /-- The session gives up, fails or dies. -/
  | rollback (txn : ℕ)

namespace RequestStore

/-- A call is between its statements. -/
def busy (s : RequestStore) (txn : ℕ) : Bool :=
  (s.recordings txn).isSome || (s.advances txn).isSome

def change (s : RequestStore) (c : Change String MaterializationRequest) : RequestStore where
  requests := c.apply s.requests
  recordings := s.recordings
  advances := s.advances
  recorded := c.outcomes s.recorded
  accepted := c.outcomes s.accepted

def rollback (s : RequestStore) (txn : ℕ) : RequestStore :=
  { s.change (.rollback txn) with
    recordings := Function.update s.recordings txn none
    advances := Function.update s.advances txn none }

/-- After an update of a transaction; one that matches no row raises, and the transaction
    goes on. -/
def afterUpdate (s : RequestStore) :
    Updated String MaterializationRequest → Option RequestStore
  | .waits => none
  | .unmatched => some s
  | .rows _ rows => some { s with requests := rows }

def step (s : RequestStore) : StoreAction → Option RequestStore
  | .record txn new instant =>
      if s.busy txn then none
      else if ¬ (new.row instant).checked then some s
      else
        match insertRequest s.requests txn new instant with
        | .waits => none
        | .raises => some (s.rollback txn)
        | .conflicts => some { s with recordings := Function.update s.recordings txn (some new) }
        | .rows rows => some { s with
            requests := rows
            recorded := s.recorded ++ [⟨some txn, ⟨new, new.row instant⟩⟩] }
  | .readRecorded txn =>
      match s.recordings txn with
      | none => none
      | some new => some { s with
          recordings := Function.update s.recordings txn none
          recorded := s.recorded ++
            ((storedRequest s.requests txn new).map fun row => ⟨some txn, ⟨new, row⟩⟩).toList }
  | .accept txn requestId leaseSeconds instant =>
      if s.busy txn then none
      else
        match acceptRequest s.requests txn requestId leaseSeconds instant with
        | .waits => none
        | .unmatched => some s
        | .rows _ rows => some { s with
            requests := rows
            accepted := s.accepted ++ [⟨some txn, requestId⟩] }
  | .renew txn requestId leaseSeconds instant =>
      if s.busy txn then none
      else s.afterUpdate (renewLease s.requests txn requestId leaseSeconds instant)
  | .advance txn advance =>
      if s.busy txn then none
      else
        match s.requests.visible txn advance.requestId with
        | none => some s
        | some existing =>
            if advance.checked && advance.allows existing then
              some { s with
                advances := Function.update s.advances txn (some ⟨advance, existing⟩) }
            else some s
  | .advanceUpdate txn instant =>
      match s.advances txn with
      | none => none
      | some call =>
          afterUpdate { s with advances := Function.update s.advances txn none }
            (call.advance.update s.requests txn instant)
  | .commit txn => if s.busy txn then none else some (s.change (.commit txn))
  | .rollback txn => some (s.rollback txn)

def empty : RequestStore where
  requests := ⟨[], fun _ => none, fun _ => none⟩
  recordings _ := none
  advances _ := none
  recorded := []
  accepted := []

end RequestStore

end FeatureGen.Materialize
