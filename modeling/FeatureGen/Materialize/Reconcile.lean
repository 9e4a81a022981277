import FeatureGen.Lib.Transition
import FeatureGen.Materialize.Requests
import FeatureGen.Materialize.RunEvents

/-! # The reconciler

`materialize/reconcile.py`: a sweep reads its candidates with two queries, and then, for
each of them, the message, perhaps the run's events, the request once more, and writes
one conditional update; other sessions act between any two of these. A verdict's `detail`
and the log are left out.
-/

namespace FeatureGen.Materialize

open FeatureGen.Runtime RowLocks

def materializationMessageId (requestId : String) : String := "materialize:" ++ requestId

def unreachableMessageStatuses : List QueueStatus := [.done, .dead]

structure Message where
  status : QueueStatus
  lastError : Option String

def Message.reachable (message : Message) : Bool := message.status ∉ unreachableMessageStatuses

/-- The queue's rows, by message id. -/
abbrev Messages := String → Option Message

def hasTerminalEdge (state : RequestLifecycle) : Bool :=
  (legalLifecycleTransitions state).any (·.isTerminal)

def deliverable (queue : Messages) (requestId : String) : Bool :=
  (queue (materializationMessageId requestId)).any (·.reachable)

/-- `_unreachable_message_requests`; ids are compared by code points. -/
def unreachableRequests (rows : Requests) (queue : Messages) (limit : ℕ) :
    List MaterializationRequest :=
  (KeySort.sortBy (fun r => toLex (!hasTerminalEdge r.lifecycleState,
      toLex (r.requestedAt, r.requestId)))
    ((committedRequests rows).filter fun r => !r.lifecycleState.isTerminal &&
      !deliverable queue r.requestId)).take limit

def tier (writable : List String) (r : MaterializationRequest) : ℕ :=
  if ¬ writable.contains r.requestId then 2
  else if hasTerminalEdge r.lifecycleState then 0
  else 1

/-- `_candidates`, of what its two queries return. -/
def candidates (unreachable expired : List MaterializationRequest) (limit : ℕ) :
    List MaterializationRequest :=
  let writable := unreachable.map (·.requestId)
  let found := unreachable ++ expired.filter fun r => !writable.contains r.requestId
  (KeySort.sortBy (fun r => toLex (tier writable r, toLex (r.requestedAt, r.requestId)))
    found).take limit

def mirroredTerminals : RunEventKind → Option RequestLifecycle
  | .publicationRefused => some .committed
  | .runFailed => some .failed
  | _ => none

/-- `read_run_events`. -/
def runEventsOf (events : List RunEvent) (runId : String) : List RunEvent :=
  KeySort.sortBy (·.seq) (events.filter (·.runId = runId))

def mirrored (events : List RunEvent) : Option RequestLifecycle :=
  (events.getLast?.filter (·.isTerminal)).bind fun event => mirroredTerminals event.eventKind

inductive ReconciliationVerdict where
  | owned
  | leased
  | failed
  | committed
  | noLegalTerminal
  | noRunEvidence
  | raced
  | locked
  deriving DecidableEq

structure ReconciledRequest where
  requestId : String
  lifecycleState : RequestLifecycle
  messageStatus : Option QueueStatus
  verdict : ReconciliationVerdict

def left (r : MaterializationRequest) (message : Option Message)
    (verdict : ReconciliationVerdict) : ReconciledRequest where
  requestId := r.requestId
  lifecycleState := r.lifecycleState
  messageStatus := message.map (·.status)
  verdict := verdict

/-- What `_judge` comes to when it has read the message. -/
inductive Judgement where
  | left (verdict : ReconciliationVerdict)
  /-- `_running` goes on to read the run's events. -/
  | reads (runId : String)
  | terminalizes (target : RequestLifecycle)
  /-- A state that there is no rule for. -/
  | raises

def judge (r : MaterializationRequest) (message : Option Message) (now : Instant) : Judgement :=
  if message.any (·.reachable) then .left .owned
  else if r.leaseExpiresAt.any (now < ·) then .left .leased
  else
    match r.lifecycleState with
    | .requested => .left .noLegalTerminal
    | .accepted =>
        if r.generationId.isSome || r.runId.isSome then .left .noRunEvidence
        else .terminalizes .failed
    | .running =>
        match r.runId with
        | none => .left .noRunEvidence
        | some runId => .reads runId
    | .committed | .failed => .raises

def writtenVerdict (target : RequestLifecycle) : ReconciliationVerdict :=
  if target = .committed then .committed else .failed

/-- A request that is judged, and the message read for it. -/
structure Judged where
  request : MaterializationRequest
  message : Option Message

inductive SweepPhase where
  /-- The first query has returned. -/
  | queried (unreachable : List MaterializationRequest)
  /-- The next candidate is judged. -/
  | judging
  /-- The run's events are read. -/
  | reading (judged : Judged) (runId : String)
  /-- `advance_lifecycle` is called. -/
  | writing (judged : Judged) (target : RequestLifecycle)
  /-- Its UPDATE is next. -/
  | updating (judged : Judged) (target : RequestLifecycle)

/-- A call of `reconcile_abandoned_requests` under way. -/
structure Sweep where
  now : Instant
  limit : ℕ
  phase : SweepPhase
  remaining : List MaterializationRequest
  considered : List ReconciledRequest

namespace Sweep

def record (sweep : Sweep) (judged : Judged) (verdict : ReconciliationVerdict) : Sweep where
  now := sweep.now
  limit := sweep.limit
  phase := .judging
  remaining := sweep.remaining
  considered := sweep.considered ++ [left judged.request judged.message verdict]

def goTo (sweep : Sweep) (phase : SweepPhase) : Sweep where
  now := sweep.now
  limit := sweep.limit
  phase := phase
  remaining := sweep.remaining
  considered := sweep.considered

end Sweep

/-- The call that a verdict is written with. -/
def terminalize (judged : Judged) (target : RequestLifecycle) : Advance where
  requestId := judged.request.requestId
  toState := target
  generationId := none
  runId := none
  expectedFrom := some judged.request.lifecycleState

structure Reconciler where
  requests : Requests
  queue : Messages
  events : List RunEvent
  /-- The call of `advance_lifecycle` that each transaction has under way. -/
  advances : ℕ → Option Advance
  /-- The sweep that each worker has under way. -/
  sweeps : ℕ → Option Sweep

inductive ReconcilerAction where
  /-- `record_request`'s INSERT. -/
  | record (txn : ℕ) (new : NewRequest) (instant : Instant)
  | accept (txn : ℕ) (requestId : String) (leaseSeconds : ℚ) (instant : Instant)
  | renew (txn : ℕ) (requestId : String) (leaseSeconds : ℚ) (instant : Instant)
  /-- `advance_lifecycle`, up to its UPDATE. -/
  | advance (txn : ℕ) (advance : Advance)
  | advanceUpdate (txn : ℕ) (instant : Instant)
  | commit (txn : ℕ)
  | rollback (txn : ℕ)
  /-- A committed change of the queue. -/
  | message (messageId : String) (message : Option Message)
  /-- A committed run event. -/
  | event (event : RunEvent)
  /-- A sweep's first query. -/
  | sweep (worker : ℕ) (now : Instant) (limit : ℕ)
  /-- Its second. -/
  | query (worker : ℕ)
  /-- The read of the next candidate's message. -/
  | judge (worker : ℕ)
  | readEvents (worker : ℕ)
  /-- `advance_lifecycle`, up to its UPDATE. -/
  | write (worker : ℕ)
  | update (worker : ℕ) (instant : Instant)
  /-- The UPDATE has waited for the row's lock for as long as it may. -/
  | lockTimeout (worker : ℕ)
  /-- The sweep returns, or its worker dies. -/
  | leave (worker : ℕ)

namespace Reconciler

def rollback (w : Reconciler) (txn : ℕ) : Reconciler where
  requests := w.requests.rollback txn
  queue := w.queue
  events := w.events
  advances := Function.update w.advances txn none
  sweeps := w.sweeps

/-- After an update of a transaction; one that matches no row raises. -/
def afterUpdate (w : Reconciler) (txn : ℕ) :
    Updated String MaterializationRequest → Option Reconciler
  | .waits => none
  | .unmatched => some { w with advances := Function.update w.advances txn none }
  | .rows _ rows => some { w with
      requests := rows
      advances := Function.update w.advances txn none }

def setSweep (w : Reconciler) (worker : ℕ) (sweep : Option Sweep) : Reconciler where
  requests := w.requests
  queue := w.queue
  events := w.events
  advances := w.advances
  sweeps := Function.update w.sweeps worker sweep

def step (w : Reconciler) : ReconcilerAction → Option Reconciler
  | .record txn new instant =>
      match w.advances txn with
      | some _ => none
      | none =>
          match insertRequest w.requests txn new instant with
          | .waits => none
          | .raises => some (w.rollback txn)
          | .conflicts => some w
          | .rows rows => some { w with requests := rows }
  | .accept txn requestId leaseSeconds instant =>
      match w.advances txn with
      | some _ => none
      | none => w.afterUpdate txn (acceptRequest w.requests txn requestId leaseSeconds instant)
  | .renew txn requestId leaseSeconds instant =>
      match w.advances txn with
      | some _ => none
      | none => w.afterUpdate txn (renewLease w.requests txn requestId leaseSeconds instant)
  | .advance txn advance =>
      match w.advances txn with
      | some _ => none
      | none =>
          if advance.checked && (w.requests.visible txn advance.requestId).any advance.allows then
            some { w with advances := Function.update w.advances txn (some advance) }
          else some w
  | .advanceUpdate txn instant =>
      match w.advances txn with
      | none => none
      | some advance => w.afterUpdate txn (advance.update w.requests txn instant)
  | .commit txn =>
      match w.advances txn with
      | some _ => none
      | none => some { w with requests := w.requests.commit txn }
  | .rollback txn => some (w.rollback txn)
  | .message messageId message =>
      some { w with queue := Function.update w.queue messageId message }
  | .event event => some { w with events := w.events ++ [event] }
  | .sweep worker now limit =>
      match w.sweeps worker with
      | some _ => none
      | none => some (w.setSweep worker (some
          ⟨now, limit, .queried (unreachableRequests w.requests w.queue limit), [], []⟩))
  | .query worker =>
      match w.sweeps worker with
      | some ⟨now, limit, .queried unreachable, _, _⟩ =>
          let expired := expiredRequests w.requests now limit
          some (w.setSweep worker (some
            ⟨now, limit, .judging, candidates unreachable expired limit, []⟩))
      | _ => none
  | .judge worker =>
      match w.sweeps worker with
      | some ⟨now, limit, .judging, request :: remaining, considered⟩ =>
          let message := w.queue (materializationMessageId request.requestId)
          let judged : Judged := ⟨request, message⟩
          let sweep : Sweep := ⟨now, limit, .judging, remaining, considered⟩
          match judge request message now with
          | .left verdict => some (w.setSweep worker (some (sweep.record judged verdict)))
          | .reads runId => some (w.setSweep worker (some (sweep.goTo (.reading judged runId))))
          | .terminalizes target =>
              some (w.setSweep worker (some (sweep.goTo (.writing judged target))))
          | .raises => some (w.setSweep worker none)
      | _ => none
  | .readEvents worker =>
      match w.sweeps worker with
      | some ⟨now, limit, .reading judged runId, remaining, considered⟩ =>
          let sweep : Sweep := ⟨now, limit, .judging, remaining, considered⟩
          match mirrored (runEventsOf w.events runId) with
          | none => some (w.setSweep worker (some (sweep.record judged .noRunEvidence)))
          | some target => some (w.setSweep worker (some (sweep.goTo (.writing judged target))))
      | _ => none
  | .write worker =>
      match w.sweeps worker with
      | some ⟨now, limit, .writing judged target, remaining, considered⟩ =>
          let sweep : Sweep := ⟨now, limit, .judging, remaining, considered⟩
          if target ∉ legalLifecycleTransitions judged.request.lifecycleState then
            some (w.setSweep worker none)
          else if (w.requests.committed judged.request.requestId).any
              (terminalize judged target).allows then
            some (w.setSweep worker (some (sweep.goTo (.updating judged target))))
          else some (w.setSweep worker (some (sweep.record judged .raced)))
      | _ => none
  | .update worker instant =>
      match w.sweeps worker with
      | some ⟨now, limit, .updating judged target, remaining, considered⟩ =>
          let sweep : Sweep := ⟨now, limit, .judging, remaining, considered⟩
          let id := judged.request.requestId
          let advance := terminalize judged target
          match (w.requests.committed id).filter (·.lifecycleState ∈ advance.sources) with
          | none => some (w.setSweep worker (some (sweep.record judged .raced)))
          | some row =>
              if w.requests.drafts id = none then
                some (setSweep { w with requests := w.requests.put id (advance.move instant row) }
                  worker (some (sweep.record judged (writtenVerdict target))))
              else none
      | _ => none
  | .lockTimeout worker =>
      match w.sweeps worker with
      | some ⟨now, limit, .updating judged target, remaining, considered⟩ =>
          let id := judged.request.requestId
          let sweep : Sweep := ⟨now, limit, .judging, remaining, considered⟩
          match (w.requests.committed id).filter
              (·.lifecycleState ∈ (terminalize judged target).sources) with
          | none => none
          | some _ =>
              if w.requests.drafts id = none then none
              else some (w.setSweep worker (some (sweep.record judged .locked)))
      | _ => none
  | .leave worker =>
      match w.sweeps worker with
      | none => none
      | some _ => some (w.setSweep worker none)

/-- No request is recorded. -/
def empty : Reconciler where
  requests := ⟨[], fun _ => none, fun _ => none⟩
  queue _ := none
  events := []
  advances _ := none
  sweeps _ := none

end Reconciler

end FeatureGen.Materialize
