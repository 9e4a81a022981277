import FeatureGen.Aggregates.Programs

/-! # The life of a run

`aggregates/run_lifecycle.py` with `select_candidate_command` of
`request_aggregate.py`, which closes the siblings of the runs it selects, and
the auto-park of the control-signal poller in `runtime/worker.py`.
-/

namespace FeatureGen.Aggregates

open FeatureGen.Events

structure CommandResult where
  accepted : Bool
  aggregateId : String
  producedEventIds : List String
  deniedReason : Option String

def CommandResult.ok (aggregateId : String) (produced : List String) : CommandResult :=
  ⟨true, aggregateId, produced, none⟩

def CommandResult.denied (aggregateId reason : String) : CommandResult :=
  ⟨false, aggregateId, [], some reason⟩

/-- `_TERMINAL_RUN_TYPES`. -/
def Payload.terminal : Payload → Bool
  | .runRejected .. | .runCancelled .. | .runWithdrawn .. => true
  | _ => false

def runIsTerminal (visible : List Row) (runId : String) : Bool :=
  (loadStream visible "run" runId).any fun e => e.detail.payload.terminal

/-- What an event makes of a run's parking. -/
def Payload.parks (parked : Bool) : Payload → Bool
  | .runParked .. => true
  | .runUnparked .. => false
  | _ => parked

def runIsParked (visible : List Row) (runId : String) : Bool :=
  (loadStream visible "run" runId).foldl (fun parked e => e.detail.payload.parks parked) false

/-- The fact a RUN_PARKED waits on, if it waits on one. -/
def Payload.waitingOn : Payload → Option String
  | .runParked _ _ waitingOnFact => waitingOnFact
  | _ => none

def Payload.unparks : Payload → Bool
  | .runUnparked .. => true
  | _ => false

/-- `_runs_parked_on_fact`. `DISTINCT` leaves the order open. -/
def runsParkedOnFact (visible : List Row) (factKey : String) : List String :=
  let unparked := (visible.filter fun e => e.detail.payload.unparks).filterMap (·.detail.runId)
  let parked := (visible.filter fun e => e.detail.payload.waitingOn = some factKey).filterMap
    (·.detail.runId)
  (parked.filter fun runId => runId ∉ unparked).dedup

def terminalCommand (payload : String → Option String → Payload) (runId : String)
    (reason : Option String) : Prog CommandResult := do
  let visible ← visibleEvents
  if runIsTerminal visible runId then
    return .denied runId "run already terminal"
  else
    let evt ← append (runEvent runId (payload runId reason))
    return .ok runId [evt.eventId]

def rejectCommand : String → Option String → Prog CommandResult := terminalCommand .runRejected

def cancelCommand : String → Option String → Prog CommandResult := terminalCommand .runCancelled

def withdrawCommand : String → Option String → Prog CommandResult := terminalCommand .runWithdrawn

def parkCommand (runId : String) (owner waitingOnFact : Option String) : Prog CommandResult := do
  let evt ← append (runEvent runId (.runParked runId owner waitingOnFact))
  return .ok runId [evt.eventId]

def unparkCommand (runId : String) : Prog CommandResult := do
  let evt ← append (runEvent runId (.runUnparked runId))
  return .ok runId [evt.eventId]

/-- The loop of `fact_confirmed_resume_command`. -/
def resumeRuns (factKey : String) (produced : List String) : List String → Prog (List String)
  | [] => return produced
  | runId :: runs => do
      let resume ← append (runEvent runId (.factConfirmedResume runId factKey))
      let unparked ← append (runEvent runId (.runUnparked runId))
      resumeRuns factKey (produced ++ [resume.eventId, unparked.eventId]) runs

def factConfirmedResumeCommand (aggregateId : Option String) (factKey : String) :
    Prog CommandResult := do
  let visible ← visibleEvents
  let produced ← resumeRuns factKey [] (runsParkedOnFact visible factKey)
  return .ok ((aggregateId.filter fun id => id ≠ "").getD factKey) produced

structure Selection where
  runId : String
  featureId : Option String

def candidates (requestStream : List Row) : List String :=
  requestStream.filterMap fun e =>
    match e.detail.payload with
    | .candidateAdded _ runId => some runId
    | _ => none

/-- `repr` of a list of ids. -/
def reprIds (ids : List String) : String :=
  "[" ++ ", ".intercalate (ids.map fun id => "'" ++ id ++ "'") ++ "]"

/-- The first loop: each selection is recorded, under a new feature if it names none. -/
def recordSelections (requestId : String) (conceptKey : Option String) (explored : ℤ)
    (produced : List String) : List Selection → Prog (List String)
  | [] => return produced
  | ⟨runId, featureId⟩ :: selections => do
      let (featureId, produced) ←
        match featureId with
        | some featureId => pure (featureId, produced)
        | none => do
            let featureId ← mintId
            let created ← appendFirst (newEvent "feature" featureId
              (.featureCreated featureId requestId conceptKey (some runId))
              (some requestId) (some featureId) (some runId))
            pure (featureId, produced ++ [created.eventId])
      let chosen ← append (newEvent "request" requestId
        (.candidateSelected requestId runId featureId explored)
        (some requestId) (some featureId) (some runId))
      recordSelections requestId conceptKey explored (produced ++ [chosen.eventId]) selections

/-- The second loop: the candidates not selected are rejected. -/
def closeSiblings (requestId : String) (selected : List String) (produced : List String) :
    List String → Prog (List String)
  | [] => return produced
  | runId :: runs =>
      if runId ∈ selected then closeSiblings requestId selected produced runs
      else do
        let visible ← visibleEvents
        if runIsTerminal visible runId then closeSiblings requestId selected produced runs
        else
          let reason := some "sibling_closed"
          let rejReq ← append (newEvent "request" requestId
            (.candidateRejected requestId runId reason) (some requestId) none (some runId))
          let rejRun ← append (runEvent runId (.runRejected runId reason))
          closeSiblings requestId selected (produced ++ [rejReq.eventId, rejRun.eventId]) runs

def selectCandidateCommand (requestId : String) (selections : List Selection)
    (conceptKey : Option String) (candidatesExploredCount : Option ℤ) : Prog CommandResult := do
  let visible ← visibleEvents
  let allRuns := candidates (loadStream visible "request" requestId)
  let selectedIds := selections.map (·.runId)
  let notCandidates := selectedIds.dedup.filter fun id => id ∉ allRuns
  if notCandidates ≠ [] then
    let ids := reprIds (notCandidates.mergeSort fun id id' => decide (id ≤ id'))
    return .denied requestId ("selected runs are not candidates of this request: " ++ ids)
  else
    let explored := candidatesExploredCount.getD allRuns.length
    let produced ← recordSelections requestId conceptKey explored [] selections
    let produced ← closeSiblings requestId selectedIds produced allRuns
    return .ok requestId produced

/-- A row of the queue that `drain_control_signals` has locked. -/
structure ControlRow where
  handler : String
  runId : Option String
  owner : Option String
  waitingOnFact : Option String

def parkRun (runId : String) (owner waitingOnFact : Option String) : Prog Unit := do
  let visible ← visibleEvents
  if runIsTerminal visible runId then return
  else
    let visible ← visibleEvents
    if runIsParked visible runId then return
    else
      let _ ← parkCommand runId owner waitingOnFact
      return

/-- The loop of `drain_control_signals`; returns how many signals it has parked for. -/
def drainControlSignals (parked : ℕ) : List ControlRow → Prog ℕ
  | [] => return parked
  | row :: rows =>
      match row.runId.filter fun id => id ≠ "" with
      | some runId =>
          if row.handler = "runtime.auto_park" then do
            parkRun runId row.owner row.waitingOnFact
            drainControlSignals (parked + 1) rows
          else drainControlSignals parked rows
      | none => drainControlSignals parked rows

end FeatureGen.Aggregates
