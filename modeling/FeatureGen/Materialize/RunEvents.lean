import FeatureGen.Lib.KeySort
import FeatureGen.Lib.RowLocks
import FeatureGen.Lib.Text
import FeatureGen.Lib.Transition

/-! # Run events

`append_run_event`, `read_run_events` and `fold_run_status` of
`materialize/control_plane.py`, over the table of migration 1034 with the trigger
of migration 1044. The trigger makes two reads, each with a snapshot of its own,
before the row is inserted.
-/

namespace FeatureGen.Materialize

open RowLocks Transition

inductive RunEventKind where
  | runPrepared
  | runSubmitted
  | computationCompleted
  | gatesPassed
  | gatesFailed
  | published
  | publicationRefused
  | runFailed
  deriving DecidableEq

inductive RunStatus where
  | prepared
  | submitted
  | computed
  | validated
  | rejected
  | published
  | refused
  | failed

/-- `_STATUS_OF_KIND`. -/
def RunEventKind.status : RunEventKind → RunStatus
  | .runPrepared => .prepared
  | .runSubmitted => .submitted
  | .computationCompleted => .computed
  | .gatesPassed => .validated
  | .gatesFailed => .rejected
  | .published => .published
  | .publicationRefused => .refused
  | .runFailed => .failed

def terminalRunEventKinds : List RunEventKind :=
  [.gatesFailed, .published, .publicationRefused, .runFailed]

def RunEventKind.value : RunEventKind → String
  | .runPrepared => "RUN_PREPARED"
  | .runSubmitted => "RUN_SUBMITTED"
  | .computationCompleted => "COMPUTATION_COMPLETED"
  | .gatesPassed => "GATES_PASSED"
  | .gatesFailed => "GATES_FAILED"
  | .published => "PUBLISHED"
  | .publicationRefused => "PUBLICATION_REFUSED"
  | .runFailed => "RUN_FAILED"

structure RunEvent where
  runId : String
  seq : ℕ
  generationId : String
  eventKind : RunEventKind
  occurredAt : String
  detail : String

namespace RunEvent

def isTerminal (event : RunEvent) : Bool := event.eventKind ∈ terminalRunEventKinds

def status (event : RunEvent) : RunStatus := event.eventKind.status

/-- `PRIMARY KEY (run_id, seq)`. -/
def key (event : RunEvent) : String × ℕ := (event.runId, event.seq)

/-- `materialization_run_event_one_terminal`. -/
def oneTerminal (event : RunEvent) : Option String :=
  if event.isTerminal then some event.runId else none

end RunEvent

/-- What `fold_run_status` raises. -/
inductive FoldError where
  | noEvents
  | severalRuns (runIds : List String)
  | sharedSeq (seqs : List ℕ)
  | continues (event : RunEvent)

def FoldError.message : FoldError → String
  | .noEvents => "fold_run_status was given no events: a run's status is DERIVED from what was " ++
      "appended, so a run with nothing appended has no status — reporting one would be an " ++
      "invention about a run nobody recorded"
  | .severalRuns runIds =>
      let runs := String.intercalate ", " runIds
      s!"fold_run_status was given events from {runIds.length} runs ({runs}): each run has its " ++
        "own order and its own status, and folding two together derives a status for neither"
  | .sharedSeq seqs =>
      s!"fold_run_status was given events sharing a seq ({seqs}): seq is the run's order, so a " ++
        "repeat means the latest event is ambiguous"
  | .continues event =>
      let runId := Text.repr event.runId
      s!"run {runId} records {event.eventKind.value} at seq {event.seq} and then " ++
        "continues: a terminal event ends the run, so an event after one is a corrupt record " ++
        "rather than a later status"

def foldRunStatus (events : List RunEvent) : Except FoldError RunStatus :=
  let runs := (events.map (·.runId)).dedup
  let ordered := KeySort.sortBy (·.seq) events
  let seqs := ordered.map (·.seq)
  match ordered.getLast? with
  | none => .error .noEvents
  | some last =>
      if 1 < runs.length then .error (.severalRuns (runs.insertionSort (· ≤ ·)))
      else if ¬ seqs.Nodup then .error (.sharedSeq seqs)
      else
        match ordered.dropLast.find? (·.isTerminal) with
        | some event => .error (.continues event)
        | none => .ok last.status

abbrev RunEvents := Rows (String × ℕ) RunEvent

/-- An insert under way: the trigger has looked for a terminal event, and perhaps for one that
    the new event does not extend. -/
structure Append where
  event : RunEvent
  seqRead : Bool

structure RunTable where
  events : RunEvents
  /-- The insert each transaction has under way. -/
  appends : ℕ → Option Append

inductive RunAction where
  /-- `append_run_event`, up to the trigger's first read. -/
  | append (txn : ℕ) (event : RunEvent)
  /-- The trigger's second read. -/
  | readSeq (txn : ℕ)
  /-- The row, once the trigger has returned. -/
  | insert (txn : ℕ)
  | commit (txn : ℕ)
  | rollback (txn : ℕ)

def RunAction.txn : RunAction → ℕ
  | .append txn _ | .readSeq txn | .insert txn | .commit txn | .rollback txn => txn

namespace RunTable

/-- A statement that raises, or the caller, ends the transaction. -/
def rollback (w : RunTable) (txn : ℕ) : RunTable where
  events := w.events.rollback txn
  appends := Function.update w.appends txn none

/-- The trigger's first existence read. -/
def ended (w : RunTable) (txn : ℕ) (event : RunEvent) : Bool :=
  w.events.scan txn (fun e => e.runId = event.runId ∧ e.isTerminal) ≠ []

/-- Its second. -/
def reached (w : RunTable) (txn : ℕ) (event : RunEvent) : Bool :=
  w.events.scan txn (fun e => e.runId = event.runId ∧ event.seq ≤ e.seq) ≠ []

def step (w : RunTable) : RunAction → Option RunTable
  | .append txn event =>
      match w.appends txn with
      | some _ => none
      | none =>
          if w.ended txn event then some (w.rollback txn)
          else some { w with appends := Function.update w.appends txn (some ⟨event, false⟩) }
  | .readSeq txn =>
      match w.appends txn with
      | some ⟨event, false⟩ =>
          if w.reached txn event then some (w.rollback txn)
          else some { w with appends := Function.update w.appends txn (some ⟨event, true⟩) }
      | _ => none
  | .insert txn =>
      match w.appends txn with
      | some ⟨event, true⟩ =>
          match w.events.insert RunEvent.oneTerminal txn event.key event with
          | .waits => none
          | .violation => some (w.rollback txn)
          | .rows rows => some ⟨rows, Function.update w.appends txn none⟩
      | _ => none
  | .commit txn =>
      match w.appends txn with
      | some _ => none
      | none => some { w with events := w.events.commit txn }
  | .rollback txn => some (w.rollback txn)

def empty : RunTable where
  events := ⟨[], fun _ => none, fun _ => none⟩
  appends _ := none

/-- `read_run_events`, of a session that has written none. -/
def readRunEvents (w : RunTable) (runId : String) : List RunEvent :=
  KeySort.sortBy (·.seq) ((w.events.keys.filterMap w.events.committed).filter fun e =>
    e.runId = runId)

end RunTable

end FeatureGen.Materialize
