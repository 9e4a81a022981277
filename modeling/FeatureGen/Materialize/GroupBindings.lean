import FeatureGen.Materialize.ActiveRevisions
import FeatureGen.Materialize.RunEvents
import FeatureGen.Runtime.Queue

/-! # Group bindings and plan revisions

`materialize/binding.py`, and what `compile_group` of `materialize/compile/chain.py`
records in its one transaction: the generation, the binding and the plan revision,
perhaps the publication, and the run's terminal event, with the tables of migrations
1034, 1055 and 1085. A row that any other statement raises on ends the transaction.
-/

namespace FeatureGen.Materialize

open FeatureGen.Overlay (strip)
open FeatureGen.Runtime (Instant)

/-- What `datetime.fromisoformat` makes of a text: the date and time that it writes, and the
    offset from UTC where it writes one. -/
structure IsoTimestamp where
  written : Instant
  offset : Option Instant

/-- `_instant`, which raises where there is none. -/
def instantOf (fromisoformat : String → Option IsoTimestamp) (createdAt : String) :
    Option Instant := do
  let parsed ← fromisoformat createdAt
  let offset ← parsed.offset
  return parsed.written - offset

structure GroupContractBinding where
  bindingId : String
  logicalGroupName : String
  materializationContractHash : String
  physicalTarget : String

/-- A plan revision; one whose `created_at` is no instant cannot be made. -/
structure GroupPlanRevision (fromisoformat : String → Option IsoTimestamp) where
  bindingId : String
  groupPlanHash : String
  generationId : String
  createdAt : String
  named : [bindingId, groupPlanHash, generationId].all (strip · ≠ "") = true
  orderable : (instantOf fromisoformat createdAt).isSome = true

structure MaterializationGeneration where
  generationId : String
  logicalGroupName : String
  materializationContractHash : String
  groupPlanHash : String
  generatedProjectHash : String
  createdAt : String

/-- What a compilation has come to when `_commit` is called: `bindingId`, `generationId`,
    `runId` and `revisionId` are derived from the group and the request, `physicalTarget` is
    `physical_target_for` of the name, and `createdAt` is the clock's. -/
structure Compilation where
  logicalGroupName : String
  materializationContractHash : String
  groupPlanHash : String
  generatedProjectHash : String
  physicalTarget : String
  bindingId : String
  generationId : String
  runId : String
  revisionId : String
  createdAt : String

def Compilation.generation (c : Compilation) : MaterializationGeneration where
  generationId := c.generationId
  logicalGroupName := c.logicalGroupName
  materializationContractHash := c.materializationContractHash
  groupPlanHash := c.groupPlanHash
  generatedProjectHash := c.generatedProjectHash
  createdAt := c.createdAt

inductive BoundGroup where
  | binding (binding : GroupContractBinding)
  /-- `GROUP_BINDING_CONFLICT`. -/
  | refused
  | raises

def bindGroup (c : Compilation) (existing : Option GroupContractBinding) : BoundGroup :=
  match existing with
  | none =>
      if strip c.bindingId = "" then .raises
      else .binding ⟨c.bindingId, c.logicalGroupName, c.materializationContractHash,
        c.physicalTarget⟩
  | some existing =>
      if existing.logicalGroupName ≠ c.logicalGroupName then .raises
      else if existing.materializationContractHash ≠ c.materializationContractHash then .refused
      else if existing.physicalTarget ≠ c.physicalTarget then .refused
      else .binding existing

variable {fromisoformat : String → Option IsoTimestamp}

namespace GroupPlanRevision

def instant (revision : GroupPlanRevision fromisoformat) : Instant :=
  (instantOf fromisoformat revision.createdAt).get revision.orderable

end GroupPlanRevision

/-- `plan_revision`, which raises where there is none. -/
def planRevision (fromisoformat : String → Option IsoTimestamp) (c : Compilation)
    (binding : GroupContractBinding) : Option (GroupPlanRevision fromisoformat) :=
  if binding.logicalGroupName ≠ c.logicalGroupName then none
  else if named : [binding.bindingId, c.groupPlanHash, c.generationId].all (strip · ≠ "") = true then
    if orderable : (instantOf fromisoformat c.createdAt).isSome = true then
      some ⟨binding.bindingId, c.groupPlanHash, c.generationId, c.createdAt, named, orderable⟩
    else none
  else none

/-- What `current_plan_revision` raises. -/
inductive CurrentPlanError where
  | severalBindings (bindingIds : List String)
  /-- Different published revisions, by their plan and generation, share the latest instant. -/
  | ambiguous (distinct : List (String × String)) (latest : Instant)

def currentPlanRevision (revisions : List (GroupPlanRevision fromisoformat))
    (publishedGenerationIds : List String) :
    Except CurrentPlanError (Option (GroupPlanRevision fromisoformat)) :=
  let bindings := (revisions.map (·.bindingId)).dedup
  if revisions.isEmpty then .ok none
  else if 1 < bindings.length then .error (.severalBindings (bindings.insertionSort (· ≤ ·)))
  else
    let published := revisions.filter fun r => publishedGenerationIds.contains r.generationId
    match (published.map (·.instant)).max? with
    | none => .ok none
    | some latest =>
        let tied := published.filter (·.instant = latest)
        let distinct := (tied.map fun r => (r.groupPlanHash, r.generationId)).dedup
        if 1 < distinct.length then .error (.ambiguous distinct latest)
        else .ok tied.head?

/-- A row of the tables that a compilation writes, but for the active revision. -/
inductive PlaneRow (fromisoformat : String → Option IsoTimestamp) where
  | generation (generation : MaterializationGeneration)
  | binding (binding : GroupContractBinding)
  | plan (revision : GroupPlanRevision fromisoformat) (recordedAt : Instant)
  | event (event : RunEvent)

namespace PlaneRow

/-- The primary keys, `group_binding_legacy_name` and
    `materialization_run_event_one_terminal`. -/
def conflicts : PlaneRow fromisoformat → PlaneRow fromisoformat → Bool
  | .generation a, .generation b => a.generationId = b.generationId
  | .binding a, .binding b => a.bindingId = b.bindingId || a.logicalGroupName = b.logicalGroupName
  | .plan a _, .plan b _ => a.bindingId = b.bindingId && a.generationId = b.generationId
  | .event a, .event b => a.runId = b.runId && (a.seq = b.seq || a.isTerminal && b.isTerminal)
  | _, _ => false

/-- What the record and the columns of its table check. -/
def checked : PlaneRow fromisoformat → Bool
  | .generation g => [g.generationId, g.logicalGroupName, g.materializationContractHash,
        g.groupPlanHash, g.generatedProjectHash].all (strip · ≠ "") &&
      (instantOf fromisoformat g.createdAt).isSome
  | .binding b => !([b.logicalGroupName, b.materializationContractHash, b.physicalTarget].any
        sqlBlank)
  | .plan _ _ => true
  | .event e => [e.runId, e.generationId].all (strip · ≠ "") &&
      (instantOf fromisoformat e.occurredAt).isSome

def isPlanOf (bindingId : String) : PlaneRow fromisoformat → Option
    (GroupPlanRevision fromisoformat × Instant)
  | .plan revision recordedAt => if revision.bindingId = bindingId then some (revision, recordedAt)
      else none
  | _ => none

def isBindingOf (logicalGroupName : String) : PlaneRow fromisoformat → Option GroupContractBinding
  | .binding b => if b.logicalGroupName = logicalGroupName then some b else none
  | _ => none

def publishes : PlaneRow fromisoformat → Option String
  | .event e => if e.eventKind = .published then some e.generationId else none
  | _ => none

def refuses (new : RunEvent) : PlaneRow fromisoformat → Bool
  | .event e => e.runId = new.runId && (e.isTerminal || new.seq ≤ e.seq)
  | _ => false

end PlaneRow

/-- How far a call of `_commit` is. -/
inductive CompilePhase (fromisoformat : String → Option IsoTimestamp) where
  | begun
  /-- `record_generation` has returned. -/
  | generated
  /-- The binding is recorded, or was. -/
  | bound
  /-- `record_plan_revision` has returned. -/
  | planned (plan : GroupPlanRevision fromisoformat)
  /-- `publish_generation` is called. -/
  | publishing (plan : GroupPlanRevision fromisoformat)
  /-- It has returned. -/
  | published (plan : GroupPlanRevision fromisoformat) (revision : ActiveRevision)
  /-- `append_run_event` has returned. -/
  | ended (plan : GroupPlanRevision fromisoformat) (revision : Option ActiveRevision)
      (event : RunEvent)

structure CompileCall (fromisoformat : String → Option IsoTimestamp) where
  compilation : Compilation
  binding : GroupContractBinding
  /-- The binding was not there before. -/
  minted : Bool
  /-- The transaction's `now()`. -/
  startedAt : Instant
  phase : CompilePhase fromisoformat

structure Plane (fromisoformat : String → Option IsoTimestamp) where
  rows : AppendLog (PlaneRow fromisoformat)
  publications : Publications
  calls : ℕ → Option (CompileCall fromisoformat)

/-- What the run of a compilation publishes with. -/
structure PublishSelection where
  environmentId : Option String
  mechanism : PublishMechanism
  capabilityAttestationId : String
  columns : List String
  stagingRoot : String
  activatedAt : String

inductive PlaneAction where
  /-- The lookup of the binding, and the transaction's begin. -/
  | compile (txn : ℕ) (compilation : Compilation) (startedAt : Instant)
  | generation (txn : ℕ)
  | binding (txn : ℕ)
  | plan (txn : ℕ)
  /-- `publish_generation`, up to the INSERT. -/
  | publish (txn : ℕ) (selection : PublishSelection)
  | trigger (txn : ℕ)
  | insert (txn : ℕ)
  | swap (txn : ℕ)
  /-- The terminal event of a run that has not published. -/
  | fail (txn : ℕ) (refused : Bool) (detail : String)
  /-- That of one that has. -/
  | succeed (txn : ℕ) (detail : String)
  | commit (txn : ℕ)
  /-- Any exception, or the end of the process. -/
  | rollback (txn : ℕ)

namespace CompileCall

def goTo (call : CompileCall fromisoformat) (phase : CompilePhase fromisoformat) :
    CompileCall fromisoformat where
  compilation := call.compilation
  binding := call.binding
  minted := call.minted
  startedAt := call.startedAt
  phase := phase

def publication (call : CompileCall fromisoformat) (selection : PublishSelection) :
    Publication where
  environmentId := selection.environmentId
  mechanism := selection.mechanism
  capabilityAttestationId := selection.capabilityAttestationId
  logicalGroupName := call.compilation.logicalGroupName
  columns := selection.columns
  generationId := call.compilation.generationId
  runId := call.compilation.runId
  publishedObject := call.binding.physicalTarget
  stagingRoot := selection.stagingRoot
  revisionId := call.compilation.revisionId
  activatedAt := selection.activatedAt

/-- The run's event, of `FIRST_RUN_EVENT_SEQ`. -/
def event (call : CompileCall fromisoformat) (kind : RunEventKind) (detail : String) :
    RunEvent where
  runId := call.compilation.runId
  seq := 0
  generationId := call.compilation.generationId
  eventKind := kind
  occurredAt := call.compilation.createdAt
  detail := detail

end CompileCall

namespace Plane

def rollback (w : Plane fromisoformat) (txn : ℕ) : Plane fromisoformat where
  rows := w.rows.rollback txn
  publications := w.publications.rollback txn
  calls := Function.update w.calls txn none

def setCall (w : Plane fromisoformat) (txn : ℕ) (call : CompileCall fromisoformat) :
    Plane fromisoformat where
  rows := w.rows
  publications := w.publications
  calls := Function.update w.calls txn (some call)

/-- The record of one row, after which the call goes on. -/
def writeRow (w : Plane fromisoformat) (txn : ℕ) (row : PlaneRow fromisoformat)
    (call : CompileCall fromisoformat) : Option (Plane fromisoformat) :=
  if ¬ row.checked then some (w.rollback txn)
  else
    match w.rows.insert PlaneRow.conflicts txn row with
    | .waits => none
    | .violation => some (w.rollback txn)
    | .log rows => some (setCall ⟨rows, w.publications, w.calls⟩ txn call)

/-- `append_run_event`; that its trigger raises, or the row, comes to the same. -/
def writeEvent (w : Plane fromisoformat) (txn : ℕ) (event : RunEvent)
    (call : CompileCall fromisoformat) : Option (Plane fromisoformat) :=
  if (w.rows.visible txn).any (PlaneRow.refuses event) then some (w.rollback txn)
  else w.writeRow txn (.event event) call

/-- A step of `publish_generation` under way; one that raises has ended its transaction. -/
def goPublish (w : Plane fromisoformat) (txn : ℕ) (action : PublishAction)
    (call : CompileCall fromisoformat) : Option (Plane fromisoformat) :=
  match w.publications.step action with
  | none => none
  | some publications =>
      match publications.calls txn with
      | none => some (w.rollback txn)
      | some _ => some (setCall ⟨w.rows, publications, w.calls⟩ txn call)

def readGroupBinding (w : Plane fromisoformat) (txn : ℕ) (logicalGroupName : String) :
    Option GroupContractBinding :=
  ((w.rows.visible txn).filterMap (PlaneRow.isBindingOf logicalGroupName)).head?

def step (w : Plane fromisoformat) : PlaneAction → Option (Plane fromisoformat)
  | .compile txn c startedAt =>
      match w.calls txn with
      | some _ => none
      | none =>
          let existing := w.readGroupBinding txn c.logicalGroupName
          match bindGroup c existing with
          | .binding binding =>
              some (w.setCall txn ⟨c, binding, existing.isNone, startedAt, .begun⟩)
          | .refused | .raises => some w
  | .generation txn =>
      match w.calls txn with
      | some ⟨c, binding, minted, startedAt, .begun⟩ =>
          w.writeRow txn (.generation c.generation) ⟨c, binding, minted, startedAt, .generated⟩
      | _ => none
  | .binding txn =>
      match w.calls txn with
      | some ⟨c, binding, minted, startedAt, .generated⟩ =>
          let call := ⟨c, binding, minted, startedAt, .bound⟩
          if minted then w.writeRow txn (.binding binding) call else some (w.setCall txn call)
      | _ => none
  | .plan txn =>
      match w.calls txn with
      | some ⟨c, binding, minted, startedAt, .bound⟩ =>
          match planRevision fromisoformat c binding with
          | none => some (w.rollback txn)
          | some plan =>
              w.writeRow txn (.plan plan startedAt) ⟨c, binding, minted, startedAt, .planned plan⟩
      | _ => none
  | .publish txn selection =>
      match w.calls txn with
      | some ⟨c, binding, minted, startedAt, .planned plan⟩ =>
          let call := ⟨c, binding, minted, startedAt, .publishing plan⟩
          w.goPublish txn (.publish txn (call.publication selection)) call
      | _ => none
  | .trigger txn =>
      match w.calls txn with
      | some ⟨c, binding, minted, startedAt, .publishing plan⟩ =>
          w.goPublish txn (.trigger txn) ⟨c, binding, minted, startedAt, .publishing plan⟩
      | _ => none
  | .insert txn =>
      match w.calls txn with
      | some ⟨c, binding, minted, startedAt, .publishing plan⟩ =>
          w.goPublish txn (.insert txn) ⟨c, binding, minted, startedAt, .publishing plan⟩
      | _ => none
  | .swap txn =>
      match w.calls txn, w.publications.calls txn with
      | some ⟨c, binding, minted, startedAt, .publishing plan⟩, some ⟨_, .recorded revision⟩ =>
          match w.publications.step (.swap txn) with
          | none => none
          | some publications => some (setCall ⟨w.rows, publications, w.calls⟩ txn
              ⟨c, binding, minted, startedAt, .published plan revision⟩)
      | _, _ => none
  | .fail txn refused detail =>
      match w.calls txn with
      | some ⟨c, binding, minted, startedAt, .planned plan⟩ =>
          let call : CompileCall fromisoformat := ⟨c, binding, minted, startedAt, .planned plan⟩
          let event := call.event (if refused then .publicationRefused else .runFailed) detail
          w.writeEvent txn event (call.goTo (.ended plan none event))
      | _ => none
  | .succeed txn detail =>
      match w.calls txn with
      | some ⟨c, binding, minted, startedAt, .published plan revision⟩ =>
          let call : CompileCall fromisoformat :=
            ⟨c, binding, minted, startedAt, .published plan revision⟩
          let event := call.event .published detail
          w.writeEvent txn event (call.goTo (.ended plan (some revision) event))
      | _ => none
  | .commit txn =>
      match w.calls txn with
      | some ⟨_, _, _, _, .ended _ _ _⟩ =>
          match w.publications.step (.commit txn) with
          | none => none
          | some publications =>
              some ⟨w.rows.commit txn, publications, Function.update w.calls txn none⟩
      | _ => none
  | .rollback txn =>
      match w.calls txn with
      | some _ => some (w.rollback txn)
      | none => none

def empty : Plane fromisoformat := ⟨AppendLog.empty, Publications.empty, fun _ => none⟩

def bindingOf (w : Plane fromisoformat) (logicalGroupName : String) : Option GroupContractBinding :=
  (w.rows.committed.filterMap (PlaneRow.isBindingOf logicalGroupName)).head?

def readPlanRevisions (w : Plane fromisoformat) (bindingId : String) :
    List (GroupPlanRevision fromisoformat) :=
  (KeySort.sortBy (·.2) (w.rows.committed.filterMap (PlaneRow.isPlanOf bindingId))).map (·.1)

def publishedGenerationIds (w : Plane fromisoformat) : List String :=
  (w.rows.committed.filterMap PlaneRow.publishes).dedup

def readActiveRevision (w : Plane fromisoformat) (scope : Scope) : Option ActiveRevision :=
  w.publications.readActiveRevision scope

def revisionsOf (w : Plane fromisoformat) (logicalGroupName : String) :
    List (GroupPlanRevision fromisoformat) :=
  match w.bindingOf logicalGroupName with
  | none => []
  | some binding => w.readPlanRevisions binding.bindingId

end Plane

end FeatureGen.Materialize
