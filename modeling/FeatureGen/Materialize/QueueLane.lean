import FeatureGen.Lib.Text
import FeatureGen.Materialize.Requests

/-! # The materialization lane

`materialize/queue_lane.py`: the leases a delivery is given, what it may take over, and
the work that a compile does while it holds them.
-/

namespace FeatureGen.Materialize

open FeatureGen.Overlay (strip)
open FeatureGen.Runtime

def compileBudgetSeconds : ℚ := 600

structure L0Interpreter where
  pythonExecutable : String
  timeoutSeconds : ℚ
  named : strip pythonExecutable ≠ ""
  bounded : 0 < timeoutSeconds

structure LocalClusterSubmitter where
  pythonExecutable : String
  timeoutSeconds : ℚ := 3600

/-- Over the types of the metastore and of the publication swap, which nothing here reads. -/
structure RunExecution (μ σ : Type) where
  metastore : μ
  submitter : LocalClusterSubmitter
  swap : σ
  businessDt : String
  stagingBase : String
  dated : strip businessDt ≠ ""
  staged : strip stagingBase ≠ ""

/-- What the lane reads of a job; the chain is handed the rest. -/
structure MaterializationJobV1 where
  requestId : String
  businessDt : Option String

structure MaterializationLaneConfig (μ σ : Type) where
  l0 : Option L0Interpreter
  compileBudgetSeconds : ℚ := compileBudgetSeconds
  metastore : Option μ
  submitter : Option LocalClusterSubmitter
  swap : Option σ
  stagingBase : Option String

namespace MaterializationLaneConfig

variable {μ σ : Type}

/-- `RunExecution.__post_init__`. -/
def runExecution (metastore : μ) (submitter : LocalClusterSubmitter) (swap : σ)
    (businessDt stagingBase : String) : Except String (RunExecution μ σ) :=
  if dated : strip businessDt ≠ "" then
    if staged : strip stagingBase ≠ "" then
      .ok ⟨metastore, submitter, swap, businessDt, stagingBase, dated, staged⟩
    else .error ("the staging base is blank (" ++ Text.repr stagingBase ++ "): §9's staging " ++
      "root is derived under it per generation, and a blank base would stage every " ++
      "generation of every group at one path")
  else .error ("the run's business_dt is blank (" ++ Text.repr businessDt ++ "): every " ++
    "partition the run reads is resolved from it, and 'this deployment cannot execute a run' " ++
    "is stated by passing execution=None, not by naming a date nothing resolves")

/-- `execution_for`: all five, or none. -/
def executionFor (config : MaterializationLaneConfig μ σ) (job : MaterializationJobV1) :
    Except String (Option (RunExecution μ σ)) :=
  match config.metastore, config.submitter, config.swap, config.stagingBase, job.businessDt with
  | some metastore, some submitter, some swap, some stagingBase, some businessDt =>
      (runExecution metastore submitter swap businessDt stagingBase).map some
  | _, _, _, _, _ => .ok none

def leaseSeconds (config : MaterializationLaneConfig μ σ) : ℚ :=
  config.compileBudgetSeconds + (config.l0.elim 0 fun l0 => l0.timeoutSeconds)

end MaterializationLaneConfig

/-- `_adoptable`, by the worker's clock. -/
def adoptable (request : MaterializationRequest) (now : Instant) : Bool :=
  request.lifecycleState = .accepted && request.leaseExpiresAt.any (· < now)

inductive Work where
  /-- What the process itself does, with the database and the file system. -/
  | own
  /-- The build proof, in the configured interpreter. -/
  | proof
  /-- The pipeline, in the submitter's. -/
  | submission
  deriving DecidableEq

/-- How far a compile gets: which of its stages answer. -/
structure Reached where
  /-- No stage before the project is sealed refuses. -/
  sealed : Bool
  /-- The build proof passes. -/
  built : Bool
  /-- A publisher is selected. -/
  selected : Bool
  /-- The run is prepared, and L1 passes. -/
  prepared : Bool

section Chain

variable {μ σ : Type}

/-- The work of `_execute_the_run`, and of recording what it comes to. -/
def executionWork (execution : Option (RunExecution μ σ)) (reached : Reached) : List Work :=
  match execution with
  | none => [.own]
  | some _ => if reached.prepared then [.own, .submission, .own] else [.own]

/-- The work of `_commit`: a build that nothing proves is recorded, and nothing is run. -/
def commitWork (l0 : Option L0Interpreter) (execution : Option (RunExecution μ σ))
    (reached : Reached) : List Work :=
  match l0 with
  | none => [.own]
  | some _ =>
      .proof ::
        if reached.built && reached.selected then executionWork execution reached else [.own]

/-- The work of `compile_feature_group`. -/
def compileWork (l0 : Option L0Interpreter) (execution : Option (RunExecution μ σ))
    (reached : Reached) : List Work :=
  .own :: if reached.sealed then commitWork l0 execution reached else []

end Chain

end FeatureGen.Materialize
