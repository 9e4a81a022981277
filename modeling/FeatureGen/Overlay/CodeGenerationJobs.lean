import FeatureGen.Lib.Json
import FeatureGen.Lib.Transition
import FeatureGen.Runtime.Queue

/-! # Code-generation jobs

`overlay/upload/code_generation_job_store.py` over the tables of migration 1111.
Each call is a transaction of its own, as the coordinator's connection commits
statement by statement; one that raises leaves nothing behind.
-/

namespace FeatureGen.CodeGenerationJobs

open FeatureGen.Runtime

inductive JobStatusV1 where
  | requested
  | planningFormulas
  | authoring
  | readyToBuild
  | generatingPreview
  /-- Terminal by design: the aggregate is a preview coordinator. -/
  | previewReady
  | blocked
  | failed
  | cancelled
  deriving DecidableEq

def JobStatusV1.value : JobStatusV1 → String
  | .requested => "REQUESTED"
  | .planningFormulas => "PLANNING_FORMULAS"
  | .authoring => "AUTHORING"
  | .readyToBuild => "READY_TO_BUILD"
  | .generatingPreview => "GENERATING_PREVIEW"
  | .previewReady => "PREVIEW_READY"
  | .blocked => "BLOCKED"
  | .failed => "FAILED"
  | .cancelled => "CANCELLED"

def JobStatusV1.isTerminal : JobStatusV1 → Bool
  | .previewReady | .blocked | .failed | .cancelled => true
  | _ => false

def forward : JobStatusV1 → List JobStatusV1
  | .requested => [.planningFormulas]
  | .planningFormulas => [.authoring]
  | .authoring => [.readyToBuild]
  | .readyToBuild => [.generatingPreview]
  | .generatingPreview => [.previewReady]
  | _ => []

def terminalsFromLive : List JobStatusV1 := [.blocked, .failed, .cancelled]

def JobStatusV1.moves (fromStatus toStatus : JobStatusV1) : Bool :=
  toStatus ∈ forward fromStatus ∨ (!fromStatus.isTerminal ∧ toStatus ∈ terminalsFromLive)

inductive MemberStateV1 where
  | selected
  | authoring
  | formulaReady
  | bound
  | blocked
  | failed
  deriving DecidableEq

inductive ActionState where
  | pending
  | decided
  | performed
  | refused
  | skipped

structure JobMemberSpecV1 where
  position : ℕ
  selectionRevisionId : String
  consideredRevisionId : String
  optionId : String
  formulaStrategy : String
  strategyWarnings : List String

/-- A row of `code_generation_job`. -/
structure CodeGenJob where
  jobId : String
  contentIdentityHash : String
  consideredRevisionId : String
  targetReadingRevisionId : String
  environmentId : String
  logicalGroupName : String
  declaration : Json
  executionParameters : Json
  status : JobStatusV1
  requestedBy : String
  requestedAt : Instant
  terminalDetail : Option Json
  leaseOwner : Option String
  leaseExpiresAt : Option Instant
  leaseFence : ℕ
  attempts : ℕ

/-- A row of `code_generation_job_member`. -/
structure CodeGenMember where
  jobId : String
  position : ℕ
  selectionRevisionId : String
  consideredRevisionId : String
  optionId : String
  formulaStrategy : String
  strategyWarnings : List String
  memberState : MemberStateV1
  formulaDraftId : Option String
  selectionFormulaBindingId : Option String
  blockers : List String

def CodeGenMember.key (m : CodeGenMember) : String × ℕ := (m.jobId, m.position)

/-- A row of `code_generation_job_action`. -/
structure JobAction where
  jobId : String
  action : String
  resourceIdentityHash : Option String
  authorizationRevisionId : Option String
  decisionRevisionId : Option String
  state : ActionState

def JobAction.key (a : JobAction) : String × String := (a.jobId, a.action)

/-- A row of `code_generation_job_event`. -/
structure JobEvent where
  jobId : String
  stage : String
  detail : Json

structure JobStore where
  jobs : Table CodeGenJob.jobId
  members : Table CodeGenMember.key
  actions : Table JobAction.key
  /-- Oldest first. -/
  events : List JobEvent

inductive JobError where
  | valueError (message : String)
  | invalidJobMove (message : String)
  | jobMovedUnderneath (message : String)
  /-- A constraint of the database. -/
  | violation

/-- The arguments of `create_job`. -/
structure JobRequest where
  consideredRevisionId : String
  targetReadingRevisionId : String
  environmentId : String
  logicalGroupName : String
  declaration : Json
  declarationIdentity : Json
  executionParameters : Json
  members : List JobMemberSpecV1
  requestedBy : String
  requestedAt : Instant
  principalScopeRevisionId : String

def JobRequest.selections (request : JobRequest) : List String :=
  request.members.map (·.selectionRevisionId)

/-- `job_content_identity`; the order of the selections is part of it. -/
def jobContentIdentity (jcsSha256 : Json → String) (request : JobRequest) : String :=
  jcsSha256 (.obj (.ofList
    [("considered_revision_id", .str request.consideredRevisionId),
      ("target_reading_revision_id", .str request.targetReadingRevisionId),
      ("environment_id", .str request.environmentId),
      ("logical_group_name", .str request.logicalGroupName),
      ("selection_revision_ids", .arr (.ofList (request.selections.map .str))),
      ("declaration_identity", request.declarationIdentity),
      ("execution_parameters", request.executionParameters),
      ("principal_scope_revision_id", .str request.principalScopeRevisionId)]))

/-- The predicate of the partial unique index: the job holds its content's slot. -/
def JobStatusV1.holdsSlot (status : JobStatusV1) : Bool := status ≠ .failed ∧ status ≠ .cancelled

def liveJob (s : JobStore) (identity : String) : Option CodeGenJob :=
  s.jobs.rows.find? fun r => r.contentIdentityHash = identity ∧ r.status.holdsSlot

def JobRequest.job (request : JobRequest) (jobId identity : String) : CodeGenJob where
  jobId := jobId
  contentIdentityHash := identity
  consideredRevisionId := request.consideredRevisionId
  targetReadingRevisionId := request.targetReadingRevisionId
  environmentId := request.environmentId
  logicalGroupName := request.logicalGroupName
  declaration := request.declaration
  executionParameters := request.executionParameters
  status := .requested
  requestedBy := request.requestedBy
  requestedAt := request.requestedAt
  terminalDetail := none
  leaseOwner := none
  leaseExpiresAt := none
  leaseFence := 0
  attempts := 0

def JobMemberSpecV1.row (member : JobMemberSpecV1) (jobId : String) : CodeGenMember where
  jobId := jobId
  position := member.position
  selectionRevisionId := member.selectionRevisionId
  consideredRevisionId := member.consideredRevisionId
  optionId := member.optionId
  formulaStrategy := member.formulaStrategy
  strategyWarnings := member.strategyWarnings
  memberState := .selected
  formulaDraftId := none
  selectionFormulaBindingId := none
  blockers := []

/-- The inserts of a loop: none if one of them violates the key. -/
def insertAll {ρ κ : Type} [DecidableEq κ] {key : ρ → κ} (t : Table key) (rows : List ρ) :
    Option (Table key) := rows.foldlM Table.insert? t

def intendedActions (jobId : String) : List JobAction :=
  ["AUTHOR_FORMULA", "GENERATE_PREVIEW"].map fun action =>
    ⟨jobId, action, none, none, none, .pending⟩

def recordEvent (s : JobStore) (jobId stage : String) (detail : Json) : JobStore :=
  { s with events := s.events ++ [⟨jobId, stage, detail⟩] }

/-- `create_job`: the new job, or the live one with its content. -/
def createJob (jcsSha256 : Json → String) (count : ℕ → Json) (s : JobStore) (jobId : String)
    (request : JobRequest) : Except JobError (JobStore × String × Bool) :=
  if request.members = [] then
    .error (.valueError "a code-generation job with no members is a build of nothing")
  else if ¬ request.selections.Nodup then
    .error (.valueError ("a selection appears twice: naming a feature twice in one build is a " ++
      "caller error, not two members"))
  else
    let identity := jobContentIdentity jcsSha256 request
    match liveJob s identity with
    | some live => .ok (s, live.jobId, false)
    | none =>
        match s.jobs.insert? (request.job jobId identity),
          insertAll s.members (request.members.map (·.row jobId)),
          insertAll s.actions (intendedActions jobId) with
        | some jobs, some members, some actions =>
            let detail := Json.obj (.ofList [("members", count request.members.length)])
            .ok (recordEvent ⟨jobs, members, actions, s.events⟩ jobId "REQUESTED" detail,
              jobId, true)
        | _, _, _ => .error .violation

/-- Due for a claim: live, and never leased or the lease run out. -/
def CodeGenJob.due (now : Instant) (r : CodeGenJob) : Bool :=
  !r.status.isTerminal ∧ ∀ expires ∈ r.leaseExpiresAt, expires < now

def CodeGenJob.claimed (workerId : String) (leaseSeconds : ℤ) (now : Instant) (r : CodeGenJob) :
    CodeGenJob :=
  { r with
    leaseOwner := some workerId
    leaseExpiresAt := some (now + leaseSeconds * microsPerSecond)
    leaseFence := r.leaseFence + 1
    attempts := r.attempts + 1 }

theorem CodeGenJob.claimed_jobId (workerId : String) (leaseSeconds : ℤ) (now : Instant)
    (r : CodeGenJob) : (r.claimed workerId leaseSeconds now).jobId = r.jobId := rfl

/-- `claim_due_job`, where the scan finds this job: an oldest one of those that are
    due and that no transaction holds locked. -/
def claimDueJob (s : JobStore) (workerId : String) (leaseSeconds : ℤ) (jobId : String)
    (locked : List String) (now : Instant) : Option (JobStore × CodeGenJob) :=
  match s.jobs.get? jobId with
  | none => none
  | some row =>
      if row.due now ∧ jobId ∉ locked ∧ ∀ r ∈ s.jobs.rows, r.due now → r.jobId ∉ locked →
          row.requestedAt ≤ r.requestedAt then
        some ({ s with
          jobs := s.jobs.update jobId (CodeGenJob.claimed workerId leaseSeconds now)
            (CodeGenJob.claimed_jobId workerId leaseSeconds now) },
          row.claimed workerId leaseSeconds now)
      else none

def CodeGenJob.released (r : CodeGenJob) : CodeGenJob :=
  { r with leaseOwner := none, leaseExpiresAt := none }

theorem CodeGenJob.released_jobId (r : CodeGenJob) : r.released.jobId = r.jobId := rfl

def releaseJob (s : JobStore) (jobId : String) : JobStore :=
  { s with jobs := s.jobs.update jobId CodeGenJob.released CodeGenJob.released_jobId }

/-- The guards of `advance_job` on its arguments. -/
def checkMove (fromStatus toStatus : JobStatusV1) (terminalDetail : Option Json) :
    Except JobError Unit :=
  if !fromStatus.moves toStatus then
    .error (.invalidJobMove
      s!"{fromStatus.value} -> {toStatus.value} is not a move this lifecycle defines")
  else if terminalDetail.isSome ∧ toStatus ∉ terminalsFromLive then
    .error (.invalidJobMove s!"terminal detail on a non-terminal move to {toStatus.value}")
  else .ok ()

def CodeGenJob.advanced (toStatus : JobStatusV1) (terminalDetail : Option Json)
    (r : CodeGenJob) : CodeGenJob :=
  { r with
    status := toStatus
    terminalDetail := terminalDetail.or r.terminalDetail
    leaseOwner := if toStatus.isTerminal then none else r.leaseOwner
    leaseExpiresAt := if toStatus.isTerminal then none else r.leaseExpiresAt }

theorem CodeGenJob.advanced_jobId (toStatus : JobStatusV1) (terminalDetail : Option Json)
    (r : CodeGenJob) : (r.advanced toStatus terminalDetail).jobId = r.jobId := rfl

/-- What a refused compare-and-set found. -/
def movedUnderneath (s : JobStore) (jobId : String) (fromStatus : JobStatusV1) : String :=
  let current := ((s.jobs.get? jobId).map fun r => s!"'{r.status.value}'").getD "absent"
  s!"job {jobId} is {current}, not '{fromStatus.value}': somebody else moved it " ++
    "— re-read before acting"

def advanceJob (s : JobStore) (jobId : String) (fromStatus toStatus : JobStatusV1)
    (terminalDetail : Option Json) : Except JobError JobStore :=
  match checkMove fromStatus toStatus terminalDetail with
  | .error error => .error error
  | .ok () =>
      if (s.jobs.get? jobId).any fun r => r.status = fromStatus then
        let moved := { s with
          jobs := s.jobs.update jobId (CodeGenJob.advanced toStatus terminalDetail)
            (CodeGenJob.advanced_jobId toStatus terminalDetail) }
        .ok (recordEvent moved jobId toStatus.value (terminalDetail.getD (.obj .nil)))
      else .error (.jobMovedUnderneath (movedUnderneath s jobId fromStatus))

/-- The columns `update_member` sets. -/
structure MemberUpdate where
  state : MemberStateV1
  formulaDraftId : Option String
  selectionFormulaBindingId : Option String
  blockers : List String

def MemberUpdate.apply (u : MemberUpdate) (r : CodeGenMember) : CodeGenMember :=
  { r with
    memberState := u.state
    formulaDraftId := u.formulaDraftId.or r.formulaDraftId
    selectionFormulaBindingId := u.selectionFormulaBindingId.or r.selectionFormulaBindingId
    blockers := u.blockers }

theorem MemberUpdate.apply_key (u : MemberUpdate) (r : CodeGenMember) :
    (u.apply r).key = r.key := rfl

def MemberUpdate.wellFormed (u : MemberUpdate) : Bool := u.state = .blocked ↔ u.blockers ≠ []

def updateMember (s : JobStore) (jobId : String) (position : ℕ) (u : MemberUpdate) :
    Except JobError JobStore :=
  if u.wellFormed then
    .ok { s with members := s.members.update (jobId, position) u.apply u.apply_key }
  else .error (.invalidJobMove
    "a BLOCKED member names its blockers, and only a BLOCKED member does")

/-- The columns `record_job_action` sets. -/
structure ActionUpdate where
  resourceIdentityHash : Option String
  authorizationRevisionId : Option String
  decisionRevisionId : Option String
  state : ActionState

def ActionUpdate.apply (u : ActionUpdate) (r : JobAction) : JobAction :=
  { r with
    resourceIdentityHash := u.resourceIdentityHash.or r.resourceIdentityHash
    authorizationRevisionId := u.authorizationRevisionId.or r.authorizationRevisionId
    decisionRevisionId := u.decisionRevisionId.or r.decisionRevisionId
    state := u.state }

theorem ActionUpdate.apply_key (u : ActionUpdate) (r : JobAction) : (u.apply r).key = r.key := rfl

def recordJobAction (s : JobStore) (jobId action : String) (u : ActionUpdate) : JobStore :=
  { s with actions := s.actions.update (jobId, action) u.apply u.apply_key }

/-- A claim a worker was given. -/
structure JobClaim where
  workerId : String
  jobId : String
  fence : ℕ
  deriving DecidableEq

/-- What a worker does under a claim, or anyone to a job. -/
inductive JobOperation where
  | releaseJob
  | advanceJob (fromStatus toStatus : JobStatusV1) (terminalDetail : Option Json)
  | updateMember (position : ℕ) (u : MemberUpdate)
  | recordJobAction (action : String) (u : ActionUpdate)

def JobOperation.run (s : JobStore) (jobId : String) : JobOperation → Except JobError JobStore
  | .releaseJob => .ok (CodeGenerationJobs.releaseJob s jobId)
  | .advanceJob fromStatus toStatus terminalDetail =>
      CodeGenerationJobs.advanceJob s jobId fromStatus toStatus terminalDetail
  | .updateMember position u => CodeGenerationJobs.updateMember s jobId position u
  | .recordJobAction action u => .ok (CodeGenerationJobs.recordJobAction s jobId action u)

structure World where
  now : Instant
  store : JobStore
  /-- Every claim given out, oldest first. -/
  claims : List JobClaim

inductive Action where
  | tick (micros : ℕ)
  | createJob (jobId : String) (request : JobRequest)
  | claimDueJob (workerId : String) (leaseSeconds : ℤ) (jobId : String) (locked : List String)
  /-- On behalf of a claim, or of none: a route cancels a job without one. -/
  | operate (claim : Option JobClaim) (jobId : String) (operation : JobOperation)

/-- What the calls take from elsewhere. -/
structure Setup where
  jcsSha256 : Json → String
  /-- A number in a JSON document. -/
  count : ℕ → Json

/-- The store a call leaves: one that raises is rolled back. -/
def kept (s : JobStore) : Except JobError JobStore → JobStore
  | .ok s' => s'
  | .error _ => s

def step (setup : Setup) (w : World) : Action → Option World
  | .tick micros => some { w with now := w.now + micros }
  | .createJob jobId request =>
      let result := createJob setup.jcsSha256 setup.count w.store jobId request
      some { w with store := kept w.store (result.map Prod.fst) }
  | .claimDueJob workerId leaseSeconds jobId locked =>
      (claimDueJob w.store workerId leaseSeconds jobId locked w.now).map fun result =>
        { w with
          store := result.1
          claims := w.claims ++ [⟨workerId, jobId, result.2.leaseFence⟩] }
  | .operate claim jobId operation =>
      if ∀ c ∈ claim, c ∈ w.claims ∧ c.jobId = jobId then
        some { w with store := kept w.store (operation.run w.store jobId) }
      else none

structure Init (w : World) : Prop where
  jobs : w.store.jobs.rows = []
  claims : w.claims = []

end FeatureGen.CodeGenerationJobs
