import FeatureGen.Runtime.Timers

/-! # Human gate tasks

`gates/tasks.py`: tasks that people answer, under a quorum of distinct
authorities. A response is stored under the acting subject; the authority of
record is the principal when the actor answers as a delegate. A call that raises
rolls its transaction back.
-/

namespace FeatureGen.Gates

open FeatureGen.Runtime

inductive Gate where
  | clarification
  | dataSteward
  | compliance
  | independentValidation
  | finalApproval
  | overlayDataOwner
  | overlayCompliance
  | useCaseOnboarding
  deriving DecidableEq

inductive TaskStatus where
  | open
  | answered
  | conflict
  | expired
  | cancelled
  | superseded
  deriving DecidableEq

/-- What the gates read of an `IdentityEnvelope`. -/
structure Identity where
  subject : String
  actorKind : String
  authenticated : Bool
  authMethod : String
  roleClaims : List String
  groups : List String
  attestation : Option String
  /-- The builders take only subjects under `user:` and `service:`. -/
  subject_named : subject ≠ ""

structure GateTaskSpec where
  gate : Gate
  requiredInputs : List String
  eligibleAssignees : List (String × String)
  allowedResponses : List String
  runId : Option String
  featureId : Option String
  quorumRequired : ℤ
  quorumOfRole : Option String
  delegationAllowed : Bool
  sla : Option String
  factKey : Option String
  draftEventId : Option String
  targetEventId : Option String
  evidenceRef : Option String

/-- A row of `human_tasks`: what it was opened with, its version and its status. -/
structure HumanTask where
  taskId : String
  spec : GateTaskSpec
  taskVersion : ℤ
  status : TaskStatus

/-- A row of `human_task_responses`. -/
structure Response where
  taskId : String
  subject : String
  response : String
  onBehalfOf : Option String
  answeredSeq : ℕ

/-- `PRIMARY KEY (task_id, subject)`. -/
def Response.key (r : Response) : String × String := (r.taskId, r.subject)

/-- `coalesce(on_behalf_of, subject)`. -/
def Response.authority (r : Response) : String := r.onBehalfOf.getD r.subject

/-- A row of `task_delegations`. -/
structure Delegation where
  taskId : String
  principal : String
  delegate : String
  grantedBy : String

/-- `PRIMARY KEY (task_id, principal, delegate)`. -/
def Delegation.key (d : Delegation) : String × String × String :=
  (d.taskId, d.principal, d.delegate)

/-- What `resolve_run_author` reads of an event of a run. -/
structure RunEvent where
  runId : String
  streamVersion : ℕ
  subject : Option String

structure Store where
  tasks : Table HumanTask.taskId
  responses : Table Response.key
  delegations : Table Delegation.key
  timers : Timers
  queue : Queue JsonObject
  runEvents : List RunEvent
  globalSeq : ℕ

/-- What a call raises. -/
inductive Failure where
  /-- `IdentityError`. -/
  | identity (message : String)
  /-- `GateError`. -/
  | unknownTask (taskId : String)
  | notOpen (taskId : String) (status : TaskStatus)
  | invalidCancelStatus (status : TaskStatus)
  /-- `IneligibleResponderError`. -/
  | delegationNotAllowed
  | principalIsDelegate
  | noGrant
  | lacksRole (role : String)
  | lacksScope (scope : String)
  | lacksQuorumRole (role : String)
  /-- `ResponseNotAllowedError`. -/
  | responseNotAllowed (response : String) (allowed : List String)
  /-- `SoDViolationError`. -/
  | sod (reason : String)
  /-- `ValueError` of `parse_duration`. -/
  | unsupportedDuration (text : String)
  /-- The database's own. -/
  | notNullViolation
  | uniqueViolation

structure SignalResult where
  taskId : String
  status : TaskStatus
  counted : Bool
  quorumMet : Bool
  deriving DecidableEq

/-- The digits of a Python integer, a single underscore allowed between two. -/
def pythonDigits (value : ℕ) (afterDigit : Bool) : List Char → Option ℕ
  | [] => if afterDigit then some value else none
  | c :: cs =>
      if c.isDigit then pythonDigits (value * 10 + (c.toNat - '0'.toNat)) true cs
      else if c = '_' ∧ afterDigit then pythonDigits value false cs
      else none

/-- `int(text)`, over ASCII. -/
def pythonInt (text : List Char) : Option ℤ :=
  match (text.dropWhile Char.isWhitespace).rdropWhile Char.isWhitespace with
  | '-' :: cs => (pythonDigits 0 false cs).map fun n => -(n : ℤ)
  | '+' :: cs => (pythonDigits 0 false cs).map fun n => (n : ℤ)
  | cs => (pythonDigits 0 false cs).map fun n => (n : ℤ)

/-- `parse_duration`, in microseconds. -/
def parseDuration (text : String) : Option ℤ :=
  match text.toList.getLast?, pythonInt text.toList.dropLast with
  | some 'd', some n => some (n * 24 * 3600 * microsPerSecond)
  | some 'h', some n => some (n * 3600 * microsPerSecond)
  | some 'm', some n => some (n * 60 * microsPerSecond)
  | _, _ => none

/-- A string Python takes as true. -/
def truthy (text : Option String) : Option String := text.filter fun s => s ≠ ""

theorem truthy_some {text : String} (h : text ≠ "") : truthy (some text) = some text := by
  simp [truthy, Option.filter, h]

/-- `_task_aggregate`: its id can be missing. -/
def taskAggregate (runId featureId factKey : Option String) : String × Option String :=
  match truthy factKey, truthy runId with
  | some factKey, _ => ("overlay_fact", some factKey)
  | none, some runId => ("run", some runId)
  | none, none => ("feature", featureId)

/-- The rungs of `open_task`'s ladder, with the text of their keys. -/
def ladder (sla : ℤ) : List (TimerKind × ℤ) :=
  [(.reminder, sla / 2), (.sla, sla), (.escalation, sla + sla / 2), (.autoPark, sla * 2)]

def rung (taskId aggregate aggregateId timerId : String) (kind : TimerKind) (fireAt : Instant) :
    Timer where
  timerId := timerId
  idempotencyKey := s!"{taskId}:{kind.text}"
  aggregate := aggregate
  aggregateId := aggregateId
  taskId := some taskId
  kind := kind
  fireAt := fireAt
  businessCalendar := none
  status := .scheduled
  leaseOwner := none
  leaseExpiresAt := none
  casTaskVersion := some 1
  payload := []

def insertLadder (t : Timers) (taskId aggregate aggregateId : String) (clock : Instant) :
    List ((TimerKind × ℤ) × String) → Option Timers
  | [] => some t
  | ((kind, offset), timerId) :: rungs =>
      match t.insert? (rung taskId aggregate aggregateId timerId kind (clock + offset)) with
      | none => none
      | some t => insertLadder t taskId aggregate aggregateId clock rungs

/-- `open_task`, with the ids it mints. -/
def openTask (s : Store) (spec : GateTaskSpec) (taskId : String) (timerIds : List String)
    (clock : Instant) : Except Failure Store :=
  match s.tasks.insert? { taskId := taskId, spec := spec, taskVersion := 1, status := .open } with
  | none => .error .uniqueViolation
  | some tasks =>
      match truthy spec.sla with
      | none => .ok { s with tasks := tasks }
      | some sla =>
          match parseDuration sla with
          | none => .error (.unsupportedDuration sla)
          | some sla =>
              match taskAggregate spec.runId spec.featureId spec.factKey with
              | (_, none) => .error .notNullViolation
              | (aggregate, some aggregateId) =>
                  match insertLadder s.timers taskId aggregate aggregateId clock
                    ((ladder sla).zip timerIds) with
                  | none => .error .uniqueViolation
                  | some timers => .ok { s with tasks := tasks, timers := timers }

def HumanTask.bumped (t : HumanTask) : HumanTask := { t with taskVersion := t.taskVersion + 1 }

theorem HumanTask.bumped_taskId (t : HumanTask) : t.bumped.taskId = t.taskId := rfl

def HumanTask.withStatus (status : TaskStatus) (t : HumanTask) : HumanTask :=
  { t with status := status }

theorem HumanTask.withStatus_taskId (status : TaskStatus) (t : HumanTask) :
    (t.withStatus status).taskId = t.taskId := rfl

def bumpTaskVersion (s : Store) (taskId : String) : Except Failure Store :=
  match s.tasks.get? taskId with
  | none => .error (.unknownTask taskId)
  | some _ => .ok { s with tasks := s.tasks.update taskId .bumped HumanTask.bumped_taskId }

def closeTask (tasks : Table HumanTask.taskId) (taskId : String) (status : TaskStatus) :
    Table HumanTask.taskId :=
  tasks.updateWhere (fun t => t.taskId = taskId ∧ t.status = .open) (HumanTask.withStatus status)
    (HumanTask.withStatus_taskId status)

theorem mem_closeTask {tasks : Table HumanTask.taskId} {taskId : String} {status : TaskStatus}
    {x : HumanTask} : x ∈ closeTask tasks taskId status ↔
      ∃ t ∈ tasks, x = if t.taskId = taskId ∧ t.status = .open then t.withStatus status else t := by
  rw [closeTask, Table.mem_updateWhere]
  simp only [decide_eq_true_eq]

def cancelTask (s : Store) (taskId : String) (newStatus : TaskStatus) : Except Failure Store :=
  if newStatus ≠ .cancelled ∧ newStatus ≠ .superseded then .error (.invalidCancelStatus newStatus)
  else .ok { s with
    tasks := closeTask s.tasks taskId newStatus
    timers := cancelScheduledTimers s.timers taskId }

def cancelTasksOnRunAdvance (s : Store) (runId : String) (newStatus : TaskStatus) :
    Except Failure Store :=
  let openIds := (s.tasks.rows.filter fun t => t.spec.runId = some runId ∧ t.status = .open).map
    (·.taskId)
  openIds.foldlM (fun s taskId => cancelTask s taskId newStatus) s

def validateIdentity (env : Identity) : Except Failure Unit :=
  if ¬ env.authenticated then .error (.identity "actor not authenticated")
  else if env.actorKind = "service" then
    if env.authMethod ≠ "workload-identity" ∧ env.authMethod ≠ "internal" then
      .error (.identity
        "service actor must authenticate via workload-identity or internal trust root")
    else if truthy env.attestation = none then
      .error (.identity
        "service role_claims must be attested by a signed deploy identity, not self-asserted")
    else .ok ()
  else if env.actorKind = "human" then
    if env.authMethod ≠ "oidc" ∧ env.authMethod ≠ "password" then
      .error (.identity "human actor must authenticate via oidc or password")
    else .ok ()
  else .error (.identity s!"unknown actor_kind: {env.actorKind}")

/-- The roles and the scope a task asks of an authority. -/
def checkEligible (spec : GateTaskSpec) (env : Identity) : Except Failure Unit :=
  match (spec.eligibleAssignees.lookup "role").filter (· ∉ env.roleClaims) with
  | some role => .error (.lacksRole role)
  | none =>
      match (spec.eligibleAssignees.lookup "scope").filter (· ∉ env.groups) with
      | some scope => .error (.lacksScope scope)
      | none =>
          match spec.quorumOfRole.filter (· ∉ env.roleClaims) with
          | some role => .error (.lacksQuorumRole role)
          | none => .ok ()

def grantTaskDelegation (s : Store) (taskId : String) (principal : Identity)
    (delegateSubject : String) (grantedBy : Identity) : Except Failure Store :=
  match s.tasks.get? taskId with
  | none => .error (.unknownTask taskId)
  | some task =>
      if task.status ≠ .open then .error (.notOpen taskId task.status)
      else if ¬ task.spec.delegationAllowed then .error .delegationNotAllowed
      else if principal.subject = delegateSubject then .error .principalIsDelegate
      else
        match checkEligible task.spec principal with
        | .error failure => .error failure
        | .ok () =>
            let grant : Delegation := ⟨taskId, principal.subject, delegateSubject, grantedBy.subject⟩
            .ok { s with delegations := s.delegations.insertNew grant }

/-- The authority an answer counts for: the principal, or the actor itself. -/
def authorityOf (s : Store) (task : HumanTask) (actor : Identity) (onBehalfOf : Option String) :
    Except Failure String :=
  match onBehalfOf with
  | some principal =>
      if ¬ task.spec.delegationAllowed then .error .delegationNotAllowed
      else if principal = actor.subject then .error .principalIsDelegate
      else
        match s.delegations.get? (task.taskId, principal, actor.subject) with
        | none => .error .noGrant
        | some _ => .ok principal
  | none =>
      match checkEligible task.spec actor with
      | .error failure => .error failure
      | .ok () => .ok actor.subject

/-- `resolve_run_author`: the subject of the run's first event. -/
def resolveRunAuthor (s : Store) (runId : String) : Option String :=
  (firstBy (fun e e' => e.streamVersion < e'.streamVersion)
    (s.runEvents.filter fun e => e.runId = runId)).bind (·.subject)

/-- `gather_gate_responders`, by run. -/
def gatherGateResponders (s : Store) (gate : Gate) (runId : String) : List String :=
  (s.responses.rows.filter fun r => s.tasks.rows.any fun t =>
    t.taskId = r.taskId ∧ t.spec.gate = gate ∧ t.spec.runId = some runId).map Response.authority

def gateSodReason (s : Store) (gate : Gate) (subject : String) (runId : Option String) :
    Option String :=
  let author := (truthy runId).bind (resolveRunAuthor s)
  match gate with
  | .independentValidation =>
      if author = some subject then some "independent validation requires validator != author"
      else none
  | .finalApproval =>
      if author = some subject then some "four-eyes: approver != requester"
      else
        match truthy runId with
        | none => none
        | some runId =>
            if subject ∈ gatherGateResponders s .independentValidation runId then
              some "three-party: approver != validator"
            else none
  | _ => none

/-- A call of `submit_human_signal`. -/
structure Signal where
  taskId : String
  response : String
  actor : Identity
  expectedTaskVersion : ℤ
  onBehalfOf : Option String

/-- The checks of `submit_human_signal`: an early result, or the task and the
    authority the answer counts for. -/
def screenSignal (s : Store) (signal : Signal) : Except Failure (SignalResult ⊕ HumanTask × String) :=
  match validateIdentity signal.actor with
  | .error failure => .error failure
  | .ok () =>
      match s.tasks.get? signal.taskId with
      | none => .error (.unknownTask signal.taskId)
      | some task =>
          if task.status ≠ .open then
            .ok (.inl ⟨signal.taskId, task.status, false, task.status = .answered⟩)
          else if signal.expectedTaskVersion ≠ task.taskVersion then
            .ok (.inl ⟨signal.taskId, task.status, false, false⟩)
          else if signal.response ∉ task.spec.allowedResponses then
            .error (.responseNotAllowed signal.response task.spec.allowedResponses)
          else
            match authorityOf s task signal.actor signal.onBehalfOf with
            | .error failure => .error failure
            | .ok authority =>
                match gateSodReason s task.spec.gate authority task.spec.runId with
                | some reason => .error (.sod reason)
                | none => .ok (.inr (task, authority))

def responsesOf (s : Store) (taskId : String) : List Response :=
  s.responses.rows.filter fun r => r.taskId = taskId

/-- The insert of an answer, and whether it is counted. -/
def recordResponse (s : Store) (signal : Signal) (authority : String) : Store × Bool :=
  if (responsesOf s signal.taskId).any fun r => r.authority = authority then (s, false)
  else
    -- ON CONFLICT (task_id, subject) DO NOTHING, counted all the same
    let row : Response :=
      ⟨signal.taskId, signal.actor.subject, signal.response, signal.onBehalfOf, s.globalSeq⟩
    ({ s with responses := s.responses.insertNew row, globalSeq := s.globalSeq + 1 }, true)

/-- `d[key] = value`. -/
def dictSet (d : List (String × String)) (key value : String) : List (String × String) :=
  if d.any fun entry => entry.1 = key then
    d.map fun entry => if entry.1 = key then (key, value) else entry
  else d ++ [(key, value)]

/-- The dict of `obo or subj` to response. -/
def authoritiesOf (rows : List Response) : List (String × String) :=
  rows.foldl (fun d r => dictSet d ((truthy r.onBehalfOf).getD r.subject) r.response) []

def setTaskStatus (s : Store) (taskId : String) (status : TaskStatus) : Store :=
  { s with
    tasks := s.tasks.update taskId (HumanTask.withStatus status)
      (HumanTask.withStatus_taskId status)
    timers := cancelScheduledTimers s.timers taskId }

theorem mem_setTaskStatus {s : Store} {taskId : String} {status : TaskStatus} {x : HumanTask} :
    x ∈ (setTaskStatus s taskId status).tasks ↔
      ∃ t ∈ s.tasks, x = if t.taskId = taskId then t.withStatus status else t := by
  rw [setTaskStatus, Table.mem_update]

def conflictEscalation (task : HumanTask) (aggregate aggregateId timerId : String)
    (clock : Instant) : Timer where
  timerId := timerId
  idempotencyKey := s!"{task.taskId}:conflict-escalation"
  aggregate := aggregate
  aggregateId := aggregateId
  taskId := some task.taskId
  kind := .escalation
  fireAt := clock
  businessCalendar := none
  status := .scheduled
  leaseOwner := none
  leaseExpiresAt := none
  casTaskVersion := some task.taskVersion
  payload := []

/-- What `submit_human_signal` does about the quorum: the status it returns, and
    whether the quorum is met. -/
def settleQuorum (s : Store) (task : HumanTask) (timerId : String) (clock : Instant) :
    Except Failure (Store × TaskStatus × Bool) :=
  let authorities := authoritiesOf (responsesOf s task.taskId)
  if (authorities.length : ℤ) < task.spec.quorumRequired then .ok (s, task.status, false)
  else if (authorities.map (·.2)).dedup.length = 1 then
    .ok (setTaskStatus s task.taskId .answered, .answered, true)
  else
    match taskAggregate task.spec.runId task.spec.featureId none with
    | (_, none) => .error .notNullViolation
    | (aggregate, some aggregateId) =>
        let s := setTaskStatus s task.taskId .conflict
        match s.timers.insertNew (conflictEscalation task aggregate aggregateId timerId clock) with
        | none => .error .uniqueViolation
        | some timers => .ok ({ s with timers := timers }, .conflict, false)

/-- `submit_human_signal`, with the timer id it may mint. -/
def submitHumanSignal (s : Store) (signal : Signal) (timerId : String) (clock : Instant) :
    Except Failure (Store × SignalResult) :=
  match screenSignal s signal with
  | .error failure => .error failure
  | .ok (.inl result) => .ok (s, result)
  | .ok (.inr (task, authority)) =>
      let (s, counted) := recordResponse s signal authority
      match settleQuorum s task timerId clock with
      | .error failure => .error failure
      | .ok (s, status, quorumMet) => .ok (s, ⟨signal.taskId, status, counted, quorumMet⟩)

end FeatureGen.Gates
