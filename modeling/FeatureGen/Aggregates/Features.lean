import FeatureGen.Runtime.Timers

/-! # Features and their active versions

`aggregates/activation.py`, `consumers.py` and `feature_lifecycle.py` over the
feature streams and the table of active versions. A call that raises leaves
nothing behind; one after the other, their appends never conflict.
-/

namespace FeatureGen.Aggregates

open FeatureGen.Runtime

inductive ActivationState where
  | activeExperimental
  | production
  | deprecated
  deriving DecidableEq

/-- The payloads of a feature's events, and of the run a revalidation opens. -/
inductive FeaturePayload where
  | versionMinted (featureId featureVersionId producedByRun : String)
      (baseFeatureVersionId : Option String)
  | activationBlocked (featureId featureVersionId useCase : String)
      (baseFeatureVersionId : Option String) (approvalType guard : String)
      (guardInputs : JsonObject) (guardResult : Bool)
  | activationConflict (featureId featureVersionId useCase : String)
      (baseFeatureVersionId currentActiveVersionId reason : Option String)
  | versionActivated (featureId featureVersionId useCase : String)
      (baseFeatureVersionId : Option String) (activationState : ActivationState)
  | versionSuperseded (featureId featureVersionId useCase : String)
      (supersededVersionId : Option String)
  | versionQuiesced (featureId featureVersionId useCase : String)
      (impactedConsumers : List String) (graceSeconds : ℤ) (reason : Option String)
  | versionDeprecated (featureId featureVersionId useCase : String) (reason : Option String)
      (via : String)
  | versionExpired (featureId featureVersionId useCase : String)
  | consumerRegistered (featureId consumerId consumerKind consumerRef : String)
  | consumerDeregistered (featureId : String) (consumerId : Option String)
      (consumerKind consumerRef : String)
  | monitoringAlertRaised (featureId : String) (featureVersionId alertRef : Option String)
  | revalidationRequired (featureId : String) (featureVersionId reason : Option String)
  | revalidationOutcomeRecorded (featureId outcome : String)
      (featureVersionId newRunId : Option String)
  | runCreated (runId : String) (requestId featureId : Option String)
  deriving DecidableEq

/-- An event with its place in the log. -/
structure FeatureEvent where
  globalSeq : ℕ
  /-- The id of the stream. -/
  aggregateId : String
  payload : FeaturePayload
  deriving DecidableEq

/-- A row of `feature_active_versions`. -/
structure ActiveVersion where
  featureId : String
  useCase : String
  featureVersionId : String
  activationState : ActivationState
  activatedSeq : ℕ
  deriving DecidableEq

/-- Its primary key. -/
def ActiveVersion.slot (r : ActiveVersion) : String × String := (r.featureId, r.useCase)

/-- What the guards read of a frozen row of `feature_versions`. -/
structure FeatureVersion where
  featureVersionId : String
  featureId : String
  producedByRun : String
  baseFeatureVersionId : Option String
  verificationStamp : String
  riskTier : String
  blockedUseCases : List String
  requiredArtifactRefs : JsonObject

structure Consumer where
  consumerId : String
  featureId : String
  consumerKind : String
  consumerRef : String
  active : Bool

def Consumer.edge (c : Consumer) : String × String × String :=
  (c.featureId, c.consumerKind, c.consumerRef)

structure FeatureStore where
  events : List FeatureEvent
  nextSeq : ℕ
  active : Table ActiveVersion.slot
  versions : Table FeatureVersion.featureVersionId
  consumers : Table Consumer.edge
  timers : Timers
  queue : Queue JsonObject

structure GuardFailure where
  guard : String
  inputs : JsonObject
  result : Bool

/-- The injected `ActivationPolicy`. -/
abbrev ActivationPolicy := FeatureVersion → String → String → Option GuardFailure

/-- `DEFAULT_ACTIVATION_POLICY`: no threshold is set. -/
def defaultActivationPolicy : ActivationPolicy := fun _ _ _ => none

inductive FeatureFailure where
  /-- The registry or the inline-PII check refuses the event. -/
  | rejectedEvent
  | unknownVersion (featureVersionId : String)
  | crossFeatureActivation (featureVersionId owner featureId : String)
  | crossFeatureBase (featureVersionId owner featureId : String)
  | disallowedTimerCommand (action : String)
  /-- Any other constraint of the database. -/
  | violation

def FeatureFailure.message : FeatureFailure → String
  | .rejectedEvent => "event refused"
  | .unknownVersion featureVersionId => s!"unknown feature_version_id: '{featureVersionId}'"
  | .crossFeatureActivation featureVersionId owner featureId =>
      s!"cross-feature activation: feature_version_id='{featureVersionId}' belongs to " ++
        s!"feature_id='{owner}', not '{featureId}'"
  | .crossFeatureBase featureVersionId owner featureId =>
      s!"cross-feature base: base_feature_version_id='{featureVersionId}' " ++
        s!"belongs to feature_id='{owner}', not '{featureId}'"
  | .disallowedTimerCommand action =>
      s!"timer command action '{action}' is not allowlisted " ++
        "(allowed: ['deactivate_expired_version', 'finalize_deprecate'])"
  | .violation => "constraint violation"

/-- A command's verdict, its events named by their `global_seq`. -/
structure FeatureResult where
  accepted : Bool
  produced : List ℕ
  deniedReason : Option String

/-- The registry and the inline-PII check. -/
abbrev Accepts := FeaturePayload → Bool

namespace FeatureStore

/-- `append` to the stream of an aggregate. -/
def append (accepts : Accepts) (s : FeatureStore) (aggregateId : String)
    (payload : FeaturePayload) : Except FeatureFailure (FeatureStore × FeatureEvent) :=
  if accepts payload then
    let evt : FeatureEvent := ⟨s.nextSeq, aggregateId, payload⟩
    .ok ({ s with events := s.events ++ [evt], nextSeq := s.nextSeq + 1 }, evt)
  else .error .rejectedEvent

/-- `UPDATE feature_active_versions SET f WHERE p`, for an `f` that leaves the key alone. -/
def updateActive (s : FeatureStore) (p : ActiveVersion → Bool) (f : ActiveVersion → ActiveVersion)
    (hf : ∀ r, (f r).slot = r.slot) : FeatureStore :=
  { s with active := s.active.updateWhere p f hf }

/-- The version in a slot. -/
def holder (s : FeatureStore) (featureId useCase : String) : Option String :=
  (s.active.get? (featureId, useCase)).map (·.featureVersionId)

def loadGovernanceAttributes (s : FeatureStore) (featureVersionId : String) :
    Except FeatureFailure FeatureVersion :=
  match s.versions.get? featureVersionId with
  | some attrs => .ok attrs
  | none => .error (.unknownVersion featureVersionId)

/-- The composite foreign key of an active version. -/
def belongs (s : FeatureStore) (featureId featureVersionId : String) : Bool :=
  (s.versions.get? featureVersionId).any fun attrs => attrs.featureId = featureId

def loadFeature (s : FeatureStore) (featureId : String) : List FeatureEvent :=
  s.events.filter fun e => e.aggregateId = featureId

end FeatureStore

def evaluateActivationGuards (attrs : FeatureVersion) (useCase approvalType : String)
    (policy : Option ActivationPolicy) : Option GuardFailure :=
  if useCase ∈ attrs.blockedUseCases then
    some {
      guard := "use_case_not_blocked"
      inputs := [("target_use_case", .str useCase),
        ("blocked_use_cases", .arr (.ofList (attrs.blockedUseCases.map .str)))]
      result := false }
  else policy.getD defaultActivationPolicy attrs useCase approvalType

def ActiveVersion.claimedBy (featureVersionId : String) (state : ActivationState)
    (activatedSeq : ℕ) (r : ActiveVersion) : ActiveVersion :=
  { r with
    featureVersionId := featureVersionId
    activationState := state
    activatedSeq := activatedSeq }

theorem ActiveVersion.claimedBy_slot (featureVersionId : String) (state : ActivationState)
    (activatedSeq : ℕ) (r : ActiveVersion) :
    (r.claimedBy featureVersionId state activatedSeq).slot = r.slot := rfl

def ActiveVersion.withSeq (activatedSeq : ℕ) (r : ActiveVersion) : ActiveVersion :=
  { r with activatedSeq := activatedSeq }

theorem ActiveVersion.withSeq_slot (activatedSeq : ℕ) (r : ActiveVersion) :
    (r.withSeq activatedSeq).slot = r.slot := rfl

def ActiveVersion.markDeprecated (r : ActiveVersion) : ActiveVersion :=
  { r with activationState := .deprecated }

theorem ActiveVersion.markDeprecated_slot (r : ActiveVersion) : r.markDeprecated.slot = r.slot := rfl

def ActiveVersion.holds (featureId useCase featureVersionId : String) (r : ActiveVersion) : Bool :=
  r.slot = (featureId, useCase) ∧ r.featureVersionId = featureVersionId

/-- `_cas_claim_slot`: none if the slot is not at its base any more. -/
def casClaimSlot (s : FeatureStore) (featureId useCase newFv : String) (base : Option String)
    (state : ActivationState) (activatedSeq : ℕ) : Option FeatureStore :=
  match base with
  | none =>
      (s.active.insert? ⟨featureId, useCase, newFv, state, activatedSeq⟩).map fun active =>
        { s with active := active }
  | some base =>
      if s.holder featureId useCase = some base then
        some (s.updateActive (ActiveVersion.holds featureId useCase base)
          (ActiveVersion.claimedBy newFv state activatedSeq)
          (ActiveVersion.claimedBy_slot newFv state activatedSeq))
      else none

/-- `UPDATE … SET activated_seq WHERE feature_id AND use_case`. -/
def setActivatedSeq (s : FeatureStore) (featureId useCase : String) (activatedSeq : ℕ) :
    FeatureStore :=
  s.updateActive (fun r => r.slot = (featureId, useCase)) (ActiveVersion.withSeq activatedSeq)
    (ActiveVersion.withSeq_slot activatedSeq)

/-- What a timer's payload tells the command it names. -/
def timerPayload (handler featureId featureVersionId useCase : String) : JsonObject :=
  [("handler", .str handler), ("feature_id", .str featureId),
    ("feature_version_id", .str featureVersionId), ("use_case", .str useCase)]

def expiryKey (featureVersionId useCase : String) : String := s!"expiry:{featureVersionId}:{useCase}"

def expiryTimer (featureId featureVersionId useCase : String) (expiresAt : Instant) : NewTimer where
  kind := .experimentExpiry
  fireAt := expiresAt
  idempotencyKey := expiryKey featureVersionId useCase
  taskId := none
  businessCalendar := none
  casTaskVersion := none
  payload := timerPayload "deactivate_expired_version" featureId featureVersionId useCase

/-- The insert of a feature's timer, `ON CONFLICT (idempotency_key) DO NOTHING`. -/
def insertFeatureTimer (s : FeatureStore) (featureId timerId : String) (timer : NewTimer) :
    Except FeatureFailure FeatureStore :=
  match s.timers.insertNew (timer.row timerId "feature" featureId) with
  | some timers => .ok { s with timers := timers }
  | none => .error .violation

/-- `_schedule_expiry_timer`, with the id it mints. -/
def scheduleExpiryTimer (s : FeatureStore) (featureId featureVersionId useCase : String)
    (expiresAt : Instant) (timerId : String) : Except FeatureFailure FeatureStore :=
  insertFeatureTimer s featureId timerId (expiryTimer featureId featureVersionId useCase expiresAt)

/-- The arguments of `apply_activation`. -/
structure Activation where
  featureId : String
  featureVersionId : String
  useCase : String
  baseFeatureVersionId : Option String
  approvalType : String
  expiresAt : Option Instant
  policy : Option ActivationPolicy

structure ActivationResult where
  activated : Bool
  conflict : Bool
  event : Option ℕ

def activationStateOf (approvalType : String) : ActivationState :=
  if approvalType = "EXPERIMENTAL" then .activeExperimental else .production

def checkFeature (s : FeatureStore) (a : Activation) : Except FeatureFailure FeatureVersion := do
  let attrs ← s.loadGovernanceAttributes a.featureVersionId
  if attrs.featureId = a.featureId then
    match a.baseFeatureVersionId with
    | none => return attrs
    | some base =>
        let baseAttrs ← s.loadGovernanceAttributes base
        if baseAttrs.featureId = a.featureId then return attrs
        else throw (.crossFeatureBase base baseAttrs.featureId a.featureId)
  else throw (.crossFeatureActivation a.featureVersionId attrs.featureId a.featureId)

/-- The slot is the caller's: the event, its seq and the expiry timer. -/
def recordActivation (accepts : Accepts) (s : FeatureStore) (a : Activation) (timerId : String) :
    Except FeatureFailure (FeatureStore × ActivationResult) := do
  let state := activationStateOf a.approvalType
  let (s, evt) ← s.append accepts a.featureId (.versionActivated a.featureId a.featureVersionId
    a.useCase a.baseFeatureVersionId state)
  let s := setActivatedSeq s a.featureId a.useCase evt.globalSeq
  let s ←
    match state, a.expiresAt with
    | .activeExperimental, some expiresAt =>
        scheduleExpiryTimer s a.featureId a.featureVersionId a.useCase expiresAt timerId
    | _, _ => pure s
  return (s, ⟨true, false, some evt.globalSeq⟩)

def applyActivation (accepts : Accepts) (s : FeatureStore) (a : Activation) (timerId : String) :
    Except FeatureFailure (FeatureStore × ActivationResult) := do
  let current := s.holder a.featureId a.useCase
  if current = some a.featureVersionId then
    return (s, ⟨true, false, none⟩)
  let attrs ← checkFeature s a
  match evaluateActivationGuards attrs a.useCase a.approvalType a.policy with
  | some failure =>
      let (s, evt) ← s.append accepts a.featureId (.activationBlocked a.featureId
        a.featureVersionId a.useCase a.baseFeatureVersionId a.approvalType failure.guard
        failure.inputs failure.result)
      return (s, ⟨false, false, some evt.globalSeq⟩)
  | none =>
      if current ≠ a.baseFeatureVersionId then
        let (s, evt) ← s.append accepts a.featureId (.activationConflict a.featureId
          a.featureVersionId a.useCase a.baseFeatureVersionId current none)
        return (s, ⟨false, true, some evt.globalSeq⟩)
      match casClaimSlot s a.featureId a.useCase a.featureVersionId a.baseFeatureVersionId
          (activationStateOf a.approvalType) 0 with
      | none =>
          let (s, evt) ← s.append accepts a.featureId (.activationConflict a.featureId
            a.featureVersionId a.useCase a.baseFeatureVersionId none (some "lost_cas_race"))
          return (s, ⟨false, true, some evt.globalSeq⟩)
      | some claimed => recordActivation accepts claimed a timerId

def deactivateExpiredVersionCommand (accepts : Accepts) (s : FeatureStore)
    (featureId featureVersionId useCase : String) :
    Except FeatureFailure (FeatureStore × FeatureResult) :=
  match s.active.get? (featureId, useCase) with
  | none => .ok (s, ⟨true, [], none⟩)
  | some row =>
      if row.featureVersionId ≠ featureVersionId ∨ row.activationState ≠ .activeExperimental then
        .ok (s, ⟨true, [], none⟩)
      else do
        let (s, evt) ← s.append accepts featureId
          (.versionExpired featureId featureVersionId useCase)
        let active := s.active.deleteWhere fun r => r.slot = (featureId, useCase)
        return ({ s with active := active }, ⟨true, [evt.globalSeq], none⟩)

def supersedeCommand (accepts : Accepts) (s : FeatureStore) (featureId useCase newFv : String)
    (expectedPrior : Option String) : Except FeatureFailure (FeatureStore × FeatureResult) :=
  match expectedPrior.filter fun prior => prior ≠ "" with
  | none => .ok (s, ⟨false, [], some "supersede requires expected_prior (CAS)"⟩)
  | some expectedPrior => do
      let prior := s.holder featureId useCase
      let attrs ← s.loadGovernanceAttributes newFv
      match evaluateActivationGuards attrs useCase "PRODUCTION" none with
      | some failure =>
          let (s, evt) ← s.append accepts featureId (.activationBlocked featureId newFv useCase none
            "PRODUCTION" failure.guard failure.inputs failure.result)
          return (s, ⟨true, [evt.globalSeq], none⟩)
      | none =>
          if prior ≠ some expectedPrior then
            return (s, ⟨false, [], some "supersede CAS conflict"⟩)
          else if s.belongs featureId newFv then
            let s := s.updateActive (ActiveVersion.holds featureId useCase expectedPrior)
              (ActiveVersion.claimedBy newFv .production 0)
              (ActiveVersion.claimedBy_slot newFv .production 0)
            let (s, evt) ← s.append accepts featureId
              (.versionSuperseded featureId newFv useCase prior)
            return (setActivatedSeq s featureId useCase evt.globalSeq,
              ⟨true, [evt.globalSeq], none⟩)
          else throw .violation

def deprecateNow (accepts : Accepts) (s : FeatureStore) (featureId featureVersionId useCase : String)
    (reason : Option String) (via : String) :
    Except FeatureFailure (FeatureStore × FeatureResult) := do
  let (s, evt) ← s.append accepts featureId
    (.versionDeprecated featureId featureVersionId useCase reason via)
  let s := s.updateActive (ActiveVersion.holds featureId useCase featureVersionId)
    ActiveVersion.markDeprecated ActiveVersion.markDeprecated_slot
  return (s, ⟨true, [evt.globalSeq], none⟩)

def defaultGraceSeconds : ℤ := 7 * 24 * 3600

def quiesceKey (featureVersionId useCase : String) : String :=
  s!"quiesce:{featureVersionId}:{useCase}"

def quiesceTimer (featureId featureVersionId useCase : String) (fireAt : Instant) : NewTimer where
  kind := .businessRepair
  fireAt := fireAt
  idempotencyKey := quiesceKey featureVersionId useCase
  taskId := none
  businessCalendar := none
  casTaskVersion := none
  payload := timerPayload "finalize_deprecate" featureId featureVersionId useCase

def activeRefs (s : FeatureStore) (featureId : String) : List String :=
  (s.consumers.rows.filter fun c => c.featureId = featureId ∧ c.active).map (·.consumerRef)

/-- The arguments of `deprecate_command`. -/
structure Deprecation where
  featureId : String
  featureVersionId : String
  useCase : String
  forceQuiesce : Bool
  graceSeconds : Option ℤ
  reason : Option String

/-- The event of a forced deprecation. -/
def Deprecation.quiesced (a : Deprecation) (impactedConsumers : List String) : FeaturePayload :=
  .versionQuiesced a.featureId a.featureVersionId a.useCase impactedConsumers
    (a.graceSeconds.getD defaultGraceSeconds) a.reason

/-- `deprecate_command`. `clock` is the caller's `datetime.now`. -/
def deprecateCommand (accepts : Accepts) (s : FeatureStore) (a : Deprecation) (timerId : String)
    (clock : Instant) : Except FeatureFailure (FeatureStore × FeatureResult) :=
  let refs := activeRefs s a.featureId
  if refs ≠ [] ∧ !a.forceQuiesce then
    .ok (s, ⟨false, [], some (s!"deprecate blocked: {refs.length} active consumer(s)")⟩)
  else if refs ≠ [] then do
    let (s, evt) ← s.append accepts a.featureId (a.quiesced refs)
    let fireAt := clock + a.graceSeconds.getD defaultGraceSeconds * microsPerSecond
    let s ← insertFeatureTimer s a.featureId timerId
      (quiesceTimer a.featureId a.featureVersionId a.useCase fireAt)
    return (s, ⟨true, [evt.globalSeq], none⟩)
  else deprecateNow accepts s a.featureId a.featureVersionId a.useCase a.reason "direct"

def finalizeDeprecateCommand (accepts : Accepts) (s : FeatureStore)
    (featureId featureVersionId useCase : String) (reason : Option String) :
    Except FeatureFailure (FeatureStore × FeatureResult) :=
  match (s.active.get? (featureId, useCase)).filter fun r =>
      r.featureVersionId = featureVersionId with
  | none => .ok (s, ⟨true, [], none⟩)
  | some row =>
      if row.activationState = .deprecated then .ok (s, ⟨true, [], none⟩)
      else deprecateNow accepts s featureId featureVersionId useCase reason "quiesce"

def Consumer.activate (c : Consumer) : Consumer := { c with active := true }

theorem Consumer.activate_edge (c : Consumer) : c.activate.edge = c.edge := rfl

def Consumer.deregister (c : Consumer) : Consumer := { c with active := false }

theorem Consumer.deregister_edge (c : Consumer) : c.deregister.edge = c.edge := rfl

/-- `register_consumer_command`, with the id it mints. -/
def registerConsumerCommand (accepts : Accepts) (s : FeatureStore)
    (consumerId featureId consumerKind consumerRef : String) :
    Except FeatureFailure (FeatureStore × FeatureResult) := do
  if consumerKind = "model" ∨ consumerKind = "feature" then
    let consumers := s.consumers.upsert ⟨consumerId, featureId, consumerKind, consumerRef, true⟩
      Consumer.activate Consumer.activate_edge
    let edge := (featureId, consumerKind, consumerRef)
    let registered := ((consumers.get? edge).map (·.consumerId)).getD consumerId
    let (s, evt) ← FeatureStore.append accepts { s with consumers := consumers } featureId
      (.consumerRegistered featureId registered consumerKind consumerRef)
    return (s, ⟨true, [evt.globalSeq], none⟩)
  else throw .violation

def deregisterConsumerCommand (accepts : Accepts) (s : FeatureStore)
    (featureId consumerKind consumerRef : String) :
    Except FeatureFailure (FeatureStore × FeatureResult) := do
  let edge := (featureId, consumerKind, consumerRef)
  let consumerId := (s.consumers.get? edge).map (·.consumerId)
  let consumers := s.consumers.update edge Consumer.deregister Consumer.deregister_edge
  let (s, evt) ← FeatureStore.append accepts { s with consumers := consumers } featureId
    (.consumerDeregistered featureId consumerId consumerKind consumerRef)
  return (s, ⟨true, [evt.globalSeq], none⟩)

inductive LifecycleStage where
  | alertRaised
  | revalidationRequired
  | outcomeRecorded
  deriving DecidableEq

/-- `_LIFECYCLE_TYPES`. -/
def FeaturePayload.lifecycle : FeaturePayload → Option LifecycleStage
  | .monitoringAlertRaised .. => some .alertRaised
  | .revalidationRequired .. => some .revalidationRequired
  | .revalidationOutcomeRecorded .. => some .outcomeRecorded
  | _ => none

def lastLifecycle (s : FeatureStore) (featureId : String) : Option LifecycleStage :=
  ((s.loadFeature featureId).filterMap fun e => e.payload.lifecycle).getLast?

def raiseMonitoringAlertCommand (accepts : Accepts) (s : FeatureStore) (featureId : String)
    (featureVersionId alertRef : Option String) :
    Except FeatureFailure (FeatureStore × FeatureResult) := do
  let (s, evt) ← s.append accepts featureId
    (.monitoringAlertRaised featureId featureVersionId alertRef)
  return (s, ⟨true, [evt.globalSeq], none⟩)

def requireRevalidationCommand (accepts : Accepts) (s : FeatureStore) (featureId : String)
    (featureVersionId reason : Option String) :
    Except FeatureFailure (FeatureStore × FeatureResult) :=
  if lastLifecycle s featureId ≠ some .alertRaised then
    .ok (s, ⟨false, [], some "require_revalidation requires a prior MONITORING_ALERT"⟩)
  else do
    let (s, evt) ← s.append accepts featureId
      (.revalidationRequired featureId featureVersionId reason)
    return (s, ⟨true, [evt.globalSeq], none⟩)

def ActiveVersion.ofVersion (featureId featureVersionId : String) (r : ActiveVersion) : Bool :=
  r.featureId = featureId ∧ r.featureVersionId = featureVersionId

/-- The event of an outcome, after the run it opens. -/
def recordOutcome (accepts : Accepts) (s : FeatureStore) (featureId outcome : String)
    (featureVersionId requestId : Option String) (newRunId : String) :
    Except FeatureFailure (FeatureStore × FeatureResult) := do
  if outcome = "requires_change" then
    let (s, created) ← s.append accepts newRunId (.runCreated newRunId requestId (some featureId))
    let (s, evt) ← s.append accepts featureId
      (.revalidationOutcomeRecorded featureId outcome featureVersionId (some newRunId))
    return (s, ⟨true, [created.globalSeq, evt.globalSeq], none⟩)
  else
    let (s, evt) ← s.append accepts featureId
      (.revalidationOutcomeRecorded featureId outcome featureVersionId none)
    return (s, ⟨true, [evt.globalSeq], none⟩)

/-- `record_revalidation_outcome_command`, with the run id it mints. -/
def recordRevalidationOutcomeCommand (accepts : Accepts) (s : FeatureStore) (featureId outcome : String)
    (featureVersionId requestId : Option String) (newRunId : String) :
    Except FeatureFailure (FeatureStore × FeatureResult) :=
  if lastLifecycle s featureId ≠ some .revalidationRequired then
    .ok (s, ⟨false, [], some "record_revalidation_outcome requires REVALIDATION_REQUIRED"⟩)
  else if outcome = "deprecate" then
    match featureVersionId with
    | none => .ok (s, ⟨false, [], some "deprecate outcome requires feature_version_id"⟩)
    | some fv =>
        if s.active.rows.any (ActiveVersion.ofVersion featureId fv) then
          let s := s.updateActive (ActiveVersion.ofVersion featureId fv) ActiveVersion.markDeprecated
            ActiveVersion.markDeprecated_slot
          recordOutcome accepts s featureId outcome (some fv) requestId newRunId
        else .ok (s, ⟨false, [],
          some "deprecate outcome matched no active version (already superseded?)"⟩)
  else recordOutcome accepts s featureId outcome featureVersionId requestId newRunId

/-- `mint_feature_version`, with the id it mints. -/
def mintFeatureVersion (accepts : Accepts) (s : FeatureStore) (version : FeatureVersion) :
    Except FeatureFailure FeatureStore := do
  match s.versions.insert? version with
  | none => throw .violation
  | some versions =>
      let (s, _) ← FeatureStore.append accepts { s with versions := versions } version.featureId
        (.versionMinted version.featureId version.featureVersionId version.producedByRun
          version.baseFeatureVersionId)
      return s

def JsonObject.text? (payload : JsonObject) (field : String) : Option String :=
  match payload.lookup field with
  | some (.str text) => some text
  | _ => none

/-- `dispatch_timer_command`: a fired timer's message runs the command it names. -/
def dispatchTimerCommand (accepts : Accepts) (s : FeatureStore) (payload : JsonObject) :
    Except FeatureFailure (FeatureStore × FeatureResult) :=
  match JsonObject.text? payload "handler", JsonObject.text? payload "feature_id",
      JsonObject.text? payload "feature_version_id", JsonObject.text? payload "use_case" with
  | some action, some featureId, some featureVersionId, some useCase =>
      if action = "deactivate_expired_version" then
        deactivateExpiredVersionCommand accepts s featureId featureVersionId useCase
      else if action = "finalize_deprecate" then
        finalizeDeprecateCommand accepts s featureId featureVersionId useCase none
      else .error (.disallowedTimerCommand action)
  | _, _, _, _ => .error .violation

end FeatureGen.Aggregates
