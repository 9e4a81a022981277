import FeatureGen.Lib.Checks
import FeatureGen.Lib.Transition
import FeatureGen.Overlay.FieldResolution

/-! # The field-correction command

`overlay/upload/field_correction.py`: the five actions on the human-editable fields of an
asset, and the seam of the profile surface; `logical_ref_of` of
`overlay/upload/column_authority.py` and the visibility of an anchor of
`overlay/upload/read_scope.py`. The contracts and candidate sets that a projecting
correction invalidates are left out.
-/

namespace FeatureGen.GovernedFields

open Overlay Checks

inductive CorrectionAction where
  | confirmExisting
  | proposeOverride
  | confirmOverride
  | reject
  | setAdvisory

namespace CorrectionAction

def value : CorrectionAction → String
  | confirmExisting => "confirm_existing"
  | proposeOverride => "propose_override"
  | confirmOverride => "confirm_override"
  | reject => "reject"
  | setAdvisory => "set_advisory"

/-- `ACTIONS`. -/
def all : List CorrectionAction :=
  [confirmExisting, proposeOverride, confirmOverride, reject, setAdvisory]

def ofText (text : String) : Option CorrectionAction := all.find? fun a => a.value = text

/-- The outcome that `_success_body` names. -/
def outcome : CorrectionAction → String
  | confirmExisting | confirmOverride | setAdvisory => "confirmed"
  | proposeOverride => "proposed"
  | reject => "rejected"

/-- `_PROJECTING_ACTIONS`. -/
def projects : CorrectionAction → Bool
  | confirmExisting | confirmOverride | reject => true
  | proposeOverride | setAdvisory => false

end CorrectionAction

structure Actor where
  subject : String
  roleClaims : List String

/-- The arguments of `apply_field_correction`. -/
structure Correction where
  source : String
  objectRef : String
  field : String
  action : String
  actor : Actor
  idempotencyKey : String
  expectedLatestDecisionId : Option String
  expectedEvidenceSetHash : String
  expectedPolicyVersion : String
  selectedEvidenceIds : List String
  replacementValue : Option String
  note : Option String

/-- `_success_body`. -/
structure Body where
  field : String
  action : String
  outcome : String
  replayed : Bool
  projected : Bool
  latestDecisionId : Option String
  evidenceSetHash : String
  policyVersion : String
  actions : List String

inductive Response where
  | accepted (body : Body)
  | denied (reason : String)

/-- What an action did: it was denied, or took effect. -/
inductive Effect where
  | denied (reason : String)
  | applied (projected : Bool)

/-- `SENSITIVITY_ROLES`, `RESTRICTION_ROLES`: a class, and the role that grants it. -/
def visibilityRoles : List (String × String) :=
  [("pii", "pii_reader"), ("restricted", "restricted_reader"),
    ("confidential", "confidential_reader"), ("restricted", "restricted_reader")]

def allowedClasses (roles : List String) : List String :=
  KeySort.sortBy id ((visibilityRoles.filter fun entry => roles.contains entry.2).map (·.1)).dedup

/-- The generated column `visible_requires`. -/
def GraphNode.visibleRequires (node : GraphNode) : List String :=
  if node.columns "effective_restriction" = some "prohibited" then ["prohibited"]
  else if node.columns "sensitivity" = some "pii" ∨ node.columns "sensitivity" = some "restricted"
  then (node.columns "sensitivity").toList
  else if node.columns "effective_restriction" = some "confidential" ∨
      node.columns "effective_restriction" = some "restricted"
  then (node.columns "effective_restriction").toList
  else []

def GraphNode.seenBy (allowed : List String) (node : GraphNode) : Bool :=
  node.visibleRequires.all allowed.contains

/-- `anchor_visibility_predicate`: a table is seen where a column of it is. -/
def anchorVisible (db : Db) (allowed : List String) (node : GraphNode) : Bool :=
  if node.kind = "table" then
    db.graph.any fun c => c.catalogSource = node.catalogSource && c.kind = "column" &&
      c.tableName = node.tableName && c.seenBy allowed
  else node.seenBy allowed

def GraphNode.identifiedBy (source objectRef : String) (node : GraphNode) : Bool :=
  node.catalogSource = source && node.objectRef = objectRef

section Refs

variable (ext : Externals)

def GraphNode.logicalRef (node : GraphNode) : String :=
  normalizeRef ext.lower node.catalogSource node.schemaName node.tableName
    (if node.kind = "column" then node.columnName else none)

/-- `logical_ref_of`, of an object that no node describes. -/
def rowlessRef (source objectRef : String) (kind : Option String) : Except Failure String :=
  match (Text.split '.' objectRef).reverse, kind with
  | [_], _ => .ok (normalizeRef ext.lower source (some "public") objectRef none)
  | [table, _], some "table" => .ok (normalizeRef ext.lower source (some "public") table none)
  | [column, table], some "column" =>
      .ok (normalizeRef ext.lower source (some "public") table (some column))
  | column :: table :: _ :: _, _ =>
      .ok (normalizeRef ext.lower source (some "public") table (some column))
  | _, _ => .error (.raised
      (s!"ambiguous two-part object_ref {Text.repr objectRef} for {Text.repr source}: no " ++
        "graph_node row declares its kind — pass kind='table' or kind='column' explicitly"))

def logicalRefOf (db : Db) (source objectRef : String) (kind : Option String) :
    Except Failure String :=
  match db.graph.find? (·.identifiedBy source objectRef) with
  | some node => .ok (node.logicalRef ext)
  | none => rowlessRef ext source objectRef kind

end Refs

/-- `_MAX_LEN`, `_DEFAULT_MAX_LEN`. -/
def maxLen (field : String) : ℕ :=
  if field = "definition" ∨ field = "business_context" then 4000 else 512

def authorityRoles : List String :=
  ["system_of_record", "mastered_view", "authoritative_replica", "non_authoritative_replica",
    "derived", "external_reference", "unknown"]

def temporalStorageModels : List String :=
  ["current_only", "scd1", "scd2", "snapshot", "event_log", "unknown"]

section Commands

variable (ext : Externals)

def normalizeMember (vocabulary : List String) (raw : String) : Option String :=
  let v := ext.lower (strip raw)
  if vocabulary.contains v then some v else none

/-- `_KNOWN_VOCAB_VALIDATORS`. -/
def vocabValid (field v : String) : Bool :=
  if field = "concept" then (ext.concept v).isSome
  else if field = "authority_role" then normalizeMember ext authorityRoles v = some v
  else if field = "temporal_storage_model" then
    normalizeMember ext temporalStorageModels v = some v
  else true

def boundedText : Json → String
  | .null => ""
  | .str s => s
  | value => ext.str value

def checkBounds (field : String) (value : Json) : Except Failure Unit := do
  let text := boundedText ext value
  ensure (strip text ≠ "") (.refused 400 "replacement_value must be a non-empty value")
  ensure (text.length ≤ maxLen field)
    (.refused 400 s!"replacement_value exceeds the {field} bound of {maxLen field} characters")
  ensure (vocabValid ext field (strip text))
    (.refused 400 s!"{Text.repr (strip text)} is not a recognized {field} (unrecognized_vocab)")

def FieldEvidence.humanProposal (e : FieldEvidence) : Bool :=
  e.producer = .human && e.strength = .proposed

/-- `_proposed_by_actor`. -/
def FieldEvidence.proposedBy (subject : String) (e : FieldEvidence) : Bool :=
  e.producer = .human && e.producerRef = subject

def setAdvisoryFields : List String := ["business_context"]

def callableActions (db : Db) (logicalRef field subject : String) : List String :=
  let active := readActiveFieldEvidence db logicalRef field
  KeySort.sortBy id (["propose_override", "reject"] ++
    (if setAdvisoryFields.contains field then ["set_advisory"] else []) ++
    (if active.any (fun e => !e.proposedBy subject) then ["confirm_existing"] else []) ++
    (if active.any (fun e => e.humanProposal && e.producerRef ≠ subject) then
      ["confirm_override"] else []))

def currentCas (db : Db) (logicalRef field : String) : Option String × String × String :=
  ((latestDecision db logicalRef field).map (·.decisionEventId),
    evidenceSetHash ext (readActiveFieldEvidence db logicalRef field), fieldPolicyVersion)

def Correction.expectedCas (cmd : Correction) : Option String × String × String :=
  (cmd.expectedLatestDecisionId, cmd.expectedEvidenceSetHash, cmd.expectedPolicyVersion)

def successBody (db : Db) (logicalRef : String) (cmd : Correction) (action : CorrectionAction)
    (projected replayed : Bool) : Body where
  field := cmd.field
  action := action.value
  outcome := if replayed then "replayed" else action.outcome
  replayed := replayed
  projected := projected
  latestDecisionId := (currentCas ext db logicalRef cmd.field).1
  evidenceSetHash := (currentCas ext db logicalRef cmd.field).2.1
  policyVersion := (currentCas ext db logicalRef cmd.field).2.2
  actions := callableActions db logicalRef cmd.field cmd.actor.subject

def commandSnapshotId (idempotencyKey : String) : String := "human-correction:" ++ idempotencyKey

/-- The request fingerprint. -/
def Correction.inputHash (cmd : Correction) (logicalRef : String) : String :=
  fieldInputHash ext logicalRef cmd.field (.obj (.ofList [("action", .str cmd.action),
    ("replacement_value", .ofOption cmd.replacementValue),
    ("selected_evidence_ids",
      .arr (.ofList ((KeySort.sortBy id cmd.selectedEvidenceIds).map .str))),
    ("subject", .str cmd.actor.subject),
    ("idempotency_key", .str cmd.idempotencyKey)]))

/-- The row that `_append_human_evidence` appends. -/
def Correction.evidence (cmd : Correction) (logicalRef : String) (value : Json)
    (strength : AssertionStrength) (lifecycle : EvidenceLifecycle) (spans : List String) :
    Proposal where
  logicalRef := logicalRef
  fieldName := cmd.field
  proposedValue := value
  producer := .human
  strength := strength
  lifecycle := lifecycle
  producerRef := cmd.actor.subject
  producerItemRef := some cmd.idempotencyKey
  sourceSnapshotId := commandSnapshotId cmd.idempotencyKey
  inputHash := cmd.inputHash ext logicalRef
  evidenceSpans := spans
  note := cmd.note

def appendHumanEvidence (db : Db) (cmd : Correction) (logicalRef : String) (value : Json)
    (strength : AssertionStrength) (lifecycle : EvidenceLifecycle) (spans : List String)
    (now : ℤ) : Db × String :=
  recordFieldEvidence ext db (cmd.evidence ext logicalRef value strength lifecycle spans) now

def FieldEvidence.ownPrior (logicalRef field subject keepValueHash : String) (e : FieldEvidence) :
    Bool :=
  e.activeFor logicalRef field && e.humanProposal && e.producerRef = subject &&
    e.proposedValueHash ≠ keepValueHash

/-- `_supersede_own_prior_proposal`, with the number of rows superseded. -/
def supersedeOwnPriorProposal (db : Db) (logicalRef field subject keepValueHash : String) :
    Db × ℕ :=
  let own := FieldEvidence.ownPrior logicalRef field subject keepValueHash
  (moveEvidence db .superseded own, db.evidence.rows.countP own)

def deny (db : Db) (logicalRef : String) (cmd : Correction) (reason : String) : Db × Effect :=
  ({ db with denials := db.denials ++
    [⟨"field_correction:" ++ cmd.action, cmd.actor.subject, reason, logicalRef⟩] },
    .denied reason)

section Actions

variable (source logicalRef : String) (cmd : Correction) (now : ℤ)

/-- An active row is appended, and the field resolved anew. -/
def appendAndResolve (db : Db) (value : Json) (strength : AssertionStrength)
    (spans : List String) : Except Failure (Db × Effect) := do
  let appended := (appendHumanEvidence ext db cmd logicalRef value strength .active spans now).1
  let db ← resolveAndProject ext appended source [logicalRef] (some [cmd.field]) now
  return (db, .applied true)

def setAdvisory (db : Db) : Except Failure (Db × Effect) := do
  ensure (setAdvisoryFields.contains cmd.field)
    (.refused 403 (s!"field {Text.repr cmd.field} is not set_advisory-eligible; use " ++
      "propose_override/confirm_override (four-eyes) or the field's dedicated command"))
  checkBounds ext cmd.field (.ofOption cmd.replacementValue)
  appendAndResolve ext source logicalRef cmd now db (.ofOption cmd.replacementValue) .confirmed []

def proposeOverride (policy : FieldPolicy) (db : Db) : Except Failure (Db × Effect) := do
  checkBounds ext cmd.field (.ofOption cmd.replacementValue)
  let kept := (supersedeOwnPriorProposal db logicalRef cmd.field cmd.actor.subject
    (canonicalHash ext (.ofOption cmd.replacementValue))).1
  if evaluate [(.human, .proposed)] policy.displayRule then
    appendAndResolve ext source logicalRef cmd now kept (.ofOption cmd.replacementValue)
      .proposed []
  else
    return ((appendHumanEvidence ext kept cmd logicalRef (.ofOption cmd.replacementValue)
      .proposed .active [] now).1, .applied false)

/-- The proposals that `_confirm_override` confirms. -/
def pendingOverrides (db : Db) : List FieldEvidence :=
  (readActiveFieldEvidence db logicalRef cmd.field).filter fun e => e.humanProposal &&
    canonicalHash ext e.proposedValue = canonicalHash ext (.ofOption cmd.replacementValue)

def confirmOverride (db : Db) : Except Failure (Db × Effect) := do
  checkBounds ext cmd.field (.ofOption cmd.replacementValue)
  let pending := pendingOverrides ext logicalRef cmd db
  ensure (pending ≠ [])
    (.refused 400 "no pending human override proposal for this value to confirm")
  if pending.all (fun e => e.producerRef = cmd.actor.subject) then
    return deny db logicalRef cmd "four_eyes: the confirmer is the sole proposer of this override"
  else
    appendAndResolve ext source logicalRef cmd now db (.ofOption cmd.replacementValue) .confirmed
      (pending.map (·.evidenceId))

def Correction.selectedIds : List String := cmd.selectedEvidenceIds.eraseDups

/-- The active rows that a command selects. -/
def selectedEvidence (db : Db) : List FieldEvidence :=
  cmd.selectedIds.filterMap fun id =>
    (readActiveFieldEvidence db logicalRef cmd.field).find? (·.evidenceId = id)

/-- `_confirm_existing`, of evidence that may be confirmed. -/
def confirmSelected (selected : List FieldEvidence) (db : Db) : Except Failure (Db × Effect) := do
  ensure ((selected.map fun e => canonicalHash ext e.proposedValue).dedup.length = 1)
    (.refused 400 "selected_evidence_ids disagree on a value")
  let value := (selected.head?.map (·.proposedValue)).getD .null
  checkBounds ext cmd.field value
  appendAndResolve ext source logicalRef cmd now db value .confirmed cmd.selectedIds

def confirmExisting (db : Db) : Except Failure (Db × Effect) := do
  ensure (cmd.selectedIds ≠ []) (.refused 400 "confirm_existing requires selected_evidence_ids")
  let selected := selectedEvidence logicalRef cmd db
  ensure (selected.length = cmd.selectedIds.length)
    (.refused 400 "selected_evidence_ids include unknown or inactive evidence")
  if selected.any (·.proposedBy cmd.actor.subject) then
    return deny db logicalRef cmd
      "four_eyes: the confirmer is the proposer of the selected evidence"
  else if selected.any (fun e => e.producer = .source) then
    return deny db logicalRef cmd
      ("four_eyes: source-declared evidence cannot be single-party confirmed; use " ++
        "propose_override then confirm_override with a different reviewer")
  else
    confirmSelected ext source logicalRef cmd now selected db

/-- The decision that `_reject` records last. -/
def rejection (db : Db) (marker : String) : Verdict where
  logicalRef := logicalRef
  fieldName := cmd.field
  eventType := .rejected
  selectedEvidenceIds := marker :: cmd.selectedIds
  evidenceSetHash := evidenceSetHash ext (readActiveFieldEvidence db logicalRef cmd.field)
  displayValueHash := none
  loadBearingValueHash := none
  conflictStatus := "rejected"
  reasonCodes := ["human_rejected"]
  fieldPolicyVersion := fieldPolicyVersion
  resolverVersion := resolverVersion
  actorRef := some cmd.actor.subject
  supersedesEventId := none
  createdAt := now + 1

/-- What is left of the field is resolved, or its display cleared. -/
def resolveSurvivors (db : Db) : Except Failure Db :=
  if readActiveFieldEvidence db logicalRef cmd.field = [] then
    staleAndClearField ext db source logicalRef cmd.field now
  else resolveAndProject ext db source [logicalRef] (some [cmd.field]) now

/-- The active rows that a rejection retires. -/
def FieldEvidence.turnedDown (e : FieldEvidence) : Bool :=
  e.activeFor logicalRef cmd.field && cmd.selectedIds.contains e.evidenceId

def reject (db : Db) : Except Failure (Db × Effect) := do
  let marked :=
    appendHumanEvidence ext db cmd logicalRef .null .proposed .rejected cmd.selectedIds now
  let retired := moveEvidence marked.1 .rejected (FieldEvidence.turnedDown logicalRef cmd)
  let db ← resolveSurvivors ext source logicalRef cmd now retired
  return ((recordFieldDecision ext db (rejection ext logicalRef cmd now db marked.2)).1,
    .applied false)

def act (policy : FieldPolicy) (db : Db) : CorrectionAction → Except Failure (Db × Effect)
  | .proposeOverride => proposeOverride ext source logicalRef cmd now policy db
  | .confirmOverride => confirmOverride ext source logicalRef cmd now db
  | .confirmExisting => confirmExisting ext source logicalRef cmd now db
  | .setAdvisory => setAdvisory ext source logicalRef cmd now db
  | .reject => reject ext source logicalRef cmd now db

def declaredType (db : Db) (key : String × String) : String :=
  (((db.graph.find? (·.keyed ext key)).bind (·.columns "declared_type"))).getD ""

/-- What a projecting correction of the concept derives anew. -/
def rederive (db : Db) : Except Failure Db :=
  match graphKey ext source logicalRef with
  | .error text => .error (.raised text)
  | .ok key => do
      let correctionRef := commandSnapshotId cmd.idempotencyKey
      let db ← deriveAndWriteConceptCascade ext db logicalRef correctionRef correctionRef
        (declaredType ext db key) now
      let db ← retireDroppedFieldDecisions ext db source logicalRef taxonomyFields now
      resolveAndProject ext db source [logicalRef] (some taxonomyFields) now

/-- What follows a projecting correction: the concept's is derived anew. -/
def followUp (action : CorrectionAction) (db : Db) : Except Failure Db :=
  if action.projects && cmd.field = "concept" then rederive ext source logicalRef cmd now db
  else .ok db

/-- The rest of a command, after its action. -/
def conclude (action : CorrectionAction) : Db × Effect → Except Failure (Db × Response)
  | (db, .denied reason) => .ok (db, .denied reason)
  | (db, .applied projected) => do
      let db ← followUp ext source logicalRef cmd now action db
      return (db, .accepted (successBody ext db logicalRef cmd action projected false))

end Actions

def Correction.normSource (cmd : Correction) : String := ext.lower (strip cmd.source)

def Correction.knownAction (cmd : Correction) : Except Failure CorrectionAction :=
  match CorrectionAction.ofText cmd.action with
  | none => .error (.refused 400 s!"unknown action {Text.repr cmd.action}")
  | some action => .ok action

def Correction.editablePolicy (cmd : Correction) : Except Failure FieldPolicy :=
  match policyFor cmd.field with
  | none => .error (.refused 400 s!"unknown field {Text.repr cmd.field}")
  | some policy =>
      if policy.humanEditable then .ok policy
      else .error (.refused 403 (s!"field {Text.repr cmd.field} is not correctable via the " ++
        "generic command; use its dedicated command"))

/-- The actor sees the asset. -/
def anchored (db : Db) (cmd : Correction) : Bool :=
  db.graph.any fun node =>
    node.identifiedBy (cmd.normSource ext) (ext.lower cmd.objectRef) &&
      anchorVisible db (allowedClasses cmd.actor.roleClaims) node

/-- The ref of the asset, where the actor sees it. -/
def locate (db : Db) (cmd : Correction) : Except Failure String := do
  ensure (anchored ext db cmd) (.refused 404 "asset not found")
  logicalRefOf ext db (cmd.normSource ext) (ext.lower cmd.objectRef) none

/-- A row that a command with this key wrote. -/
def Correction.wrote (cmd : Correction) (logicalRef : String) (e : FieldEvidence) : Bool :=
  e.logicalRef = logicalRef && e.fieldName = cmd.field && e.producer = .human &&
    e.producerItemRef = some cmd.idempotencyKey &&
    e.sourceSnapshotId = commandSnapshotId cmd.idempotencyKey

/-- The rows of the replay probe. -/
def priorRows (db : Db) (cmd : Correction) (logicalRef : String) : List FieldEvidence :=
  db.evidence.rows.filter (cmd.wrote logicalRef)

/-- A command whose key is not used, on the view it was issued against. -/
def applyNew (db : Db) (cmd : Correction) (action : CorrectionAction) (policy : FieldPolicy)
    (logicalRef : String) (now : ℤ) : Except Failure (Db × Response) := do
  ensure (cmd.expectedCas = currentCas ext db logicalRef cmd.field)
    (.refused 409 ("the field changed since you loaded it (concurrent decision, evidence, or " ++
      "policy) — refresh and retry"))
  let acted ← act ext (cmd.normSource ext) logicalRef cmd now policy db action
  conclude ext (cmd.normSource ext) logicalRef cmd now action acted

/-- A command whose key is used. -/
def replay (db : Db) (cmd : Correction) (action : CorrectionAction) (logicalRef : String) :
    Except Failure (Db × Response) := do
  ensure ((priorRows db cmd logicalRef).any fun e => e.inputHash = cmd.inputHash ext logicalRef)
    (.refused 409 "idempotency_key reused with different parameters")
  return (db, .accepted (successBody ext db logicalRef cmd action false true))

def applyFieldCorrection (db : Db) (cmd : Correction) (now : ℤ) :
    Except Failure (Db × Response) := do
  let action ← cmd.knownAction
  let policy ← cmd.editablePolicy
  let logicalRef ← locate ext db cmd
  if priorRows db cmd logicalRef = [] then
    applyNew ext db cmd action policy logicalRef now
  else
    replay ext db cmd action logicalRef

/-- The arguments of `propose_profile_field`. -/
structure ProfileProposal where
  logicalRef : String
  field : String
  value : String
  actor : Actor
  note : Option String

def ProfileProposal.valueHash (call : ProfileProposal) : String :=
  canonicalHash ext (.str call.value)

def ProfileProposal.key (call : ProfileProposal) : String :=
  "asset-profile-put:" ++ call.field ++ ":" ++ call.valueHash ext

def ProfileProposal.evidence (call : ProfileProposal) : Proposal where
  logicalRef := call.logicalRef
  fieldName := call.field
  proposedValue := .str call.value
  producer := .human
  strength := .proposed
  producerRef := call.actor.subject
  producerItemRef := some (call.key ext)
  sourceSnapshotId := "asset-profile-put:" ++ call.actor.subject
  inputHash := fieldInputHash ext call.logicalRef call.field
    (.obj (.ofList [("value", .str call.value), ("subject", .str call.actor.subject)]))
  note := call.note

/-- A row under the key of a call. -/
def ProfileProposal.wrote (call : ProfileProposal) (e : FieldEvidence) : Bool :=
  e.logicalRef = call.logicalRef && e.fieldName = call.field && e.producer = .human &&
    e.producerRef = call.actor.subject && e.producerItemRef = some (call.key ext)

def ProfileProposal.revives (call : ProfileProposal) (e : FieldEvidence) : Bool :=
  call.wrote ext e && e.lifecycle = .superseded

/-- `propose_profile_field`, once the subject's own prior proposals are superseded. -/
def reassert (db : Db) (call : ProfileProposal) (changed : Bool) (now : ℤ) : Db × Bool :=
  if db.evidence.rows.any (fun e => call.wrote ext e && e.lifecycle = .active) then (db, changed)
  else if db.evidence.rows.any (call.revives ext) then
    (moveEvidence db .active (call.revives ext), true)
  else ((recordFieldEvidence ext db (call.evidence ext) now).1, true)

def proposeProfileField (db : Db) (call : ProfileProposal) (now : ℤ) :
    Except Failure (Db × Bool) := do
  checkBounds ext call.field (.str call.value)
  let superseded := supersedeOwnPriorProposal db call.logicalRef call.field call.actor.subject
    (call.valueHash ext)
  return reassert ext superseded.1 call (superseded.2 ≠ 0) now

/-- One call in a transaction of its own. The evidence of the other producers is recorded and
    staled as their ingests do. -/
inductive Action where
  | record (p : Proposal) (now : ℤ)
  | stale (logicalRef fieldName : String) (producer : EvidenceProducer) (keepInputHash : String)
      (keepConfigurationHash : Option String)
  | flag (logicalRef fieldName reason sourceSnapshotId : String) (now : ℤ)
  | resolve (source : String) (logicalRefs : List String) (fields : Option (List String)) (now : ℤ)
  | retire (source logicalRef fieldName : String) (now : ℤ)
  | correct (cmd : Correction) (now : ℤ)
  | propose (call : ProfileProposal) (now : ℤ)

/-- The state a call leaves; an error rolls it back. -/
def Action.perform (db : Db) : Action → Except Failure Db
  | .record p now => .ok (recordFieldEvidence ext db p now).1
  | .stale logicalRef fieldName producer keepInputHash keepConfigurationHash =>
      .ok (staleSourceEvidence db logicalRef fieldName producer keepInputHash
        keepConfigurationHash).1
  | .flag logicalRef fieldName reason sourceSnapshotId now =>
      .ok (flagPendingRevalidation ext db logicalRef fieldName reason sourceSnapshotId now).1
  | .resolve source logicalRefs fields now =>
      resolveAndProject ext db source logicalRefs fields now
  | .retire source logicalRef fieldName now =>
      staleAndClearField ext db source logicalRef fieldName now
  | .correct cmd now => (applyFieldCorrection ext db cmd now).map (·.1)
  | .propose call now => (proposeProfileField ext db call now).map (·.1)

/-- No ingest writes as a human, or stales what a human wrote. -/
def Action.enabled : Action → Bool
  | .record p _ => p.producer ≠ .human
  | .stale _ _ producer _ _ => producer ≠ .human
  | .flag .. | .resolve .. | .retire .. | .correct .. | .propose .. => true

def step (db : Db) (a : Action) : Option Db :=
  if a.enabled then some ((a.perform ext db).toOption.getD db) else none

end Commands

end FeatureGen.GovernedFields
