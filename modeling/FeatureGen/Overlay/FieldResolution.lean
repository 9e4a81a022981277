import FeatureGen.Overlay.FieldStores

/-! # Resolving and projecting a field

`overlay/upload/field_resolution.py`: a decision from the active evidence of a field, and
its display on the node. What is derived in turn from the displayed columns, `data_role`
and the search document, is left out.

What `overlay/upload/ingest.py` derives from the concept of a column: the evidence of the
behavioural fields, written anew from the concept that is selected.
-/

namespace FeatureGen.GovernedFields

open Overlay

def fieldPolicyVersion : String := "upload-field-policy-v1"

def resolverVersion : String := "upload-resolve-and-project-v1"

/-- What stops a command: a refusal with its status, or an error of something it calls. -/
inductive Failure where
  | refused (statusCode : ℕ) (detail : String)
  | raised (text : String)

/-- `_DISPLAY_COLUMN`: each field is displayed in the column of its name. -/
def displayColumns : List String :=
  ["concept", "definition", "ai_summary", "domain", "additivity", "table_role", "primary_entity",
    "event_or_snapshot", "unit", "currency", "authority_role", "temporal_storage_model",
    "business_context", "bian_path", "process_path", "sub_domain", "fibo_path"]

def sourceAuthoredDisplayColumns : List String := ["unit", "currency"]

def decisionLinkColumn : List (String × String) :=
  [("concept", "concept_decision_id"),
    ("definition", "definition_decision_id"),
    ("domain", "domain_decision_id"),
    ("additivity", "additivity_decision_id"),
    ("logical_representation", "logical_type_decision_id"),
    ("table_role", "table_role_decision_id"),
    ("primary_entity", "primary_entity_decision_id"),
    ("event_or_snapshot", "event_or_snapshot_decision_id"),
    ("unit", "unit_decision_id"),
    ("currency", "currency_decision_id"),
    ("authority_role", "authority_role_decision_id"),
    ("temporal_storage_model", "temporal_storage_model_decision_id"),
    ("business_context", "business_context_decision_id")]

/-- `SET column = value`. -/
def GraphNode.set (node : GraphNode) (column : String) (value : Option String) : GraphNode :=
  { node with columns := Function.update node.columns column value }

section Resolution

variable (ext : Externals)

def graphKey (source logicalRef : String) : Except String (String × String) :=
  (parseRef logicalRef).map fun parts =>
    (source, ext.lower
      (String.intercalate "." (["public", parts.table] ++ parts.column.toList)))

/-- `WHERE catalog_source = … AND lower(object_ref) = …`. -/
def GraphNode.keyed (key : String × String) (node : GraphNode) : Bool :=
  node.catalogSource = key.1 && ext.lower node.objectRef = key.2

def evidenceSetHash (evidence : List FieldEvidence) : String :=
  let entries := evidence.map fun e =>
    e.producer.value ++ ":" ++ e.strength.value ++ ":" ++ e.proposedValueHash
  canonicalHash ext (.arr (.ofList ((KeySort.sortBy id entries).map .str)))

/-- What `_record` is given. -/
structure Resolved where
  logicalRef : String
  fieldName : String
  evidence : List FieldEvidence
  displayValue : Option String
  loadBearingValue : Option String
  conflictStatus : String
  reasonCodes : List String
  eventType : FieldDecisionEventType := .resolved
  supersedesEventId : Option String := none

def Resolved.verdict (r : Resolved) (now : ℤ) : Verdict where
  logicalRef := r.logicalRef
  fieldName := r.fieldName
  eventType := r.eventType
  selectedEvidenceIds := r.evidence.map (·.evidenceId)
  evidenceSetHash := evidenceSetHash ext r.evidence
  displayValueHash := r.displayValue.map fun v => canonicalHash ext (.str v)
  loadBearingValueHash := r.loadBearingValue.map fun v => canonicalHash ext (.str v)
  conflictStatus := r.conflictStatus
  reasonCodes := r.reasonCodes
  fieldPolicyVersion := fieldPolicyVersion
  resolverVersion := resolverVersion
  actorRef := none
  supersedesEventId := r.supersedesEventId
  createdAt := now

def record (db : Db) (r : Resolved) (now : ℤ) : Db × String :=
  recordFieldDecision ext db (r.verdict ext now)

/-- A display that is absent does not overwrite what the file declared. -/
def guarded (fieldName : String) (displayValue : Option String) (node : GraphNode) : Bool :=
  displayValue.isNone && sourceAuthoredDisplayColumns.contains fieldName &&
    (decisionLinkColumn.lookup fieldName).any fun link => (node.columns link).isNone

/-- The assignments of `_project_display`. -/
def GraphNode.displaying (fieldName : String) (displayValue : Option String) (decisionId : String)
    (node : GraphNode) : GraphNode :=
  let shown := if displayColumns.contains fieldName then node.set fieldName displayValue else node
  match decisionLinkColumn.lookup fieldName with
  | some link => shown.set link (some decisionId)
  | none => shown

def projectDisplay (db : Db) (source logicalRef fieldName : String) (displayValue : Option String)
    (decisionId : String) : Except Failure Db :=
  match graphKey ext source logicalRef with
  | .error text => .error (.raised text)
  | .ok key =>
      .ok { db with graph := db.graph.map fun node =>
        if node.keyed ext key && !guarded fieldName displayValue node then
          node.displaying fieldName displayValue decisionId
        else node }

/-- A resolution, recorded and projected. -/
def settle (db : Db) (source : String) (r : Resolved) (now : ℤ) : Except Failure Db :=
  let recorded := record ext db r now
  projectDisplay ext recorded.1 source r.logicalRef r.fieldName r.displayValue recorded.2

def resolutionOf (db : Db) (logicalRef fieldName : String) (policy : FieldPolicy) :
    Except String FieldResolution :=
  resolveFieldAuthority ext.iterated
    ((readActiveFieldEvidence db logicalRef fieldName).map (·.toView)) policy
    (activeDisqualifiersFor db logicalRef fieldName)

def resolvedBy (db : Db) (logicalRef fieldName : String) (resolution : FieldResolution) :
    Resolved where
  logicalRef := logicalRef
  fieldName := fieldName
  evidence := readActiveFieldEvidence db logicalRef fieldName
  displayValue := resolution.displayValue
  loadBearingValue := resolution.loadBearingValue
  conflictStatus := resolution.unresolvedReason.getD "resolved"
  reasonCodes := resolution.unresolvedReason.toList

def resolveGenericField (db : Db) (source logicalRef fieldName : String) (now : ℤ) :
    Except Failure Db :=
  match policyFor fieldName with
  | none => .ok db
  | some policy =>
      match resolutionOf ext db logicalRef fieldName policy with
      | .error text => .error (.raised text)
      | .ok resolution =>
          settle ext db source (resolvedBy db logicalRef fieldName resolution) now

/-- What `_resolve_sensitivity` records. -/
def resolvedSensitivity (logicalRef : String) (evidence : List FieldEvidence)
    (decision : SensitivityDecision) : Resolved where
  logicalRef := logicalRef
  fieldName := "sensitivity"
  evidence := evidence
  displayValue := some decision.effectiveRestriction
  loadBearingValue := decision.certifiedRestriction
  conflictStatus := decision.conflictStatus
  reasonCodes := decision.reasonCodes

def GraphNode.restricted (decision : SensitivityDecision) (decisionId : String)
    (node : GraphNode) : GraphNode :=
  ((node.set "effective_restriction" (some decision.effectiveRestriction)).set
    "classification_status" (some decision.classificationStatus)).set
      "sensitivity_decision_id" (some decisionId)

/-- What `_resolve_sensitivity` writes on the node. -/
def projectSensitivity (db : Db) (source logicalRef : String) (decision : SensitivityDecision)
    (decisionId : String) : Except Failure Db :=
  match graphKey ext source logicalRef with
  | .error text => .error (.raised text)
  | .ok key =>
      .ok { db with graph := db.graph.map fun node =>
        if node.keyed ext key then node.restricted decision decisionId else node }

/-- `_resolve_sensitivity` on the stores. -/
def resolveSensitivityField (db : Db) (source logicalRef : String) (now : ℤ) :
    Except Failure Db :=
  let floorEvidence := readActiveFieldEvidence db logicalRef "sensitivity_floor"
  let classEvidence := readActiveFieldEvidence db logicalRef "sensitivity"
  match resolveSensitivity ext.iterated (floorEvidence.map (·.toView))
      (classEvidence.map (·.toView)) (activeDisqualifiersFor db logicalRef "sensitivity") with
  | .error text => .error (.raised text)
  | .ok decision =>
      let recorded := record ext db
        (resolvedSensitivity logicalRef (floorEvidence ++ classEvidence) decision) now
      projectSensitivity ext recorded.1 source logicalRef decision recorded.2

/-- `_SENSITIVITY_FIELD`, `_SENSITIVITY_FLOOR_FIELD`. -/
def sensitivityFields : List String := ["sensitivity", "sensitivity_floor"]

def activeFieldNames (db : Db) (logicalRef : String) : List String :=
  ((db.evidence.rows.filter fun e => e.logicalRef = logicalRef && e.lifecycle = .active).map
    (·.fieldName)).dedup

/-- The fields that `resolve_and_project` resolves for a ref. -/
def presentFields (db : Db) (logicalRef : String) (fields : Option (List String)) : List String :=
  (activeFieldNames db logicalRef).filter fun f => fields.all (·.contains f)

def resolveRef (source : String) (fields : Option (List String)) (now : ℤ) (db : Db)
    (logicalRef : String) : Except Failure Db := do
  let present := presentFields db logicalRef fields
  let generic := (KeySort.sortBy id present).filter fun f => !sensitivityFields.contains f
  let db ← generic.foldlM (fun db f => resolveGenericField ext db source logicalRef f now) db
  if present.any sensitivityFields.contains then
    resolveSensitivityField ext db source logicalRef now
  else
    return db

def resolveAndProject (db : Db) (source : String) (logicalRefs : List String)
    (fields : Option (List String)) (now : ℤ) : Except Failure Db :=
  logicalRefs.foldlM (resolveRef ext source fields now) db

def retiredEvents : List FieldDecisionEventType := [.rejected, .staled, .superseded]

def latestDecision (db : Db) (logicalRef fieldName : String) : Option FieldDecisionEvent :=
  (readFieldDecisions db logicalRef fieldName).getLast?

def isFeatureEligible (db : Db) (logicalRef fieldName : String) : Bool :=
  (latestDecision db logicalRef fieldName).any fun latest =>
    !retiredEvents.contains latest.eventType && latest.loadBearingValueHash.isSome

def latestStanding (db : Db) (logicalRef fieldName : String) : Option FieldDecisionEvent :=
  (readFieldDecisions db logicalRef fieldName).reverse.find? fun d =>
    !retiredEvents.contains d.eventType

def staledBy (db : Db) (logicalRef fieldName : String) : Resolved where
  logicalRef := logicalRef
  fieldName := fieldName
  evidence := []
  displayValue := none
  loadBearingValue := none
  conflictStatus := "staled"
  reasonCodes := ["evidence_staled"]
  eventType := .staled
  supersedesEventId := (latestStanding db logicalRef fieldName).map (·.decisionEventId)

def staleAndClearField (db : Db) (source logicalRef fieldName : String) (now : ℤ) :
    Except Failure Db :=
  settle ext db source (staledBy db logicalRef fieldName) now

end Resolution

end FeatureGen.GovernedFields

namespace FeatureGen.GovernedFields

open Overlay

def taxonomyFields : List String :=
  ["additivity", "temporal_role", "sensitivity_floor", "leakage_anchor"]

def staleAll : String := "__field_absent_from_upload__"

section Cascade

variable (ext : Externals)

/-- `_TEMPORAL_TYPE_PREFIXES`. -/
def temporalTypes : List String := ["timestamp", "date", "datetime", "time"]

/-- `_is_temporal`: the first word before a parenthesis. -/
def isTemporal (declaredType : String) : Except Failure Bool :=
  if strip declaredType = "" then .ok (temporalTypes.contains "")
  else
    let typeName := (ext.lower (strip declaredType)).toList.takeWhile (· ≠ '(')
    let word := (typeName.dropWhile isSpace).takeWhile fun c => !isSpace c
    if word = [] then .error (.raised "list index out of range")
    else .ok (temporalTypes.contains (String.ofList word))

def derivesAdditivity (c : Concept) (declaredType : String) : Except Failure Bool :=
  if c.additivity = "n/a" then .ok false else (isTemporal ext declaredType).map (!·)

def deriveConceptEvidence (concept : String) (strength : AssertionStrength)
    (declaredType : String) : Except Failure (List (String × Json × AssertionStrength)) :=
  match ext.concept concept with
  | none => .ok []
  | some c =>
      (derivesAdditivity ext c declaredType).map fun additive =>
        (if additive then [("additivity", .str c.additivity, strength)] else []) ++
          [("temporal_role", .str c.pitRole, strength),
            ("sensitivity_floor", .str c.sensitivity, strength),
            ("leakage_anchor", .bool c.leakageAnchor, strength)]

def writeProducerField (db : Db) (p : Proposal) (material : Json) (now : ℤ) : Db × ℕ :=
  let inputHash := fieldInputHash ext p.logicalRef p.fieldName material
  let staled := staleSourceEvidence db p.logicalRef p.fieldName p.producer inputHash none
  if (readActiveFieldEvidence staled.1 p.logicalRef p.fieldName).any
      (fun e => e.producer = p.producer && e.inputHash = inputHash) then staled
  else ((recordFieldEvidence ext staled.1 { p with inputHash := inputHash } now).1, staled.2)

def staleAbsentFields (db : Db) (logicalRef : String) (producer : EvidenceProducer)
    (allFields present : List String) : Db :=
  (allFields.filter fun f => !present.contains f).foldl
    (fun db f => (staleSourceEvidence db logicalRef f producer staleAll none).1) db

/-- The decisions that `_retire_dropped_field_decisions` retires. -/
def dropped (db : Db) (logicalRef fieldName : String) : Bool :=
  (readActiveFieldEvidence db logicalRef fieldName).isEmpty &&
    isFeatureEligible db logicalRef fieldName

def retireDroppedFieldDecisions (db : Db) (source logicalRef : String) (fields : List String)
    (now : ℤ) : Except Failure Db :=
  fields.foldlM (fun db f =>
    if dropped db logicalRef f then staleAndClearField ext db source logicalRef f now
    else .ok db) db

def strongestOf (views : List FieldEvidenceView) : Option FieldEvidenceView :=
  views.find? fun v => v.strength.rank = topRank views

/-- The views that assert what the concept resolves to. -/
def selectedViews (views : List FieldEvidenceView) (selected : Option String) :
    List FieldEvidenceView :=
  views.filter fun v => selected = some v.value

def resolveConceptEvidence (db : Db) (logicalRef : String) :
    Except Failure (Option FieldEvidenceView) :=
  if pending db logicalRef "concept" then .ok none
  else
    let views := (readActiveFieldEvidence db logicalRef "concept").map (·.toView)
    match resolutionOf ext db logicalRef "concept" FieldPolicy.concept with
    | .error text => .error (.raised text)
    | .ok resolution => .ok (strongestOf (selectedViews views resolution.displayValue))

/-- The material of a derived row. -/
def rootMaterial (winner : FieldEvidenceView) : Json :=
  .obj (.ofList [("root_value", .str winner.value),
    ("root_producer", .str winner.producer.value),
    ("root_strength", .str winner.strength.value),
    ("root_evidence_id", .str winner.evidenceId),
    ("resolver_version", .str resolverVersion)])

def derivedProposal (logicalRef producerRef snapshotId : String) (winner : FieldEvidenceView)
    (triple : String × Json × AssertionStrength) : Proposal where
  logicalRef := logicalRef
  fieldName := triple.1
  proposedValue := triple.2.1
  producer := .taxonomy
  strength := triple.2.2
  producerRef := producerRef
  sourceSnapshotId := snapshotId
  inputHash := ""
  producerItemRef := some winner.evidenceId
  evidenceSpans := [winner.evidenceId]

/-- What the selected concept derives. -/
def derivedTriples (winner : Option FieldEvidenceView) (declaredType : String) :
    Except Failure (List (String × Json × AssertionStrength)) :=
  match winner with
  | none => .ok []
  | some w => deriveConceptEvidence ext w.value w.strength declaredType

/-- Each derived field is written. -/
def writeDerived (db : Db) (logicalRef producerRef snapshotId : String)
    (winner : FieldEvidenceView) (triples : List (String × Json × AssertionStrength)) (now : ℤ) :
    Db :=
  triples.foldl (fun db triple => (writeProducerField ext db
    (derivedProposal logicalRef producerRef snapshotId winner triple) (rootMaterial winner) now).1)
    db

def deriveAndWriteConceptCascade (db : Db) (logicalRef producerRef snapshotId declaredType : String)
    (now : ℤ) : Except Failure Db := do
  let winner ← resolveConceptEvidence ext db logicalRef
  let triples ← derivedTriples ext winner declaredType
  let written := winner.elim db fun w =>
    writeDerived ext db logicalRef producerRef snapshotId w triples now
  return staleAbsentFields written logicalRef .taxonomy taxonomyFields (triples.map (·.1))

end Cascade

end FeatureGen.GovernedFields
