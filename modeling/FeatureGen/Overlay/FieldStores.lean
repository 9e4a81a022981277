import FeatureGen.Lib.Json
import FeatureGen.Lib.KeySort
import FeatureGen.Lib.Table
import FeatureGen.Overlay.ObjectRef
import FeatureGen.Overlay.SafetyFloor

/-! # The stores of the governed fields

`overlay/field_evidence.py`, `overlay/field_decision.py` and
`overlay/upload/field_revalidation.py`, with the nodes of the graph that the values are
projected on. Instants are whole microseconds of one clock.
-/

namespace FeatureGen.GovernedFields

open Overlay

inductive EvidenceLifecycle where
  | active
  | stale
  | rejected
  | superseded
  deriving DecidableEq

/-- The arguments of `record_field_evidence`. -/
structure Proposal where
  logicalRef : String
  fieldName : String
  proposedValue : Json
  producer : EvidenceProducer
  strength : AssertionStrength
  producerRef : String
  sourceSnapshotId : String
  inputHash : String
  producerItemRef : Option String := none
  producerConfigurationHash : Option String := none
  evidenceSpans : List String := []
  lifecycle : EvidenceLifecycle := .active
  note : Option String := none

/-- A row of `field_evidence`. -/
structure FieldEvidence extends Proposal where
  evidenceId : String
  proposedValueHash : String
  createdAt : ℤ

inductive FieldDecisionEventType where
  | resolved
  | confirmed
  | rejected
  | staled
  | superseded
  deriving DecidableEq

/-- The arguments of `record_field_decision`. -/
structure Verdict where
  logicalRef : String
  fieldName : String
  eventType : FieldDecisionEventType
  selectedEvidenceIds : List String
  evidenceSetHash : String
  displayValueHash : Option String
  loadBearingValueHash : Option String
  conflictStatus : String
  reasonCodes : List String
  fieldPolicyVersion : String
  resolverVersion : String
  actorRef : Option String
  supersedesEventId : Option String
  createdAt : ℤ

/-- A row of `field_decision_event`. -/
structure FieldDecisionEvent extends Verdict where
  decisionEventId : String

/-- A row of `field_revalidation`. -/
structure Revalidation where
  revalidationId : String
  logicalRef : String
  fieldName : String
  reason : String
  sourceSnapshotId : String
  status : String
  createdAt : ℤ

/-- A row of `graph_node`: what identifies it, and its other texts by column. -/
structure GraphNode where
  catalogSource : String
  objectRef : String
  kind : String
  schemaName : Option String
  tableName : String
  columnName : Option String
  columns : String → Option String

/-- A row of the security stream. -/
structure Denial where
  attemptedAction : String
  actor : String
  reason : String
  aggregateId : String

structure Db where
  evidence : Table FieldEvidence.evidenceId
  decisions : Table FieldDecisionEvent.decisionEventId
  revalidations : List Revalidation
  graph : List GraphNode
  denials : List Denial

/-- A record of the concept registry. -/
structure Concept where
  additivity : String
  pitRole : String
  sensitivity : String
  leakageAnchor : Bool

/-- What the stores are given: `iterated` is the order in which a set of texts is iterated, and
    `str` is the text of a value that is not one. -/
structure Externals where
  sha256 : String → String
  mintId : String → List String → String
  mintId_fresh : ∀ kind taken, mintId kind taken ∉ taken
  lower : String → String
  iterated : List String → List String
  concept : String → Option Concept
  str : Json → String

/-- No two texts collide. -/
def Externals.Faithful (ext : Externals) : Prop := Function.Injective ext.sha256

section Stores

variable (ext : Externals)

def canonicalHash (value : Json) : String := ext.sha256 (String.ofList value.dumps)

def fieldInputHash (logicalRef fieldName : String) (material : Json) : String :=
  canonicalHash ext (.obj (.ofList [("logical_ref", .str logicalRef),
    ("field_name", .str fieldName), ("material", material)]))

def Proposal.row (p : Proposal) (evidenceId : String) (now : ℤ) : FieldEvidence :=
  { p with
    evidenceId := evidenceId
    proposedValueHash := canonicalHash ext p.proposedValue
    createdAt := now }

def mintEvidenceId (db : Db) : String := ext.mintId "fev" (db.evidence.rows.map (·.evidenceId))

def recordFieldEvidence (db : Db) (p : Proposal) (now : ℤ) : Db × String :=
  let evidenceId := mintEvidenceId ext db
  ({ db with evidence := db.evidence.insertNew (p.row ext evidenceId now) }, evidenceId)

def FieldEvidence.activeFor (logicalRef fieldName : String) (e : FieldEvidence) : Bool :=
  e.logicalRef = logicalRef && e.fieldName = fieldName && e.lifecycle = .active

def readActiveFieldEvidence (db : Db) (logicalRef fieldName : String) : List FieldEvidence :=
  KeySort.sortBy (fun e => toLex (e.createdAt, e.evidenceId))
    (db.evidence.rows.filter (·.activeFor logicalRef fieldName))

def FieldEvidence.moved (lifecycle : EvidenceLifecycle) (e : FieldEvidence) : FieldEvidence :=
  { e with lifecycle := lifecycle }

theorem FieldEvidence.moved_evidenceId (lifecycle : EvidenceLifecycle) (e : FieldEvidence) :
    (e.moved lifecycle).evidenceId = e.evidenceId := rfl

/-- `UPDATE field_evidence SET lifecycle = … WHERE …`. -/
def moveEvidence (db : Db) (lifecycle : EvidenceLifecycle) (p : FieldEvidence → Bool) : Db :=
  { db with evidence :=
      db.evidence.updateWhere p (·.moved lifecycle) (FieldEvidence.moved_evidenceId lifecycle) }

def FieldEvidence.drifted (logicalRef fieldName : String) (producer : EvidenceProducer)
    (keepInputHash : String) (keepConfigurationHash : Option String) (e : FieldEvidence) : Bool :=
  e.activeFor logicalRef fieldName && e.producer = producer &&
    (e.inputHash ≠ keepInputHash ||
      (keepConfigurationHash.isSome && e.producerConfigurationHash ≠ keepConfigurationHash))

/-- `stale_source_evidence`, with the number of rows staled. -/
def staleSourceEvidence (db : Db) (logicalRef fieldName : String) (producer : EvidenceProducer)
    (keepInputHash : String) (keepConfigurationHash : Option String) : Db × ℕ :=
  let drifted := FieldEvidence.drifted logicalRef fieldName producer keepInputHash
    keepConfigurationHash
  (moveEvidence db .stale drifted, db.evidence.rows.countP drifted)

def valueText : Json → String
  | .str s => s
  | value => String.ofList value.dumps

def FieldEvidence.toView (e : FieldEvidence) : FieldEvidenceView where
  producer := e.producer
  strength := e.strength
  value := valueText e.proposedValue
  evidenceId := e.evidenceId

def Verdict.row (v : Verdict) (decisionEventId : String) : FieldDecisionEvent :=
  { v with decisionEventId := decisionEventId }

def mintDecisionId (db : Db) : String :=
  ext.mintId "fde" (db.decisions.rows.map (·.decisionEventId))

def recordFieldDecision (db : Db) (v : Verdict) : Db × String :=
  let decisionEventId := mintDecisionId ext db
  ({ db with decisions := db.decisions.insertNew (v.row decisionEventId) }, decisionEventId)

/-- `read_field_decisions`, oldest first. -/
def readFieldDecisions (db : Db) (logicalRef fieldName : String) : List FieldDecisionEvent :=
  KeySort.sortBy (fun d => toLex (d.createdAt, d.decisionEventId))
    (db.decisions.rows.filter fun d => d.logicalRef = logicalRef && d.fieldName = fieldName)

def Revalidation.pendingFor (logicalRef fieldName : String) (r : Revalidation) : Bool :=
  r.logicalRef = logicalRef && r.fieldName = fieldName && r.status = "pending"

def pending (db : Db) (logicalRef fieldName : String) : Bool :=
  db.revalidations.any (·.pendingFor logicalRef fieldName)

def flagPendingRevalidation (db : Db) (logicalRef fieldName reason sourceSnapshotId : String)
    (now : ℤ) : Db × String :=
  match db.revalidations.find? (·.pendingFor logicalRef fieldName) with
  | some existing => (db, existing.revalidationId)
  | none =>
      let revalidationId := ext.mintId "frv" (db.revalidations.map (·.revalidationId))
      ({ db with revalidations := db.revalidations ++
          [⟨revalidationId, logicalRef, fieldName, reason, sourceSnapshotId, "pending", now⟩] },
        revalidationId)

def activeDisqualifiersFor (db : Db) (logicalRef fieldName : String) : List Disqualifier :=
  if pending db logicalRef fieldName then [.confirmationPendingRevalidation] else []

end Stores

end FeatureGen.GovernedFields
