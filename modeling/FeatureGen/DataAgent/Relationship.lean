import FeatureGen.DataAgent.Physical

/-! # Relationship evidence

`data_agent/relationship.py`: what the evidence of a join says of its sides, and
`join_refusal`, which decides whether it supports a join. Of the evidence only what
`join_refusal` reads is kept.
-/

namespace FeatureGen.DataAgent

/-- One side of a `RelationshipEvidenceV1`. -/
structure EvidenceSide where
  physicalId : String
  column : String
  rows : ℕ
  distinct : ℕ
  nulls : ℕ
  partitionsRead : List String

structure RelationshipEvidenceV1 where
  left : EvidenceSide
  right : EvidenceSide
  method : String
  complete : Bool
  rowCoverage : String

/-- `EndpointTupleObservationV2`. -/
structure EndpointTupleObservation where
  physicalId : String
  columns : List String
  rowCount : ℕ
  nonNullRowCount : ℕ
  distinctTupleCount : ℕ
  duplicateRowCount : ℕ
  maxRowsPerTuple : ℕ
  partitionsRead : List String

inductive RowCoverage where
  | full
  | sampled
  | partially
  deriving DecidableEq

structure RelationshipObservationV2 where
  left : EndpointTupleObservation
  right : EndpointTupleObservation
  method : String
  rowCoverage : RowCoverage
  complete : Bool

inductive RelationshipEvidence where
  | v1 (evidence : RelationshipEvidenceV1)
  | v2 (observation : RelationshipObservationV2)

inductive UniquenessVerdict where
  | unique
  | notUnique
  | unknown
  deriving DecidableEq

/-- `left_is_unique`, `right_is_unique`. -/
def EvidenceSide.isUnique (side : EvidenceSide) : Bool :=
  0 < side.rows && side.nulls = 0 && side.distinct = side.rows

/-- `RelationshipEvidenceV1.uniqueness_verdict("right")`. -/
def RelationshipEvidenceV1.rightVerdict (evidence : RelationshipEvidenceV1) : UniquenessVerdict :=
  if ¬ evidence.right.isUnique then .notUnique
  else if evidence.method ≠ "exact" ∨ ¬ evidence.complete ∨ evidence.rowCoverage ≠ "full" ∨
      evidence.right.partitionsRead ≠ [] then .unknown
  else .unique

def EndpointTupleObservation.nullRowCount (endpoint : EndpointTupleObservation) : ℕ :=
  endpoint.rowCount - endpoint.nonNullRowCount

def EndpointTupleObservation.observedUnique (endpoint : EndpointTupleObservation) : Bool :=
  0 < endpoint.rowCount && endpoint.nullRowCount = 0 && endpoint.maxRowsPerTuple ≤ 1 &&
    endpoint.distinctTupleCount = endpoint.rowCount

/-- `RelationshipObservationV2.uniqueness_verdict("right")`. -/
def RelationshipObservationV2.rightVerdict (observation : RelationshipObservationV2) :
    UniquenessVerdict :=
  let endpoint := observation.right
  if 0 < endpoint.duplicateRowCount ∨ 0 < endpoint.nullRowCount then .notUnique
  else if endpoint.rowCount = 0 then .unknown
  else if ¬ observation.complete ∨ observation.rowCoverage ≠ .full ∨
      observation.method ≠ "exact" then .unknown
  else if endpoint.observedUnique then .unique
  else .notUnique

namespace RelationshipEvidence

/-- What the evidence is about: referencing table and columns, referenced ones. -/
def actual : RelationshipEvidence → String × List String × String × List String
  | v1 e => (e.left.physicalId, [e.left.column], e.right.physicalId, [e.right.column])
  | v2 o => (o.left.physicalId, o.left.columns, o.right.physicalId, o.right.columns)

/-- The verdict on the referenced side, as `join_refusal` takes it. -/
def verdict : RelationshipEvidence → UniquenessVerdict
  | v1 e => e.rightVerdict
  | v2 o =>
      if o.right.partitionsRead ≠ [] ∧ o.rightVerdict = .unique then .unknown else o.rightVerdict

def rightRows : RelationshipEvidence → ℕ
  | v1 e => e.right.rows
  | v2 o => o.right.rowCount

def rightDistinct : RelationshipEvidence → ℕ
  | v1 e => e.right.distinct
  | v2 o => o.right.distinctTupleCount

def method : RelationshipEvidence → String
  | v1 e => e.method
  | v2 o => o.method

end RelationshipEvidence

def tupleText (texts : List String) : String :=
  match texts with
  | [text] => "(" ++ Text.repr text ++ ",)"
  | texts => "(" ++ String.intercalate ", " (texts.map Text.repr) ++ ")"

def joinRefusal (evidence : Option RelationshipEvidence) (referencingTableId referencingColumn
    referencedTableId referencedColumn : String) : Option CodedError :=
  match evidence with
  | none => some ⟨"JOIN_EVIDENCE_MISSING",
      "no relationship evidence for " ++ referencingTableId ++ "." ++ referencingColumn ++ " -> " ++
        referencedTableId ++ "." ++ referencedColumn ++ ": the join has never been observed"⟩
  | some evidence =>
      let actual := evidence.actual
      let expected :=
        (referencingTableId, [referencingColumn], referencedTableId, [referencedColumn])
      if actual ≠ expected then
        some ⟨"JOIN_EVIDENCE_MISMATCHED",
          "evidence describes " ++ actual.1 ++ "." ++ tupleText actual.2.1 ++ " -> " ++
            actual.2.2.1 ++ "." ++ tupleText actual.2.2.2 ++ ", but the join is " ++ expected.1 ++
            "." ++ tupleText expected.2.1 ++ " -> " ++ expected.2.2.1 ++ "." ++
            tupleText expected.2.2.2⟩
      else
        match evidence.verdict with
        | .notUnique => some ⟨"JOIN_KEY_NOT_UNIQUE",
            referencedTableId ++ "." ++ referencedColumn ++ " is not unique (" ++
              toString evidence.rightRows ++ " rows, " ++ toString evidence.rightDistinct ++
              " distinct); joining on it would duplicate the population and overstate every total"⟩
        | .unknown => some ⟨"JOIN_UNIQUENESS_UNKNOWN",
            "uniqueness of " ++ referencedTableId ++ "." ++ referencedColumn ++
              " was probed with method " ++ Text.repr evidence.method ++
              "; only an exact probe may assert a key"⟩
        | .unique => none

end FeatureGen.DataAgent
