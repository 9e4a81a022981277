import FeatureGen.Materialize.Joins
import FeatureGen.Overlay.Crosswalk

/-! # Joins through a crosswalk

`plan_crosswalk_join` of `materialize/joins.py`: an admitted crosswalk becomes two
join steps, one for each leg, under the verdict of the direction asked for. The
first failing check gives the refusal. `lower` is `str.lower`.
-/

namespace FeatureGen.Materialize

open FeatureGen.Overlay Checks

/-- The codes `plan_crosswalk_join` refuses with. -/
inductive CrosswalkRefusalCode where
  | joinCardinalityUnknown
  | joinFanoutUnsupported
  | physicalSchemaNotResolved

/-- What ends `plan_crosswalk_join` without a plan: an exception or a refusal. -/
inductive CrosswalkStop where
  | raised (error : String)
  | refused (code : CrosswalkRefusalCode) (detail : String)

structure MappingRowPredicateV1 where
  kind : String
  columnRef : String
  operator : String
  parameterRef : Option String

def mappingRowKinds : List String :=
  ["effective_time", "availability_time", "current_flag", "snapshot_time", "tie_break"]

def mappingRowOperators : List String := ["<", "<=", "=", ">=", ">", "is_true"]

/-- The keys of `RENDERED_OPERATORS`. -/
def renderedOperators : List String := ["<", "<=", ">", ">=", "="]

/-- The body of the loop of `mapping_row_predicates`. -/
def mappingRowPredicate (index : ℕ) (payload : RowPayload) :
    Except CrosswalkStop MappingRowPredicateV1 := do
  let predicate := "the pinned mapping row selection's predicate " ++ toString index
  ensure (payload.kind ∈ mappingRowKinds ∧ payload.operator ∈ mappingRowOperators ∧
      (payload.operator = "is_true" ∨ payload.operator ∈ renderedOperators))
    (.refused .joinCardinalityUnknown (predicate ++ " is " ++ Text.repr payload.kind ++ "/" ++
      Text.repr payload.operator ++ ", which this compiler has no rendered form for: the " ++
      "mapping row rule decides WHICH mapping rows the uniqueness was measured over, so a " ++
      "predicate that cannot be rendered would execute the traversal over a different row set " ++
      "than the one that was measured"))
  ensure (strip payload.columnRef ≠ "")
    (.refused .joinCardinalityUnknown (predicate ++ " names no column"))
  .ok ⟨payload.kind, strip payload.columnRef, payload.operator, payload.parameterRef⟩

def mappingRowPredicates (payloads : List RowPayload) :
    Except CrosswalkStop (List MappingRowPredicateV1) :=
  payloads.zipIdx.mapM fun indexed => mappingRowPredicate indexed.2 indexed.1

structure CrosswalkJoinStepV1 where
  leg : String
  direction : ComposedDirection
  fromCatalogSource : String
  toCatalogSource : String
  fromRef : String
  toRef : String
  columnPairs : List (String × String)
  cardinality : String
  crosswalkDefinitionRevisionId : String
  crosswalkExecutionRevisionId : String
  mappingDatasetRef : String
  mappingBindingRevisionId : String
  arrivesAtMapping : Bool
  legKind : String
  legPlanHash : String
  legReadSetHash : String
  legBindingRevisionIds : List String
  legFactKeys : List String
  legRealizationRevisionIds : List String
  legDependencySnapshotIds : List String
  mappingRowPredicates : List MappingRowPredicateV1
  mappingTemporalPolicyRevisionId : Option String
  mappingRowSelectionHash : Option String
  composedObservationRevisionId : Option String
  legMeasurementIds : List String

/-- The `JoinPlan` of a crosswalk. -/
structure CrosswalkJoinPlan where
  steps : List CrosswalkJoinStepV1
  outcomeKind : String
  rolesUsed : List String
  fansOut : Bool

def directionalCardinality : Cardinality → String
  | .oneToOne => "1:1"
  | .manyToOne => "N:1"
  | .oneToMany => "1:N"
  | .manyToMany => "N:N"

def crosswalkFansIn : List Cardinality := [.oneToOne, .manyToOne]

structure LegFields where
  leg : String
  pin : JoinLegPinV1
  fromCatalogSource : String
  toCatalogSource : String
  columnPairs : List (String × String)
  arrivesAtMapping : Bool
  mappingRowPredicates : List MappingRowPredicateV1

/-- A `CrosswalkJoinStepV1` of the shared fields and the pin's; none for the `IndexError` of a
    leg without pairs. -/
def crosswalkStep (admitted : AdmittedCrosswalkV1) (direction : ComposedDirection)
    (composed : Cardinality) (fields : LegFields) : Option CrosswalkJoinStepV1 :=
  fields.columnPairs.head?.map fun first =>
    { leg := fields.leg
      direction := direction
      fromCatalogSource := fields.fromCatalogSource
      toCatalogSource := fields.toCatalogSource
      fromRef := first.1
      toRef := first.2
      columnPairs := fields.columnPairs
      cardinality := directionalCardinality composed
      crosswalkDefinitionRevisionId := admitted.definition.revisionId
      crosswalkExecutionRevisionId := admitted.execution.executionRevisionId
      mappingDatasetRef := admitted.definition.mappingDatasetRef
      mappingBindingRevisionId := admitted.execution.mappingBindingRevisionId
      arrivesAtMapping := fields.arrivesAtMapping
      legKind := fields.pin.kind.value
      legPlanHash := fields.pin.planHash
      legReadSetHash := fields.pin.readSetHash
      legBindingRevisionIds := fields.pin.bindingRevisionIds
      legFactKeys := fields.pin.factKeys
      legRealizationRevisionIds := fields.pin.realizationRevisionIds
      legDependencySnapshotIds := fields.pin.dependencySnapshotIds
      mappingRowPredicates := fields.mappingRowPredicates
      mappingTemporalPolicyRevisionId := admitted.execution.mappingTemporalPolicyRevisionId
      mappingRowSelectionHash := admitted.mappingRowSelection.map (·.contentHash)
      composedObservationRevisionId := admitted.execution.compositionObservationRevisionId
      legMeasurementIds := admitted.execution.legMeasurementIds }

/-- `mapping_dataset_ref.split("::", 1)[0]`. -/
def catalogOf (datasetRef : String) : String :=
  match Text.partition "::" datasetRef with
  | none => datasetRef
  | some (catalog, _) => catalog

def toMapping (pairs : List LogicalMappingPairV1) : List (String × String) :=
  pairs.map fun pair => (pair.endpointMemberRef, pair.mappingMemberRef)

/-- The pairs of a leg that leaves it. -/
def fromMapping (pairs : List LogicalMappingPairV1) : List (String × String) :=
  pairs.map fun pair => (pair.mappingMemberRef, pair.endpointMemberRef)

/-- The pins, the pairs and the names of the first and the second leg, by the direction. -/
def firstLeg (admitted : AdmittedCrosswalkV1) :
    ComposedDirection → String × JoinLegPinV1 × List (String × String)
  | .sourceToTarget => ("source_to_mapping", admitted.execution.sourceLeg,
      toMapping admitted.definition.sourceToMappingPairs)
  | .targetToSource => ("mapping_to_target", admitted.execution.targetLeg,
      toMapping admitted.definition.mappingToTargetPairs)

def secondLeg (admitted : AdmittedCrosswalkV1) :
    ComposedDirection → String × JoinLegPinV1 × List (String × String)
  | .sourceToTarget => ("mapping_to_target", admitted.execution.targetLeg,
      fromMapping admitted.definition.mappingToTargetPairs)
  | .targetToSource => ("source_to_mapping", admitted.execution.sourceLeg,
      fromMapping admitted.definition.sourceToMappingPairs)

/-- The two steps. The row filter belongs to the leg that arrives at the mapping dataset. -/
def crosswalkSteps (admitted : AdmittedCrosswalkV1) (direction : ComposedDirection)
    (composed : Cardinality) (fromIdentity toIdentity : PhysicalIdentity)
    (rowPredicates : List MappingRowPredicateV1) :
    Except CrosswalkStop (List CrosswalkJoinStepV1) :=
  let mappingCatalog := catalogOf admitted.definition.mappingDatasetRef
  let first := firstLeg admitted direction
  let second := secondLeg admitted direction
  let arriving := crosswalkStep admitted direction composed
    { leg := first.1, pin := first.2.1, columnPairs := first.2.2
      fromCatalogSource := fromIdentity.catalogSource
      toCatalogSource := mappingCatalog
      arrivesAtMapping := true
      mappingRowPredicates := rowPredicates }
  let leaving := crosswalkStep admitted direction composed
    { leg := second.1, pin := second.2.1, columnPairs := second.2.2
      fromCatalogSource := mappingCatalog
      toCatalogSource := toIdentity.catalogSource
      arrivesAtMapping := false
      mappingRowPredicates := [] }
  match arriving, leaving with
  | some arriving, some leaving => .ok [arriving, leaving]
  | _, _ => .error (.raised "tuple index out of range")

/-- The checks of the tier, of the direction's verdict and of its cardinality. -/
def composedCardinality (admitted : AdmittedCrosswalkV1) (direction : ComposedDirection)
    (toIdentity : PhysicalIdentity) (executionTier : ExecutionTier) :
    Except CrosswalkStop Cardinality := do
  let execution := admitted.execution
  let definitionId := admitted.definition.definitionId
  let verdict := admitted.verdictFor direction
  let scope := execution.applicabilityScope
  let named := "the " ++ direction.value ++ " direction of crosswalk " ++ definitionId
  ensure (executionTier = .production → scope.executionTier = .production)
    (.refused .joinCardinalityUnknown ("crosswalk execution " ++ execution.executionRevisionId ++
      " is admitted only under the " ++ scope.executionTier.value ++ " applicability scope " ++
      Text.repr scope.scopeId ++ " and this is a production compilation: a mapping proved safe " ++
      "for sandbox data is not thereby proved safe for production data"))
  let admissible := if executionTier = .production then verdict.productionAdmissible
    else verdict.sandboxAdmissible
  let reasons := String.intercalate ", " verdict.reasonCodes
  ensure (admissible = true)
    (.refused .joinCardinalityUnknown (named ++ " is " ++ verdict.safetyStatus.value ++
      " and not admissible at the " ++ executionTier.value ++ " tier: " ++
      if reasons = "" then "(no reason recorded)" else reasons))
  ensure (execution.compositionObservationRevisionId ≠ none)
    (.refused .joinCardinalityUnknown ("crosswalk " ++ definitionId ++ " carries no composed " ++
      "observation, so nothing states the fan-out of the composition. Two safe legs do not " ++
      "compose into a safe crosswalk, and a plan built without the composed verdict is exactly " ++
      "the two-verdict gap the old either/or refusal named"))
  match verdict.cardinality with
  | none => .error (.refused .joinCardinalityUnknown (named ++ " has an unknown composed " ++
      "cardinality: an unmeasured composition may BE fanning, and \"we do not know\" is not " ++
      "\"it is safe\""))
  | some composed => do
      ensure (composed ∈ crosswalkFansIn)
        (.refused .joinFanoutUnsupported (named ++ " composes " ++ composed.value ++ " toward " ++
          toIdentity.schema ++ "." ++ toIdentity.table ++ ": allocating one row across many is " ++
          "a governed business decision and no allocation policy exists — the traversal is " ++
          "refused, not deduplicated"))
      .ok composed

def selectedPredicates (admitted : AdmittedCrosswalkV1) :
    Except CrosswalkStop (List MappingRowPredicateV1) :=
  match admitted.mappingRowSelection, admitted.execution.mappingTemporalPolicyRevisionId with
  | some selection, _ => mappingRowPredicates selection.predicatePayloads
  | none, none => .ok []
  | none, some pinned => .error (.refused .joinCardinalityUnknown ("crosswalk " ++
      admitted.definition.definitionId ++ " pins mapping temporal policy " ++ pinned ++
      " and no resolved row selection was supplied: the mapping rows this traversal reads " ++
      "would be whatever the table holds, which is a different row set from the one its " ++
      "uniqueness was measured over"))

section Physical

variable (lower : String → String)

def matchesBinding (identity : PhysicalIdentity) (binding : PinnedBinding) : Bool :=
  fold lower identity.catalogSource = fold lower binding.identity.catalogSource &&
    fold lower identity.schema = fold lower binding.identity.schema &&
      fold lower identity.table = fold lower binding.identity.table

def originBinding (admitted : AdmittedCrosswalkV1) : ComposedDirection → PinnedBinding
  | .sourceToTarget => admitted.sourceBinding
  | .targetToSource => admitted.targetBinding

def destinationBinding (admitted : AdmittedCrosswalkV1) : ComposedDirection → PinnedBinding
  | .sourceToTarget => admitted.targetBinding
  | .targetToSource => admitted.sourceBinding

def refuseUnpinned (definitionId : String) (identity : PhysicalIdentity) (binding : PinnedBinding)
    (role : String) : Except CrosswalkStop Unit :=
  let pinned := binding.identity
  ensure (matchesBinding lower identity binding = true)
    (.refused .physicalSchemaNotResolved ("the " ++ role ++ " resolved to " ++
      identity.catalogSource ++ "::" ++ identity.schema ++ "." ++ identity.table ++
      " and crosswalk " ++ definitionId ++ " was measured against " ++ pinned.catalogSource ++
      "::" ++ pinned.schema ++ "." ++ pinned.table ++ " (binding revision " ++
      binding.bindingRevisionId ++ "): every verdict gating this traversal — the composed " ++
      "fan-out, both legs' uniqueness, the mapping row rule — was measured over THAT table, so " ++
      "planning against this one would carry the evidence of a table nobody is reading"))

def refuseUnpinnedPhysical (admitted : AdmittedCrosswalkV1) (direction : ComposedDirection)
    (fromIdentity toIdentity mappingIdentity : PhysicalIdentity) : Except CrosswalkStop Unit := do
  let definitionId := admitted.definition.definitionId
  refuseUnpinned lower definitionId fromIdentity (originBinding admitted direction)
    "source relation"
  refuseUnpinned lower definitionId mappingIdentity admitted.mappingBinding "mapping dataset"
  refuseUnpinned lower definitionId toIdentity (destinationBinding admitted direction)
    "target relation"

def refuseUnpinnedMapping (mappingIdentity : PhysicalIdentity) (mappingDatasetRef : String) :
    Except CrosswalkStop Unit :=
  match Text.partition "::" mappingDatasetRef with
  | none => .error (.refused .physicalSchemaNotResolved ("the mapping dataset ref " ++
      Text.repr mappingDatasetRef ++ " names no catalog source"))
  | some (catalog, remainder) =>
      let bareTable := (Text.split '.' remainder).getLast?.getD ""
      ensure (fold lower mappingIdentity.catalogSource = fold lower catalog ∧
          fold lower mappingIdentity.table = fold lower bareTable)
        (.refused .physicalSchemaNotResolved ("the resolved mapping identity " ++
          mappingIdentity.catalogSource ++ "::" ++ mappingIdentity.schema ++ "." ++
          mappingIdentity.table ++ " is not the crosswalk's mapping dataset " ++
          Text.repr mappingDatasetRef ++ ": the mapping table is the one relation on a " ++
          "crosswalk that no formula names, so a traversal resolved onto the wrong one would " ++
          "join real rows through a table nobody governed for it"))

def planCrosswalkJoin (admitted : AdmittedCrosswalkV1) (direction : ComposedDirection)
    (fromIdentity toIdentity mappingIdentity : PhysicalIdentity) (executionTier : ExecutionTier)
    (roles : List String) : Except CrosswalkStop CrosswalkJoinPlan := do
  let composed ← composedCardinality admitted direction toIdentity executionTier
  let rowPredicates ← selectedPredicates admitted
  refuseUnpinnedPhysical lower admitted direction fromIdentity toIdentity mappingIdentity
  let steps ← crosswalkSteps admitted direction composed fromIdentity toIdentity rowPredicates
  refuseUnpinnedMapping lower mappingIdentity admitted.definition.mappingDatasetRef
  .ok
    { steps := steps
      outcomeKind := "CROSSWALK_EXECUTION_OPERATIONAL"
      rolesUsed := roles
      fansOut := false }

end Physical

end FeatureGen.Materialize
