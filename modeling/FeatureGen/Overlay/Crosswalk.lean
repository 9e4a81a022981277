import FeatureGen.DataAgent.Physical

/-! # Crosswalks

`overlay/upload/crosswalk.py`, and the bundle of `crosswalk_admission.py` that a join
is planned from: two identifier endpoints related through a mapping dataset, the pins
of the two legs of a measured execution and the verdict on each direction. An id that
digests the other fields of its record is one of the fields here. `lower` is
`str.lower`.
-/

namespace FeatureGen.Overlay

open Checks DataAgent

/-- What the constructors raise: a `CrosswalkContractError` by its code, or a `ValueError`. -/
inductive CrosswalkError where
  | contract (code message : String)
  | value (message : String)
  deriving DecidableEq

def endpointPhysicallyBound : String := "endpoint_physically_bound"

def mappingDatasetSchemaUnsupported : String := "mapping_dataset_schema_unsupported"

def crosswalkEndpointsNotDistinct : String := "crosswalk_endpoints_not_distinct"

def crosswalkLegMalformed : String := "crosswalk_leg_malformed"

structure LogicalMappingPairV1 where
  endpointMemberRef : String
  mappingMemberRef : String
  deriving DecidableEq

/-- A binding with the digest of its content. -/
structure PinnedBinding extends PhysicalDatasetBindingV1 where
  bindingRevisionId : String
  deriving DecidableEq

/-- `members` are the `logical_column_ref`s of the members. -/
structure IdentifierEndpointV1 where
  logicalTableRef : String
  members : List String
  physicalBinding : Option PinnedBinding
  deriving DecidableEq

structure CrosswalkDefinitionRevisionV1 where
  sourceEndpoint : IdentifierEndpointV1
  mappingDatasetRef : String
  sourceToMappingPairs : List LogicalMappingPairV1
  mappingToTargetPairs : List LogicalMappingPairV1
  targetEndpoint : IdentifierEndpointV1
  mappingTemporalPolicyRevisionId : Option String
  definitionId : String
  revisionId : String
  deriving DecidableEq

section Definition

variable (lower : String → String)

def logicalColumnRef (value : String) : Except CrosswalkError String := do
  let parts ← (parseRef (norm lower value)).mapError (.contract crosswalkLegMalformed)
  ensure (parts.column ≠ none) (.contract crosswalkLegMalformed
    ("a crosswalk mapping pair requires a column ref, got " ++ Text.repr value))
  .ok (normalizeRef lower parts.source (some parts.schema) parts.table parts.column)

def logicalTableRef (value : String) : Except CrosswalkError String := do
  let parts ← (parseRef (norm lower value)).mapError (.contract crosswalkLegMalformed)
  ensure (parts.column = none) (.contract crosswalkLegMalformed
    ("a mapping dataset ref must not carry a column, got " ++ Text.repr value))
  .ok (normalizeRef lower parts.source (some parts.schema) parts.table none)

/-- `LogicalMappingPairV1.__post_init__`. -/
def LogicalMappingPairV1.build (raw : LogicalMappingPairV1) :
    Except CrosswalkError LogicalMappingPairV1 := do
  let endpointMemberRef ← logicalColumnRef lower raw.endpointMemberRef
  let mappingMemberRef ← logicalColumnRef lower raw.mappingMemberRef
  ensure (endpointMemberRef ≠ mappingMemberRef) (.contract crosswalkLegMalformed
    ("a mapping pair must join two different columns, got " ++ Text.repr endpointMemberRef ++
      " twice"))
  .ok ⟨endpointMemberRef, mappingMemberRef⟩

def tableOf (columnRef : String) : Except String String := do
  let parts ← parseRef columnRef
  .ok (normalizeRef lower parts.source (some parts.schema) parts.table none)

def assertPublic (ref what : String) : Except CrosswalkError Unit := do
  let parts ← (parseRef ref).mapError .value
  ensure (parts.schema = "public") (.contract mappingDatasetSchemaUnsupported
    (what ++ " " ++ Text.repr ref ++ " is outside the flat 'public' namespace. The crosswalk " ++
      "DEFINITION can represent it, but no execution could ever be composed for it: bridge " ++
      "realization column refs refuse a non-public schema (bridge_realization.py:93-95). " ++
      "Refused here, at authoring time, rather than as a crash inside a future compiler"))

/-- The mapping side of `_assert_leg`, of one pair. -/
def assertMappingMember (mappingDatasetRef leg mappingRef : String) :
    Except CrosswalkError Unit := do
  assertPublic mappingRef "crosswalk mapping column"
  let table ← (tableOf lower mappingRef).mapError .value
  ensure (table = mappingDatasetRef) (.contract crosswalkLegMalformed
    ("the " ++ leg ++ " leg names " ++ Text.repr mappingRef ++ ", which is not a column of the " ++
      "mapping dataset " ++ Text.repr mappingDatasetRef))

def assertLeg (pairs : List LogicalMappingPairV1) (endpoint : IdentifierEndpointV1)
    (mappingDatasetRef leg : String) : Except CrosswalkError Unit := do
  let endpointRefs := pairs.map (·.endpointMemberRef)
  let mappingRefs := pairs.map (·.mappingMemberRef)
  ensure (pairs ≠ []) (.contract crosswalkLegMalformed
    ("the " ++ leg ++ " leg must carry at least one ordered mapping pair"))
  ensure (endpointRefs.Nodup ∧ mappingRefs.Nodup) (.contract crosswalkLegMalformed
    ("the " ++ leg ++ " leg must not repeat either tuple member"))
  ensure (∀ ref ∈ endpointRefs, ref ∈ endpoint.members) (.contract crosswalkLegMalformed
    ("the " ++ leg ++ " leg names columns that are not members of endpoint " ++
      Text.repr endpoint.logicalTableRef))
  mappingRefs.forM (assertMappingMember lower mappingDatasetRef leg)

/-- The checks of an endpoint, but for its leg. -/
def assertUnbound (endpoint : IdentifierEndpointV1) : Except CrosswalkError Unit :=
  ensure (endpoint.physicalBinding = none) (.contract endpointPhysicallyBound
    ("crosswalk endpoint " ++ Text.repr endpoint.logicalTableRef ++ " carries a physical " ++
      "binding. A definition is environment-independent; bindings belong to the execution " ++
      "revision, which this task deliberately has no producer for"))

def assertNotMapping (mappingRef : String) (endpoint : IdentifierEndpointV1) :
    Except CrosswalkError Unit :=
  ensure (endpoint.logicalTableRef ≠ mappingRef) (.contract crosswalkEndpointsNotDistinct
    ("the mapping dataset " ++ Text.repr mappingRef ++ " is also an endpoint; that is a direct " ++
      "relationship, which belongs to the bridge family, not a crosswalk"))

def definedPolicy (policy : Option String) : Except CrosswalkError (Option String) :=
  match policy with
  | none => .ok none
  | some id => do
      ensure (strip id ≠ "") (.contract crosswalkLegMalformed
        "a blank temporal policy revision id declares nothing; use None")
      .ok (some (strip id))

namespace CrosswalkDefinitionRevisionV1

/-- The sides the other way round, each with its pairs. -/
def swapped (raw : CrosswalkDefinitionRevisionV1) : CrosswalkDefinitionRevisionV1 :=
  { raw with
    sourceEndpoint := raw.targetEndpoint
    targetEndpoint := raw.sourceEndpoint
    sourceToMappingPairs := raw.mappingToTargetPairs
    mappingToTargetPairs := raw.sourceToMappingPairs }

/-- The sides in the order of `key`: `materialize_hash` of an endpoint's
    `logical_identity_payload`. -/
def oriented (key : IdentifierEndpointV1 → String) (raw : CrosswalkDefinitionRevisionV1) :
    CrosswalkDefinitionRevisionV1 :=
  if key raw.targetEndpoint < key raw.sourceEndpoint then raw.swapped else raw

/-- `__post_init__`: what the constructor makes of its arguments. -/
def build (key : IdentifierEndpointV1 → String) (raw : CrosswalkDefinitionRevisionV1) :
    Except CrosswalkError CrosswalkDefinitionRevisionV1 := do
  let mappingRef ← logicalTableRef lower raw.mappingDatasetRef
  assertPublic mappingRef "crosswalk mapping dataset"
  assertUnbound raw.sourceEndpoint
  assertUnbound raw.targetEndpoint
  ensure (¬ (raw.sourceEndpoint.logicalTableRef = raw.targetEndpoint.logicalTableRef ∧
      raw.sourceEndpoint.members = raw.targetEndpoint.members))
    (.contract crosswalkEndpointsNotDistinct
      "a crosswalk relates two DIFFERENT identifier endpoints")
  assertNotMapping mappingRef raw.sourceEndpoint
  assertNotMapping mappingRef raw.targetEndpoint
  assertLeg lower raw.sourceToMappingPairs raw.sourceEndpoint mappingRef "source_to_mapping"
  assertLeg lower raw.mappingToTargetPairs raw.targetEndpoint mappingRef "mapping_to_target"
  let policy ← definedPolicy raw.mappingTemporalPolicyRevisionId
  .ok { raw.oriented key with
    mappingDatasetRef := mappingRef
    mappingTemporalPolicyRevisionId := policy }

/-- A definition that the constructor returns. -/
def Built (key : IdentifierEndpointV1 → String) (definition : CrosswalkDefinitionRevisionV1) :
    Prop :=
  ∃ raw : CrosswalkDefinitionRevisionV1, raw.build lower key = .ok definition

end CrosswalkDefinitionRevisionV1

end Definition

inductive JoinLegKind where
  | sameCatalog
  | crossCatalog

def JoinLegKind.value : JoinLegKind → String
  | .sameCatalog => "same_catalog"
  | .crossCatalog => "cross_catalog"

structure JoinLegPinV1 where
  kind : JoinLegKind
  planHash : String
  fromDatasetRef : String
  toDatasetRef : String
  fromBindingRevisionId : String
  toBindingRevisionId : String
  readSetHash : String
  bindingRevisionIds : List String
  factKeys : List String
  realizationRevisionIds : List String
  dependencySnapshotIds : List String

inductive ExecutionTier where
  | sandbox
  | production
  deriving DecidableEq

def ExecutionTier.value : ExecutionTier → String
  | .sandbox => "sandbox"
  | .production => "production"

structure RealizationApplicabilityScopeV1 where
  scopeId : String
  executionTier : ExecutionTier

structure CrosswalkExecutionRevisionV1 where
  crosswalkDefinitionRevisionId : String
  mappingBindingRevisionId : String
  sourceLeg : JoinLegPinV1
  targetLeg : JoinLegPinV1
  applicabilityScope : RealizationApplicabilityScopeV1
  mappingTemporalPolicyRevisionId : Option String
  legMeasurementIds : List String
  compositionObservationRevisionId : Option String
  executionRevisionId : String

/-- `COMPOSED_DIRECTIONS`. -/
inductive ComposedDirection where
  | sourceToTarget
  | targetToSource

def ComposedDirection.value : ComposedDirection → String
  | .sourceToTarget => "source_to_target"
  | .targetToSource => "target_to_source"

inductive Cardinality where
  | oneToOne
  | oneToMany
  | manyToOne
  | manyToMany
  deriving DecidableEq

def Cardinality.value : Cardinality → String
  | .oneToOne => "one_to_one"
  | .oneToMany => "one_to_many"
  | .manyToOne => "many_to_one"
  | .manyToMany => "many_to_many"

inductive SafetyStatus where
  | unassessed
  | deterministicallyValidated
  | unsafeDirection
  deriving DecidableEq

def SafetyStatus.value : SafetyStatus → String
  | .unassessed => "unassessed"
  | .deterministicallyValidated => "deterministically_validated"
  | .unsafeDirection => "unsafe"

inductive CardinalityBasis where
  | governedKey
  | sourceConstraint
  | exactProfile
  | approximateProfile
  | metadataInference
  | none

/-- `cardinality` is the value of a `DirectionalCardinalityVerdictV1`. -/
structure CrosswalkDirectionVerdictV1 where
  direction : ComposedDirection
  cardinality : Option Cardinality
  cardinalityBasis : CardinalityBasis
  safetyStatus : SafetyStatus
  reasonCodes : List String

namespace CrosswalkDirectionVerdictV1

def sandboxAdmissible (verdict : CrosswalkDirectionVerdictV1) : Bool :=
  verdict.safetyStatus = .unassessed || verdict.safetyStatus = .deterministicallyValidated

def productionAdmissible (verdict : CrosswalkDirectionVerdictV1) : Bool :=
  verdict.safetyStatus = .deterministicallyValidated

end CrosswalkDirectionVerdictV1

structure CrosswalkAdmissionDecisionV1 where
  crosswalkDefinitionRevisionId : String
  observationRevisionId : Option String
  forward : CrosswalkDirectionVerdictV1
  reverse : CrosswalkDirectionVerdictV1

def CrosswalkAdmissionDecisionV1.verdict (decision : CrosswalkAdmissionDecisionV1) :
    ComposedDirection → CrosswalkDirectionVerdictV1
  | .sourceToTarget => decision.forward
  | .targetToSource => decision.reverse

/-- A predicate payload of a row selection, a dictionary of texts. -/
structure RowPayload where
  kind : String
  operator : String
  columnRef : String
  parameterRef : Option String

/-- What a crosswalk reads of the `DatasetRowSelectionV1` of its mapping rows. -/
structure MappingRowSelection where
  datasetLogicalRef : String
  temporalPolicyRevisionId : String
  predicatePayloads : List RowPayload
  contentHash : String

structure CrosswalkExecutionObservationV1 where
  observationRevisionId : String
  mappingRowSelectionHash : Option String

structure AdmittedCrosswalkV1 where
  definition : CrosswalkDefinitionRevisionV1
  execution : CrosswalkExecutionRevisionV1
  decision : CrosswalkAdmissionDecisionV1
  sourceBinding : PinnedBinding
  targetBinding : PinnedBinding
  mappingBinding : PinnedBinding
  mappingRowSelection : Option MappingRowSelection
  observation : Option CrosswalkExecutionObservationV1

namespace AdmittedCrosswalkV1

variable (lower : String → String) (admitted : AdmittedCrosswalkV1)

def verdictFor (direction : ComposedDirection) : CrosswalkDirectionVerdictV1 :=
  admitted.decision.verdict direction

/-- The checks of `__post_init__` on the row selection. -/
def checkSelection (selection : MappingRowSelection) : Except CrosswalkError Unit := do
  ensure (selection.datasetLogicalRef = admitted.definition.mappingDatasetRef)
    (.value ("the mapping row selection is for " ++ Text.repr selection.datasetLogicalRef ++
      " and the crosswalk's mapping dataset is " ++
      Text.repr admitted.definition.mappingDatasetRef))
  ensure (∀ pinned ∈ admitted.execution.mappingTemporalPolicyRevisionId,
      selection.temporalPolicyRevisionId = pinned)
    (.value ("the mapping row selection resolved under temporal policy " ++
      selection.temporalPolicyRevisionId ++ " and the execution revision pins " ++
      admitted.execution.mappingTemporalPolicyRevisionId.getD "" ++ ": the current policy " ++
      "pointer moved after the crosswalk was measured, so the rows this traversal would read " ++
      "are not the rows its uniqueness was proved over"))
  let measured := admitted.observation.bind (·.mappingRowSelectionHash)
  ensure (∀ hash ∈ measured, selection.contentHash = hash)
    (.value ("the mapping row selection's content hash differs from the one the composed " ++
      "measurement recorded (" ++ selection.contentHash ++ " != " ++ measured.getD "" ++ ")"))

/-- `_check_bindings`, of one binding in one slot. -/
def checkBinding (binding : PinnedBinding) (pinnedId datasetRef side : String) :
    Except CrosswalkError Unit := do
  ensure (binding.bindingRevisionId = pinnedId)
    (.value ("the supplied " ++ side ++ " binding is revision " ++ binding.bindingRevisionId ++
      " and the execution pins " ++ pinnedId ++ ": a traversal planned against a binding the " ++
      "measurement did not pin would read a table whose uniqueness nobody measured"))
  match Text.partition "::" datasetRef with
  | none => .error (.value "not enough values to unpack (expected 2, got 1)")
  | some (catalog, remainder) =>
      let actual := (norm lower binding.identity.catalogSource, norm lower binding.identity.table)
      let bare := (Text.split '.' remainder).getLast?.getD ""
      ensure (actual = (norm lower catalog, norm lower bare))
        (.value ("the " ++ side ++ " binding addresses " ++ actual.1 ++ "::" ++ actual.2 ++
          " and the pin names " ++ Text.repr datasetRef ++ ": the right revision id in the " ++
          "wrong slot would compare a resolved table against another table's pinned address"))

def checkBindings : Except CrosswalkError Unit := do
  let execution := admitted.execution
  checkBinding lower admitted.sourceBinding execution.sourceLeg.fromBindingRevisionId
    execution.sourceLeg.fromDatasetRef "source"
  checkBinding lower admitted.targetBinding execution.targetLeg.toBindingRevisionId
    execution.targetLeg.toDatasetRef "target"
  checkBinding lower admitted.mappingBinding execution.mappingBindingRevisionId
    admitted.definition.mappingDatasetRef "mapping"
  checkBinding lower admitted.mappingBinding execution.sourceLeg.toBindingRevisionId
    execution.sourceLeg.toDatasetRef "mapping (as the source leg's destination)"
  checkBinding lower admitted.mappingBinding execution.targetLeg.fromBindingRevisionId
    execution.targetLeg.fromDatasetRef "mapping (as the target leg's origin)"

/-- `__post_init__`. -/
def check : Except CrosswalkError Unit := do
  let revisionId := admitted.definition.revisionId
  ensure (admitted.execution.crosswalkDefinitionRevisionId = revisionId)
    (.value ("the execution revision pins a different crosswalk definition revision than the " ++
      "one supplied (" ++ admitted.execution.crosswalkDefinitionRevisionId ++ " != " ++
      revisionId ++ "): a plan compiled from this pair would join the columns of one " ++
      "definition under the safety verdict of another"))
  ensure (admitted.decision.crosswalkDefinitionRevisionId = revisionId)
    (.value ("the admission decision was taken on a different crosswalk definition revision (" ++
      admitted.decision.crosswalkDefinitionRevisionId ++ " != " ++ revisionId ++ ")"))
  ensure (admitted.decision.observationRevisionId =
      admitted.execution.compositionObservationRevisionId)
    (.value ("the decision and the execution revision name different composed observations; a " ++
      "verdict read off one measurement and pinned against another is a verdict nobody reached"))
  ensure (∀ observation ∈ admitted.observation,
      some observation.observationRevisionId = admitted.execution.compositionObservationRevisionId)
    (.value "the supplied composed observation is not the one the execution revision pins")
  match admitted.mappingRowSelection with
  | none => admitted.checkBindings lower
  | some selection => do
      admitted.checkSelection selection
      admitted.checkBindings lower

/-- A bundle that the constructors return. -/
structure Built (key : IdentifierEndpointV1 → String) : Prop where
  definition : admitted.definition.Built lower key
  check : admitted.check lower = .ok ()

end AdmittedCrosswalkV1

end FeatureGen.Overlay
