import FeatureGen.Materialize.CrosswalkJoins
import FeatureGen.Overlay.Lifecycle

/-! # The measured composition

A crosswalk plan is the composition that was measured: over the tables of the pinned
bindings, leg by leg with the pairs and the pin of one side, under the verdict of its
own direction. The plans of the two directions are each other's reversal.
-/

namespace FeatureGen.Materialize

open FeatureGen.Overlay Checks

/-- What belongs together on one side of a crosswalk. -/
structure Side where
  leg : String
  endpoint : IdentifierEndpointV1
  pairs : List LogicalMappingPairV1
  pin : JoinLegPinV1
  binding : PinnedBinding
  /-- The revision that the pin names for the endpoint. -/
  pinned : String

def sourceSide (admitted : AdmittedCrosswalkV1) : Side where
  leg := "source_to_mapping"
  endpoint := admitted.definition.sourceEndpoint
  pairs := admitted.definition.sourceToMappingPairs
  pin := admitted.execution.sourceLeg
  binding := admitted.sourceBinding
  pinned := admitted.execution.sourceLeg.fromBindingRevisionId

def targetSide (admitted : AdmittedCrosswalkV1) : Side where
  leg := "mapping_to_target"
  endpoint := admitted.definition.targetEndpoint
  pairs := admitted.definition.mappingToTargetPairs
  pin := admitted.execution.targetLeg
  binding := admitted.targetBinding
  pinned := admitted.execution.targetLeg.toBindingRevisionId

/-- The side a traversal starts from, and the one it ends on. -/
def originSide (admitted : AdmittedCrosswalkV1) : ComposedDirection → Side
  | .sourceToTarget => sourceSide admitted
  | .targetToSource => targetSide admitted

def destinationSide (admitted : AdmittedCrosswalkV1) : ComposedDirection → Side
  | .sourceToTarget => targetSide admitted
  | .targetToSource => sourceSide admitted

/-- The identity is the binding's, but for the blanks around its names and their case. -/
structure Addressed (lower : String → String) (identity : PhysicalIdentity)
    (binding : PinnedBinding) : Prop where
  catalogSource : fold lower identity.catalogSource = fold lower binding.identity.catalogSource
  schema : fold lower identity.schema = fold lower binding.identity.schema
  table : fold lower identity.table = fold lower binding.identity.table

structure Carries (pin : JoinLegPinV1) (step : CrosswalkJoinStepV1) : Prop where
  kind : step.legKind = pin.kind.value
  planHash : step.legPlanHash = pin.planHash
  readSetHash : step.legReadSetHash = pin.readSetHash
  bindingRevisionIds : step.legBindingRevisionIds = pin.bindingRevisionIds
  factKeys : step.legFactKeys = pin.factKeys
  realizationRevisionIds : step.legRealizationRevisionIds = pin.realizationRevisionIds
  dependencySnapshotIds : step.legDependencySnapshotIds = pin.dependencySnapshotIds

/-- A step from the endpoint of a side to the mapping dataset. -/
structure FromOrigin (lower : String → String) (admitted : AdmittedCrosswalkV1) (side : Side)
    (identity : PhysicalIdentity) (step : CrosswalkJoinStepV1) : Prop where
  leg : step.leg = side.leg
  pin : Carries side.pin step
  pairs : step.columnPairs = toMapping side.pairs
  refs : step.columnPairs.head? = some (step.fromRef, step.toRef)
  runs : ∀ pair ∈ step.columnPairs, pair.1 ∈ side.endpoint.members ∧
    tableOf lower pair.2 = .ok admitted.definition.mappingDatasetRef
  fromCatalogSource : step.fromCatalogSource = identity.catalogSource
  toCatalogSource : step.toCatalogSource = catalogOf admitted.definition.mappingDatasetRef
  arrives : step.arrivesAtMapping = true

/-- A step from the mapping dataset to the endpoint of a side. -/
structure ToDestination (lower : String → String) (admitted : AdmittedCrosswalkV1) (side : Side)
    (identity : PhysicalIdentity) (step : CrosswalkJoinStepV1) : Prop where
  leg : step.leg = side.leg
  pin : Carries side.pin step
  pairs : step.columnPairs = fromMapping side.pairs
  refs : step.columnPairs.head? = some (step.fromRef, step.toRef)
  runs : ∀ pair ∈ step.columnPairs, pair.2 ∈ side.endpoint.members ∧
    tableOf lower pair.1 = .ok admitted.definition.mappingDatasetRef
  fromCatalogSource : step.fromCatalogSource = catalogOf admitted.definition.mappingDatasetRef
  toCatalogSource : step.toCatalogSource = identity.catalogSource
  leaves : step.arrivesAtMapping = false

/-- The verdict of the direction, which admits the tier and multiplies no row. -/
structure Gated (admitted : AdmittedCrosswalkV1) (direction : ComposedDirection)
    (executionTier : ExecutionTier) (plan : CrosswalkJoinPlan) : Prop where
  fansIn : ∃ composed, (admitted.verdictFor direction).cardinality = some composed ∧
    (composed = .oneToOne ∨ composed = .manyToOne) ∧
      ∀ step ∈ plan.steps, step.cardinality = directionalCardinality composed
  sandbox : executionTier = .sandbox → (admitted.verdictFor direction).sandboxAdmissible = true
  production : executionTier = .production →
    (admitted.verdictFor direction).productionAdmissible = true ∧
      admitted.execution.applicabilityScope.executionTier = .production

structure MeasuredComposition (lower : String → String) (admitted : AdmittedCrosswalkV1)
    (direction : ComposedDirection) (fromIdentity toIdentity mappingIdentity : PhysicalIdentity)
    (executionTier : ExecutionTier) (plan : CrosswalkJoinPlan) : Prop where
  steps : ∃ first second, plan.steps = [first, second] ∧
    FromOrigin lower admitted (originSide admitted direction) fromIdentity first ∧
      ToDestination lower admitted (destinationSide admitted direction) toIdentity second
  origin : Addressed lower fromIdentity (originSide admitted direction).binding
  destination : Addressed lower toIdentity (destinationSide admitted direction).binding
  mapping : Addressed lower mappingIdentity admitted.mappingBinding
  /-- The bindings are the revisions that the execution pins. -/
  pinned : ∀ side, side = sourceSide admitted ∨ side = targetSide admitted →
    side.binding.bindingRevisionId = side.pinned
  mappingPinned : admitted.mappingBinding.bindingRevisionId =
    admitted.execution.mappingBindingRevisionId
  gated : Gated admitted direction executionTier plan

def arrivingPredicates (plan : CrosswalkJoinPlan) : List (List MappingRowPredicateV1) :=
  (plan.steps.filter (·.arrivesAtMapping)).map (·.mappingRowPredicates)

/-- The same legs in opposite order, with the pairs swapped and the row filter on the leg that
    arrives at the mapping dataset. -/
structure Reversal (plan plan' : CrosswalkJoinPlan) : Prop where
  legs : plan'.steps.map (·.leg) = (plan.steps.map (·.leg)).reverse
  pairs : plan'.steps.map (·.columnPairs) =
    (plan.steps.map fun step => step.columnPairs.map Prod.swap).reverse
  predicates : arrivingPredicates plan' = arrivingPredicates plan
  arrives : (plan.steps.map (·.arrivesAtMapping)) = [true, false]
  others : ∀ step ∈ plan.steps, step.arrivesAtMapping = false → step.mappingRowPredicates = []

section Definitions

variable {lower : String → String} {key : IdentifierEndpointV1 → String}

/-- What `_assert_leg` has established. -/
structure Leg (lower : String → String) (pairs : List LogicalMappingPairV1)
    (endpoint : IdentifierEndpointV1) (mappingDatasetRef : String) : Prop where
  nonempty : pairs ≠ []
  member : ∀ pair ∈ pairs, pair.endpointMemberRef ∈ endpoint.members
  mapping : ∀ pair ∈ pairs, tableOf lower pair.mappingMemberRef = .ok mappingDatasetRef

theorem leg_of_assertLeg {pairs : List LogicalMappingPairV1} {endpoint : IdentifierEndpointV1}
    {mappingDatasetRef leg : String} (h : assertLeg lower pairs endpoint mappingDatasetRef leg =
      .ok ()) : Leg lower pairs endpoint mappingDatasetRef := by
  rw [assertLeg, check_bind_eq_ok, check_bind_eq_ok, check_bind_eq_ok, ensure_eq_ok, ensure_eq_ok,
    ensure_eq_ok, forM_eq_ok] at h
  obtain ⟨nonempty, _, members, mapping⟩ := h
  constructor
  · exact nonempty
  · intro pair hpair
    exact members _ (List.mem_map_of_mem hpair)
  · intro pair hpair
    have passed := mapping _ (List.mem_map_of_mem hpair)
    rw [assertMappingMember, check_bind_eq_ok, bind_eq_ok] at passed
    obtain ⟨_, table, htable, same⟩ := passed
    rw [mapError_eq_ok] at htable
    rw [htable, ensure_eq_ok.mp same]

theorem legs_of_built {definition : CrosswalkDefinitionRevisionV1}
    (built : definition.Built lower key) :
    Leg lower definition.sourceToMappingPairs definition.sourceEndpoint
        definition.mappingDatasetRef ∧
      Leg lower definition.mappingToTargetPairs definition.targetEndpoint
        definition.mappingDatasetRef := by
  obtain ⟨raw, h⟩ := built
  rw [CrosswalkDefinitionRevisionV1.build, bind_eq_ok] at h
  obtain ⟨mappingRef, _, h⟩ := h
  rw [check_bind_eq_ok, check_bind_eq_ok, check_bind_eq_ok, check_bind_eq_ok, check_bind_eq_ok,
    check_bind_eq_ok, check_bind_eq_ok, check_bind_eq_ok, bind_eq_ok] at h
  obtain ⟨_, _, _, _, _, _, source, target, policy, _, h⟩ := h
  have source := leg_of_assertLeg source
  have target := leg_of_assertLeg target
  have eq := Except.ok.inj h
  rw [← eq, CrosswalkDefinitionRevisionV1.oriented]
  split
  · exact ⟨target, source⟩
  · exact ⟨source, target⟩

theorem leg_of_side {admitted : AdmittedCrosswalkV1} (built : admitted.Built lower key)
    {side : Side} (h : side = sourceSide admitted ∨ side = targetSide admitted) :
    Leg lower side.pairs side.endpoint admitted.definition.mappingDatasetRef := by
  obtain ⟨source, target⟩ := legs_of_built built.definition
  cases h with
  | inl eq => rw [eq]; exact source
  | inr eq => rw [eq]; exact target

end Definitions

section Bindings

variable {lower : String → String} {key : IdentifierEndpointV1 → String}
  {admitted : AdmittedCrosswalkV1}

theorem pinned_of_checkBinding {binding : PinnedBinding} {pinnedId datasetRef side : String}
    (h : AdmittedCrosswalkV1.checkBinding lower binding pinnedId datasetRef side = .ok ()) :
    binding.bindingRevisionId = pinnedId := by
  rw [AdmittedCrosswalkV1.checkBinding, check_bind_eq_ok, ensure_eq_ok] at h
  exact h.1

theorem checkBindings_of_check (h : admitted.check lower = .ok ()) :
    admitted.checkBindings lower = .ok () := by
  rw [AdmittedCrosswalkV1.check, check_bind_eq_ok, check_bind_eq_ok, check_bind_eq_ok,
    check_bind_eq_ok] at h
  obtain ⟨_, _, _, _, h⟩ := h
  cases selection : admitted.mappingRowSelection with
  | none =>
      rw [selection] at h
      exact h
  | some chosen =>
      rw [selection] at h
      exact (check_bind_eq_ok.mp h).2

theorem pinned_of_built (built : admitted.Built lower key) :
    admitted.sourceBinding.bindingRevisionId =
        admitted.execution.sourceLeg.fromBindingRevisionId ∧
      admitted.targetBinding.bindingRevisionId =
          admitted.execution.targetLeg.toBindingRevisionId ∧
        admitted.mappingBinding.bindingRevisionId =
          admitted.execution.mappingBindingRevisionId := by
  have h := checkBindings_of_check built.check
  rw [AdmittedCrosswalkV1.checkBindings, check_bind_eq_ok, check_bind_eq_ok,
    check_bind_eq_ok] at h
  exact ⟨pinned_of_checkBinding h.1, pinned_of_checkBinding h.2.1, pinned_of_checkBinding h.2.2.1⟩

theorem addressed_of_refuseUnpinned {definitionId role : String} {identity : PhysicalIdentity}
    {binding : PinnedBinding}
    (h : refuseUnpinned lower definitionId identity binding role = .ok ()) :
    Addressed lower identity binding := by
  have same := ensure_eq_ok.mp h
  simp only [matchesBinding, Bool.and_eq_true, decide_eq_true_eq] at same
  exact ⟨same.1.1, same.1.2, same.2⟩

end Bindings

section Plans

variable {lower : String → String} {key : IdentifierEndpointV1 → String}
  {admitted : AdmittedCrosswalkV1} {direction : ComposedDirection}
  {fromIdentity toIdentity mappingIdentity : PhysicalIdentity} {executionTier : ExecutionTier}
  {roles : List String} {plan : CrosswalkJoinPlan}

theorem exists_composed {composed : Cardinality}
    (h : composedCardinality admitted direction toIdentity executionTier = .ok composed) :
    (admitted.verdictFor direction).cardinality = some composed ∧
      (composed = .oneToOne ∨ composed = .manyToOne) ∧
      (executionTier = .sandbox → (admitted.verdictFor direction).sandboxAdmissible = true) ∧
      (executionTier = .production →
        (admitted.verdictFor direction).productionAdmissible = true ∧
          admitted.execution.applicabilityScope.executionTier = .production) := by
  unfold composedCardinality at h
  rw [check_bind_eq_ok, check_bind_eq_ok, check_bind_eq_ok, ensure_eq_ok, ensure_eq_ok] at h
  obtain ⟨scope, admissible, _, h⟩ := h
  cases hcardinality : (admitted.verdictFor direction).cardinality with
  | none =>
      rw [hcardinality] at h
      simp at h
  | some c =>
      rw [hcardinality] at h
      obtain ⟨listed, eq⟩ := check_bind_eq_ok.mp h
      have eq := Except.ok.inj eq
      rw [eq, ensure_eq_ok] at listed
      refine ⟨congrArg some eq, ?_, ?_, ?_⟩
      · simpa [crosswalkFansIn] using listed
      · intro tier
        rw [tier] at admissible
        simpa using admissible
      · intro tier
        rw [tier] at admissible
        exact ⟨by simpa using admissible, scope tier⟩

theorem of_crosswalkStep {composed : Cardinality} {fields : LegFields}
    {step : CrosswalkJoinStepV1}
    (h : crosswalkStep admitted direction composed fields = some step) :
    step.leg = fields.leg ∧ Carries fields.pin step ∧ step.columnPairs = fields.columnPairs ∧
      step.columnPairs.head? = some (step.fromRef, step.toRef) ∧
      step.fromCatalogSource = fields.fromCatalogSource ∧
      step.toCatalogSource = fields.toCatalogSource ∧
      step.arrivesAtMapping = fields.arrivesAtMapping ∧
      step.mappingRowPredicates = fields.mappingRowPredicates ∧
      step.cardinality = directionalCardinality composed := by
  obtain ⟨first, hfirst, eq⟩ := Option.map_eq_some_iff.mp h
  rw [← eq]
  exact ⟨rfl, ⟨rfl, rfl, rfl, rfl, rfl, rfl, rfl⟩, rfl, hfirst, rfl, rfl, rfl, rfl, rfl⟩

theorem toMapping_runs {side : Side}
    (leg : Leg lower side.pairs side.endpoint admitted.definition.mappingDatasetRef) :
    ∀ pair ∈ toMapping side.pairs, pair.1 ∈ side.endpoint.members ∧
      tableOf lower pair.2 = .ok admitted.definition.mappingDatasetRef := by
  intro pair hpair
  obtain ⟨member, hmember, eq⟩ := List.mem_map.mp hpair
  rw [← eq]
  exact ⟨leg.member member hmember, leg.mapping member hmember⟩

theorem swap_toMapping (pairs : List LogicalMappingPairV1) :
    (toMapping pairs).map Prod.swap = fromMapping pairs := by
  simp [toMapping, fromMapping]

theorem swap_fromMapping (pairs : List LogicalMappingPairV1) :
    (fromMapping pairs).map Prod.swap = toMapping pairs := by
  simp [toMapping, fromMapping]

theorem fromMapping_runs {side : Side}
    (leg : Leg lower side.pairs side.endpoint admitted.definition.mappingDatasetRef) :
    ∀ pair ∈ fromMapping side.pairs, pair.2 ∈ side.endpoint.members ∧
      tableOf lower pair.1 = .ok admitted.definition.mappingDatasetRef := by
  intro pair hpair
  rw [← swap_toMapping] at hpair
  obtain ⟨other, hother, eq⟩ := List.mem_map.mp hpair
  rw [← eq]
  exact toMapping_runs leg other hother

theorem firstLeg_eq : firstLeg admitted direction = ((originSide admitted direction).leg,
    (originSide admitted direction).pin, toMapping (originSide admitted direction).pairs) := by
  cases direction <;> rfl

theorem secondLeg_eq : secondLeg admitted direction =
    ((destinationSide admitted direction).leg, (destinationSide admitted direction).pin,
      fromMapping (destinationSide admitted direction).pairs) := by
  cases direction <;> rfl

theorem originSide_eq : originSide admitted direction = sourceSide admitted ∨
    originSide admitted direction = targetSide admitted := by
  cases direction
  · exact Or.inl rfl
  · exact Or.inr rfl

theorem destinationSide_eq : destinationSide admitted direction = sourceSide admitted ∨
    destinationSide admitted direction = targetSide admitted := by
  cases direction
  · exact Or.inr rfl
  · exact Or.inl rfl

/-- The steps of a plan, with its row filter. -/
structure TwoLegs (lower : String → String) (admitted : AdmittedCrosswalkV1)
    (direction : ComposedDirection) (fromIdentity toIdentity : PhysicalIdentity)
    (composed : Cardinality) (rowPredicates : List MappingRowPredicateV1)
    (first second : CrosswalkJoinStepV1) : Prop where
  fromOrigin : FromOrigin lower admitted (originSide admitted direction) fromIdentity first
  toDestination :
    ToDestination lower admitted (destinationSide admitted direction) toIdentity second
  arriving : first.mappingRowPredicates = rowPredicates
  leaving : second.mappingRowPredicates = []
  cardinality : ∀ step ∈ [first, second], step.cardinality = directionalCardinality composed

theorem twoLegs_of_crosswalkSteps (built : admitted.Built lower key) {composed : Cardinality}
    {rowPredicates : List MappingRowPredicateV1} {steps : List CrosswalkJoinStepV1}
    (h : crosswalkSteps admitted direction composed fromIdentity toIdentity rowPredicates =
      .ok steps) :
    ∃ first second, steps = [first, second] ∧ TwoLegs lower admitted direction fromIdentity
      toIdentity composed rowPredicates first second := by
  simp only [crosswalkSteps, firstLeg_eq, secondLeg_eq] at h
  split at h
  · rename_i first second hfirst hsecond
    obtain ⟨leg, pin, pairs, refs, source, target, arrives, predicates, cardinality⟩ :=
      of_crosswalkStep hfirst
    obtain ⟨leg', pin', pairs', refs', source', target', arrives', predicates', cardinality'⟩ :=
      of_crosswalkStep hsecond
    refine ⟨first, second, (Except.ok.inj h).symm, ?_⟩
    constructor
    · refine ⟨leg, pin, pairs, refs, ?_, source, target, arrives⟩
      rw [pairs]
      exact toMapping_runs (leg_of_side built originSide_eq)
    · refine ⟨leg', pin', pairs', refs', ?_, source', target', arrives'⟩
      rw [pairs']
      exact fromMapping_runs (leg_of_side built destinationSide_eq)
    · exact predicates
    · exact predicates'
    · intro step hstep
      simp only [List.mem_cons, List.not_mem_nil, or_false] at hstep
      cases hstep with
      | inl eq => rw [eq, cardinality]
      | inr eq => rw [eq, cardinality']
  · simp at h

theorem of_planCrosswalkJoin (built : admitted.Built lower key)
    (planned : planCrosswalkJoin lower admitted direction fromIdentity toIdentity mappingIdentity
      executionTier roles = .ok plan) :
    ∃ composed rowPredicates first second,
      composedCardinality admitted direction toIdentity executionTier = .ok composed ∧
      selectedPredicates admitted = .ok rowPredicates ∧
      refuseUnpinnedPhysical lower admitted direction fromIdentity toIdentity mappingIdentity =
        .ok () ∧
      plan.steps = [first, second] ∧ TwoLegs lower admitted direction fromIdentity toIdentity
        composed rowPredicates first second := by
  rw [planCrosswalkJoin, bind_eq_ok] at planned
  obtain ⟨composed, hcomposed, planned⟩ := planned
  rw [bind_eq_ok] at planned
  obtain ⟨rowPredicates, hselected, planned⟩ := planned
  rw [check_bind_eq_ok, bind_eq_ok] at planned
  obtain ⟨physical, steps, hsteps, planned⟩ := planned
  obtain ⟨first, second, eq, legs⟩ := twoLegs_of_crosswalkSteps built hsteps
  have hplan := Except.ok.inj (check_bind_eq_ok.mp planned).2
  refine ⟨composed, rowPredicates, first, second, hcomposed, hselected, physical, ?_, legs⟩
  rw [← hplan, eq]

theorem measured_of_planned (built : admitted.Built lower key)
    (planned : planCrosswalkJoin lower admitted direction fromIdentity toIdentity mappingIdentity
      executionTier roles = .ok plan) :
    MeasuredComposition lower admitted direction fromIdentity toIdentity mappingIdentity
      executionTier plan := by
  obtain ⟨composed, rowPredicates, first, second, hcomposed, _, physical, hsteps, legs⟩ :=
    of_planCrosswalkJoin built planned
  obtain ⟨verdict, fansIn, sandbox, production⟩ := exists_composed hcomposed
  obtain ⟨sourcePinned, targetPinned, mappingPinned⟩ := pinned_of_built built
  rw [refuseUnpinnedPhysical, check_bind_eq_ok, check_bind_eq_ok] at physical
  obtain ⟨origin, mapping, destination⟩ := physical
  constructor
  · exact ⟨first, second, hsteps, legs.fromOrigin, legs.toDestination⟩
  · have addressed := addressed_of_refuseUnpinned origin
    cases direction
    · exact addressed
    · exact addressed
  · have addressed := addressed_of_refuseUnpinned destination
    cases direction
    · exact addressed
    · exact addressed
  · exact addressed_of_refuseUnpinned mapping
  · intro side hside
    cases hside with
    | inl eq => rw [eq]; exact sourcePinned
    | inr eq => rw [eq]; exact targetPinned
  · exact mappingPinned
  · refine ⟨⟨composed, verdict, fansIn, ?_⟩, sandbox, production⟩
    rw [hsteps]
    exact legs.cardinality

theorem originSide_of_ne (admitted : AdmittedCrosswalkV1) {direction' : ComposedDirection}
    (other : direction' ≠ direction) :
    originSide admitted direction' = destinationSide admitted direction ∧
      destinationSide admitted direction' = originSide admitted direction := by
  cases direction <;> cases direction'
  · exact absurd rfl other
  · exact ⟨rfl, rfl⟩
  · exact ⟨rfl, rfl⟩
  · exact absurd rfl other

theorem reversal_of_planned (built : admitted.Built lower key)
    (planned : planCrosswalkJoin lower admitted direction fromIdentity toIdentity mappingIdentity
      executionTier roles = .ok plan) {direction' : ComposedDirection}
    (other : direction' ≠ direction) {fromIdentity' toIdentity' mappingIdentity' : PhysicalIdentity}
    {executionTier' : ExecutionTier} {roles' : List String} {plan' : CrosswalkJoinPlan}
    (planned' : planCrosswalkJoin lower admitted direction' fromIdentity' toIdentity'
      mappingIdentity' executionTier' roles' = .ok plan') : Reversal plan plan' := by
  obtain ⟨_, predicates, first, second, _, selected, _, steps, legs⟩ :=
    of_planCrosswalkJoin built planned
  obtain ⟨_, predicates', first', second', _, selected', _, steps', legs'⟩ :=
    of_planCrosswalkJoin built planned'
  obtain ⟨hOrigin, hDestination⟩ := originSide_of_ne admitted other
  have same : predicates' = predicates := Except.ok.inj (selected'.symm.trans selected)
  constructor
  · rw [steps, steps']
    simp only [List.map_cons, List.map_nil, List.reverse_cons, List.reverse_nil, List.nil_append,
      List.cons_append]
    rw [legs'.fromOrigin.leg, legs'.toDestination.leg, legs.fromOrigin.leg,
      legs.toDestination.leg, hOrigin, hDestination]
  · rw [steps, steps']
    simp only [List.map_cons, List.map_nil, List.reverse_cons, List.reverse_nil, List.nil_append,
      List.cons_append]
    rw [legs'.fromOrigin.pairs, legs'.toDestination.pairs, legs.fromOrigin.pairs,
      legs.toDestination.pairs, swap_toMapping, swap_fromMapping, hOrigin, hDestination]
  · rw [arrivingPredicates, arrivingPredicates, steps, steps']
    simp [legs.fromOrigin.arrives, legs.toDestination.leaves, legs'.fromOrigin.arrives,
      legs'.toDestination.leaves, legs.arriving, legs'.arriving, same]
  · rw [steps]
    simp [legs.fromOrigin.arrives, legs.toDestination.leaves]
  · rw [steps]
    intro step hstep leaves
    simp only [List.mem_cons, List.not_mem_nil, or_false] at hstep
    cases hstep with
    | inl eq =>
        rw [eq, legs.fromOrigin.arrives] at leaves
        simp at leaves
    | inr eq => rw [eq, legs.leaving]

/-- The plans of an admitted crosswalk are its measured composition, and those of the two
    directions each other's reversal. -/
theorem crosswalk_plans_measured (built : admitted.Built lower key) :
    (∀ direction fromIdentity toIdentity mappingIdentity executionTier roles plan,
      planCrosswalkJoin lower admitted direction fromIdentity toIdentity mappingIdentity
          executionTier roles = .ok plan →
        MeasuredComposition lower admitted direction fromIdentity toIdentity mappingIdentity
          executionTier plan) ∧
      ∀ direction fromIdentity toIdentity mappingIdentity executionTier roles plan direction'
        fromIdentity' toIdentity' mappingIdentity' executionTier' roles' plan',
        direction' ≠ direction →
          planCrosswalkJoin lower admitted direction fromIdentity toIdentity mappingIdentity
              executionTier roles = .ok plan →
            planCrosswalkJoin lower admitted direction' fromIdentity' toIdentity'
                mappingIdentity' executionTier' roles' = .ok plan' → Reversal plan plan' := by
  constructor
  · intro direction fromIdentity toIdentity mappingIdentity executionTier roles plan planned
    exact measured_of_planned built planned
  · intro direction fromIdentity toIdentity mappingIdentity executionTier roles plan direction'
      fromIdentity' toIdentity' mappingIdentity' executionTier' roles' plan' other planned planned'
    exact reversal_of_planned built planned other planned'

end Plans

/-- `materialize_hash` of an endpoint's identity, whose text is ASCII. -/
def endpointKey (endpoint : IdentifierEndpointV1) : String :=
  digest <| .obj <| .ofList
    [("logical_table_ref", .str endpoint.logicalTableRef),
      ("members", .arr (.ofList (endpoint.members.map fun ref =>
        .obj (.ofList [("logical_column_ref", .str ref)]))))]

/-- A table of the catalog `source` in the physical schema `eib`. -/
def bindingOf (source table : String) : PinnedBinding where
  bindingId := table
  catalogLogicalRef := source ++ "::public." ++ table
  connectionId := "edw"
  identity := ⟨source, "edw", "eib", table, "table", none⟩
  partitionColumns := []
  businessTimeColumn := none
  purposes := ["feature"]
  bindingRevisionId := "pbr_" ++ table

def customersToAccounts : CrosswalkDefinitionRevisionV1 where
  sourceEndpoint := ⟨"cards::public.customers", ["cards::public.customers.cif"], none⟩
  mappingDatasetRef := "core::public.xref"
  sourceToMappingPairs := [⟨"cards::public.customers.cif", "core::public.xref.cif"⟩]
  mappingToTargetPairs := [⟨"core::public.accounts.id", "core::public.xref.account"⟩]
  targetEndpoint := ⟨"core::public.accounts", ["core::public.accounts.id"], none⟩
  mappingTemporalPolicyRevisionId := none
  definitionId := "cwd_customers"
  revisionId := "cwd_customers_1"

def customerLeg : JoinLegPinV1 where
  kind := .crossCatalog
  planHash := "bridge plan"
  fromDatasetRef := "cards::public.customers"
  toDatasetRef := "core::public.xref"
  fromBindingRevisionId := "pbr_customers"
  toBindingRevisionId := "pbr_xref"
  readSetHash := "bridge reads"
  bindingRevisionIds := ["pbr_customers", "pbr_xref"]
  factKeys := ["bridge"]
  realizationRevisionIds := ["brr_1"]
  dependencySnapshotIds := ["snapshot"]

def accountLeg : JoinLegPinV1 where
  kind := .sameCatalog
  planHash := "plan"
  fromDatasetRef := "core::public.xref"
  toDatasetRef := "core::public.accounts"
  fromBindingRevisionId := "pbr_xref"
  toBindingRevisionId := "pbr_accounts"
  readSetHash := "reads"
  bindingRevisionIds := ["pbr_xref", "pbr_accounts"]
  factKeys := []
  realizationRevisionIds := []
  dependencySnapshotIds := []

def safeVerdict (direction : ComposedDirection) : CrosswalkDirectionVerdictV1 :=
  ⟨direction, some .oneToOne, .exactProfile, .deterministicallyValidated, []⟩

def customerCrosswalk : AdmittedCrosswalkV1 where
  definition := customersToAccounts
  execution :=
    { crosswalkDefinitionRevisionId := "cwd_customers_1"
      mappingBindingRevisionId := "pbr_xref"
      sourceLeg := customerLeg
      targetLeg := accountLeg
      applicabilityScope := ⟨"production", .production⟩
      mappingTemporalPolicyRevisionId := none
      legMeasurementIds := ["clo_1", "clo_2"]
      compositionObservationRevisionId := some "cwo_1"
      executionRevisionId := "cwx_1" }
  decision :=
    { crosswalkDefinitionRevisionId := "cwd_customers_1"
      observationRevisionId := some "cwo_1"
      forward := safeVerdict .sourceToTarget
      reverse := safeVerdict .targetToSource }
  sourceBinding := bindingOf "cards" "customers"
  targetBinding := bindingOf "core" "accounts"
  mappingBinding := bindingOf "core" "xref"
  mappingRowSelection := none
  observation := none

def cardsCustomers : PhysicalIdentity := ⟨"cards", "eib", "customers"⟩

def coreAccounts : PhysicalIdentity := ⟨"core", "eib", "accounts"⟩

def coreXref : PhysicalIdentity := ⟨"core", "EIB", "xref"⟩

set_option maxRecDepth 8000 in
theorem customerCrosswalk_built : customerCrosswalk.Built asciiLower endpointKey := by
  constructor
  · exact ⟨customersToAccounts, rfl⟩
  · rfl

theorem exists_forward : ∃ plan, planCrosswalkJoin asciiLower customerCrosswalk .sourceToTarget
    cardsCustomers coreAccounts coreXref .production [] = .ok plan :=
  isSome_toOption.mp (by decide +kernel)

theorem exists_backward : ∃ plan, planCrosswalkJoin asciiLower customerCrosswalk .targetToSource
    coreAccounts cardsCustomers coreXref .sandbox [] = .ok plan :=
  isSome_toOption.mp (by decide +kernel)

/-- A plan over a mapping table whose schema is written in capitals, and in its binding is not. -/
theorem capital_schema_planned :
    customerCrosswalk.Built asciiLower endpointKey ∧
      (∃ plan, planCrosswalkJoin asciiLower customerCrosswalk .sourceToTarget cardsCustomers
        coreAccounts coreXref .production [] = .ok plan) ∧
      coreXref.schema ≠ customerCrosswalk.mappingBinding.identity.schema :=
  ⟨customerCrosswalk_built, exists_forward, by decide +kernel⟩

theorem crosswalk_plans_measured_customers :
    ∃ plan plan', MeasuredComposition asciiLower customerCrosswalk .sourceToTarget cardsCustomers
      coreAccounts coreXref .production plan ∧ Reversal plan plan' := by
  obtain ⟨measured, reversal⟩ := crosswalk_plans_measured customerCrosswalk_built
  obtain ⟨plan, planned⟩ := exists_forward
  obtain ⟨plan', planned'⟩ := exists_backward
  refine ⟨plan, plan', measured _ _ _ _ _ _ _ planned, ?_⟩
  apply reversal _ _ _ _ _ _ _ .targetToSource _ _ _ _ _ _ _ planned planned'
  simp

end FeatureGen.Materialize
