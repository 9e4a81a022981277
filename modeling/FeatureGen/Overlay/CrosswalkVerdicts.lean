import FeatureGen.DataAgent.Relationship
import FeatureGen.Lib.KeySort
import FeatureGen.Overlay.Crosswalk

/-! # Directional verdicts on a measured crosswalk

`crosswalk_observation.py` (the composed record, its composition from two legs and
its uniqueness verdict) and the two functions of `crosswalk_admission.py` that turn
it into one verdict a direction. Of the records the fields these read are kept; the
order of the caveats is not. A ratio is a fraction here, not its nearest float.
-/

namespace FeatureGen.CrosswalkVerdicts

open DataAgent Overlay

inductive CrosswalkObservationCaveat where
  | mappingTemporalPolicyAbsent
  | mappingTemporalPolicyUnresolved
  | mappingPartitionScoped
  | sourcePartitionScoped
  | targetPartitionScoped
  | legEvidenceNotExact
  deriving DecidableEq

def partitionScopeCaveats : List CrosswalkObservationCaveat :=
  [.mappingPartitionScoped, .sourcePartitionScoped, .targetPartitionScoped]

structure MappingTupleObservationV1 where
  bindingRevisionId : String
  rowCount : ℕ
  nonNullRowCount : ℕ
  duplicateSourceTupleCount : ℕ
  duplicateTargetTupleCount : ℕ
  partitionsRead : List String

def MappingTupleObservationV1.nullRowCount (mapping : MappingTupleObservationV1) : ℕ :=
  mapping.rowCount - mapping.nonNullRowCount

structure CrosswalkLegObservationV1 where
  normalizationIds : List String
  asOf : Option String
  executionPrincipal : String
  method : String
  rowCoverage : RowCoverage
  complete : Bool
  partitionsRead : List String

/-- What the composition itself measured. -/
structure ComposedCounts where
  matchedSourceDistinct : ℕ
  unmatchedSourceDistinct : ℕ
  matchedTargetDistinct : ℕ
  unmatchedTargetDistinct : ℕ
  composedRowCount : ℕ
  sourceToTargetMaxMatches : ℕ
  targetToSourceMaxMatches : ℕ

/-- `observedAt` is in microseconds. -/
structure CrosswalkExecutionObservationV1 extends ComposedCounts where
  sourceLeg : CrosswalkLegObservationV1
  targetLeg : CrosswalkLegObservationV1
  mapping : MappingTupleObservationV1
  asOf : Option String
  partitions : List String
  executionPrincipal : String
  method : String
  rowCoverage : RowCoverage
  complete : Bool
  observedAt : ℤ
  caveats : List CrosswalkObservationCaveat

namespace CrosswalkExecutionObservationV1

variable (observation : CrosswalkExecutionObservationV1)

def partitionScoped : Bool :=
  !observation.partitions.isEmpty || !observation.mapping.partitionsRead.isEmpty ||
    !observation.sourceLeg.partitionsRead.isEmpty ||
    !observation.targetLeg.partitionsRead.isEmpty ||
    observation.caveats.any partitionScopeCaveats.contains

def exactAndComplete : Bool :=
  observation.complete && observation.rowCoverage = .full && observation.method = "exact"

/-- The most rows a row of the origin reaches. -/
def observedMax : ComposedDirection → ℕ
  | .sourceToTarget => observation.sourceToTargetMaxMatches
  | .targetToSource => observation.targetToSourceMaxMatches

/-- Tuples of the landing side that the mapping repeats. -/
def landingDuplicates : ComposedDirection → ℕ
  | .sourceToTarget => observation.mapping.duplicateTargetTupleCount
  | .targetToSource => observation.mapping.duplicateSourceTupleCount

def uniquenessVerdict (direction : ComposedDirection) : UniquenessVerdict :=
  if 0 < observation.landingDuplicates direction ∨ 0 < observation.mapping.nullRowCount ∨
      1 < observation.observedMax direction then .notUnique
  else if observation.composedRowCount = 0 then .unknown
  else if ¬ observation.exactAndComplete then .unknown
  else .unique

/-- `source_distinct_containment_ratio`, `target_distinct_containment_ratio`. -/
def containmentRatio (matched unmatched : ℕ) : ℚ :=
  if matched + unmatched = 0 then 0 else matched / (matched + unmatched)

end CrosswalkExecutionObservationV1

inductive CompositionError where
  | notAtomic

def coverageRank : RowCoverage → ℕ
  | .full => 2
  | .sampled => 1
  | .partially => 0

def weakestCoverage (left right : RowCoverage) : RowCoverage :=
  if coverageRank left ≤ coverageRank right then left else right

def addedCaveats (sourceLeg targetLeg : CrosswalkLegObservationV1)
    (mapping : MappingTupleObservationV1) (temporalPolicy : Option String)
    (caveats : List CrosswalkObservationCaveat) : List CrosswalkObservationCaveat :=
  (if ¬ (sourceLeg.method = "exact" ∧ targetLeg.method = "exact") ∨
      weakestCoverage sourceLeg.rowCoverage targetLeg.rowCoverage ≠ .full then
    [.legEvidenceNotExact] else []) ++
  (if mapping.partitionsRead.isEmpty then [] else [.mappingPartitionScoped]) ++
  (if sourceLeg.partitionsRead.isEmpty then [] else [.sourcePartitionScoped]) ++
  (if targetLeg.partitionsRead.isEmpty then [] else [.targetPartitionScoped]) ++
  (if temporalPolicy = none ∧ ¬ caveats.contains .mappingTemporalPolicyAbsent ∧
      ¬ caveats.contains .mappingTemporalPolicyUnresolved then
    [.mappingTemporalPolicyAbsent] else [])

/-- `compose_crosswalk_observation`: both legs at one instant, by one principal, and
    as exact, covering and complete as the weaker of them. -/
def composeCrosswalkObservation (sourceLeg targetLeg : CrosswalkLegObservationV1)
    (mapping : MappingTupleObservationV1) (counts : ComposedCounts) (observedAt : ℤ)
    (partitions : List String) (temporalPolicy : Option String)
    (caveats : List CrosswalkObservationCaveat) (complete : Bool) :
    Except CompositionError CrosswalkExecutionObservationV1 :=
  if sourceLeg.asOf ≠ targetLeg.asOf then .error .notAtomic
  else if sourceLeg.executionPrincipal ≠ targetLeg.executionPrincipal then .error .notAtomic
  else .ok {
    toComposedCounts := counts
    sourceLeg := sourceLeg
    targetLeg := targetLeg
    mapping := mapping
    asOf := sourceLeg.asOf
    partitions := partitions
    executionPrincipal := sourceLeg.executionPrincipal
    method :=
      if sourceLeg.method = "exact" ∧ targetLeg.method = "exact" then "exact" else "approximate"
    rowCoverage := weakestCoverage sourceLeg.rowCoverage targetLeg.rowCoverage
    complete := complete && sourceLeg.complete && targetLeg.complete
    observedAt := observedAt
    caveats := caveats ++ addedCaveats sourceLeg targetLeg mapping temporalPolicy caveats }

/-- Ages are in microseconds. -/
structure CrosswalkAdmissionPolicyV1 where
  minimumComposedRows : ℤ
  minimumMappingRows : ℤ
  maximumEvidenceAge : ℤ
  maximumMappingNullRatio : ℚ
  minimumSourceDistinctContainment : ℚ
  minimumTargetDistinctContainment : ℚ
  allowedNormalizationIds : List String
  requireGovernedMappingRowsForProduction : Bool

def CrosswalkLegObservationV1.admitted (leg : CrosswalkLegObservationV1)
    (policy : CrosswalkAdmissionPolicyV1) : Bool :=
  leg.normalizationIds.all policy.allowedNormalizationIds.contains

def directionalFanout : String := "directional_crosswalk_fanout"

def when (condition : Bool) (code : String) : List String := if condition then [code] else []

section Verdicts

variable (observation : CrosswalkExecutionObservationV1) (policy : CrosswalkAdmissionPolicyV1)

/-- `_shared_reasons`: what disqualifies both directions. `partitionScopeRef` is the
    applicability scope's. -/
def sharedReasons (now : ℤ) (partitionScopeRef : Option String) : List String :=
  when (!observation.complete) "observation_incomplete" ++
  when (observation.method ≠ "exact") "observation_not_exact" ++
  when (observation.rowCoverage ≠ .full) "observation_not_full_coverage" ++
  when (policy.maximumEvidenceAge < now - observation.observedAt) "observation_too_old" ++
  when ((observation.composedRowCount : ℤ) < policy.minimumComposedRows ∨
    (observation.mapping.rowCount : ℤ) < policy.minimumMappingRows)
    "observation_below_minimum_rows" ++
  when (observation.mapping.rowCount ≠ 0 ∧ policy.maximumMappingNullRatio <
    (observation.mapping.nullRowCount : ℚ) / observation.mapping.rowCount) "mapping_null_rows" ++
  when (!observation.sourceLeg.admitted policy) "normalization_not_admitted" ++
  when (!observation.targetLeg.admitted policy) "normalization_not_admitted" ++
  when (policy.requireGovernedMappingRowsForProduction &&
    observation.caveats.contains .mappingTemporalPolicyAbsent)
    "mapping_rows_not_temporally_filtered" ++
  when (policy.requireGovernedMappingRowsForProduction &&
    observation.caveats.contains .mappingTemporalPolicyUnresolved)
    "mapping_temporal_policy_unresolved" ++
  when (partitionScopeRef.isNone && observation.partitionScoped)
    "partition_scoped_evidence_cannot_validate_unrestricted_crosswalk" ++
  when (partitionScopeRef.isSome && !observation.partitionScoped)
    "crosswalk_scope_requires_partition_evidence" ++
  when (CrosswalkExecutionObservationV1.containmentRatio observation.matchedSourceDistinct
    observation.unmatchedSourceDistinct < policy.minimumSourceDistinctContainment)
    "source_containment_below_policy" ++
  when (CrosswalkExecutionObservationV1.containmentRatio observation.matchedTargetDistinct
    observation.unmatchedTargetDistinct < policy.minimumTargetDistinctContainment)
    "target_containment_below_policy"

def flipped : ComposedDirection → ComposedDirection
  | .sourceToTarget => .targetToSource
  | .targetToSource => .sourceToTarget

/-- `tuple(sorted(set(reason_codes)))`. -/
def sortedReasons (reasons : List String) : List String := KeySort.sortBy id reasons.dedup

def directionVerdict (direction : ComposedDirection) (shared : List String) :
    CrosswalkDirectionVerdictV1 :=
  let reverseMax := observation.observedMax (flipped direction)
  match observation.uniquenessVerdict direction with
  | .notUnique =>
      { direction := direction
        cardinality := some (if reverseMax ≤ 1 then .oneToMany else .manyToMany)
        cardinalityBasis := .exactProfile
        safetyStatus := .unsafeDirection
        reasonCodes := sortedReasons (shared ++ [directionalFanout]) }
  | .unknown =>
      { direction := direction
        cardinality := none
        cardinalityBasis := if observation.exactAndComplete then .exactProfile else .none
        safetyStatus := .unassessed
        reasonCodes := sortedReasons (shared ++ ["directional_uniqueness_not_proved"]) }
  | .unique =>
      if shared.isEmpty then
        { direction := direction
          cardinality := some (if reverseMax ≤ 1 then .oneToOne else .manyToOne)
          cardinalityBasis := .exactProfile
          safetyStatus := .deterministicallyValidated
          reasonCodes := ["deterministic_crosswalk_policy_satisfied"] }
      else
        { direction := direction
          cardinality := none
          cardinalityBasis := if observation.exactAndComplete then .exactProfile else .none
          safetyStatus := .unassessed
          reasonCodes := sortedReasons (shared ++ ["directional_uniqueness_not_proved"]) }

end Verdicts

/-- The tuples of the rows of three tables; `none` where a column of one is NULL. -/
structure Relations (K L : Type) where
  source : List (Option K)
  mapping : List (Option K × Option L)
  target : List (Option L)

/-- Both tuples of a mapping row, where neither holds a NULL. -/
def linked {K L : Type} : Option K × Option L → Option (K × L)
  | (some k, some l) => some (k, l)
  | _ => none

/-- How many values a bag holds more than once. -/
def repeatedValues {A : Type} [DecidableEq A] (xs : List A) : ℕ :=
  (xs.dedup.filter fun x => 1 < xs.count x).length

namespace Relations

variable {K L : Type} [DecidableEq K] [DecidableEq L] (r : Relations K L)

/-- The same tables from the other side. -/
def exchanged : Relations L K := ⟨r.target, r.mapping.map Prod.swap, r.source⟩

def links : List (K × L) := r.mapping.filterMap linked

/-- The tuples of the origin rows without a NULL. -/
def origins : List K := r.source.filterMap id

/-- The rows that one origin row of this tuple joins through the mapping. -/
def reach (k : K) : ℕ :=
  ((r.links.filter fun link => link.1 = k).map fun link => r.target.count (some link.2)).sum

/-- What the three-table probe counts. -/
def counts : ComposedCounts where
  matchedSourceDistinct := (r.origins.dedup.filter fun k => 0 < r.reach k).length
  unmatchedSourceDistinct := (r.origins.dedup.filter fun k => r.reach k = 0).length
  matchedTargetDistinct :=
    (r.exchanged.origins.dedup.filter fun l => 0 < r.exchanged.reach l).length
  unmatchedTargetDistinct :=
    (r.exchanged.origins.dedup.filter fun l => r.exchanged.reach l = 0).length
  composedRowCount := (r.origins.map r.reach).sum
  sourceToTargetMaxMatches := (r.origins.map r.reach).foldr max 0
  targetToSourceMaxMatches := (r.exchanged.origins.map r.exchanged.reach).foldr max 0

def Composed : Prop := ∃ k ∈ r.origins, 0 < r.reach k

def NullRow : Prop := ∃ row ∈ r.mapping, linked row = none

/-- Every row of the direction's origin reaches at most one row. -/
def Narrow : ComposedDirection → Prop
  | .sourceToTarget => ∀ k ∈ r.origins, r.reach k ≤ 1
  | .targetToSource => ∀ l ∈ r.exchanged.origins, r.exchanged.reach l ≤ 1

/-- The mapping holds a tuple of the direction's landing side more than once. -/
def RepeatsLanding : ComposedDirection → Prop
  | .sourceToTarget => ∃ l, 1 < (r.links.map Prod.snd).count l
  | .targetToSource => ∃ k, 1 < (r.links.map Prod.fst).count k

end Relations

/-- The counts of the observation are the true counts of these relations. -/
structure CrosswalkExecutionObservationV1.Measures {K L : Type} [DecidableEq K] [DecidableEq L]
    (observation : CrosswalkExecutionObservationV1) (r : Relations K L) : Prop where
  composed : observation.toComposedCounts = r.counts
  rows : observation.mapping.rowCount = r.mapping.length
  nonNull : observation.mapping.nonNullRowCount = r.links.length
  sources : observation.mapping.duplicateSourceTupleCount = repeatedValues (r.links.map Prod.fst)
  targets : observation.mapping.duplicateTargetTupleCount = repeatedValues (r.links.map Prod.snd)

section Counting

theorem foldr_max_le {xs : List ℕ} {n : ℕ} : xs.foldr max 0 ≤ n ↔ ∀ x ∈ xs, x ≤ n := by
  induction xs with
  | nil => simp
  | cons x xs ih => rw [List.foldr_cons, max_le_iff, ih, List.forall_mem_cons]

theorem repeatedValues_pos {A : Type} [DecidableEq A] {xs : List A} :
    0 < repeatedValues xs ↔ ∃ x, 1 < xs.count x := by
  unfold repeatedValues
  rw [List.length_pos_iff_exists_mem]
  constructor
  · intro h
    obtain ⟨x, hx⟩ := h
    have more := (List.mem_filter.mp hx).2
    exact ⟨x, by simpa using more⟩
  · intro h
    obtain ⟨x, hx⟩ := h
    have there : x ∈ xs := List.count_pos_iff.mp (by omega)
    exact ⟨x, List.mem_filter.mpr ⟨List.mem_dedup.mpr there, by simpa using hx⟩⟩

variable {K L : Type} [DecidableEq K] [DecidableEq L] {r : Relations K L}
  {observation : CrosswalkExecutionObservationV1}

theorem nullRowCount_pos (h : observation.Measures r) :
    0 < observation.mapping.nullRowCount ↔ r.NullRow := by
  have most : r.links.length ≤ r.mapping.length := List.length_filterMap_le linked r.mapping
  have all_linked : r.links.length = r.mapping.length ↔ ∀ row ∈ r.mapping, linked row ≠ none := by
    unfold Relations.links
    rw [List.length_filterMap_eq_countP, List.countP_eq_length]
    simp only [ne_eq, Option.isSome_iff_ne_none]
  have fewer : 0 < observation.mapping.nullRowCount ↔ r.links.length ≠ r.mapping.length := by
    unfold MappingTupleObservationV1.nullRowCount
    rw [h.rows, h.nonNull]
    omega
  rw [fewer, ne_eq, all_linked]
  unfold Relations.NullRow
  push Not
  rfl

theorem observedMax_le_one (h : observation.Measures r) (direction : ComposedDirection) :
    observation.observedMax direction ≤ 1 ↔ r.Narrow direction := by
  have counts := h.composed
  cases direction with
  | sourceToTarget =>
      have most : observation.sourceToTargetMaxMatches = (r.origins.map r.reach).foldr max 0 :=
        congrArg ComposedCounts.sourceToTargetMaxMatches counts
      show observation.sourceToTargetMaxMatches ≤ 1 ↔ _
      rw [most, foldr_max_le, List.forall_mem_map]
      rfl
  | targetToSource =>
      have most : observation.targetToSourceMaxMatches =
          (r.exchanged.origins.map r.exchanged.reach).foldr max 0 :=
        congrArg ComposedCounts.targetToSourceMaxMatches counts
      show observation.targetToSourceMaxMatches ≤ 1 ↔ _
      rw [most, foldr_max_le, List.forall_mem_map]
      rfl

theorem landingDuplicates_pos (h : observation.Measures r) (direction : ComposedDirection) :
    0 < observation.landingDuplicates direction ↔ r.RepeatsLanding direction := by
  cases direction with
  | sourceToTarget =>
      show 0 < observation.mapping.duplicateTargetTupleCount ↔ _
      rw [h.targets, repeatedValues_pos]
      rfl
  | targetToSource =>
      show 0 < observation.mapping.duplicateSourceTupleCount ↔ _
      rw [h.sources, repeatedValues_pos]
      rfl

theorem composedRowCount_ne_zero (h : observation.Measures r) :
    observation.composedRowCount ≠ 0 ↔ r.Composed := by
  have total : observation.composedRowCount = (r.origins.map r.reach).sum :=
    congrArg ComposedCounts.composedRowCount h.composed
  rw [total, ne_eq, List.sum_eq_zero_iff, List.forall_mem_map]
  unfold Relations.Composed
  push Not
  simp only [Nat.pos_iff_ne_zero]

end Counting

/-- The verdict on one direction, nothing disqualifying the evidence. -/
structure VerdictExact {K L : Type} [DecidableEq K] [DecidableEq L]
    (verdict : CrosswalkDirectionVerdictV1) (r : Relations K L)
    (direction : ComposedDirection) : Prop where
  validated : verdict.safetyStatus = .deterministicallyValidated ↔
    r.Composed ∧ ¬ r.NullRow ∧ r.Narrow direction
  oneToOne : verdict.safetyStatus = .deterministicallyValidated →
    r.Narrow (flipped direction) → verdict.cardinality = some .oneToOne
  manyToOne : verdict.safetyStatus = .deterministicallyValidated →
    ¬ r.Narrow (flipped direction) → verdict.cardinality = some .manyToOne
  fanout : verdict.safetyStatus = .unsafeDirection ∧ directionalFanout ∈ verdict.reasonCodes ↔
    r.NullRow ∨ ¬ r.Narrow direction

section Reading

variable {K L : Type} [DecidableEq K] [DecidableEq L] {r : Relations K L}
  {observation : CrosswalkExecutionObservationV1}

theorem mem_sortedReasons {reasons : List String} {code : String} :
    code ∈ sortedReasons reasons ↔ code ∈ reasons := by
  unfold sortedReasons
  rw [KeySort.mem_sortBy, List.mem_dedup]

theorem uniquenessVerdict_notUnique (h : observation.Measures r)
    (direction : ComposedDirection) :
    observation.uniquenessVerdict direction = .notUnique ↔
      r.RepeatsLanding direction ∨ r.NullRow ∨ ¬ r.Narrow direction := by
  rw [← landingDuplicates_pos h, ← nullRowCount_pos h, ← observedMax_le_one h, not_le]
  unfold CrosswalkExecutionObservationV1.uniquenessVerdict
  split
  · rename_i disproved
    simp [disproved]
  · rename_i open_
    simp only [open_, iff_false]
    split
    · simp
    · split <;> simp

theorem uniquenessVerdict_unique (h : observation.Measures r)
    (exact_ : observation.exactAndComplete = true) (direction : ComposedDirection) :
    observation.uniquenessVerdict direction = .unique ↔
      r.Composed ∧ ¬ r.RepeatsLanding direction ∧ ¬ r.NullRow ∧ r.Narrow direction := by
  rw [← landingDuplicates_pos h, ← nullRowCount_pos h, ← observedMax_le_one h,
    ← composedRowCount_ne_zero h]
  unfold CrosswalkExecutionObservationV1.uniquenessVerdict
  split
  · rename_i disproved
    simp only [reduceCtorEq, false_iff]
    intro all
    omega
  · rename_i open_
    split
    · rename_i empty
      simp [empty]
    · rename_i joined
      simp only [true_iff]
      refine ⟨joined, ?_, ?_, ?_⟩ <;> omega

theorem safetyStatus_validated {direction : ComposedDirection} {shared : List String} :
    (directionVerdict observation direction shared).safetyStatus = .deterministicallyValidated ↔
      observation.uniquenessVerdict direction = .unique ∧ shared = [] := by
  unfold directionVerdict
  cases observation.uniquenessVerdict direction with
  | notUnique => simp
  | unknown => simp
  | unique => cases shared <;> simp

theorem cardinality_of_validated {direction : ComposedDirection} {shared : List String}
    (validated : (directionVerdict observation direction shared).safetyStatus =
      .deterministicallyValidated) :
    (directionVerdict observation direction shared).cardinality =
      some (if observation.observedMax (flipped direction) ≤ 1 then .oneToOne else .manyToOne) := by
  obtain ⟨unique, rfl⟩ := safetyStatus_validated.mp validated
  unfold directionVerdict
  rw [unique]
  rfl

theorem fanout_iff {direction : ComposedDirection} {shared : List String} :
    (directionVerdict observation direction shared).safetyStatus = .unsafeDirection ∧
      directionalFanout ∈ (directionVerdict observation direction shared).reasonCodes ↔
      observation.uniquenessVerdict direction = .notUnique := by
  unfold directionVerdict
  cases observation.uniquenessVerdict direction with
  | notUnique => simp [mem_sortedReasons]
  | unknown => simp
  | unique => cases shared <;> simp

/-- A verdict says what the relations do, except that a repeated tuple of the
    landing side counts as a fan-out of its own. -/
theorem verdictExact_iff (h : observation.Measures r)
    (exact_ : observation.exactAndComplete = true) (direction : ComposedDirection) :
    VerdictExact (directionVerdict observation direction []) r direction ↔
      (r.RepeatsLanding direction → r.NullRow ∨ ¬ r.Narrow direction) := by
  have notUnique := uniquenessVerdict_notUnique h direction
  have unique := uniquenessVerdict_unique h exact_ direction
  constructor
  · intro exactly repeated
    exact exactly.fanout.mp (fanout_iff.mpr (notUnique.mpr (Or.inl repeated)))
  · intro condition
    constructor
    · rw [safetyStatus_validated, unique]
      constructor
      · intro all
        exact ⟨all.1.1, all.1.2.2⟩
      · intro all
        obtain ⟨joined, known, narrow⟩ := all
        refine ⟨⟨joined, ?_, known, narrow⟩, rfl⟩
        intro repeated
        cases condition repeated with
        | inl null => exact known null
        | inr wide => exact wide narrow
    · intro validated narrow
      rw [cardinality_of_validated validated, if_pos ((observedMax_le_one h _).mpr narrow)]
    · intro validated wide
      rw [cardinality_of_validated validated,
        if_neg fun most => wide ((observedMax_le_one h _).mp most)]
    · rw [fanout_iff, notUnique]
      constructor
      · intro found
        cases found with
        | inl repeated => exact condition repeated
        | inr rest => exact rest
      · exact Or.inr

end Reading

section Shared

variable {observation : CrosswalkExecutionObservationV1} {policy : CrosswalkAdmissionPolicyV1}
  {now : ℤ} {partitionScopeRef : Option String}

theorem when_eq_nil {condition : Bool} {code : String} :
    when condition code = [] ↔ condition = false := by
  cases condition <;> simp [when]

/-- Nothing disqualifies the evidence. -/
structure Clean (observation : CrosswalkExecutionObservationV1)
    (policy : CrosswalkAdmissionPolicyV1) (now : ℤ) (partitionScopeRef : Option String) :
    Prop where
  complete : observation.complete = true
  method : observation.method = "exact"
  coverage : observation.rowCoverage = .full
  fresh : now - observation.observedAt ≤ policy.maximumEvidenceAge
  composedRows : policy.minimumComposedRows ≤ observation.composedRowCount
  mappingRows : policy.minimumMappingRows ≤ observation.mapping.rowCount
  nullRatio : observation.mapping.rowCount ≠ 0 →
    (observation.mapping.nullRowCount : ℚ) / observation.mapping.rowCount ≤
      policy.maximumMappingNullRatio
  source : observation.sourceLeg.admitted policy = true
  target : observation.targetLeg.admitted policy = true
  governed : policy.requireGovernedMappingRowsForProduction = true →
    .mappingTemporalPolicyAbsent ∉ observation.caveats ∧
      .mappingTemporalPolicyUnresolved ∉ observation.caveats
  sameScope : partitionScopeRef.isSome = observation.partitionScoped
  sourceContainment : policy.minimumSourceDistinctContainment ≤
    CrosswalkExecutionObservationV1.containmentRatio observation.matchedSourceDistinct
      observation.unmatchedSourceDistinct
  targetContainment : policy.minimumTargetDistinctContainment ≤
    CrosswalkExecutionObservationV1.containmentRatio observation.matchedTargetDistinct
      observation.unmatchedTargetDistinct

theorem sharedReasons_eq_nil : sharedReasons observation policy now partitionScopeRef = [] ↔
    Clean observation policy now partitionScopeRef := by
  unfold sharedReasons
  simp only [List.append_eq_nil_iff, when_eq_nil, Bool.not_eq_false', decide_eq_false_iff_not,
    not_not, not_or, not_lt, not_and, Bool.and_eq_false_iff]
  constructor
  · intro h
    obtain ⟨⟨⟨⟨⟨⟨⟨⟨⟨⟨⟨⟨⟨hc, hm⟩, hv⟩, hf⟩, hr⟩, hn⟩, hs⟩, ht⟩, ha⟩, hu⟩, hp⟩, hq⟩, hsc⟩, htc⟩ := h
    refine ⟨hc, hm, hv, hf, hr.1, hr.2, hn, hs, ht, ?_, ?_, hsc, htc⟩
    · intro governs
      constructor
      · intro there
        cases ha with
        | inl free => rw [governs] at free; cases free
        | inr absent => simp [there] at absent
      · intro there
        cases hu with
        | inl free => rw [governs] at free; cases free
        | inr absent => simp [there] at absent
    · cases partitionScopeRef <;> simp_all
  · intro h
    obtain ⟨hc, hm, hv, hf, hr, hr', hn, hs, ht, hg, hp, hsc, htc⟩ := h
    refine ⟨⟨⟨⟨⟨⟨⟨⟨⟨⟨⟨⟨⟨hc, hm⟩, hv⟩, hf⟩, hr, hr'⟩, hn⟩, hs⟩, ht⟩, ?_⟩, ?_⟩, ?_⟩, ?_⟩, hsc⟩, htc⟩
    · cases hgov : policy.requireGovernedMappingRowsForProduction with
      | false => exact Or.inl rfl
      | true => exact Or.inr (by simp [(hg hgov).1])
    · cases hgov : policy.requireGovernedMappingRowsForProduction with
      | false => exact Or.inl rfl
      | true => exact Or.inr (by simp [(hg hgov).2])
    · cases partitionScopeRef <;> simp_all
    · cases partitionScopeRef <;> simp_all

theorem Clean.exact_ (clean : Clean observation policy now partitionScopeRef) :
    observation.exactAndComplete = true := by
  simp [CrosswalkExecutionObservationV1.exactAndComplete, clean.complete, clean.method,
    clean.coverage]

end Shared

section Exchange

def CrosswalkObservationCaveat.exchanged : CrosswalkObservationCaveat → CrosswalkObservationCaveat
  | .sourcePartitionScoped => .targetPartitionScoped
  | .targetPartitionScoped => .sourcePartitionScoped
  | caveat => caveat

def CrosswalkExecutionObservationV1.exchanged (observation : CrosswalkExecutionObservationV1) :
    CrosswalkExecutionObservationV1 :=
  { observation with
    matchedSourceDistinct := observation.matchedTargetDistinct
    unmatchedSourceDistinct := observation.unmatchedTargetDistinct
    matchedTargetDistinct := observation.matchedSourceDistinct
    unmatchedTargetDistinct := observation.unmatchedSourceDistinct
    sourceToTargetMaxMatches := observation.targetToSourceMaxMatches
    targetToSourceMaxMatches := observation.sourceToTargetMaxMatches
    sourceLeg := observation.targetLeg
    targetLeg := observation.sourceLeg
    mapping := { observation.mapping with
      duplicateSourceTupleCount := observation.mapping.duplicateTargetTupleCount
      duplicateTargetTupleCount := observation.mapping.duplicateSourceTupleCount }
    caveats := observation.caveats.map (·.exchanged) }

def CrosswalkAdmissionPolicyV1.exchanged (policy : CrosswalkAdmissionPolicyV1) :
    CrosswalkAdmissionPolicyV1 :=
  { policy with
    minimumSourceDistinctContainment := policy.minimumTargetDistinctContainment
    minimumTargetDistinctContainment := policy.minimumSourceDistinctContainment }

variable {observation : CrosswalkExecutionObservationV1} {policy : CrosswalkAdmissionPolicyV1}
  {now : ℤ} {partitionScopeRef : Option String}

theorem partitionScoped_exchanged :
    observation.exchanged.partitionScoped = observation.partitionScoped := by
  have caveats : (observation.caveats.map (·.exchanged)).any partitionScopeCaveats.contains =
      observation.caveats.any partitionScopeCaveats.contains := by
    rw [List.any_map]
    congr 1
    funext caveat
    cases caveat <;> rfl
  unfold CrosswalkExecutionObservationV1.partitionScoped
  rw [show observation.exchanged.caveats = observation.caveats.map (·.exchanged) from rfl, caveats]
  simp only [CrosswalkExecutionObservationV1.exchanged]
  cases observation.sourceLeg.partitionsRead.isEmpty <;>
    cases observation.targetLeg.partitionsRead.isEmpty <;> simp

theorem mem_caveats_exchanged {caveat : CrosswalkObservationCaveat}
    (fixed : ∀ c : CrosswalkObservationCaveat, c.exchanged = caveat ↔ c = caveat) :
    caveat ∈ observation.exchanged.caveats ↔ caveat ∈ observation.caveats := by
  show caveat ∈ observation.caveats.map (·.exchanged) ↔ _
  simp only [List.mem_map, fixed, exists_eq_right]

theorem Clean.exchanged (clean : Clean observation policy now partitionScopeRef) :
    Clean observation.exchanged policy.exchanged now partitionScopeRef where
  complete := clean.complete
  method := clean.method
  coverage := clean.coverage
  fresh := clean.fresh
  composedRows := clean.composedRows
  mappingRows := clean.mappingRows
  nullRatio := clean.nullRatio
  source := clean.target
  target := clean.source
  governed := by
    intro governs
    rw [mem_caveats_exchanged fun c => by cases c <;> decide,
      mem_caveats_exchanged fun c => by cases c <;> decide]
    exact clean.governed governs
  sameScope := by
    rw [partitionScoped_exchanged]
    exact clean.sameScope
  sourceContainment := clean.targetContainment
  targetContainment := clean.sourceContainment

theorem directionVerdict_exchanged (direction : ComposedDirection) (shared : List String) :
    directionVerdict observation.exchanged (flipped direction) shared =
      { directionVerdict observation direction shared with direction := flipped direction } := by
  have same : observation.exchanged.uniquenessVerdict (flipped direction) =
      observation.uniquenessVerdict direction := by
    cases direction <;> rfl
  have back : observation.exchanged.observedMax (flipped (flipped direction)) =
      observation.observedMax (flipped direction) := by
    cases direction <;> rfl
  unfold directionVerdict
  rw [same, back]
  cases observation.uniquenessVerdict direction with
  | notUnique => rfl
  | unknown => rfl
  | unique => cases shared <;> rfl

end Exchange

/-- The same counts on weaker grounds: less complete, less exact, of less coverage,
    older, with a normalization the policy does not admit or with another caveat. -/
structure Weaker (policy : CrosswalkAdmissionPolicyV1)
    (observation weaker : CrosswalkExecutionObservationV1) : Prop where
  counts : weaker.toComposedCounts = observation.toComposedCounts
  mapping : weaker.mapping = observation.mapping
  complete : weaker.complete = true → observation.complete = true
  method : weaker.method = "exact" → observation.method = "exact"
  coverage : weaker.rowCoverage = .full → observation.rowCoverage = .full
  older : weaker.observedAt ≤ observation.observedAt
  source : weaker.sourceLeg.admitted policy = true → observation.sourceLeg.admitted policy = true
  target : weaker.targetLeg.admitted policy = true → observation.targetLeg.admitted policy = true
  caveats : ∀ c ∈ observation.caveats, c ∈ weaker.caveats
  sameScope : weaker.partitionScoped = observation.partitionScoped

/-- The direction is validated by this evidence, at this instant and for this scope. -/
def Validated (observation : CrosswalkExecutionObservationV1) (policy : CrosswalkAdmissionPolicyV1)
    (now : ℤ) (partitionScopeRef : Option String) (direction : ComposedDirection) : Prop :=
  (directionVerdict observation direction
    (sharedReasons observation policy now partitionScopeRef)).safetyStatus =
      .deterministicallyValidated

section Weakening

variable {observation weaker : CrosswalkExecutionObservationV1}
  {policy : CrosswalkAdmissionPolicyV1} {now later : ℤ} {partitionScopeRef : Option String}

theorem Clean.of_weaker (h : Weaker policy observation weaker) (past : now ≤ later)
    (clean : Clean weaker policy later partitionScopeRef) :
    Clean observation policy now partitionScopeRef where
  complete := h.complete clean.complete
  method := h.method clean.method
  coverage := h.coverage clean.coverage
  fresh := by
    have age := clean.fresh
    have older := h.older
    omega
  composedRows := by
    rw [← h.counts]
    exact clean.composedRows
  mappingRows := h.mapping ▸ clean.mappingRows
  nullRatio := h.mapping ▸ clean.nullRatio
  source := h.source clean.source
  target := h.target clean.target
  governed := by
    intro governs
    obtain ⟨absent, unresolved⟩ := clean.governed governs
    exact ⟨fun there => absent (h.caveats _ there), fun there => unresolved (h.caveats _ there)⟩
  sameScope := h.sameScope ▸ clean.sameScope
  sourceContainment := by
    rw [← h.counts]
    exact clean.sourceContainment
  targetContainment := by
    rw [← h.counts]
    exact clean.targetContainment

theorem unique_of_weaker (h : Weaker policy observation weaker) {direction : ComposedDirection}
    (unique : weaker.uniquenessVerdict direction = .unique) :
    observation.uniquenessVerdict direction = .unique := by
  have duplicates : weaker.landingDuplicates direction =
      observation.landingDuplicates direction := by
    unfold CrosswalkExecutionObservationV1.landingDuplicates
    rw [h.mapping]
  have most : weaker.observedMax direction = observation.observedMax direction := by
    unfold CrosswalkExecutionObservationV1.observedMax
    rw [h.counts]
  unfold CrosswalkExecutionObservationV1.uniquenessVerdict at unique ⊢
  rw [duplicates, most, h.mapping, h.counts] at unique
  split at unique
  · cases unique
  · rename_i open_
    rw [if_neg open_]
    split at unique
    · cases unique
    · rename_i joined
      rw [if_neg joined]
      split at unique
      · cases unique
      · rename_i exact_
        have stronger : observation.exactAndComplete = true := by
          simp only [CrosswalkExecutionObservationV1.exactAndComplete, not_not,
            Bool.and_eq_true, decide_eq_true_eq] at exact_ ⊢
          exact ⟨⟨h.complete exact_.1.1, h.coverage exact_.1.2⟩, h.method exact_.2⟩
        rw [if_neg (not_not.mpr stronger)]

theorem validated_of_weaker (h : Weaker policy observation weaker) (past : now ≤ later)
    {direction : ComposedDirection}
    (hvalidated : Validated weaker policy later partitionScopeRef direction) :
    Validated observation policy now partitionScopeRef direction := by
  obtain ⟨unique, clean⟩ := safetyStatus_validated.mp hvalidated
  refine safetyStatus_validated.mpr ⟨unique_of_weaker h unique, ?_⟩
  exact sharedReasons_eq_nil.mpr ((sharedReasons_eq_nil.mp clean).of_weaker h past)

end Weakening

structure WeakerLeg (policy : CrosswalkAdmissionPolicyV1) (leg weaker : CrosswalkLegObservationV1) :
    Prop where
  complete : weaker.complete = true → leg.complete = true
  method : weaker.method = "exact" → leg.method = "exact"
  coverage : coverageRank weaker.rowCoverage ≤ coverageRank leg.rowCoverage
  normalizations : weaker.admitted policy = true → leg.admitted policy = true
  partitions : weaker.partitionsRead = leg.partitionsRead

section Composing

variable {policy : CrosswalkAdmissionPolicyV1} {sourceLeg targetLeg source' target' :
  CrosswalkLegObservationV1} {mapping : MappingTupleObservationV1} {counts : ComposedCounts}
  {observedAt earlier : ℤ} {partitions : List String} {temporalPolicy : Option String}
  {caveats : List CrosswalkObservationCaveat} {complete : Bool}
  {observation weaker : CrosswalkExecutionObservationV1}

theorem weakestCoverage_eq_full {left right : RowCoverage} :
    weakestCoverage left right = .full ↔ left = .full ∧ right = .full := by
  cases left <;> cases right <;> decide

theorem full_of_rank_le {left right : RowCoverage} (h : coverageRank left ≤ coverageRank right)
    (full : left = .full) : right = .full := by
  subst full
  cases right with
  | full => rfl
  | sampled => exact absurd h (by decide)
  | partially => exact absurd h (by decide)

theorem any_addedCaveats : (addedCaveats sourceLeg targetLeg mapping temporalPolicy caveats).any
    partitionScopeCaveats.contains = (!mapping.partitionsRead.isEmpty ||
      !sourceLeg.partitionsRead.isEmpty || !targetLeg.partitionsRead.isEmpty) := by
  unfold addedCaveats
  simp only [List.any_append]
  have exact_ : ∀ p : Prop, [Decidable p] →
      (if p then [CrosswalkObservationCaveat.legEvidenceNotExact] else []).any
        partitionScopeCaveats.contains = false := by
    intro p _
    split <;> rfl
  have policy_ : ∀ p : Prop, [Decidable p] →
      (if p then [CrosswalkObservationCaveat.mappingTemporalPolicyAbsent] else []).any
        partitionScopeCaveats.contains = false := by
    intro p _
    split <;> rfl
  rw [exact_, policy_]
  cases mapping.partitionsRead.isEmpty <;> cases sourceLeg.partitionsRead.isEmpty <;>
    cases targetLeg.partitionsRead.isEmpty <;> rfl

theorem composed_grounds (h : composeCrosswalkObservation sourceLeg targetLeg mapping counts
      observedAt partitions temporalPolicy caveats complete = .ok observation) :
    observation.toComposedCounts = counts ∧ observation.mapping = mapping ∧
      observation.sourceLeg = sourceLeg ∧ observation.targetLeg = targetLeg ∧
      observation.observedAt = observedAt ∧ observation.partitions = partitions ∧
      (observation.complete = true ↔
        complete = true ∧ sourceLeg.complete = true ∧ targetLeg.complete = true) ∧
      (observation.method = "exact" ↔ sourceLeg.method = "exact" ∧ targetLeg.method = "exact") ∧
      (observation.rowCoverage = .full ↔
        sourceLeg.rowCoverage = .full ∧ targetLeg.rowCoverage = .full) ∧
      observation.caveats =
        caveats ++ addedCaveats sourceLeg targetLeg mapping temporalPolicy caveats := by
  unfold composeCrosswalkObservation at h
  split at h
  · cases h
  · split at h
    · cases h
    · cases h
      refine ⟨rfl, rfl, rfl, rfl, rfl, rfl, ?_, ?_, weakestCoverage_eq_full, rfl⟩
      · simp only [Bool.and_eq_true, and_assoc]
      · by_cases both : sourceLeg.method = "exact" ∧ targetLeg.method = "exact"
        · simp [both]
        · simp only [if_neg both]
          exact iff_of_false (by decide) both

theorem weaker_of_legs (hsource : WeakerLeg policy sourceLeg source')
    (htarget : WeakerLeg policy targetLeg target') (older : earlier ≤ observedAt)
    (h : composeCrosswalkObservation sourceLeg targetLeg mapping counts observedAt partitions
      temporalPolicy caveats complete = .ok observation)
    (h' : composeCrosswalkObservation source' target' mapping counts earlier partitions
      temporalPolicy caveats complete = .ok weaker) :
    Weaker policy observation weaker := by
  obtain ⟨hcounts, hmapping, hs, ht, hat, hparts, hcomplete, hmethod, hcoverage, hcaveats⟩ :=
    composed_grounds h
  obtain ⟨hcounts', hmapping', hs', ht', hat', hparts', hcomplete', hmethod', hcoverage',
    hcaveats'⟩ := composed_grounds h'
  have caveats_kept : ∀ c ∈ observation.caveats, c ∈ weaker.caveats := by
    intro c hc
    rw [hcaveats] at hc
    rw [hcaveats', List.mem_append]
    rw [List.mem_append] at hc
    refine hc.imp_right ?_
    intro added
    unfold addedCaveats at added ⊢
    rw [hsource.partitions, htarget.partitions]
    simp only [List.mem_append] at added ⊢
    refine Or.imp_left (Or.imp_left (Or.imp_left (Or.imp_left ?_))) added
    intro inexact
    split at inexact
    · rename_i flawed
      rw [if_pos]
      · exact inexact
      · cases flawed with
        | inl method =>
            exact Or.inl fun both => method ⟨hsource.method both.1, htarget.method both.2⟩
        | inr coverage =>
            refine Or.inr fun full => coverage ?_
            obtain ⟨left, right⟩ := weakestCoverage_eq_full.mp full
            exact weakestCoverage_eq_full.mpr
              ⟨full_of_rank_le hsource.coverage left, full_of_rank_le htarget.coverage right⟩
    · cases inexact
  have same_scope : weaker.partitionScoped = observation.partitionScoped := by
    unfold CrosswalkExecutionObservationV1.partitionScoped
    rw [hcaveats, hcaveats', hmapping, hmapping', hs, hs', ht, ht', hparts, hparts',
      List.any_append, List.any_append, any_addedCaveats, any_addedCaveats, hsource.partitions,
      htarget.partitions]
  refine ⟨hcounts'.trans hcounts.symm, hmapping'.trans hmapping.symm, ?_, ?_, ?_, ?_, ?_, ?_,
    caveats_kept, same_scope⟩
  · intro all
    obtain ⟨here, left, right⟩ := hcomplete'.mp all
    exact hcomplete.mpr ⟨here, hsource.complete left, htarget.complete right⟩
  · intro both
    obtain ⟨left, right⟩ := hmethod'.mp both
    exact hmethod.mpr ⟨hsource.method left, htarget.method right⟩
  · intro full
    obtain ⟨left, right⟩ := hcoverage'.mp full
    exact hcoverage.mpr
      ⟨full_of_rank_le hsource.coverage left, full_of_rank_le htarget.coverage right⟩
  · rw [hat, hat']
    exact older
  · rw [hs, hs']
    exact hsource.normalizations
  · rw [ht, ht']
    exact htarget.normalizations

end Composing

/-- Where nothing disqualifies the evidence, the verdict on a direction is exact but
    where the mapping repeats a tuple of the landing side though it holds no NULL row
    and no origin row reaches two: such a direction is called a fan-out. The two
    verdicts are exchanged with the sides, and weaker evidence validates nothing more. -/
theorem direction_verdict_exact_iff {K L : Type} [DecidableEq K] [DecidableEq L]
    {r : Relations K L} {observation : CrosswalkExecutionObservationV1}
    (h : observation.Measures r) {policy : CrosswalkAdmissionPolicyV1} {now : ℤ}
    {partitionScopeRef : Option String}
    (clean : sharedReasons observation policy now partitionScopeRef = []) :
    (∀ direction, VerdictExact (directionVerdict observation direction
        (sharedReasons observation policy now partitionScopeRef)) r direction ↔
      (r.RepeatsLanding direction → r.NullRow ∨ ¬ r.Narrow direction)) ∧
    (∀ direction, directionVerdict observation.exchanged (flipped direction)
        (sharedReasons observation.exchanged policy.exchanged now partitionScopeRef) =
      { directionVerdict observation direction
          (sharedReasons observation policy now partitionScopeRef) with
        direction := flipped direction }) ∧
    (∀ stronger weaker earlier later scope direction, Weaker policy stronger weaker →
      earlier ≤ later → Validated weaker policy later scope direction →
        Validated stronger policy earlier scope direction) ∧
    ∀ sourceLeg targetLeg source' target' mapping counts observedAt earlier partitions
      temporalPolicy caveats complete stronger weaker,
      WeakerLeg policy sourceLeg source' → WeakerLeg policy targetLeg target' →
      earlier ≤ observedAt →
      composeCrosswalkObservation sourceLeg targetLeg mapping counts observedAt partitions
        temporalPolicy caveats complete = .ok stronger →
      composeCrosswalkObservation source' target' mapping counts earlier partitions
        temporalPolicy caveats complete = .ok weaker →
      ∀ scope direction, Validated weaker policy now scope direction →
        Validated stronger policy now scope direction := by
  have grounds := sharedReasons_eq_nil.mp clean
  refine ⟨?_, ?_, ?_, ?_⟩
  · intro direction
    rw [clean]
    exact verdictExact_iff h grounds.exact_ direction
  · intro direction
    rw [sharedReasons_eq_nil.mpr grounds.exchanged, clean]
    exact directionVerdict_exchanged direction []
  · intro stronger weaker earlier later scope direction hweaker past hvalidated
    exact validated_of_weaker hweaker past hvalidated
  · intro sourceLeg targetLeg source' target' mapping counts observedAt earlier partitions
      temporalPolicy caveats complete stronger weaker hsource htarget older hstronger hweaker
      scope direction hvalidated
    exact validated_of_weaker (weaker_of_legs hsource htarget older hstronger hweaker) le_rfl
      hvalidated

namespace NToOne

def relations : Relations ℕ ℕ :=
  ⟨[some 0, some 1], [(some 0, some 0), (some 1, some 0)], [some 0]⟩

def leg : CrosswalkLegObservationV1 where
  normalizationIds := ["identity_v1"]
  asOf := none
  executionPrincipal := "profiler"
  method := "exact"
  rowCoverage := .full
  complete := true
  partitionsRead := []

def observation : CrosswalkExecutionObservationV1 where
  toComposedCounts := relations.counts
  sourceLeg := leg
  targetLeg := leg
  mapping := {
    bindingRevisionId := "mapping-1"
    rowCount := 2
    nonNullRowCount := 2
    duplicateSourceTupleCount := 0
    duplicateTargetTupleCount := 1
    partitionsRead := [] }
  asOf := none
  partitions := []
  executionPrincipal := "profiler"
  method := "exact"
  rowCoverage := .full
  complete := true
  observedAt := 0
  caveats := []

def policy : CrosswalkAdmissionPolicyV1 where
  minimumComposedRows := 1
  minimumMappingRows := 1
  maximumEvidenceAge := 2592000000000
  maximumMappingNullRatio := 0
  minimumSourceDistinctContainment := 0
  minimumTargetDistinctContainment := 0
  allowedNormalizationIds := ["identity_v1"]
  requireGovernedMappingRowsForProduction := true

theorem measures : observation.Measures relations where
  composed := rfl
  rows := rfl
  nonNull := rfl
  sources := by decide
  targets := by decide

theorem clean : sharedReasons observation policy 0 none = [] := by decide +kernel

theorem not_nullRow : ¬ relations.NullRow := by
  intro null
  obtain ⟨row, hrow, unlinked⟩ := null
  rcases List.mem_pair.mp hrow with rfl | rfl
  · cases unlinked
  · cases unlinked

theorem narrow : relations.Narrow .sourceToTarget := by
  show ∀ k ∈ relations.origins, relations.reach k ≤ 1
  decide

/-- Against the many, the verdict is exact: the one reaches both. -/
theorem direction_verdict_exact_reverse :
    VerdictExact (directionVerdict observation .targetToSource
      (sharedReasons observation policy 0 none)) relations .targetToSource := by
  refine ((direction_verdict_exact_iff measures clean).1 .targetToSource).mpr ?_
  intro repeated
  have none_repeated := (landingDuplicates_pos measures .targetToSource).mpr repeated
  exact absurd none_repeated (by decide)

/-- From the many to the one no row reaches two, and the direction is unsafe. -/
theorem many_to_one_called_fanout :
    ¬ ∀ (K L : Type) [DecidableEq K] [DecidableEq L] (r : Relations K L)
      (observation : CrosswalkExecutionObservationV1), observation.Measures r →
      ∀ policy now partitionScopeRef,
        sharedReasons observation policy now partitionScopeRef = [] →
        ∀ direction, VerdictExact (directionVerdict observation direction
          (sharedReasons observation policy now partitionScopeRef)) r direction := by
  intro claimed
  have exactly := claimed ℕ ℕ relations observation measures policy 0 none clean .sourceToTarget
  have called : observation.uniquenessVerdict .sourceToTarget = .notUnique := by decide
  cases exactly.fanout.mp (fanout_iff.mpr called) with
  | inl null => exact not_nullRow null
  | inr wide => exact wide narrow

end NToOne

end FeatureGen.CrosswalkVerdicts
