import FeatureGen.DataAgent.Relationship
import FeatureGen.Lib.GroupCounts

/-! # Relationship probes

`data_agent/relationship_observation.py` and `_shape_relationship` of
`data_agent/executor.py`: the statement of a probe, one table expression after the
other over the rows of the two tables, and the observation made of the numbers it
selects. `trimLower` is `LOWER(TRIM(…))` of a value and `lower` is `str.lower`. Of the
checks of `__post_init__` the statement needs only that the tuple is not empty.

The numbers that a probe selects are those of the key tuples of the rows that pass the
selectors of each side, a tuple with a null counting as none.
-/

namespace FeatureGen.DataAgent

open Sql FeatureGen.Overlay

inductive NormalizationId where
  | identityV1
  | trimLowerV1

inductive EndpointSide where
  | left
  | right
  deriving DecidableEq

structure RelationshipColumnPairV2 where
  leftColumn : String
  rightColumn : String
  normalizationId : NormalizationId

def RelationshipColumnPairV2.column (pair : RelationshipColumnPairV2) : EndpointSide → String
  | .left => pair.leftColumn
  | .right => pair.rightColumn

structure PartitionSelector where
  column : String
  values : List String

structure RelationshipFixedPredicateV1 where
  side : EndpointSide
  column : String
  values : List String

structure RelationshipObservationScopeV1 where
  leftPartitions : Option PartitionSelector
  rightPartitions : Option PartitionSelector
  predicates : List RelationshipFixedPredicateV1
  rowCoverage : RowCoverage

def RelationshipObservationScopeV1.partitions (scope : RelationshipObservationScopeV1) :
    EndpointSide → Option PartitionSelector
  | .left => scope.leftPartitions
  | .right => scope.rightPartitions

structure RelationshipObservationPlanV2 where
  leftBinding : PhysicalDatasetBindingV1
  rightBinding : PhysicalDatasetBindingV1
  columnPairs : List RelationshipColumnPairV2
  scope : RelationshipObservationScopeV1
  nonempty : columnPairs ≠ []

namespace RelationshipObservationPlanV2

variable (plan : RelationshipObservationPlanV2)

/-- `predicates`: what WHERE joins by AND. -/
def predicates (side : EndpointSide) : List Condition :=
  ((plan.scope.partitions side).toList.map fun selector =>
    .isIn (strip selector.column) selector.values) ++
  (plan.scope.predicates.filter fun predicate => predicate.side = side).map fun predicate =>
    .isIn (strip predicate.column) predicate.values

variable {V : Type} [LinearOrder V] (r : Reading V) (trimLower : V → V)

def normalization (normalizationId : NormalizationId) (cell : Option V) : Option V :=
  match normalizationId with
  | .identityV1 => cell
  | .trimLowerV1 => cell.map trimLower

/-- `left_keys`, `right_keys`: the cells k0, k1, … -/
def keys (side : EndpointSide) (row : Row V) : List (Option V) :=
  plan.columnPairs.map fun pair =>
    normalization trimLower pair.normalizationId (row (strip (pair.column side)))

/-- `left_raw`, `right_raw`. -/
def raw (side : EndpointSide) (table : Table V) : List (List (Option V)) :=
  (table.filter fun row =>
    all3 ((plan.predicates side).map (Condition.eval r row)) = some true).map
      (plan.keys trimLower side)

end RelationshipObservationPlanV2

section Statement

variable {V : Type} [DecidableEq V]

structure RawStats where
  rowCount : ℕ
  nonNullCount : ℕ

/-- `left_raw_stats`, `right_raw_stats`. -/
def rawStats (raw : List (List (Option V))) : RawStats where
  rowCount := raw.length
  nonNullCount :=
    (sumOf (raw.map fun cells => if notNull3 cells = some true then 1 else 0)).getD 0

/-- `left_groups`, `right_groups`. -/
def tupleGroups (raw : List (List (Option V))) : List (List (Option V) × ℕ) :=
  groupCounts (raw.filter fun cells => notNull3 cells = some true)

structure GroupStats where
  distinctCount : ℕ
  duplicateTuples : ℕ
  duplicateCount : ℕ
  maxRows : ℕ

/-- `left_group_stats`, `right_group_stats`. -/
def groupStats (groups : List (List (Option V) × ℕ)) : GroupStats where
  distinctCount := groups.length
  duplicateTuples := (sumOf (groups.map fun group => if 1 < group.2 then 1 else 0)).getD 0
  duplicateCount := (sumOf (groups.map fun group => group.2 - 1)).getD 0
  maxRows := (maxOf (groups.map fun group => group.2)).getD 0

/-- The condition of the joins: `l.k0 = r.k0 AND l.k1 = r.k1 …`. -/
def sameKeys (left right : List (Option V) × ℕ) : Option Bool := sameCells3 left.1 right.1

/-- `pair_groups`: `left_n` and `right_n`. -/
def pairGroups (left right : List (List (Option V) × ℕ)) : List (ℕ × ℕ) :=
  (joinOn sameKeys left right).map fun pair => (pair.1.2, pair.2.2)

structure PairStats where
  matchedGroups : ℕ
  joinedRows : ℕ
  maxRightMatches : ℕ
  maxLeftMatches : ℕ

def pairStats (pairs : List (ℕ × ℕ)) : PairStats where
  matchedGroups := pairs.length
  joinedRows := (sumOf (pairs.map fun pair => pair.1 * pair.2)).getD 0
  maxRightMatches := (maxOf (pairs.map fun pair => pair.2)).getD 0
  maxLeftMatches := (maxOf (pairs.map fun pair => pair.1)).getD 0

/-- k0 of the other side of a left join, null where it found no match. -/
def firstKey (found : Option (List (Option V) × ℕ)) : Option V :=
  found.bind fun group => group.1.head?.join

/-- `left_orphan_stats`, `right_orphan_stats`. -/
def orphanRows (groups others : List (List (Option V) × ℕ)) : ℕ :=
  (sumOf (((leftJoinOn sameKeys groups others).filter fun joined => firstKey joined.2 = none).map
    fun joined => joined.1.2)).getD 0

/-- The numbers that the statement selects, from the rows of `left_raw` and `right_raw`. -/
def selected (leftRaw rightRaw : List (List (Option V))) : List ℕ :=
  let lrs := rawStats leftRaw
  let rrs := rawStats rightRaw
  let leftGroups := tupleGroups leftRaw
  let rightGroups := tupleGroups rightRaw
  let lgs := groupStats leftGroups
  let rgs := groupStats rightGroups
  let ps := pairStats (pairGroups leftGroups rightGroups)
  [lrs.rowCount, lrs.nonNullCount,
    lgs.distinctCount, lgs.duplicateTuples, lgs.duplicateCount, lgs.maxRows,
    rrs.rowCount, rrs.nonNullCount,
    rgs.distinctCount, rgs.duplicateTuples, rgs.duplicateCount, rgs.maxRows,
    ps.matchedGroups, orphanRows leftGroups rightGroups, orphanRows rightGroups leftGroups,
    ps.joinedRows, ps.maxRightMatches, ps.maxLeftMatches]

end Statement

/-- `render_relationship_probe_sql`, run over the two tables. -/
def relationshipProbe {V : Type} [LinearOrder V] (r : Reading V) (trimLower : V → V)
    (plan : RelationshipObservationPlanV2) (left right : Table V) : List ℕ :=
  selected (plan.raw r trimLower .left left) (plan.raw r trimLower .right right)

/-- A `RelationshipObservationV2` with the numbers that no join refusal reads. -/
structure ProbedRelationship extends RelationshipObservationV2 where
  leftDuplicateTupleCount : ℕ
  rightDuplicateTupleCount : ℕ
  matchedLeftDistinct : ℕ
  unmatchedLeftDistinct : ℕ
  matchedRightDistinct : ℕ
  unmatchedRightDistinct : ℕ
  leftOrphanRows : ℕ
  rightOrphanRows : ℕ
  joinedRowCount : ℕ
  maxRightMatchesPerLeftRow : ℕ
  maxLeftMatchesPerRightRow : ℕ

/-- The values of an optional selector. -/
def partitionsRead (selector : Option PartitionSelector) : List String :=
  (selector.map PartitionSelector.values).getD []

def shapeRelationship (lower : String → String) (plan : RelationshipObservationPlanV2)
    (method : String) : List ℕ → Except String ProbedRelationship
  | [leftRows, leftNonNull, leftDistinct, leftDuplicateTuples, leftDuplicates, leftMax,
      rightRows, rightNonNull, rightDistinct, rightDuplicateTuples, rightDuplicates, rightMax,
      matched, leftOrphanRows, rightOrphanRows, joinedRows, maxRightMatches, maxLeftMatches] =>
      .ok {
        left := {
          physicalId := plan.leftBinding.identity.tableId lower
          columns := plan.columnPairs.map (·.leftColumn)
          rowCount := leftRows
          nonNullRowCount := leftNonNull
          distinctTupleCount := leftDistinct
          duplicateRowCount := leftDuplicates
          maxRowsPerTuple := leftMax
          partitionsRead := partitionsRead plan.scope.leftPartitions }
        right := {
          physicalId := plan.rightBinding.identity.tableId lower
          columns := plan.columnPairs.map (·.rightColumn)
          rowCount := rightRows
          nonNullRowCount := rightNonNull
          distinctTupleCount := rightDistinct
          duplicateRowCount := rightDuplicates
          maxRowsPerTuple := rightMax
          partitionsRead := partitionsRead plan.scope.rightPartitions }
        method := method
        rowCoverage := plan.scope.rowCoverage
        complete := true
        leftDuplicateTupleCount := leftDuplicateTuples
        rightDuplicateTupleCount := rightDuplicateTuples
        matchedLeftDistinct := matched
        unmatchedLeftDistinct := leftDistinct - matched
        matchedRightDistinct := matched
        unmatchedRightDistinct := rightDistinct - matched
        leftOrphanRows := leftOrphanRows
        rightOrphanRows := rightOrphanRows
        joinedRowCount := joinedRows
        maxRightMatchesPerLeftRow := maxRightMatches
        maxLeftMatchesPerRightRow := maxLeftMatches }
  | values => .error s!"relationship probe returned {values.length} metrics, expected 18"

inductive ObservedCardinality where
  | oneToOne
  | manyToOne
  | oneToMany
  | manyToMany

def RelationshipObservationV2.observedCardinality (observation : RelationshipObservationV2) :
    ObservedCardinality :=
  if observation.left.observedUnique && observation.right.observedUnique then .oneToOne
  else if observation.right.observedUnique then .manyToOne
  else if observation.left.observedUnique then .oneToMany
  else .manyToMany

end FeatureGen.DataAgent

namespace FeatureGen.DataAgent

open Sql FeatureGen.Overlay

section Rows

variable {V : Type} [LinearOrder V] (r : Reading V) (trimLower : V → V)
  (plan : RelationshipObservationPlanV2) (side : EndpointSide)

def Selects (column : String) (values : List String) (row : Row V) : Prop :=
  ∃ v, row (strip column) = some v ∧ ∃ text ∈ values, v = r.literal (strip column) text

/-- The row passes the partition selector and the fixed predicates of the side. -/
structure Passes (row : Row V) : Prop where
  partitions : ∀ selector, plan.scope.partitions side = some selector →
    Selects r selector.column selector.values row
  predicates : ∀ predicate ∈ plan.scope.predicates, predicate.side = side →
    Selects r predicate.column predicate.values row

open Classical in
noncomputable def keyTuples (table : Table V) : List (Option (List V)) :=
  (table.filter fun row => Passes r plan side row).map fun row =>
    known (plan.keys trimLower side row)

variable {r trimLower plan side}

theorem passes_iff {row : Row V} : Passes r plan side row ↔
    all3 ((plan.predicates side).map (Condition.eval r row)) = some true := by
  have selects : ∀ column values, Selects r column values row ↔
      Condition.eval r row (.isIn (strip column) values) = some true := fun column values =>
    (holds_isIn (r := r)).symm
  rw [all3_eq_true, List.forall_mem_map, RelationshipObservationPlanV2.predicates,
    List.forall_mem_append, List.forall_mem_map, List.forall_mem_map]
  constructor
  · intro passes
    constructor
    · intro selector hselector
      exact (selects _ _).mp (passes.partitions selector (Option.mem_toList.mp hselector))
    · intro predicate hpredicate
      obtain ⟨mem, same⟩ := List.mem_filter.mp hpredicate
      exact (selects _ _).mp (passes.predicates predicate mem (of_decide_eq_true same))
  · intro holds
    obtain ⟨partitions, predicates⟩ := holds
    constructor
    · intro selector hselector
      exact (selects _ _).mpr (partitions selector (Option.mem_toList.mpr hselector))
    · intro predicate mem same
      exact (selects _ _).mpr
        (predicates predicate (List.mem_filter.mpr ⟨mem, decide_eq_true same⟩))

variable (r trimLower plan side) in
theorem keyTuples_eq (table : Table V) :
    keyTuples r trimLower plan side table = (plan.raw r trimLower side table).map known := by
  rw [keyTuples, RelationshipObservationPlanV2.raw, List.map_map]
  congr 1
  exact List.filter_congr fun row _ => decide_eq_decide.mpr passes_iff

end Rows

/-- Some rows pass, each with a key, and no two with the same one. -/
structure UniqueKeys {κ : Type} (keys : List (Option κ)) : Prop where
  some : keys ≠ []
  known : none ∉ keys
  nodup : keys.Nodup

section Numbers

variable {V : Type} [DecidableEq V]

/-- What the statement is to select, of the key tuples of each side. -/
def expectedNumbers (left right : List (Option (List V))) : List ℕ :=
  let lefts := left.reduceOption
  let rights := right.reduceOption
  [left.length, lefts.length,
    distinctCount lefts, repeatedCount lefts, surplusCount lefts, maxCount lefts,
    right.length, rights.length,
    distinctCount rights, repeatedCount rights, surplusCount rights, maxCount rights,
    matchedCount lefts rights, unmatchedMembers lefts rights, unmatchedMembers rights lefts,
    joinSize lefts rights, maxMatches lefts rights, maxMatches rights lefts]

variable {κ : Type} [DecidableEq κ] {cells : κ → List (Option V)} {keys left right : List κ}

def groupsOf (cells : κ → List (Option V)) (keys : List κ) : List (List (Option V) × ℕ) :=
  keys.dedup.map fun k => (cells k, keys.count k)

omit [DecidableEq V] in
theorem groupStats_groupsOf : groupStats (groupsOf cells keys) =
    ⟨distinctCount keys, repeatedCount keys, surplusCount keys, maxCount keys⟩ := by
  simp only [groupStats, groupsOf, List.map_map, Function.comp_def, getD_sumOf, getD_maxOf,
    List.length_map, length_dedup, sum_map_ite, countP_dedup_repeated, sum_surplus, sup_dedup]
  rfl

variable (same : ∀ k ∈ left, ∀ k' ∈ right, sameCells3 (cells k) (cells k') = some true ↔ k = k')

include same

theorem pairStats_groupsOf : pairStats (pairGroups (groupsOf cells left) (groupsOf cells right)) =
    ⟨matchedCount left right, joinSize left right, maxMatches left right,
      maxMatches right left⟩ := by
  have joined := joinOn_map sameKeys (f := fun k => (cells k, left.count k))
    (g := fun k => (cells k, right.count k)) (List.nodup_dedup right)
    fun k hk k' hk' => same k (List.mem_dedup.mp hk) k' (List.mem_dedup.mp hk')
  have pairs : pairGroups (groupsOf cells left) (groupsOf cells right) =
      (left.dedup.filter fun k => k ∈ right.dedup).map fun k => (left.count k, right.count k) := by
    rw [pairGroups, groupsOf, groupsOf, joined, List.map_map]
    rfl
  simp only [pairs, pairStats, List.map_map, Function.comp_def, getD_sumOf, getD_maxOf,
    List.length_map, length_matched, sum_joined, sup_matched, sup_matched_left]

theorem orphanRows_groupsOf (keyed : ∀ k ∈ right, firstKey (some (cells k, right.count k)) ≠ none) :
    orphanRows (groupsOf cells left) (groupsOf cells right) = unmatchedMembers left right := by
  have joined := leftJoinOn_map sameKeys (f := fun k => (cells k, left.count k))
    (g := fun k => (cells k, right.count k)) (List.nodup_dedup right)
    fun k hk k' hk' => same k (List.mem_dedup.mp hk) k' (List.mem_dedup.mp hk')
  rw [orphanRows, getD_sumOf, groupsOf, groupsOf, joined, List.filter_map, List.map_map,
    ← sum_unmatched]
  congr 2
  refine List.filter_congr fun k _ => decide_eq_decide.mpr ?_
  by_cases mem : k ∈ right.dedup
  · simp only [mem, if_true, not_true, iff_false]
    exact keyed k (List.mem_dedup.mp mem)
  · simp [mem, firstKey]

end Numbers

section Probe

variable {V : Type} [LinearOrder V] (r : Reading V) (trimLower : V → V) (lower : String → String)
  (plan : RelationshipObservationPlanV2) (method : String) (left right : Table V)

omit [LinearOrder V] in
theorem rawStats_eq (raw : List (List (Option V))) :
    rawStats raw = ⟨raw.length, (raw.filterMap known).length⟩ := by
  rw [rawStats, getD_sumOf, sum_map_ite, List.countP_eq_length_filter, filter_notNull3,
    List.length_map]

theorem tupleGroups_eq (raw : List (List (Option V))) :
    tupleGroups raw = groupsOf (List.map some) (raw.filterMap known) := by
  rw [tupleGroups, filter_notNull3]
  exact groupCounts_map (List.map_injective_iff.mpr (Option.some_injective V)) _

theorem length_of_mem_known {side : EndpointSide} {table : Table V} {k : List V}
    (h : k ∈ (plan.raw r trimLower side table).filterMap known) :
    k.length = plan.columnPairs.length := by
  obtain ⟨cells, hcells, known⟩ := List.mem_filterMap.mp h
  obtain ⟨row, _, rfl⟩ := List.mem_map.mp hcells
  have len := congrArg List.length (known_eq_some.mp known)
  simpa [RelationshipObservationPlanV2.keys] using len.symm

theorem sameCells3_iff (side other : EndpointSide) (table others : Table V) :
    ∀ k ∈ (plan.raw r trimLower side table).filterMap known,
      ∀ k' ∈ (plan.raw r trimLower other others).filterMap known,
        sameCells3 (k.map some) (k'.map some) = some true ↔ k = k' := by
  intro k hk k' hk'
  have width := length_of_mem_known r trimLower plan hk
  have width' := length_of_mem_known r trimLower plan hk'
  exact sameCells3_map_some (width.trans width'.symm)

theorem firstKey_ne_none {side : EndpointSide} {table : Table V} {k : List V} {n : ℕ}
    (h : k ∈ (plan.raw r trimLower side table).filterMap known) :
    firstKey (some (k.map some, n)) ≠ none := by
  have width := length_of_mem_known r trimLower plan h
  have wide := List.length_pos_iff.mpr plan.nonempty
  cases k with
  | nil =>
      rw [List.length_nil] at width
      omega
  | cons v vs => simp [firstKey]

theorem reduceOption_keyTuples (side : EndpointSide) (table : Table V) :
    (keyTuples r trimLower plan side table).reduceOption =
      (plan.raw r trimLower side table).filterMap known := by
  rw [keyTuples_eq, List.reduceOption, List.filterMap_map]
  rfl

theorem relationshipProbe_eq : relationshipProbe r trimLower plan left right =
    expectedNumbers (keyTuples r trimLower plan .left left)
      (keyTuples r trimLower plan .right right) := by
  have pairs := pairStats_groupsOf (sameCells3_iff r trimLower plan .left .right left right)
  have orphans := orphanRows_groupsOf (sameCells3_iff r trimLower plan .left .right left right)
    fun k hk => firstKey_ne_none r trimLower plan hk
  have orphans' := orphanRows_groupsOf (sameCells3_iff r trimLower plan .right .left right left)
    fun k hk => firstKey_ne_none r trimLower plan hk
  simp only [relationshipProbe, selected, expectedNumbers, rawStats_eq, tupleGroups_eq,
    groupStats_groupsOf, pairs, orphans, orphans', reduceOption_keyTuples]
  simp only [keyTuples_eq, List.length_map]

end Probe

theorem reduceOption_length_eq {κ : Type} {keys : List (Option κ)} :
    keys.length - keys.reduceOption.length = 0 ↔ none ∉ keys := by
  have bound := List.reduceOption_length_le keys
  have full := List.reduceOption_length_eq_iff (l := keys)
  constructor
  · intro h mem
    have all := full.mp (by omega) none mem
    simp at all
  · intro known
    have same := full.mpr fun k hk => Option.isSome_iff_ne_none.mpr fun null => known (null ▸ hk)
    omega

theorem observedUnique_iff {κ : Type} [DecidableEq κ] {keys : List (Option κ)}
    {endpoint : EndpointTupleObservation} (rows : endpoint.rowCount = keys.length)
    (nonNull : endpoint.nonNullRowCount = keys.reduceOption.length)
    (distinct : endpoint.distinctTupleCount = distinctCount keys.reduceOption)
    (most : endpoint.maxRowsPerTuple = maxCount keys.reduceOption) :
    endpoint.observedUnique = true ↔ UniqueKeys keys := by
  have told : none ∉ keys → (keys.reduceOption.Nodup ↔ keys.Nodup) := by
    intro known
    have keyed : ∀ k ∈ keys, id k ≠ none := fun k hk null => known (null ▸ hk)
    have iff := nodup_map_key id keyed
    rwa [List.map_id] at iff
  simp only [EndpointTupleObservation.observedUnique, EndpointTupleObservation.nullRowCount, rows,
    nonNull, distinct, most, Bool.and_eq_true, decide_eq_true_eq, reduceOption_length_eq,
    maxCount_le_one, List.length_pos_iff]
  constructor
  · intro unique
    obtain ⟨⟨⟨some, known⟩, once⟩, _⟩ := unique
    exact ⟨some, known, (told known).mp once⟩
  · intro unique
    have once := (told unique.known).mpr unique.nodup
    refine ⟨⟨⟨unique.some, unique.known⟩, once⟩, ?_⟩
    have full := reduceOption_length_eq.mpr unique.known
    have bound := List.reduceOption_length_le keys
    have same := distinctCount_eq_length.mpr once
    omega

theorem observedCardinality_iff (observation : RelationshipObservationV2) :
    (observation.observedCardinality = .oneToOne ∨ observation.observedCardinality = .manyToOne) ↔
      observation.right.observedUnique = true := by
  unfold RelationshipObservationV2.observedCardinality
  cases observation.left.observedUnique <;> cases observation.right.observedUnique <;> simp

/-- A probe selects the numbers of the key tuples of the rows that pass, and its observation
    splits the distinct tuples of each side and tells whether the right side is unique. -/
theorem relationship_probe_exact {V : Type} [LinearOrder V] (r : Reading V) (trimLower : V → V)
    (lower : String → String) (plan : RelationshipObservationPlanV2) (method : String)
    (left right : Table V) :
    relationshipProbe r trimLower plan left right =
      expectedNumbers (keyTuples r trimLower plan .left left)
        (keyTuples r trimLower plan .right right) ∧
    ∃ observation, shapeRelationship lower plan method
        (relationshipProbe r trimLower plan left right) = .ok observation ∧
      observation.matchedLeftDistinct + observation.unmatchedLeftDistinct =
        observation.left.distinctTupleCount ∧
      observation.matchedRightDistinct + observation.unmatchedRightDistinct =
        observation.right.distinctTupleCount ∧
      (observation.observedCardinality = .oneToOne ∨
        observation.observedCardinality = .manyToOne ↔
          UniqueKeys (keyTuples r trimLower plan .right right)) := by
  have counts := relationshipProbe_eq r trimLower plan left right
  refine ⟨counts, ?_⟩
  rw [counts]
  refine ⟨_, rfl, ?_, ?_, ?_⟩
  · exact Nat.add_sub_of_le matchedCount_le
  · exact Nat.add_sub_of_le (matchedCount_comm.trans_le matchedCount_le)
  · rw [observedCardinality_iff]
    exact observedUnique_iff rfl rfl rfl rfl

end FeatureGen.DataAgent
