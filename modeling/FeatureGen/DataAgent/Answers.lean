import Mathlib
import FeatureGen.DataAgent.PlanIdentity
import FeatureGen.DataAgent.RunAnalysis

/-! # What an analysis answers

A run that returns has one row for each member of the population, with the counts of
its eligible events and the row of the dimension source that the declared rule
selects. Where the physical order of a table could be seen in the answer, a gate
raises.
-/

namespace FeatureGen.DataAgent

open Sql Checks FeatureGen.Overlay

namespace AnalysisExecutionIRV1

section Specification

variable {V : Type} [LinearOrder V] (r : Reading V) (dialect : Dialect)
variable (warehouse : Warehouse V) (ir : AnalysisExecutionIRV1)

/-- The events of a key with one of the period's values and every eligibility predicate true. -/
def countFor (e : TransactionEligibilityPolicyV1) (values : List String) (key : Option V) : ℕ :=
  (ir.eventRows dialect warehouse).countP fun row =>
    key ≠ none ∧ ir.eventKey row = key ∧
      (Condition.isIn ir.periodColumn values).holds r row ∧ ∀ c ∈ e.predicates, c.holds r row

def selectedRows (key : Option V) : Table V :=
  match ir.snapshotSelection, ir.attribution with
  | some policy, _ =>
      (policy.rankedFirst r (ir.sourceRows dialect warehouse)).filter fun row =>
        row policy.keyColumn = key
  | none, some policy =>
      (ir.validRows r dialect warehouse policy).filter fun row => ir.spineKey row = key
  | none, none => []

/-- What the selected row says of a column. -/
def classification (key : Option V) (column : String) : Option V :=
  (ir.selectedRows r dialect warehouse key).head?.bind fun row => row column

/-- Two rows where the statement wants one. -/
def Ambiguous : Prop :=
  (none ∈ (ir.spineRows dialect warehouse).map ir.spineKey ∨
    ¬ ((ir.spineRows dialect warehouse).map ir.spineKey).Nodup) ∨
  (ir.dimensions ≠ [] ∧ ∃ key, 1 < (ir.selectedRows r dialect warehouse key).length)

/-- One row for each member, with its counts and the columns asked for. -/
structure AnswersPopulation (e : TransactionEligibilityPolicyV1) (rows : List (AnalysisRow V)) :
    Prop where
  members : (rows.map AnalysisRow.key).Perm ((ir.spineRows dialect warehouse).map ir.spineKey)
  keyed : ∀ row ∈ rows, row.key ≠ none
  distinct : (rows.map AnalysisRow.key).Nodup
  previous : ∀ row ∈ rows,
    row.previousCount = ir.countFor r dialect warehouse e ir.previous.values row.key
  current : ∀ row ∈ rows,
    row.currentCount = ir.countFor r dialect warehouse e ir.current.values row.key
  columns : ∀ row ∈ rows, row.dimensions.map Prod.fst = ir.dimensions.map Dimension.column
  single : ir.dimensions ≠ [] → ∀ key, (ir.selectedRows r dialect warehouse key).length ≤ 1

/-- What a dimension is to be: the classification, or what was declared where there is none. -/
def DeclaredValue (key : Option V) (column : String) (value : Option V) : Prop :=
  (value = ir.classification r dialect warehouse key column ∧ value ≠ none) ∨
  (ir.classification r dialect warehouse key column = none ∧
    ((ir.missingValue = .unknownBucket ∧ value = some (r.literal column unknownLabel)) ∨
      (ir.missingValue = .retainNull ∧ value = none)))

def AsDeclared (rows : List (AnalysisRow V)) : Prop :=
  ∀ row ∈ rows, ∀ d ∈ row.dimensions, ir.DeclaredValue r dialect warehouse row.key d.1 d.2

/-- Every member has a classification in every dimension. -/
def AllClassified : Prop :=
  ∀ member ∈ ir.spineRows dialect warehouse, ∀ d ∈ ir.dimensions,
    ir.classification r dialect warehouse (ir.spineKey member) d.column ≠ none

end Specification

section Gates

variable {V : Type} [LinearOrder V] {r : Reading V} {lower : String → String} {dialect : Dialect}
variable {warehouse : Warehouse V} {ir : AnalysisExecutionIRV1}

theorem assertSpineIsUnique_eq_ok :
    ir.assertSpineIsUnique lower dialect warehouse = .ok () ↔
      (∀ row ∈ ir.spineRows dialect warehouse, ir.spineKey row ≠ none) ∧
        ((ir.spineRows dialect warehouse).map ir.spineKey).Nodup := by
  have few := countKeyed_le ir.spineKey (ir.spineRows dialect warehouse)
  have fewer := @countDistinct_le _ _ ir.spineKey _ (ir.spineRows dialect warehouse)
  simp only [assertSpineIsUnique, check_bind_eq_ok, ensure_eq_ok, not_lt]
  rw [← countKeyed_eq_length]
  refine ⟨fun h => ?_, fun h => ?_⟩
  · have keyed := le_antisymm few h.1
    have distinct := countDistinct_eq_countKeyed.mp (le_antisymm fewer h.2)
    exact ⟨keyed, (nodup_map_key ir.spineKey ((countKeyed_eq_length ir.spineKey).mp keyed)).mp
      distinct⟩
  · have keyed := (countKeyed_eq_length ir.spineKey).mp h.1
    have distinct := countDistinct_eq_countKeyed.mpr ((nodup_map_key ir.spineKey keyed).mpr h.2)
    exact ⟨h.1.ge, distinct.ge⟩

theorem Valid.rule (valid : ir.Valid lower) (asked : ir.dimensions ≠ []) :
    (∃ policy, ir.attribution = some policy ∧ ir.snapshotSelection = none) ∨
      ∃ policy, ir.attribution = none ∧ ir.snapshotSelection = some policy ∧
        policy.scope = .perEntity := by
  have passed := valid.plan
  simp only [check, check_bind_eq_ok, ensure_eq_ok] at passed
  obtain ⟨_, _, _, _, _, _, one, some, scope, _⟩ := passed
  obtain ⟨_, rule⟩ := some.resolve_left asked
  cases hs : ir.snapshotSelection with
  | none =>
      obtain ⟨policy, hp⟩ := Option.ne_none_iff_exists'.mp (rule.resolve_right (by simp [hs]))
      exact .inl ⟨policy, hp, rfl⟩
  | some policy =>
      have none := one.resolve_right (by simp [hs])
      have entity := scope.resolve_left asked policy hs
      refine .inr ⟨policy, none, rfl, ?_⟩
      cases hscope : policy.scope with
      | perEntity => rfl
      | perTable => exact absurd hscope entity

theorem source_gates_eq_ok (valid : ir.Valid lower) :
    (ir.assertNoDimensionOverlap r dialect warehouse = .ok () ∧
      ir.assertSnapshotSelectionIsUnique r dialect warehouse = .ok ()) ↔
      (ir.dimensions ≠ [] → ∀ key, (ir.selectedRows r dialect warehouse key).length ≤ 1) := by
  by_cases asked : ir.dimensions = []
  · simp [assertNoDimensionOverlap, assertSnapshotSelectionIsUnique, asked]
  · rw [assertNoDimensionOverlap, assertSnapshotSelectionIsUnique, if_neg asked, if_neg asked]
    obtain ⟨policy, ha, hs⟩ | ⟨policy, ha, hs, scope⟩ := valid.rule asked
    · simp only [ha, hs, ensure_eq_ok, repeatedGroups_eq_zero, nodup_map_iff, selectedRows, and_true,
        ne_eq, asked, not_false_eq_true, true_imp_iff]
    · simp only [ha, hs, assertNoSnapshotTie, scope]
      rw [ensure_eq_ok, repeatedGroups_eq_zero, nodup_map_iff,
        LatestSnapshotPolicyV1.part_perEntity scope]
      simp only [selectedRows, hs, true_and, ne_eq, asked, not_false_eq_true, true_imp_iff]

end Gates

section Statement

variable {V : Type} [LinearOrder V] (r : Reading V) {lower : String → String} (dialect : Dialect)
variable (warehouse : Warehouse V) (ir : AnalysisExecutionIRV1)

def answerOf (e : TransactionEligibilityPolicyV1) (member : Row V) : AnalysisRow V where
  key := ir.spineKey member
  previousCount := ir.countFor r dialect warehouse e ir.previous.values (ir.spineKey member)
  currentCount := ir.countFor r dialect warehouse e ir.current.values (ir.spineKey member)
  dimensions := ir.dimensions.map fun d => (d.column, ir.selectDimension r d.column
    (ir.selectedRows r dialect warehouse (ir.spineKey member)).head?)

variable {r dialect warehouse ir}

theorem count_periodEvents {e : TransactionEligibilityPolicyV1} {values : List String}
    (key : Option V) :
    ((ir.periodEvents r dialect warehouse e values).countP fun row =>
      key ≠ none ∧ ir.eventKey row = key) = ir.countFor r dialect warehouse e values key := by
  rw [periodEvents, countFor, List.countP_filter]
  refine List.countP_congr fun row _ => ?_
  simp only [periodConditions, List.forall_mem_cons, holds_isNotNull, Bool.and_eq_true,
    decide_eq_true_eq]
  constructor
  · intro h
    obtain ⟨⟨keyed, same⟩, period, _, eligible⟩ := h
    exact ⟨keyed, same, period, eligible⟩
  · intro h
    obtain ⟨keyed, same, period, eligible⟩ := h
    have carried : ir.eventKey row ≠ none := same ▸ keyed
    exact ⟨⟨keyed, same⟩, period, carried, eligible⟩

theorem matchesOf_dimensionGroups {β : Type} {kl : β → Option V} (valid : ir.Valid lower)
    (asked : ir.dimensions ≠ [])
    (single : ∀ key, (ir.selectedRows r dialect warehouse key).length ≤ 1) {b : β}
    (keyed : kl b ≠ none) :
    (matchesOf kl Prod.fst (ir.dimensionGroups r dialect warehouse) b).map Prod.snd =
      ir.selectedRows r dialect warehouse (kl b) := by
  obtain ⟨policy, ha, hs⟩ | ⟨policy, ha, hs, scope⟩ := valid.rule asked
  · simp only [dimensionGroups, selectedRows, ha, hs]
    exact matchesOf_keyed keyed
  · have part := @LatestSnapshotPolicyV1.part_perEntity policy V scope
    have one := single (kl b)
    have latest := @LatestSnapshotPolicyV1.filter_latestRows policy V _ r
      (ir.sourceRows dialect warehouse) (kl b)
    simp only [dimensionGroups, selectedRows, hs] at one ⊢
    rw [part] at latest
    rw [matchesOf_keyed keyed, latest one]

variable (single : ir.dimensions ≠ [] → ∀ key,
  (ir.selectedRows r dialect warehouse key).length ≤ 1)
variable (keyed : ∀ row ∈ ir.spineRows dialect warehouse, ir.spineKey row ≠ none)

theorem joinedPeriods_eq_map {e : TransactionEligibilityPolicyV1} :
    ir.joinedPeriods r dialect warehouse e = (ir.spineRows dialect warehouse).map fun member =>
      ((member, (matchesOf ir.spineKey Prod.fst
        (ir.periodGroups r dialect warehouse e ir.previous.values) member).head?),
       (matchesOf ir.spineKey Prod.fst
        (ir.periodGroups r dialect warehouse e ir.current.values) member).head?) := by
  have previous := @leftJoin_eq_map _ _ _ _ ir.spineKey Prod.fst (ir.spineRows dialect warehouse)
    (ir.periodGroups r dialect warehouse e ir.previous.values)
    fun _ _ => length_matchesOf_countBy _
  rw [joinedPeriods, previous, leftJoin_eq_map, List.map_map]
  · rfl
  · intro pair _
    exact length_matchesOf_countBy _

include keyed single in
theorem outerRows_eq_map (valid : ir.Valid lower) {e : TransactionEligibilityPolicyV1} :
    ir.outerRows r dialect warehouse e =
      (ir.spineRows dialect warehouse).map (ir.answerOf r dialect warehouse e) := by
  have count : ∀ values member,
      ((matchesOf ir.spineKey Prod.fst (ir.periodGroups r dialect warehouse e values)
        member).head?.map Prod.snd).getD 0 =
        ir.countFor r dialect warehouse e values (ir.spineKey member) := by
    intro values member
    rw [periodGroups, countOf_head, count_periodEvents]
  rw [outerRows, joinedPeriods_eq_map]
  by_cases asked : ir.dimensions = []
  · rw [if_pos asked, List.map_map]
    refine List.map_congr_left fun member _ => ?_
    simp [outerRow, answerOf, count, asked]
  · have found : ∀ member ∈ ir.spineRows dialect warehouse,
        (matchesOf ir.spineKey Prod.fst (ir.dimensionGroups r dialect warehouse) member).map
          Prod.snd = ir.selectedRows r dialect warehouse (ir.spineKey member) := fun member hmember =>
      matchesOf_dimensionGroups valid asked (single asked) (keyed member hmember)
    rw [if_neg asked, leftJoin_eq_map, List.map_map, List.map_map]
    · refine List.map_congr_left fun member hmember => ?_
      have head := congrArg List.head? (found member hmember)
      rw [List.head?_map] at head
      simp only [outerRow, answerOf, Function.comp_apply, count, AnalysisRow.mk.injEq, true_and]
      refine List.map_congr_left fun d _ => ?_
      rw [← head]
      rfl
    · intro pair hpair
      obtain ⟨member, hmember, rfl⟩ := List.mem_map.mp hpair
      have length := congrArg List.length (found member hmember)
      rw [List.length_map] at length
      exact length.trans_le (single asked _)

end Statement

section Order

variable {V : Type} [LinearOrder V] {r : Reading V} {lower : String → String} {dialect : Dialect}
variable {warehouse warehouse' : Warehouse V} {ir : AnalysisExecutionIRV1}
variable (perm : ∀ ref, (warehouse' ref).Perm (warehouse ref))

include perm

theorem assertSpineIsUnique_perm : ir.assertSpineIsUnique lower dialect warehouse' =
    ir.assertSpineIsUnique lower dialect warehouse := by
  have rows : (ir.spineRows dialect warehouse').Perm (ir.spineRows dialect warehouse) := perm _
  have keyed : countKeyed ir.spineKey (ir.spineRows dialect warehouse') =
      countKeyed ir.spineKey (ir.spineRows dialect warehouse) := rows.countP_eq _
  simp only [assertSpineIsUnique, rows.length_eq, keyed, countDistinct_perm rows]

theorem validRows_perm (policy : DimensionAttributionPolicyV1) :
    (ir.validRows r dialect warehouse' policy).Perm (ir.validRows r dialect warehouse policy) :=
  (perm _).filter _

theorem assertNoDimensionOverlap_perm : ir.assertNoDimensionOverlap r dialect warehouse' =
    ir.assertNoDimensionOverlap r dialect warehouse := by
  rw [assertNoDimensionOverlap, assertNoDimensionOverlap]
  cases ir.attribution with
  | none => rfl
  | some policy => simp only [repeatedGroups_perm (validRows_perm perm policy)]

theorem assertSnapshotSelectionIsUnique_perm :
    ir.assertSnapshotSelectionIsUnique r dialect warehouse' =
      ir.assertSnapshotSelectionIsUnique r dialect warehouse := by
  rw [assertSnapshotSelectionIsUnique, assertSnapshotSelectionIsUnique]
  cases ir.snapshotSelection with
  | none => rfl
  | some policy =>
      have ranked : (policy.rankedFirst r (ir.sourceRows dialect warehouse')).Perm
          (policy.rankedFirst r (ir.sourceRows dialect warehouse)) :=
        LatestSnapshotPolicyV1.rankedFirst_perm (perm _)
      simp only [assertNoSnapshotTie, ranked.length_eq, repeatedGroups_perm ranked]

theorem selectedRows_perm (key : Option V) : (ir.selectedRows r dialect warehouse' key).Perm
    (ir.selectedRows r dialect warehouse key) := by
  rw [selectedRows, selectedRows]
  cases ir.snapshotSelection with
  | none =>
      cases ir.attribution with
      | none => exact List.Perm.refl _
      | some policy => exact (validRows_perm perm policy).filter _
  | some policy => exact (LatestSnapshotPolicyV1.rankedFirst_perm (perm _)).filter _

theorem answerOf_perm {e : TransactionEligibilityPolicyV1}
    (single : ir.dimensions ≠ [] → ∀ key,
      (ir.selectedRows r dialect warehouse key).length ≤ 1) :
    ir.answerOf r dialect warehouse' e = ir.answerOf r dialect warehouse e := by
  funext member
  have count : ∀ values key, ir.countFor r dialect warehouse' e values key =
      ir.countFor r dialect warehouse e values key := fun _ _ => (perm _).countP_eq _
  simp only [answerOf, count, AnalysisRow.mk.injEq, true_and]
  refine List.map_congr_left fun d hd => ?_
  have same := @selectedRows_perm V _ r dialect warehouse warehouse' ir perm (ir.spineKey member)
  have few := single (List.ne_nil_of_mem hd) (ir.spineKey member)
  cases hs : ir.selectedRows r dialect warehouse (ir.spineKey member) with
  | nil =>
      rw [hs] at same
      rw [same.eq_nil]
  | cons row rest =>
      rw [hs] at same few
      cases rest with
      | nil => rw [List.perm_singleton.mp same]
      | cons other rest => simp at few

theorem fetchAll_perm (valid : ir.Valid lower)
    (spine : ir.assertSpineIsUnique lower dialect warehouse = .ok ())
    (single : ir.dimensions ≠ [] → ∀ key,
      (ir.selectedRows r dialect warehouse key).length ≤ 1) :
    ir.fetchAll r dialect warehouse' = ir.fetchAll r dialect warehouse := by
  obtain ⟨keyed, nodup⟩ := assertSpineIsUnique_eq_ok.mp spine
  have rows : (ir.spineRows dialect warehouse').Perm (ir.spineRows dialect warehouse) := perm _
  rw [fetchAll, fetchAll]
  cases ir.eligibility with
  | none => rfl
  | some e =>
      have single' : ir.dimensions ≠ [] → ∀ key,
          (ir.selectedRows r dialect warehouse' key).length ≤ 1 := fun asked key =>
        (selectedRows_perm perm key).length_eq.trans_le (single asked key)
      have keyed' : ∀ row ∈ ir.spineRows dialect warehouse', ir.spineKey row ≠ none :=
        fun row hrow => keyed row (rows.mem_iff.mp hrow)
      have sorted : KeySort.sortBy (fun row => nullsLast row.key)
            (ir.outerRows r dialect warehouse' e) =
          KeySort.sortBy (fun row => nullsLast row.key) (ir.outerRows r dialect warehouse e) := by
        rw [outerRows_eq_map single' keyed' valid, outerRows_eq_map single keyed valid,
          answerOf_perm perm single]
        refine (KeySort.sortBy_eq_iff fun a ha b hb same => ?_).mpr (rows.map _)
        obtain ⟨member, hmember, rfl⟩ := List.mem_map.mp ha
        obtain ⟨other, hother, rfl⟩ := List.mem_map.mp hb
        have keys : ir.spineKey member = ir.spineKey other := nullsLast_injective same
        rw [List.inj_on_of_nodup_map nodup (rows.mem_iff.mp hmember) hother keys]
      simp only [sorted]

theorem runAnalysis_perm (valid : ir.Valid lower) : ir.runAnalysis r dialect warehouse' lower =
    ir.runAnalysis r dialect warehouse lower := by
  rw [runAnalysis, runAnalysis, assertSpineIsUnique_perm perm, assertNoDimensionOverlap_perm perm,
    assertSnapshotSelectionIsUnique_perm perm]
  cases ir.assertJoinIsVerified lower with
  | error refusal => rfl
  | ok =>
      cases spine : ir.assertSpineIsUnique lower dialect warehouse with
      | error refusal => rfl
      | ok =>
          cases overlap : ir.assertNoDimensionOverlap r dialect warehouse with
          | error refusal => rfl
          | ok =>
              cases tie : ir.assertSnapshotSelectionIsUnique r dialect warehouse with
              | error refusal => rfl
              | ok =>
                  exact fetchAll_perm perm valid spine ((source_gates_eq_ok valid).mp ⟨overlap, tie⟩)

end Order

section Answer

variable {V : Type} [LinearOrder V] {r : Reading V} {lower : String → String} {dialect : Dialect}
variable {warehouse : Warehouse V} {ir : AnalysisExecutionIRV1}

theorem rows_of_run (valid : ir.Valid lower) {rows : List (AnalysisRow V)}
    (h : ir.runAnalysis r dialect warehouse lower = .ok rows) {e : TransactionEligibilityPolicyV1}
    (he : ir.eligibility = some e) :
    ir.assertSpineIsUnique lower dialect warehouse = .ok () ∧
      (ir.dimensions ≠ [] → ∀ key, (ir.selectedRows r dialect warehouse key).length ≤ 1) ∧
      rows.Perm ((ir.spineRows dialect warehouse).map (ir.answerOf r dialect warehouse e)) := by
  simp only [runAnalysis, check_bind_eq_ok] at h
  obtain ⟨_, spine, overlap, tie, fetched⟩ := h
  have single := (source_gates_eq_ok valid).mp ⟨overlap, tie⟩
  refine ⟨spine, single, ?_⟩
  simp only [fetchAll, he, check_bind_eq_ok, Except.ok.injEq] at fetched
  rw [← fetched.2, outerRows_eq_map single (assertSpineIsUnique_eq_ok.mp spine).1 valid]
  exact KeySort.perm_sortBy _ _

theorem run_refuses_of_ambiguous (valid : ir.Valid lower)
    (h : ir.Ambiguous r dialect warehouse) :
    ∃ refusal, ir.runAnalysis r dialect warehouse lower = .error refusal := by
  cases hrun : ir.runAnalysis r dialect warehouse lower with
  | error refusal => exact ⟨refusal, rfl⟩
  | ok rows =>
      obtain ⟨e, he⟩ := valid.exists_eligibility
      obtain ⟨spine, single, _⟩ := rows_of_run valid hrun he
      obtain ⟨keyed, nodup⟩ := assertSpineIsUnique_eq_ok.mp spine
      exfalso
      obtain (null | repeated) | ⟨asked, key, two⟩ := h
      · obtain ⟨member, hmember, hnull⟩ := List.mem_map.mp null
        exact keyed member hmember hnull
      · exact repeated nodup
      · have few := single asked key
        omega

theorem declaredValue_iff {key : Option V} {column : String} :
    ir.DeclaredValue r dialect warehouse key column
        (ir.selectDimension r column (ir.selectedRows r dialect warehouse key).head?) ↔
      ir.missingValue ≠ .refuse ∨ ir.classification r dialect warehouse key column ≠ none := by
  have value : ir.selectDimension r column (ir.selectedRows r dialect warehouse key).head? =
      if ir.missingValue = .unknownBucket then
        some ((ir.classification r dialect warehouse key column).getD
          (r.literal column unknownLabel))
      else ir.classification r dialect warehouse key column := rfl
  rw [value, DeclaredValue]
  cases ir.classification r dialect warehouse key column with
  | none => cases ir.missingValue <;> simp
  | some v => cases ir.missingValue <;> simp

theorem answersPopulation_of_run (valid : ir.Valid lower) {rows : List (AnalysisRow V)}
    (h : ir.runAnalysis r dialect warehouse lower = .ok rows) {e : TransactionEligibilityPolicyV1}
    (he : ir.eligibility = some e) : ir.AnswersPopulation r dialect warehouse e rows := by
  obtain ⟨spine, single, perm⟩ := rows_of_run valid h he
  obtain ⟨keyed, nodup⟩ := assertSpineIsUnique_eq_ok.mp spine
  have keys : (rows.map AnalysisRow.key).Perm
      ((ir.spineRows dialect warehouse).map ir.spineKey) := by
    have mapped := perm.map AnalysisRow.key
    rwa [List.map_map] at mapped
  have each : ∀ row ∈ rows, ∃ member ∈ ir.spineRows dialect warehouse,
      ir.answerOf r dialect warehouse e member = row := fun row hrow =>
    List.mem_map.mp (perm.mem_iff.mp hrow)
  refine ⟨keys, fun row hrow => ?_, keys.nodup_iff.mpr nodup, fun row hrow => ?_,
    fun row hrow => ?_, fun row hrow => ?_, single⟩
  · obtain ⟨member, hmember, rfl⟩ := each row hrow
    exact keyed member hmember
  · obtain ⟨member, _, rfl⟩ := each row hrow
    rfl
  · obtain ⟨member, _, rfl⟩ := each row hrow
    rfl
  · obtain ⟨member, _, rfl⟩ := each row hrow
    simp [answerOf]

theorem asDeclared_iff (valid : ir.Valid lower) {rows : List (AnalysisRow V)}
    (h : ir.runAnalysis r dialect warehouse lower = .ok rows) :
    ir.AsDeclared r dialect warehouse rows ↔
      ir.missingValue ≠ .refuse ∨ ir.AllClassified r dialect warehouse := by
  obtain ⟨e, he⟩ := valid.exists_eligibility
  obtain ⟨_, _, perm⟩ := rows_of_run valid h he
  have unfolded : ir.AsDeclared r dialect warehouse rows ↔
      ∀ member ∈ ir.spineRows dialect warehouse, ∀ d ∈ ir.dimensions,
        ir.missingValue ≠ .refuse ∨
          ir.classification r dialect warehouse (ir.spineKey member) d.column ≠ none := by
    simp only [AsDeclared, perm.mem_iff, List.forall_mem_map, answerOf, declaredValue_iff]
  rw [unfolded, AllClassified]
  constructor
  · intro all
    by_cases refuses : ir.missingValue = .refuse
    · refine .inr fun member hmember d hd => ?_
      exact (all member hmember d hd).resolve_left (not_not_intro refuses)
    · exact .inl refuses
  · intro either member hmember d hd
    exact either.imp id fun all => all member hmember d hd

/-- Runs answer their population, whatever the order of the tables; where two rows could
be taken for one they raise. The dimensions are as declared exactly where a missing
classification is not to be refused, or none is missing. -/
theorem analysis_answers_population (valid : ir.Valid lower) :
    (∀ warehouse' : Warehouse V, (∀ ref, (warehouse' ref).Perm (warehouse ref)) →
      ir.runAnalysis r dialect warehouse' lower = ir.runAnalysis r dialect warehouse lower) ∧
    (ir.Ambiguous r dialect warehouse →
      ∃ refusal, ir.runAnalysis r dialect warehouse lower = .error refusal) ∧
    ∀ rows, ir.runAnalysis r dialect warehouse lower = .ok rows →
      (∀ e ∈ ir.eligibility, ir.AnswersPopulation r dialect warehouse e rows) ∧
      (ir.AsDeclared r dialect warehouse rows ↔
        ir.missingValue ≠ .refuse ∨ ir.AllClassified r dialect warehouse) :=
  ⟨fun _ perm => runAnalysis_perm perm valid, run_refuses_of_ambiguous valid,
    fun _ hrun => ⟨fun _ he => answersPopulation_of_run valid hrun he, asDeclared_iff valid hrun⟩⟩

end Answer

/-- Activity by today's segment, which no member may lack. -/
def activityBySegment : AnalysisExecutionIRV1 :=
  { activity ["05"] with
    dimensions := [⟨"segment"⟩]
    dimensionBinding := some (tableBinding "segments")
    attribution := some ⟨.currentValue, "", "until", "", "start_inclusive_end_exclusive", .refuse,
      ""⟩
    joinEvidence := some (.v1 ⟨⟨"ftr::edp::core::moves", "cif", 1, 1, 0, []⟩,
      ⟨"ftr::edp::core::customers", "cif", 1, 1, 0, []⟩, "exact", true, "full"⟩) }

def rowOf (cells : List (String × String)) : Row String := fun column =>
  (cells.find? fun cell => cell.1 = column).map Prod.snd

def texts : Reading String := ⟨fun _ text => text, "true"⟩

def bare : Dialect := ⟨fun name => name, fun binding => binding.identity.table⟩

def oneCustomer (segments : Table String) : Warehouse String := fun ref =>
  if ref = "customers" then [rowOf [("cif", "c1")]]
  else if ref = "moves" then
    [rowOf [("cif", "c1"), ("month", "05"), ("status", "POSTED"), ("reversal", "N")]]
  else segments

theorem activityBySegment_runs :
    ((tableBinding "segments").identity.check id = .ok () ∧
      (tableBinding "segments").build id = .ok (tableBinding "segments")) ∧
    activityBySegment.check = .ok () ∧
    (∀ policy ∈ activityBySegment.attribution, policy.check = .ok ()) ∧
    activityBySegment.runAnalysis texts bare (oneCustomer []) id =
      .ok [⟨some "c1", 1, 0, [("segment", none)]⟩] ∧
    activityBySegment.runAnalysis texts bare
        (oneCustomer [rowOf [("cif", "c1"), ("segment", "retail")]]) id =
      .ok [⟨some "c1", 1, 0, [("segment", some "retail")]⟩] := by
  refine ⟨⟨rfl, rfl⟩, rfl, ?_, rfl, rfl⟩
  rintro policy ⟨⟩
  rfl

theorem activityBySegment_valid : activityBySegment.Valid id := by
  obtain ⟨⟨hcustomers, hbuilt⟩, ⟨hmoves, hbuilt'⟩, hposted, _⟩ := activity_parts
  obtain ⟨⟨hsegments, hbuilt''⟩, hplan, hpolicy, _⟩ := activityBySegment_runs
  refine ⟨⟨hcustomers, _, hbuilt⟩, ⟨hmoves, _, hbuilt'⟩, ?_, ?_, hpolicy, ?_, hplan⟩
  · intro policy h
    cases h
    exact ⟨hsegments, _, hbuilt''⟩
  · intro policy h
    cases h
    exact hposted
  · intro policy h
    cases h

def moveOf (cif month status reversal : String) : Row String :=
  rowOf [("cif", cif), ("month", month), ("status", status), ("reversal", reversal)]

/-- Of the six moves three count: one is pending, one reversed, and one nobody's. -/
def twoCustomers : Warehouse String := fun ref =>
  if ref = "customers" then [rowOf [("cif", "c2")], rowOf [("cif", "c1")]]
  else if ref = "moves" then
    [moveOf "c1" "05" "POSTED" "N", moveOf "c1" "06" "POSTED" "N", moveOf "c1" "06" "PENDING" "N",
      moveOf "c2" "06" "POSTED" "Y", moveOf "c2" "06" "POSTED" "N", moveOf "c3" "05" "POSTED" "N"]
  else
    [rowOf [("cif", "c1"), ("segment", "mass"), ("until", "2025-12-31")],
      rowOf [("cif", "c1"), ("segment", "retail")], rowOf [("cif", "c2"), ("segment", "private")]]

def twoAnswers : List (AnalysisRow String) :=
  [⟨some "c1", 1, 1, [("segment", some "retail")]⟩,
    ⟨some "c2", 0, 1, [("segment", some "private")]⟩]

theorem analysis_answers_population_segments :
    activityBySegment.runAnalysis texts bare twoCustomers id = .ok twoAnswers ∧
    activityBySegment.runAnalysis texts bare (fun ref => (twoCustomers ref).reverse) id =
      .ok twoAnswers ∧
    (∃ refusal, activityBySegment.runAnalysis texts bare
      (fun ref => twoCustomers ref ++ twoCustomers ref) id = .error refusal) ∧
    activityBySegment.AnswersPopulation texts bare twoCustomers postedOnly twoAnswers ∧
    activityBySegment.AsDeclared texts bare twoCustomers twoAnswers := by
  have runs : activityBySegment.runAnalysis texts bare twoCustomers id = .ok twoAnswers := rfl
  have reordered : activityBySegment.runAnalysis texts bare (fun ref => (twoCustomers ref).reverse)
      id = activityBySegment.runAnalysis texts bare twoCustomers id :=
    (analysis_answers_population activityBySegment_valid).1 _ fun _ => List.reverse_perm _
  obtain ⟨population, declared⟩ :=
    (analysis_answers_population activityBySegment_valid).2.2 _ runs
  refine ⟨runs, reordered.trans runs, ?_, population _ rfl, declared.mpr (.inr ?_)⟩
  · refine (analysis_answers_population activityBySegment_valid).2.1 (.inl (.inr ?_))
    decide
  · intro member hmember d hd
    obtain rfl := List.mem_singleton.mp hd
    revert member
    decide

/-- A member without a classification is answered, although its absence is to be refused. -/
theorem missing_classification_answered :
    activityBySegment.Valid id ∧ ∃ rows,
      activityBySegment.runAnalysis texts bare (oneCustomer []) id = .ok rows ∧
      ¬ activityBySegment.AsDeclared texts bare (oneCustomer []) rows := by
  refine ⟨activityBySegment_valid, _, activityBySegment_runs.2.2.2.1, fun declared => ?_⟩
  have either := (asDeclared_iff activityBySegment_valid activityBySegment_runs.2.2.2.1).mp declared
  cases either with
  | inl keeps => exact keeps rfl
  | inr all =>
      exact all _ List.mem_cons_self _ List.mem_cons_self rfl

end AnalysisExecutionIRV1

end FeatureGen.DataAgent
