import Mathlib
import FeatureGen.Materialize.StagingManifests

/-! # Staging completeness

The gate finds nothing exactly when the manifests and the planned columns pair off,
each manifest completed, of the asked run and of the planned computation. What it
finds depends on which manifests there are and not on their order.
-/

namespace FeatureGen.Materialize

open FeatureGen.Overlay Checks

theorem rejectAfter_eq_ok {columns seen : List (String × ColumnRole)}
    (fresh : (seen.map Prod.fst).Nodup) :
    rejectAfter seen columns = .ok () ↔ ((seen ++ columns).map Prod.fst).Nodup := by
  induction columns generalizing seen with
  | nil => simpa [rejectAfter] using fresh
  | cons column columns ih =>
      unfold rejectAfter
      cases hclash : seen.find? (·.1 = column.1) with
      | some clash =>
          have mem := List.mem_of_find?_eq_some hclash
          have same : clash.1 = column.1 := by simpa using List.find?_some hclash
          simp only [reduceCtorEq, false_iff, List.map_append, List.map_cons]
          intro nodup
          apply List.disjoint_of_nodup_append nodup (List.mem_map_of_mem mem)
          rw [same]
          exact List.mem_cons_self
      | none =>
          have unseen : column.1 ∉ seen.map Prod.fst := by
            intro h
            obtain ⟨other, hother, same⟩ := List.mem_map.mp h
            have differs := List.find?_eq_none.mp hclash other hother
            simp [same] at differs
          have extended : ((seen ++ [column]).map Prod.fst).Nodup := by
            rw [List.map_append, List.map_singleton, List.nodup_append]
            exact ⟨fresh, List.nodup_singleton _, fun a ha b hb => by
              rw [List.mem_singleton] at hb
              rintro rfl
              exact unseen (hb ▸ ha)⟩
          rw [ih extended, List.append_assoc, List.singleton_append]

theorem rejectCollisions_eq_ok {columns : List (String × ColumnRole)} :
    rejectCollisions columns = .ok () ↔ (columns.map Prod.fst).Nodup := by
  rw [rejectCollisions, rejectAfter_eq_ok (by simp), List.nil_append]

theorem map_fst_featureColumns (features : List PlannedFeature) :
    (featureColumns features).map Prod.fst = features.map (·.columnName) := by
  simp [featureColumns, Function.comp_def]

theorem columns_nodup_of_built {nfkc lower : String → String} {policyVersion : ℕ}
    {group : ContractGroup} {features : List PlannedFeature} {logicalGroupName : String}
    {plan : FeatureGroupPlanV1}
    (built : buildGroupPlan nfkc lower policyVersion group features logicalGroupName = .ok plan) :
    plan.columns.Nodup := by
  unfold buildGroupPlan at built
  obtain ⟨name, _, built⟩ := bind_eq_ok.mp built
  obtain ⟨_, built⟩ := check_bind_eq_ok.mp built
  obtain ⟨_, built⟩ := check_bind_eq_ok.mp built
  obtain ⟨keys, _, built⟩ := bind_eq_ok.mp built
  obtain ⟨businessDt, _, built⟩ := bind_eq_ok.mp built
  obtain ⟨distinct, built⟩ := check_bind_eq_ok.mp built
  cases built
  rw [rejectCollisions_eq_ok, publishedColumns, List.map_append, List.map_append,
    map_fst_featureColumns] at distinct
  exact (List.nodup_append.mp (List.nodup_append.mp distinct).1).2.1

section Gate

variable {plan : FeatureGroupPlanV1} {manifests others : List StagingManifestV1}
  {asked : RunBinding} {manifest : StagingManifestV1} {name : String}

theorem mem_byName : manifest ∈ byName manifests name ↔
    manifest ∈ manifests ∧ manifest.intentFeatureName = name := by
  simp [byName]

theorem mem_stagedNames : name ∈ stagedNames manifests ↔
    ∃ manifest ∈ manifests, manifest.intentFeatureName = name := by
  simp [stagedNames, sortedSet]

theorem byName_ne_nil (h : name ∈ stagedNames manifests) : byName manifests name ≠ [] := by
  obtain ⟨manifest, hmem, hname⟩ := mem_stagedNames.mp h
  exact List.ne_nil_of_mem (mem_byName.mpr ⟨hmem, hname⟩)

theorem exists_byName (staged : name ∈ stagedNames manifests)
    (single : isDuplicated manifests name = false) :
    ∃ manifest, byName manifests name = [manifest] := by
  have some := byName_ne_nil staged
  simp only [isDuplicated, decide_eq_false_iff_not] at single
  cases h : byName manifests name with
  | nil => exact absurd h some
  | cons manifest rest =>
      cases rest with
      | nil => exact ⟨manifest, rfl⟩
      | cons _ _ => simp [h] at single

theorem byName_perm (h : manifests.Perm others) (name : String) :
    (byName manifests name).Perm (byName others name) := h.filter _

theorem isDuplicated_perm (h : manifests.Perm others) :
    isDuplicated manifests = isDuplicated others := by
  funext name
  simp only [isDuplicated, (byName_perm h name).length_eq]

theorem isStale_perm (h : manifests.Perm others) :
    isStale manifests asked = isStale others asked := by
  funext name
  have any := (byName_perm h name).any_eq (f := fun m => decide (m.bound ≠ asked))
  simp only [isStale, isDuplicated_perm h, any]

theorem byName_eq (h : manifests.Perm others) (single : isDuplicated manifests name = false) :
    byName manifests name = byName others name := by
  have perm := byName_perm h name
  simp only [isDuplicated, decide_eq_false_iff_not] at single
  cases hbyName : byName manifests name with
  | nil => rw [hbyName] at perm; exact perm.nil_eq
  | cons manifest rest =>
      cases rest with
      | nil => rw [hbyName] at perm; exact (List.singleton_perm.mp perm)
      | cons _ _ => simp [hbyName] at single

theorem stagedNames_perm (h : manifests.Perm others) :
    stagedNames manifests = stagedNames others := by
  unfold stagedNames sortedSet
  refine (KeySort.sortBy_eq_iff fun a _ b _ same => same).mpr ?_
  exact (h.map _).dedup

theorem completenessFailures_perm (h : manifests.Perm others) :
    completenessFailures manifests asked plan = completenessFailures others asked plan := by
  have single : ∀ {name : String}, isStale others asked name = true →
      isDuplicated others name = false := by
    intro name stale
    simp only [isStale, Bool.and_eq_true, Bool.not_eq_true'] at stale
    exact stale.1
  have duplicates : duplicateFailures manifests = duplicateFailures others := by
    have counted : duplicateFailure manifests = duplicateFailure others := by
      funext name
      simp only [duplicateFailure, (byName_perm h name).length_eq]
    simp only [duplicateFailures, stagedNames_perm h, isDuplicated_perm h, counted]
  have stales : staleFailures manifests asked = staleFailures others asked := by
    simp only [staleFailures, stagedNames_perm h, isStale_perm h]
    apply List.flatMap_congr
    intro name hname
    have hsingle := single (List.mem_filter.mp hname).2
    rw [byName_eq h (by rwa [isDuplicated_perm h])]
  have grades : gradeFeature manifests asked = gradeFeature others asked := by
    funext feature
    unfold gradeFeature
    rw [isDuplicated_perm h, isStale_perm h]
    split
    · rfl
    · next neither =>
      simp only [Bool.or_eq_true, not_or, Bool.not_eq_true] at neither
      rw [byName_eq h (by rw [isDuplicated_perm h]; exact neither.1)]
  have unexpecteds : unexpectedFailures manifests asked plan =
      unexpectedFailures others asked plan := by
    simp only [unexpectedFailures, stagedNames_perm h, isDuplicated_perm h, isStale_perm h]
  rw [completenessFailures, duplicates, stales, grades, unexpecteds, completenessFailures]

structure Accounts (asked : RunBinding) (manifest : StagingManifestV1) (feature : PlannedFeature) :
    Prop where
  named : manifest.intentFeatureName = feature.columnName
  completed : manifest.status = .completed
  computed : manifest.irHash = feature.irHash
  bound : manifest.bound = asked

def Complete (plan : FeatureGroupPlanV1) (manifests : List StagingManifestV1)
    (asked : RunBinding) : Prop :=
  ∃ pairs : List (StagingManifestV1 × PlannedFeature),
    (pairs.map Prod.fst).Perm manifests ∧ (pairs.map Prod.snd).Perm plan.features ∧
      ∀ pair ∈ pairs, Accounts asked pair.1 pair.2

/-- What the gate asks, name by name. -/
structure Accounted (plan : FeatureGroupPlanV1) (manifests : List StagingManifestV1)
    (asked : RunBinding) : Prop where
  single : (manifests.map (·.intentFeatureName)).Nodup
  bound : ∀ manifest ∈ manifests, manifest.bound = asked
  planned : ∀ manifest ∈ manifests, manifest.intentFeatureName ∈ plan.columns
  covered : ∀ feature ∈ plan.features, ∃ manifest ∈ manifests, Accounts asked manifest feature

theorem length_byName (manifests : List StagingManifestV1) (name : String) :
    (byName manifests name).length = (manifests.map (·.intentFeatureName)).count name := by
  rw [byName, ← List.countP_eq_length_filter, List.count, List.countP_map]
  rfl

theorem isDuplicated_eq_false_iff :
    (∀ name, isDuplicated manifests name = false) ↔
      (manifests.map (·.intentFeatureName)).Nodup := by
  simp only [isDuplicated, length_byName, decide_eq_false_iff_not, not_lt,
    List.nodup_iff_count_le_one]

theorem staged_of_isDuplicated (h : isDuplicated manifests name = true) :
    name ∈ stagedNames manifests := by
  simp only [isDuplicated, decide_eq_true_eq] at h
  have some : 0 < (byName manifests name).length := by omega
  obtain ⟨manifest, hmem⟩ := List.exists_mem_of_length_pos some
  obtain ⟨hmem, hname⟩ := mem_byName.mp hmem
  exact mem_stagedNames.mpr ⟨manifest, hmem, hname⟩

theorem duplicateFailures_eq_nil :
    duplicateFailures manifests = [] ↔ (manifests.map (·.intentFeatureName)).Nodup := by
  rw [duplicateFailures, List.map_eq_nil_iff, List.filter_eq_nil_iff, ← isDuplicated_eq_false_iff]
  constructor
  · intro none name
    by_contra repeated
    rw [Bool.not_eq_false] at repeated
    exact none name (staged_of_isDuplicated repeated) repeated
  · intro none name _
    rw [none name]
    exact Bool.false_ne_true

theorem byName_of_mem (single : (manifests.map (·.intentFeatureName)).Nodup)
    (hmem : manifest ∈ manifests) : byName manifests manifest.intentFeatureName = [manifest] := by
  have staged := mem_stagedNames.mpr ⟨manifest, hmem, rfl⟩
  obtain ⟨other, hother⟩ := exists_byName staged (isDuplicated_eq_false_iff.mpr single _)
  have same : manifest ∈ byName manifests manifest.intentFeatureName := mem_byName.mpr ⟨hmem, rfl⟩
  rw [hother, List.mem_singleton] at same
  rw [hother, same]

theorem staleFailures_eq_nil (single : (manifests.map (·.intentFeatureName)).Nodup) :
    staleFailures manifests asked = [] ↔ ∀ manifest ∈ manifests, manifest.bound = asked := by
  have fresh := isDuplicated_eq_false_iff.mpr single
  rw [staleFailures, List.flatMap_eq_nil_iff]
  constructor
  · intro none manifest hmem
    have found := byName_of_mem single hmem
    by_contra other
    have stale : isStale manifests asked manifest.intentFeatureName = true := by
      simp [isStale, fresh, found, other]
    have empty := none manifest.intentFeatureName
      (List.mem_filter.mpr ⟨mem_stagedNames.mpr ⟨manifest, hmem, rfl⟩, stale⟩)
    simp [found] at empty
  · intro bound name hname
    have stale := (List.mem_filter.mp hname).2
    simp only [isStale, Bool.and_eq_true, List.any_eq_true, decide_eq_true_eq] at stale
    obtain ⟨_, manifest, hmem, other⟩ := stale
    exact absurd (bound manifest (mem_byName.mp hmem).1) other

theorem isStale_eq_false (bound : ∀ manifest ∈ manifests, manifest.bound = asked) (name : String) :
    isStale manifests asked name = false := by
  simp only [isStale, Bool.and_eq_false_iff, List.any_eq_false, decide_eq_true_eq, not_not]
  exact Or.inr fun manifest hmem => bound manifest (mem_byName.mp hmem).1

theorem gradeFeature_eq_none (single : (manifests.map (·.intentFeatureName)).Nodup)
    (bound : ∀ manifest ∈ manifests, manifest.bound = asked) {feature : PlannedFeature} :
    gradeFeature manifests asked feature = none ↔
      ∃ manifest ∈ manifests, Accounts asked manifest feature := by
  simp only [gradeFeature, isDuplicated_eq_false_iff.mpr single, isStale_eq_false bound,
    Bool.or_self, Bool.false_eq_true, if_false]
  constructor
  · intro passed
    cases found : byName manifests feature.columnName with
    | nil => simp [found] at passed
    | cons manifest rest =>
        have mem : manifest ∈ byName manifests feature.columnName := by simp [found]
        obtain ⟨hmem, hname⟩ := mem_byName.mp mem
        simp only [found] at passed
        by_cases completed : manifest.status = .completed
        · by_cases computed : manifest.irHash = feature.irHash
          · exact ⟨manifest, hmem, hname, completed, computed, bound manifest hmem⟩
          · simp [completed, computed] at passed
        · simp [completed] at passed
  · intro accounted
    obtain ⟨manifest, hmem, accounts⟩ := accounted
    have found := byName_of_mem single hmem
    rw [accounts.named] at found
    simp [found, accounts.completed, accounts.computed]

theorem unexpectedFailures_eq_nil (single : (manifests.map (·.intentFeatureName)).Nodup)
    (bound : ∀ manifest ∈ manifests, manifest.bound = asked) :
    unexpectedFailures manifests asked plan = [] ↔
      ∀ manifest ∈ manifests, manifest.intentFeatureName ∈ plan.columns := by
  simp only [unexpectedFailures, List.map_eq_nil_iff, List.filter_eq_nil_iff,
    isDuplicated_eq_false_iff.mpr single, isStale_eq_false bound, mem_stagedNames]
  simp

theorem completenessFailures_eq_nil :
    completenessFailures manifests asked plan = [] ↔ Accounted plan manifests asked := by
  simp only [completenessFailures, List.append_eq_nil_iff, List.filterMap_eq_nil_iff]
  constructor
  · intro none
    obtain ⟨⟨⟨duplicates, stales⟩, grades⟩, unexpecteds⟩ := none
    have single := duplicateFailures_eq_nil.mp duplicates
    have bound := (staleFailures_eq_nil single).mp stales
    exact ⟨single, bound, (unexpectedFailures_eq_nil single bound).mp unexpecteds,
      fun feature hfeature => (gradeFeature_eq_none single bound).mp (grades feature hfeature)⟩
  · intro accounted
    obtain ⟨single, bound, planned, covered⟩ := accounted
    exact ⟨⟨⟨duplicateFailures_eq_nil.mpr single, (staleFailures_eq_nil single).mpr bound⟩,
      fun feature hfeature => (gradeFeature_eq_none single bound).mpr (covered feature hfeature)⟩,
      (unexpectedFailures_eq_nil single bound).mpr planned⟩

theorem eq_of_named (single : (manifests.map (·.intentFeatureName)).Nodup)
    {other : StagingManifestV1} (hmem : manifest ∈ manifests) (hother : other ∈ manifests)
    (same : manifest.intentFeatureName = other.intentFeatureName) : manifest = other :=
  List.inj_on_of_nodup_map single hmem hother same

theorem Accounted.complete (accounted : Accounted plan manifests asked)
    (distinct : plan.columns.Nodup) : Complete plan manifests asked := by
  choose! accounting mem accounts using accounted.covered
  have names : (plan.features.map accounting).map (·.intentFeatureName) = plan.columns := by
    rw [List.map_map, FeatureGroupPlanV1.columns]
    exact List.map_congr_left fun feature hfeature => (accounts feature hfeature).named
  refine ⟨plan.features.map fun feature => (accounting feature, feature), ?_, ?_, ?_⟩
  · rw [List.map_map]
    have nodup : (plan.features.map accounting).Nodup :=
      List.Nodup.of_map (·.intentFeatureName) (names ▸ distinct)
    refine (List.perm_ext_iff_of_nodup nodup (List.Nodup.of_map _ accounted.single)).mpr ?_
    intro manifest
    constructor
    · intro h
      obtain ⟨feature, hfeature, rfl⟩ := List.mem_map.mp h
      exact mem feature hfeature
    · intro hmem
      obtain ⟨feature, hfeature, hname⟩ := List.mem_map.mp (accounted.planned manifest hmem)
      have named := (accounts feature hfeature).named
      exact List.mem_map.mpr ⟨feature, hfeature, eq_of_named accounted.single
        (mem feature hfeature) hmem (named.trans hname)⟩
  · simp [Function.comp_def]
  · intro pair hpair
    obtain ⟨feature, hfeature, rfl⟩ := List.mem_map.mp hpair
    exact accounts feature hfeature

theorem Complete.accounted (complete : Complete plan manifests asked)
    (distinct : plan.columns.Nodup) : Accounted plan manifests asked := by
  obtain ⟨pairs, manifested, planned, accounts⟩ := complete
  have names : (pairs.map Prod.fst).map (·.intentFeatureName) =
      (pairs.map Prod.snd).map (·.columnName) := by
    simp only [List.map_map]
    exact List.map_congr_left fun pair hpair => (accounts pair hpair).named
  have columns := (planned.map (·.columnName))
  have paired : ∀ manifest ∈ manifests, ∃ pair ∈ pairs, pair.1 = manifest := fun manifest hmem =>
    List.mem_map.mp (manifested.mem_iff.mpr hmem)
  refine ⟨?_, ?_, ?_, ?_⟩
  · rw [← (manifested.map _).nodup_iff, names, columns.nodup_iff]
    exact distinct
  · intro manifest hmem
    obtain ⟨pair, hpair, rfl⟩ := paired manifest hmem
    exact (accounts pair hpair).bound
  · intro manifest hmem
    obtain ⟨pair, hpair, rfl⟩ := paired manifest hmem
    rw [(accounts pair hpair).named]
    exact List.mem_map_of_mem (planned.mem_iff.mp (List.mem_map_of_mem hpair))
  · intro feature hfeature
    obtain ⟨pair, hpair, rfl⟩ := List.mem_map.mp (planned.mem_iff.mpr hfeature)
    exact ⟨pair.1, manifested.mem_iff.mp (List.mem_map_of_mem hpair), accounts pair hpair⟩

theorem duplicateFailure_mem (repeated : isDuplicated manifests name = true) :
    duplicateFailure manifests name ∈ completenessFailures manifests asked plan := by
  simp only [completenessFailures, List.mem_append, duplicateFailures]
  exact Or.inl (Or.inl (Or.inl (List.mem_map_of_mem
    (List.mem_filter.mpr ⟨staged_of_isDuplicated repeated, repeated⟩))))

theorem isDuplicated_of_second (hmem : manifest ∈ manifests) :
    ∀ {second : StagingManifestV1}, second.intentFeatureName = manifest.intentFeatureName →
      isDuplicated (second :: manifests) manifest.intentFeatureName = true := by
  intro second same
  have first := List.length_pos_of_mem (mem_byName.mpr ⟨hmem, rfl⟩)
  have found : byName (second :: manifests) manifest.intentFeatureName =
      second :: byName manifests manifest.intentFeatureName := by
    simp [byName, same]
  simp only [isDuplicated, found, List.length_cons, decide_eq_true_eq]
  omega

theorem reported_of_unplanned (hmem : manifest ∈ manifests)
    (unplanned : manifest.intentFeatureName ∉ plan.columns) :
    duplicateFailure manifests manifest.intentFeatureName ∈
        completenessFailures manifests asked plan ∨
      staleFailure asked manifest ∈ completenessFailures manifests asked plan ∨
      unexpectedFailure manifest.intentFeatureName ∈ completenessFailures manifests asked plan := by
  have staged : manifest.intentFeatureName ∈ stagedNames manifests :=
    mem_stagedNames.mpr ⟨manifest, hmem, rfl⟩
  by_cases repeated : isDuplicated manifests manifest.intentFeatureName = true
  · exact Or.inl (duplicateFailure_mem repeated)
  right
  rw [Bool.not_eq_true] at repeated
  obtain ⟨other, hother⟩ := exists_byName staged repeated
  have same : manifest ∈ byName manifests manifest.intentFeatureName := mem_byName.mpr ⟨hmem, rfl⟩
  rw [hother, List.mem_singleton] at same
  subst same
  simp only [completenessFailures, List.mem_append]
  by_cases stale : isStale manifests asked manifest.intentFeatureName = true
  · refine Or.inl (Or.inl (Or.inl (Or.inr (List.mem_flatMap.mpr
      ⟨manifest.intentFeatureName, List.mem_filter.mpr ⟨staged, stale⟩, ?_⟩))))
    simp [hother]
  · rw [Bool.not_eq_true] at stale
    refine Or.inr (Or.inr (List.mem_map_of_mem (List.mem_filter.mpr ⟨staged, ?_⟩)))
    simp [unplanned, repeated, stale]

def RunBinding.Named (asked : RunBinding) : Prop :=
  strip asked.generationId ≠ "" ∧ strip asked.runId ≠ "" ∧ strip asked.businessDt ≠ ""

theorem checkCompleteness_eq_ok {failures : List GateFailure} :
    checkCompleteness manifests asked plan = .ok failures ↔
      asked.Named ∧ completenessFailures manifests asked plan = failures := by
  simp only [checkCompleteness, requireAsked, check_bind_eq_ok, ensure_eq_ok, Except.ok.injEq,
    RunBinding.Named, and_assoc]

end Gate

def columnPlannedTwice : FeatureGroupPlanV1 where
  logicalGroupName := "customer_features"
  materializationContractHash := "contract"
  entityKeyColumns := ["cif_id"]
  businessDtColumn := "business_dt"
  features := [⟨"balance", "h", ⟨"BIGINT", true, none, none⟩⟩,
    ⟨"balance", "h", ⟨"STRING", true, none, none⟩⟩]
  physicalTypePolicyVersion := 1

def januaryRun : RunBinding := ⟨"g1", "r1", "2026-01-31"⟩

def stagedBalance : StagingManifestV1 where
  intentFeatureName := "balance"
  irHash := "h"
  bound := januaryRun
  generatedProjectHash := "p"
  sandboxExecutionHash := "s"
  outputLocation := "/staging/g1/balance"
  schemaHash := "c"
  rowCount := 10
  status := .completed

theorem staging_completeness_counted_by_column :
    checkCompleteness [stagedBalance] januaryRun columnPlannedTwice = .ok [] ∧
      ¬Complete columnPlannedTwice [stagedBalance] januaryRun := by
  constructor
  · rfl
  · intro complete
    obtain ⟨pairs, manifested, planned, _⟩ := complete
    have one := manifested.length_eq
    have two := planned.length_eq
    simp only [List.length_map] at one two
    simp [one, columnPlannedTwice] at two

/-- Staging completeness, for a plan whose columns are distinct. -/
theorem staging_completeness_exact (plan : FeatureGroupPlanV1) (manifests : List StagingManifestV1)
    (asked : RunBinding) :
    (plan.columns.Nodup → (checkCompleteness manifests asked plan = .ok [] ↔
      asked.Named ∧ Complete plan manifests asked)) ∧
    (∀ others, manifests.Perm others →
      checkCompleteness manifests asked plan = checkCompleteness others asked plan) ∧
    (asked.Named → ∀ added others, others.Perm (added :: manifests) →
      (added.intentFeatureName ∉ plan.columns → ∃ failures,
        checkCompleteness others asked plan = .ok failures ∧
          (duplicateFailure others added.intentFeatureName ∈ failures ∨
            staleFailure asked added ∈ failures ∨
            unexpectedFailure added.intentFeatureName ∈ failures)) ∧
      (∀ manifest ∈ manifests, added.intentFeatureName = manifest.intentFeatureName →
        ∃ failures, checkCompleteness others asked plan = .ok failures ∧
          duplicateFailure others added.intentFeatureName ∈ failures)) ∧
    ∀ nfkc lower policyVersion group features logicalGroupName,
      buildGroupPlan nfkc lower policyVersion group features logicalGroupName = .ok plan →
        plan.columns.Nodup := by
  refine ⟨?_, ?_, ?_, ?_⟩
  · intro distinct
    rw [checkCompleteness_eq_ok, completenessFailures_eq_nil]
    exact and_congr_right fun _ =>
      ⟨fun accounted => accounted.complete distinct, fun complete => complete.accounted distinct⟩
  · intro others h
    unfold checkCompleteness
    rw [completenessFailures_perm h]
  · intro named added others h
    have asks : checkCompleteness others asked plan =
        .ok (completenessFailures others asked plan) := checkCompleteness_eq_ok.mpr ⟨named, rfl⟩
    constructor
    · intro unplanned
      exact ⟨_, asks, reported_of_unplanned (h.mem_iff.mpr List.mem_cons_self) unplanned⟩
    · intro manifest hmem same
      refine ⟨_, asks, duplicateFailure_mem ?_⟩
      rw [isDuplicated_perm h, same]
      exact isDuplicated_of_second hmem same
  · intro nfkc lower policyVersion group features logicalGroupName built
    exact columns_nodup_of_built built

end FeatureGen.Materialize
