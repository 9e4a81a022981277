import Mathlib
import FeatureGen.Materialize.PublisherSelection

/-! # Undefeated evidence

A selection is taken from the newest of the passing attestations. Where no column is
added that one is newer than every failure; where one is added, it may be a covering
pass that a failure has outlived, with a newer pass that covers nothing standing
between the failure and the gate.
-/

namespace FeatureGen.Materialize

open FeatureGen.Overlay

/-- A passing attestation that is strictly newer than every failure, and covers what is added. -/
structure Undefeated (adds : Bool) (matching : List Attestation) (a : Attestation) : Prop where
  recorded : a ∈ matching
  passed : a.passed = true
  covers : adds = true → a.coversSchemaEvolution = true
  newer : ∀ failure ∈ matching, failure.passed = false → failure.recordedAt < a.recordedAt

/-- A selection is made exactly where evidence is undefeated, and rests on such. -/
def RestsOnUndefeated (adds : Bool) (matching : List Attestation)
    (outcome : Except String PublisherOutcome) : Prop :=
  ((∃ selection, outcome = .ok (.selected selection)) ↔ ∃ a, Undefeated adds matching a) ∧
    ∀ selection, outcome = .ok (.selected selection) →
      ∃ a, Undefeated adds matching a ∧ selection.capabilityAttestationId = a.attestationId

/-- Only passes that a failure has outlived cover the columns, and a newer pass covers nothing. -/
structure Resurrected (adds : Bool) (matching : List Attestation) : Prop where
  adds : adds = true
  covering : ∃ a ∈ matching, a.passed = true ∧ a.coversSchemaEvolution = true
  newest : ∃ a, Undefeated false matching a
  outlived : ¬∃ a, Undefeated true matching a

section Selection

variable {adds : Bool} {matching passing attestations : List Attestation} {a : Attestation}
  {versions : EngineVersions}

theorem le_getLast {xs : List Attestation}
    (ordered : xs.Pairwise fun a b => a.recordedAt ≤ b.recordedAt)
    {newest : Attestation} (last : xs.getLast? = some newest) (ha : a ∈ xs) :
    a.recordedAt ≤ newest.recordedAt := by
  obtain ⟨before, rfl⟩ := List.getLast?_eq_some_iff.mp last
  rcases List.mem_append.mp ha with hbefore | hlast
  · exact (List.pairwise_append.mp ordered).2.2 a hbefore newest List.mem_cons_self
  · rw [List.mem_singleton.mp hlast]

theorem undefeatedFailures_eq_nil {newest : Attestation}
    (last : matching.getLast? = some newest) :
    undefeatedFailures matching = [] ↔
      ∀ failure ∈ matching, failure.passed = false → failure.recordedAt ≠ newest.recordedAt := by
  simp only [undefeatedFailures, last, List.filter_eq_nil_iff, Option.map_some, Bool.and_eq_true,
    Bool.not_eq_true', decide_eq_true_eq, Option.some.injEq, not_and]
  constructor
  · intro none failure hfailure failed same
    exact none failure hfailure failed same.symm
  · intro none failure hfailure failed same
    exact none failure hfailure failed same.symm

theorem undefeatedFailures_eq_nil_iff
    (ordered : matching.Pairwise fun a b => a.recordedAt ≤ b.recordedAt) (some : matching ≠ []) :
    undefeatedFailures matching = [] ↔ ∃ a, Undefeated false matching a := by
  have last := List.getLast?_eq_some_getLast some
  have mem := List.getLast_mem some
  rw [undefeatedFailures_eq_nil last]
  constructor
  · intro none
    refine ⟨matching.getLast some, mem, ?_, by simp, ?_⟩
    · by_contra failed
      rw [Bool.not_eq_true] at failed
      exact none _ mem failed rfl
    · intro failure hfailure failed
      exact lt_of_le_of_ne (le_getLast ordered last hfailure) (none failure hfailure failed)
  · intro undefeated failure hfailure failed same
    obtain ⟨a, ha⟩ := undefeated
    have older := ha.newer failure hfailure failed
    have le := le_getLast ordered last ha.recorded
    omega

theorem mem_candidatesFor :
    a ∈ candidatesFor adds (matching.filter (·.passed)) ↔
      a ∈ matching ∧ a.passed = true ∧ (adds = true → a.coversSchemaEvolution = true) := by
  unfold candidatesFor
  split
  · next h =>
      simp only [List.mem_filter, h, forall_const, and_assoc]
  · next h => simp [h]

theorem pairwise_candidatesFor
    (ordered : matching.Pairwise fun a b => a.recordedAt ≤ b.recordedAt) :
    (candidatesFor adds (matching.filter (·.passed))).Pairwise
      fun a b => a.recordedAt ≤ b.recordedAt := by
  unfold candidatesFor
  split
  · exact (ordered.filter _).filter _
  · exact ordered.filter _

theorem publisherVerdict_eq_selected {environmentId : String} {placed : strip environmentId ≠ ""}
    {mechanism : PublishMechanism} {plan : FeatureGroupPlanV1} {selection : PublisherSelected} :
    publisherVerdict environmentId placed versions mechanism plan adds attestations =
        .selected selection ↔
      undefeatedFailures (matchingOf versions attestations) = [] ∧ ∃ chosen,
        (candidatesFor adds ((matchingOf versions attestations).filter (·.passed))).getLast? =
            some chosen ∧
          selectionOf environmentId mechanism versions adds placed chosen = selection := by
  unfold publisherVerdict
  have nonempty : ∀ {chosen : Attestation},
      (candidatesFor adds ((matchingOf versions attestations).filter (·.passed))).getLast? =
        some chosen → attestations ≠ [] ∧ matchingOf versions attestations ≠ [] ∧
          (matchingOf versions attestations).filter (·.passed) ≠ [] := by
    intro chosen last
    have mem := mem_candidatesFor.mp (List.mem_of_getLast? last)
    have found : chosen ∈ attestations := (List.mem_filter.mp mem.1).1
    exact ⟨List.ne_nil_of_mem found, List.ne_nil_of_mem mem.1,
      List.ne_nil_of_mem (List.mem_filter.mpr ⟨mem.1, mem.2.1⟩)⟩
  constructor
  · intro h
    dsimp only at h
    split at h
    · cases h
    · split at h
      · cases h
      · split at h
        · cases h
        · split at h
          · cases h
          · next clear =>
            split at h
            · cases h
            · next chosen last =>
              cases h
              exact ⟨not_not.mp clear, chosen, last, rfl⟩
  · intro h
    obtain ⟨clear, chosen, last, rfl⟩ := h
    obtain ⟨some, matched, passed⟩ := nonempty last
    simp [some, matched, passed, clear, last]

theorem Undefeated.perm {others : List Attestation} (h : matching.Perm others)
    (undefeated : Undefeated adds matching a) : Undefeated adds others a where
  recorded := h.mem_iff.mp undefeated.recorded
  passed := undefeated.passed
  covers := undefeated.covers
  newer failure hfailure := undefeated.newer failure (h.mem_iff.mpr hfailure)

theorem exists_undefeated_perm {others : List Attestation} (h : matching.Perm others) :
    (∃ a, Undefeated adds matching a) ↔ ∃ a, Undefeated adds others a := by
  constructor
  · intro some
    obtain ⟨a, ha⟩ := some
    exact ⟨a, ha.perm h⟩
  · intro some
    obtain ⟨a, ha⟩ := some
    exact ⟨a, ha.perm h.symm⟩

theorem undefeated_last (ordered : matching.Pairwise fun a b => a.recordedAt ≤ b.recordedAt)
    {chosen : Attestation}
    (last : (candidatesFor adds (matching.filter (·.passed))).getLast? = some chosen)
    (undefeated : Undefeated adds matching a) : Undefeated adds matching chosen := by
  obtain ⟨recorded, passed, covers⟩ := mem_candidatesFor.mp (List.mem_of_getLast? last)
  refine ⟨recorded, passed, covers, ?_⟩
  intro failure hfailure failed
  have candidate :=
    mem_candidatesFor.mpr ⟨undefeated.recorded, undefeated.passed, undefeated.covers⟩
  exact lt_of_lt_of_le (undefeated.newer failure hfailure failed)
    (le_getLast (pairwise_candidatesFor ordered) last candidate)

theorem Undefeated.withoutCoverage (undefeated : Undefeated adds matching a) :
    Undefeated false matching a where
  recorded := undefeated.recorded
  passed := undefeated.passed
  covers h := absurd h Bool.false_ne_true
  newer := undefeated.newer

end Selection

def evidenceOn (table : AttestationTable) (environmentId : String) (mechanism : PublishMechanism)
    (versions : EngineVersions) : List Attestation :=
  matchingOf versions (attestationsFor table environmentId mechanism)

section Table

variable {lower : String → String} {table : AttestationTable} {environmentId : String}
  {mechanism : PublishMechanism} {versions : EngineVersions} {plan : FeatureGroupPlanV1}
  {publishedSchema : Option (List String)} {read : List Attestation}
  {selection : PublisherSelected}

theorem ReadAttestations.matching (h : ReadAttestations table environmentId mechanism read) :
    (matchingOf versions read).Perm (evidenceOn table environmentId mechanism versions) :=
  h.rows.filter _

theorem ReadAttestations.matching_ordered
    (h : ReadAttestations table environmentId mechanism read) :
    (matchingOf versions read).Pairwise fun a b => a.recordedAt ≤ b.recordedAt :=
  h.ordered.filter _

theorem selectPublisher_eq_selected (placed : strip environmentId ≠ "") :
    selectPublisher lower environmentId versions mechanism plan publishedSchema read =
        .ok (.selected selection) ↔
      undefeatedFailures (matchingOf versions read) = [] ∧ ∃ chosen,
        (candidatesFor (addsFeatureFor lower plan publishedSchema)
          ((matchingOf versions read).filter (·.passed))).getLast? = some chosen ∧
          selectionOf environmentId mechanism versions
            (addsFeatureFor lower plan publishedSchema) placed chosen = selection := by
  rw [selectPublisher, dif_pos placed, Except.ok.injEq, publisherVerdict_eq_selected]

theorem evidenceOn_of_blank (blank : ¬strip environmentId ≠ "") :
    evidenceOn table environmentId mechanism versions = [] := by
  unfold evidenceOn matchingOf attestationsFor
  rw [List.filter_filter, List.filter_eq_nil_iff]
  intro a _ h
  simp only [Bool.and_eq_true, decide_eq_true_eq] at h
  exact blank (h.2.1 ▸ a.placed)

theorem not_selected_of_blank (blank : ¬strip environmentId ≠ "") :
    selectPublisher lower environmentId versions mechanism plan publishedSchema read ≠
      .ok (.selected selection) := by
  rw [selectPublisher, dif_neg blank]
  intro h
  cases h

theorem exists_selected_iff (h : ReadAttestations table environmentId mechanism read)
    (placed : strip environmentId ≠ "") :
    (∃ selection, selectPublisher lower environmentId versions mechanism plan publishedSchema read =
        .ok (.selected selection)) ↔
      (∃ a, Undefeated false (evidenceOn table environmentId mechanism versions) a) ∧
        ∃ a ∈ evidenceOn table environmentId mechanism versions, a.passed = true ∧
          (addsFeatureFor lower plan publishedSchema = true → a.coversSchemaEvolution = true) := by
  simp only [selectPublisher_eq_selected placed]
  constructor
  · intro selected
    obtain ⟨_, clear, chosen, last, _⟩ := selected
    obtain ⟨mem, passed, covers⟩ := mem_candidatesFor.mp (List.mem_of_getLast? last)
    have tried := List.ne_nil_of_mem mem
    have newest := (undefeatedFailures_eq_nil_iff h.matching_ordered tried).mp clear
    exact ⟨(exists_undefeated_perm h.matching).mp newest, chosen,
      h.matching.mem_iff.mp mem, passed, covers⟩
  · intro left
    obtain ⟨newest, a, mem, passed, covers⟩ := left
    have matched := h.matching.mem_iff.mpr mem
    have candidate := mem_candidatesFor.mpr ⟨matched, passed, covers⟩
    have tried := List.ne_nil_of_mem matched
    have clear := (undefeatedFailures_eq_nil_iff h.matching_ordered tried).mpr
      ((exists_undefeated_perm h.matching).mpr newest)
    exact ⟨_, clear, _, List.getLast?_eq_some_getLast (List.ne_nil_of_mem candidate), rfl⟩

end Table

/-- A selection rests on undefeated evidence unless outlived coverage is resurrected. -/
theorem selection_rests_on_undefeated_iff (lower : String → String) (table : AttestationTable)
    (environmentId : String) (mechanism : PublishMechanism) (versions : EngineVersions)
    (plan : FeatureGroupPlanV1) (publishedSchema : Option (List String)) (read : List Attestation)
    (h : ReadAttestations table environmentId mechanism read) :
    RestsOnUndefeated (addsFeatureFor lower plan publishedSchema)
        (evidenceOn table environmentId mechanism versions)
        (selectPublisher lower environmentId versions mechanism plan publishedSchema read) ↔
      ¬Resurrected (addsFeatureFor lower plan publishedSchema)
        (evidenceOn table environmentId mechanism versions) := by
  by_cases placed : strip environmentId ≠ ""
  · constructor
    · intro rests resurrected
      obtain ⟨a, mem, passed, covers⟩ := resurrected.covering
      have selected : ∃ selection, selectPublisher lower environmentId versions mechanism plan
          publishedSchema read = .ok (.selected selection) :=
        (exists_selected_iff h placed).mpr
          ⟨resurrected.newest, a, mem, passed, fun _ => covers⟩
      have undefeated := rests.1.mp selected
      rw [resurrected.adds] at undefeated
      exact resurrected.outlived undefeated
    · intro standing
      have selected : (∃ selection, selectPublisher lower environmentId versions mechanism plan
          publishedSchema read = .ok (.selected selection)) ↔
          ∃ a, Undefeated (addsFeatureFor lower plan publishedSchema)
            (evidenceOn table environmentId mechanism versions) a := by
        rw [exists_selected_iff h placed]
        constructor
        · intro left
          obtain ⟨newest, a, mem, passed, covers⟩ := left
          by_contra outlived
          cases adds : addsFeatureFor lower plan publishedSchema with
          | false =>
              rw [adds] at outlived
              exact outlived newest
          | true =>
              rw [adds] at outlived
              exact standing ⟨adds, ⟨a, mem, passed, covers adds⟩, newest, outlived⟩
        · intro undefeated
          obtain ⟨a, ha⟩ := undefeated
          exact ⟨⟨a, ha.withoutCoverage⟩, a, ha.recorded, ha.passed, ha.covers⟩
      refine ⟨selected, ?_⟩
      intro selection hselection
      obtain ⟨a, ha⟩ := selected.mp ⟨selection, hselection⟩
      obtain ⟨_, chosen, last, rfl⟩ := (selectPublisher_eq_selected placed).mp hselection
      have undefeated := undefeated_last h.matching_ordered last (ha.perm h.matching.symm)
      exact ⟨chosen, undefeated.perm h.matching, rfl⟩
  · have nothing : evidenceOn table environmentId mechanism versions = [] :=
      evidenceOn_of_blank placed
    have unselected : ∀ selection, selectPublisher lower environmentId versions mechanism plan
        publishedSchema read ≠ .ok (.selected selection) := fun _ => not_selected_of_blank placed
    constructor
    · intro _ resurrected
      obtain ⟨a, mem, _⟩ := resurrected.covering
      rw [nothing] at mem
      exact List.not_mem_nil mem
    · intro _
      refine ⟨⟨fun selected => ?_, fun undefeated => ?_⟩, fun selection hselection =>
        absurd hselection (unselected selection)⟩
      · obtain ⟨selection, hselection⟩ := selected
        exact absurd hselection (unselected selection)
      · obtain ⟨a, ha⟩ := undefeated
        have mem := ha.recorded
        rw [nothing] at mem
        exact absurd mem List.not_mem_nil

def sparkThree : EngineVersions :=
  ⟨"3.1", "3.4", "3.1", "3.11", "11", "3.4", "0.19", "3.0", by decide +kernel⟩

theorem narrowLook_texts {generation digest : String} (marked : strip generation ≠ "")
    (checked : strip digest ≠ "") :
    ∀ text ∈ ["reader", "2026-01-01", generation, digest], strip text ≠ "" := by
  simp only [List.forall_mem_cons, List.not_mem_nil, IsEmpty.forall_iff, implies_true, and_true]
  exact ⟨by decide +kernel, by decide +kernel, marked, checked⟩

theorem narrowLook_columns : ["cif_id", "balance"] ≠ [] := by simp

theorem narrowLook_names : ∀ name ∈ ["cif_id", "balance"], strip name ≠ "" := by decide +kernel

/-- A reader's look at generation `a` or `b` of a table. -/
def narrowLook (generation digest : String) (marked : strip generation ≠ "")
    (checked : strip digest ≠ "") : ProbeObservation where
  readerId := "reader"
  observedAt := "2026-01-01"
  generationId := generation
  columnNames := ["cif_id", "balance"]
  rowCount := 10
  contentDigest := digest
  texts := narrowLook_texts marked checked
  columns := narrowLook_columns
  names := narrowLook_names

def wideLook : ProbeObservation where
  readerId := "reader"
  observedAt := "2026-01-01"
  generationId := "gen-C"
  columnNames := ["cif_id", "balance", "turnover"]
  rowCount := 10
  contentDigest := "digest-C"
  texts := by decide +kernel
  columns := by simp
  names := by decide +kernel

def cleanSwap : List ProbeObservation :=
  [narrowLook "gen-A" "digest-A" (by decide +kernel) (by decide +kernel),
    narrowLook "gen-B" "digest-B" (by decide +kernel) (by decide +kernel)]

def tornSwap : List ProbeObservation :=
  narrowLook "gen-A" "half-written" (by decide +kernel) (by decide +kernel) :: cleanSwap

theorem probeOf_placed : strip "prod" ≠ "" := by decide +kernel

theorem probeOf_dated : strip "2026-01-01" ≠ "" := by decide +kernel

/-- A probe of the environment `prod` at its versions. -/
def probeOf (probeId : String) (identified : strip probeId ≠ "")
    (observations : List ProbeObservation) : ProbeResult fun _ => "hash" :=
  assessProbeObservations _ observations probeId "prod" .versionedPointer sparkThree "2026-01-01"
    identified probeOf_placed probeOf_dated

def coveringProbe := probeOf "probe-1" (by decide +kernel) (wideLook :: cleanSwap)

def failedProbe := probeOf "probe-2" (by decide +kernel) tornSwap

def narrowProbe := probeOf "probe-3" (by decide +kernel) cleanSwap

/-- The attestations of the three probes, recorded one after another. -/
def threeAttestations : List Attestation :=
  [attestationOf coveringProbe 1, attestationOf failedProbe 2, attestationOf narrowProbe 3]

def threeProbes : AttestationTable := ⟨threeAttestations, by decide +kernel⟩

def balancePlan : FeatureGroupPlanV1 :=
  ⟨"customer_features", "contract", ["cif_id"], "business_dt",
    [⟨"balance", "h", ⟨"BIGINT", true, none, none⟩⟩], 1⟩

theorem threeProbes_read :
    ReadAttestations threeProbes "prod" .versionedPointer threeAttestations := by
  have recorded : threeAttestations.filter (fun a =>
      a.environmentId = "prod" ∧ a.mechanism = .versionedPointer) = threeAttestations := by
    rfl
  refine ⟨?_, ?_⟩
  · rw [attestationsFor, threeProbes, recorded]
  · decide +kernel

theorem three_probes_rest_iff :
    RestsOnUndefeated (addsFeatureFor id balancePlan none)
        (evidenceOn threeProbes "prod" .versionedPointer sparkThree)
        (selectPublisher id "prod" sparkThree .versionedPointer balancePlan none
          threeAttestations) ↔
      ¬Resurrected (addsFeatureFor id balancePlan none)
        (evidenceOn threeProbes "prod" .versionedPointer sparkThree) :=
  selection_rests_on_undefeated_iff id threeProbes "prod" .versionedPointer sparkThree balancePlan
    none threeAttestations threeProbes_read

/-- The covering pass of a probe that has since failed is selected. -/
theorem outlived_coverage_selected :
    (recordAttestation Table.empty coveringProbe 1).bind (fun table =>
        (recordAttestation table failedProbe 2).bind fun table =>
          recordAttestation table narrowProbe 3) = some threeProbes ∧
      ReadAttestations threeProbes "prod" .versionedPointer threeAttestations ∧
      selectPublisher id "prod" sparkThree .versionedPointer balancePlan none threeAttestations =
        .ok (.selected (selectionOf "prod" .versionedPointer sparkThree true (by decide +kernel)
          (attestationOf coveringProbe 1))) ∧
      ¬RestsOnUndefeated true (evidenceOn threeProbes "prod" .versionedPointer sparkThree)
        (selectPublisher id "prod" sparkThree .versionedPointer balancePlan none
          threeAttestations) := by
  have selected : selectPublisher id "prod" sparkThree .versionedPointer balancePlan none
      threeAttestations = .ok (.selected (selectionOf "prod" .versionedPointer sparkThree true
        (by decide +kernel) (attestationOf coveringProbe 1))) := by
    rfl
  have defeated : ∀ a ∈ evidenceOn threeProbes "prod" .versionedPointer sparkThree,
      a.passed = true → a.coversSchemaEvolution = true →
        ∃ failure ∈ evidenceOn threeProbes "prod" .versionedPointer sparkThree,
          failure.passed = false ∧ ¬failure.recordedAt < a.recordedAt := by
    decide +kernel
  refine ⟨?_, threeProbes_read, selected, ?_⟩
  · rfl
  · intro rests
    obtain ⟨a, undefeated⟩ := rests.1.mp ⟨_, selected⟩
    obtain ⟨failure, hfailure, failed, newer⟩ :=
      defeated a undefeated.recorded undefeated.passed (undefeated.covers rfl)
    exact newer (undefeated.newer failure hfailure failed)

end FeatureGen.Materialize
