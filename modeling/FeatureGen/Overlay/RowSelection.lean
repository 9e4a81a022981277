import Mathlib
import FeatureGen.Overlay.TemporalResolver

/-! # The rows a decision names

The predicates that a resolved selection records, and the rows that the engine policy
adapted from it admits.
-/

namespace FeatureGen.Overlay

open Sql Checks FeatureGen.DataAgent

def PredicatePayload.condition (cutoffValue : String) (payload : PredicatePayload) : Condition :=
  match payload.operator with
  | .lt => .before payload.columnRef.column cutoffValue
  | .le => .atMost payload.columnRef.column cutoffValue
  | .eq => .isIn payload.columnRef.column [cutoffValue]
  | .ge => .atLeast payload.columnRef.column cutoffValue
  | .gt => .after payload.columnRef.column cutoffValue
  | .isTrue => .isTrue payload.columnRef.column

def DatasetRowSelectionV1.conditions (selection : DatasetRowSelectionV1) (cutoffValue : String) :
    List Condition :=
  selection.predicatePayloads.map (PredicatePayload.condition cutoffValue)

/-- What a snapshot is the latest by. -/
def DatasetTemporalPolicyRevisionV1.rankColumns (policy : DatasetTemporalPolicyRevisionV1) :
    List String :=
  columnOrBlank policy.snapshotRef :: policy.tieBreakRefs.map (·.column)

section Rows

variable {V : Type} [LinearOrder V] (r : Reading V)

/-- The rows that satisfy every predicate of a decision, of a snapshot the greatest per key. -/
def decidedRows (policy : DatasetTemporalPolicyRevisionV1) (selection : DatasetRowSelectionV1)
    (cutoffValue keyColumn : String) (t : Table V) : Table V :=
  let admitted := t.filter fun row => ∀ c ∈ selection.conditions cutoffValue, c.holds r row
  if selection.selectionKind = .latestSnapshotAsOf then
    topRows (fun row => row keyColumn) policy.rankColumns admitted
  else admitted

def EnginePolicy.rows (t : Table V) : EnginePolicy → Table V
  | .attribution policy => t.filter fun row => policy.validityPredicate.holds r row
  | .snapshot policy => policy.latestRows r t

def EnginePolicy.ties (t : Table V) : EnginePolicy → ℕ
  | .attribution _ => 0
  | .snapshot policy => repeatedGroups policy.part (policy.rankedFirst r t)

/-- The row satisfies the availability predicate, where there is one. -/
def Available (policy : DatasetTemporalPolicyRevisionV1) (cutoffRef : Option String)
    (cutoffValue : String) (row : Row V) : Prop :=
  ∀ payload ∈ availabilityPredicate policy cutoffRef, (payload.condition cutoffValue).holds r row

def RowsAgree (policy : DatasetTemporalPolicyRevisionV1) (kind : TemporalSelectionKind)
    (cutoffRef : Option String) (cutoffValue keyColumn : String) (t : Table V) : Prop :=
  let starts := Condition.atMost (columnOrBlank policy.effectiveFromRef) cutoffValue
  let ends := Condition.after (columnOrBlank policy.effectiveToRef) cutoffValue
  let openEnded := Condition.isNull (columnOrBlank policy.effectiveToRef)
  let taken := Condition.atMost (columnOrBlank policy.snapshotRef) cutoffValue
  let available := Available r policy cutoffRef cutoffValue
  match kind with
  | .validAtReportCutoff => ∀ row ∈ t, starts.holds r row →
      ¬ openEnded.holds r row ∧ (ends.holds r row → available row)
  | .currentRecord =>
      if columnOrBlank policy.currentFlagRef ≠ "" then ∀ row ∈ t,
        (Condition.isTrue (columnOrBlank policy.currentFlagRef)).holds r row → available row
      else ∀ row ∈ t, openEnded.holds r row ↔ available row
  | .latestSnapshotAsOf => ∀ row ∈ t, taken.holds r row → ¬ available row →
      ∃ other ∈ t, taken.holds r other ∧ other keyColumn = row keyColumn ∧
        rankKey policy.rankColumns row < rankKey policy.rankColumns other
  | .explicitOnly => True

end Rows

section Resolved

variable {lower : String → String} {literalDate : String → Bool}
variable {found : Option DatasetTemporalPolicyRevisionV1} {loadBearing : Option String}
variable {dataset profileHash : String} {temporality : RequestTemporality}
variable {cutoffRef : Option String} {selection : DatasetRowSelectionV1}
variable {policy : DatasetTemporalPolicyRevisionV1}

theorem conditions_of_forall₂ {cutoffValue : String} {recorded kept : List PredicatePayload}
    (h : List.Forall₂ (fun payload kept => kept.columnRef = payload.columnRef ∧
      kept.operator = payload.operator) recorded kept) :
    kept.map (PredicatePayload.condition cutoffValue) =
      recorded.map (PredicatePayload.condition cutoffValue) := by
  induction h with
  | nil => rfl
  | cons same _ ih =>
      rw [List.map_cons, List.map_cons, ih, PredicatePayload.condition,
        PredicatePayload.condition, same.1, same.2]

theorem predicates_of_resolve (h : resolveRowSelection lower literalDate found loadBearing dataset
    profileHash temporality cutoffRef = .ok (.selected selection policy)) :
    found = some policy ∧ selection.selectionKind = selectionFor policy temporality ∧
      ∃ predicates, predicatesFor selection.selectionKind policy cutoffRef = .ok predicates ∧
        ∀ cutoffValue, selection.conditions cutoffValue =
          predicates.map (PredicatePayload.condition cutoffValue) := by
  unfold resolveRowSelection at h
  cases found with
  | none => cases h
  | some held =>
      simp only at h
      cases hagree : temporalPolicyAgreement lower held.temporalStorageModel loadBearing with
      | some code =>
          rw [hagree] at h
          cases h
      | none =>
          rw [hagree] at h
          simp only at h
          split at h
          · cases h
          · split at h
            · cases temporality with
              | current => cases h
              | historical => cases h
            · obtain ⟨predicates, hpredicates, h⟩ := bind_eq_ok.mp h
              obtain ⟨built, hbuilt, h⟩ := bind_eq_ok.mp h
              cases h
              obtain ⟨hkind, hkept⟩ := DatasetRowSelectionV1.of_build hbuilt
              refine ⟨rfl, hkind, predicates, ?_, fun cutoffValue => conditions_of_forall₂ hkept⟩
              rw [hkind]
              exact hpredicates

end Resolved

section Kinds

variable {V : Type} [LinearOrder V] {r : Reading V} {t : Table V}
variable {policy : DatasetTemporalPolicyRevisionV1} {cutoffRef : Option String}
variable {cutoffValue keyColumn : String} {predicates : List PredicatePayload} {p : EnginePolicy}

theorem exists_of_requiredPredicate {index : ℕ} {kind : PredicateKind}
    {ref : Option LogicalColumnRef} {operator : PredicateOperator} {parameterRef : Option String}
    {payload : PredicatePayload}
    (h : requiredPredicate index kind ref operator parameterRef = .ok payload) :
    ref = some payload.columnRef ∧ payload.operator = operator := by
  cases ref with
  | none => cases h
  | some column =>
      cases h
      exact ⟨rfl, rfl⟩

theorem holds_recorded {own : List PredicatePayload} {row : Row V} :
    (∀ c ∈ (own ++ availabilityPredicate policy cutoffRef).map
        (PredicatePayload.condition cutoffValue), c.holds r row) ↔
      (∀ payload ∈ own, (payload.condition cutoffValue).holds r row) ∧
        Available r policy cutoffRef cutoffValue row := by
  rw [List.forall_mem_map, List.forall_mem_append]
  rfl

theorem constructed_eq_ok {α : Type} {policy policy' : α} {checked : Except CodedError Unit}
    (h : constructed policy checked = .ok policy') : policy' = policy ∧ checked = .ok () := by
  cases checked with
  | error e => cases h
  | ok => exact ⟨(Except.ok.inj h).symm, rfl⟩

theorem columnOf_eq_ok {ref : Option LogicalColumnRef} {column : String}
    (h : columnOf ref = .ok column) : columnOrBlank ref = column := by
  cases ref with
  | none => cases h
  | some ref => exact Except.ok.inj h

theorem validAt_agree (recorded : predicatesFor .validAtReportCutoff policy cutoffRef =
      .ok predicates)
    (engine : enginePolicyFor policy .validAtReportCutoff cutoffValue keyColumn = .ok p) :
    (p.rows r t).Perm (t.filter fun row =>
        ∀ c ∈ predicates.map (PredicatePayload.condition cutoffValue), c.holds r row) ↔
      RowsAgree r policy .validAtReportCutoff cutoffRef cutoffValue keyColumn t := by
  obtain ⟨own, hown, hpredicates⟩ := bind_eq_ok.mp recorded
  obtain ⟨starts, hstarts, hown⟩ := bind_eq_ok.mp hown
  obtain ⟨ends, hends, hown⟩ := bind_eq_ok.mp hown
  cases hown
  cases hpredicates
  obtain ⟨hfrom, hle⟩ := exists_of_requiredPredicate hstarts
  obtain ⟨hto, hgt⟩ := exists_of_requiredPredicate hends
  obtain ⟨attribution, hattribution, rfl⟩ := map_eq_ok.mp engine
  obtain ⟨fromColumn, hfromColumn, hattribution⟩ := bind_eq_ok.mp hattribution
  obtain ⟨toColumn, htoColumn, hattribution⟩ := bind_eq_ok.mp hattribution
  obtain ⟨rfl, _⟩ := constructed_eq_ok hattribution
  have fromName := columnOf_eq_ok hfromColumn
  have toName := columnOf_eq_ok htoColumn
  have startsCondition : starts.condition cutoffValue = .atMost fromColumn cutoffValue := by
    rw [PredicatePayload.condition, hle, ← fromName, hfrom]
    rfl
  have endsCondition : ends.condition cutoffValue = .after toColumn cutoffValue := by
    rw [PredicatePayload.condition, hgt, ← toName, hto]
    rfl
  rw [EnginePolicy.rows, filter_perm_filter, RowsAgree, fromName, toName]
  refine forall₂_congr fun row _ => ?_
  simp only [holds_recorded, List.forall_mem_cons, startsCondition, endsCondition,
    DimensionAttributionPolicyV1.validityPredicate, attributionWith, reduceCtorEq, if_false,
    DimensionAttributionPolicyV1.cutoffPredicate, holds_both, holds_either, holds_isNull,
    holds_after]
  cases hto : row toColumn with
  | none => simp
  | some v => simp

theorem current_agree (recorded : predicatesFor .currentRecord policy cutoffRef = .ok predicates)
    (engine : enginePolicyFor policy .currentRecord cutoffValue keyColumn = .ok p) :
    (p.rows r t).Perm (t.filter fun row =>
        ∀ c ∈ predicates.map (PredicatePayload.condition cutoffValue), c.holds r row) ↔
      RowsAgree r policy .currentRecord cutoffRef cutoffValue keyColumn t := by
  obtain ⟨own, hown, hpredicates⟩ := bind_eq_ok.mp recorded
  cases hown
  cases hpredicates
  obtain ⟨attribution, hattribution, rfl⟩ := map_eq_ok.mp engine
  obtain ⟨rfl, _⟩ := constructed_eq_ok hattribution
  rw [EnginePolicy.rows, filter_perm_filter, RowsAgree]
  cases hflag : policy.currentFlagRef with
  | none =>
      rw [if_neg (by simp [columnOrBlank])]
      refine forall₂_congr fun row _ => ?_
      simp only [holds_recorded, Option.toList_none, List.map_nil,
        DimensionAttributionPolicyV1.validityPredicate, attributionWith, if_true,
        DimensionAttributionPolicyV1.currentPredicate, columnOrBlank, Option.map_none,
        Option.getD_none, ne_eq, not_true_eq_false, if_false, List.not_mem_nil,
        false_imp_iff, implies_true, true_and]
  | some flag =>
      have named : columnOrBlank (some flag) ≠ "" := flag.named
      rw [if_pos named]
      refine forall₂_congr fun row _ => ?_
      simp only [holds_recorded, Option.toList_some, List.map_cons, List.map_nil,
        List.forall_mem_cons, PredicatePayload.condition,
        DimensionAttributionPolicyV1.validityPredicate, attributionWith, if_true,
        DimensionAttributionPolicyV1.currentPredicate, named, ne_eq, not_false_eq_true,
        List.not_mem_nil, false_imp_iff, implies_true, and_true]
      exact ⟨fun agree flagged => (agree.mp flagged).2, fun available => ⟨fun flagged =>
        ⟨flagged, available flagged⟩, And.left⟩⟩

theorem topRows_perm_iff {part : Row V → Option V} {columns : List String}
    {taken available : Row V → Prop} [DecidablePred taken] [DecidablePred available] :
    (topRows part columns (t.filter fun row => taken row)).Perm
        (topRows part columns (t.filter fun row => taken row ∧ available row)) ↔
      ∀ row ∈ t, taken row → ¬ available row → ∃ other ∈ t, taken other ∧
        part other = part row ∧ rankKey columns row < rankKey columns other := by
  have top : ∀ kept : Row V → Prop, [DecidablePred kept] →
      topRows part columns (t.filter fun row => kept row) = t.filter fun row =>
        kept row ∧ ∀ other ∈ t, kept other → part other = part row →
          rankKey columns other ≤ rankKey columns row := by
    intro kept _
    rw [topRows, List.filter_filter]
    refine List.filter_congr fun row _ => ?_
    rw [Bool.and_comm, Bool.decide_and]
    congr 1
    refine decide_eq_decide.mpr ?_
    simp only [List.mem_filter, decide_eq_true_eq, and_imp]
  rw [top, top, filter_perm_filter]
  constructor
  · intro agree row hrow htaken missing
    by_contra outranked
    push Not at outranked
    have first := (agree row hrow).mp ⟨htaken, outranked⟩
    exact missing first.1.2
  · intro outranked row hrow
    constructor
    · intro first
      have available : available row := by
        by_contra missing
        obtain ⟨other, hother, htaken, same, higher⟩ := outranked row hrow first.1 missing
        exact absurd (first.2 other hother htaken same) (not_le.mpr higher)
      exact ⟨⟨first.1, available⟩, fun other hother kept => first.2 other hother kept.1⟩
    · intro first
      refine ⟨first.1.1, fun other hother htaken same => ?_⟩
      obtain ⟨m, hm⟩ : ∃ m, greatest (rankKey columns)
          (t.filter fun x => taken x ∧ part x = part row) = some m := by
        refine Option.ne_none_iff_exists'.mp fun none => ?_
        rw [greatest_eq_none] at none
        exact List.filter_eq_nil_iff.mp none row hrow (by simp [first.1.1])
      have held := List.mem_filter.mp (mem_of_greatest hm)
      simp only [decide_eq_true_eq] at held
      have available : available m := by
        by_contra missing
        obtain ⟨x, hx, hxtaken, hxsame, higher⟩ := outranked m held.1 held.2.1 missing
        have below := le_of_greatest hm (a := x)
          (List.mem_filter.mpr ⟨hx, by simp [hxtaken, hxsame, held.2.2]⟩)
        exact absurd below (not_le.mpr higher)
      have above := first.2 m held.1 ⟨held.2.1, available⟩ held.2.2
      exact (le_of_greatest hm (List.mem_filter.mpr ⟨hother, by simp [htaken, same]⟩)).trans above

theorem snapshot_agree (recorded : predicatesFor .latestSnapshotAsOf policy cutoffRef =
      .ok predicates)
    (engine : enginePolicyFor policy .latestSnapshotAsOf cutoffValue keyColumn = .ok p)
    (untied : p.ties r t = 0) :
    (p.rows r t).Perm (topRows (fun row => row keyColumn) policy.rankColumns
        (t.filter fun row =>
          ∀ c ∈ predicates.map (PredicatePayload.condition cutoffValue), c.holds r row)) ↔
      RowsAgree r policy .latestSnapshotAsOf cutoffRef cutoffValue keyColumn t := by
  classical
  obtain ⟨own, hown, hpredicates⟩ := bind_eq_ok.mp recorded
  obtain ⟨taken, htaken, hown⟩ := bind_eq_ok.mp hown
  cases hown
  cases hpredicates
  obtain ⟨href, hle⟩ := exists_of_requiredPredicate htaken
  obtain ⟨snapshot, hsnapshot, rfl⟩ := map_eq_ok.mp engine
  simp only [snapshotPolicyFor, href] at hsnapshot
  obtain ⟨rfl, _⟩ := constructed_eq_ok hsnapshot
  have single := nodup_map_iff.mp (repeatedGroups_eq_zero.mp untied)
  have selected := firstRows_perm_topRows single
  have ranked : columnOrBlank (some taken.columnRef) = taken.columnRef.column := rfl
  have condition : taken.condition cutoffValue =
      .atMost taken.columnRef.column cutoffValue := by
    rw [PredicatePayload.condition, hle]
  have rows : (t.filter fun row => ∀ c ∈ ([taken] ++ availabilityPredicate policy cutoffRef).map
        (PredicatePayload.condition cutoffValue), c.holds r row) =
      t.filter fun row => (Condition.atMost taken.columnRef.column cutoffValue).holds r row ∧
        Available r policy cutoffRef cutoffValue row := by
    refine List.filter_congr fun row _ => decide_eq_decide.mpr ?_
    rw [holds_recorded, List.forall_mem_singleton, condition]
  rw [rows, RowsAgree, DatasetTemporalPolicyRevisionV1.rankColumns, href, ranked, EnginePolicy.rows]
  refine Iff.trans ⟨fun perm => ?_, fun perm => ?_⟩ topRows_perm_iff
  · exact selected.symm.trans perm
  · exact selected.trans perm

end Kinds

/-- The engine admits the rows that the decision names exactly where no row that starts by
the cutoff has an open end, each row in question is available by the cutoff, and a dataset
without a flag has exactly its available rows open-ended. -/
theorem engine_reads_named_rows {V : Type} [LinearOrder V] {r : Reading V}
    {lower : String → String} {literalDate : String → Bool}
    {found : Option DatasetTemporalPolicyRevisionV1} {loadBearing : Option String}
    {dataset profileHash : String} {temporality : RequestTemporality} {cutoffRef : Option String}
    {selection : DatasetRowSelectionV1} {policy : DatasetTemporalPolicyRevisionV1}
    {cutoffValue keyColumn : String} {p : EnginePolicy} {t : Table V}
    (resolved : resolveRowSelection lower literalDate found loadBearing dataset profileHash
      temporality cutoffRef = .ok (.selected selection policy))
    (engine : enginePolicyFor policy selection.selectionKind cutoffValue keyColumn = .ok p)
    (untied : p.ties r t = 0) :
    (p.rows r t).Perm (decidedRows r policy selection cutoffValue keyColumn t) ↔
      RowsAgree r policy selection.selectionKind cutoffRef cutoffValue keyColumn t := by
  obtain ⟨_, _, predicates, recorded, conditions⟩ := predicates_of_resolve resolved
  rw [decidedRows, conditions]
  cases hkind : selection.selectionKind with
  | validAtReportCutoff =>
      rw [hkind] at recorded engine
      exact validAt_agree recorded engine
  | currentRecord =>
      rw [hkind] at recorded engine
      exact current_agree recorded engine
  | latestSnapshotAsOf =>
      rw [hkind] at recorded engine
      exact snapshot_agree recorded engine untied
  | explicitOnly =>
      rw [hkind] at recorded
      cases recorded

theorem validFrom_named : "valid_from" ≠ "" := by decide

theorem validTo_named : "valid_to" ≠ "" := by decide

theorem isCurrent_named : "is_current" ≠ "" := by decide

def segmentHistory : DatasetTemporalPolicyRevisionV1 where
  datasetLogicalRef := "ftr::core.segments"
  temporalStorageModel := .scd2
  currentSelection := .currentRecord
  historicalSelection := .validAtReportCutoff
  effectiveFromRef := some ⟨"ftr", "core", "segments", "valid_from", validFrom_named⟩
  effectiveToRef := some ⟨"ftr", "core", "segments", "valid_to", validTo_named⟩
  snapshotRef := none
  currentFlagRef := some ⟨"ftr", "core", "segments", "is_current", isCurrent_named⟩
  availabilityRef := none
  tieBreakRefs := []
  revisionId := "dtp_1"

/-- What a question about the past is answered by. -/
def segmentSelection : DatasetRowSelectionV1 where
  datasetLogicalRef := "ftr::core.segments"
  datasetProfileHash := "profile"
  temporalPolicyRevisionId := "dtp_1"
  selectionKind := .validAtReportCutoff
  cutoffValueRef := some "report_cutoff"
  predicatePayloads :=
    [⟨.effectiveTime, ⟨"ftr", "core", "segments", "valid_from", validFrom_named⟩, .le,
      some "report_cutoff"⟩,
     ⟨.effectiveTime, ⟨"ftr", "core", "segments", "valid_to", validTo_named⟩, .gt,
      some "report_cutoff"⟩]

/-- The half-open interval at the end of June. -/
def juneAttribution : EnginePolicy :=
  .attribution (attributionWith .reportCutoff "valid_from" "valid_to" "2026-06-30" "")

def fromJanuary (lastDay : Option String) : Row String := fun column =>
  if column = "valid_from" then some "2026-01-01"
  else if column = "valid_to" then lastDay
  else none

def sameText : Reading String := ⟨fun _ text => text, "true"⟩

theorem segments_resolved :
    segmentHistory.check = .ok () ∧
    resolveRowSelection id (fun _ => false) (some segmentHistory) none "ftr::core.segments"
      "profile" .historical (some "report_cutoff") =
        .ok (.selected segmentSelection segmentHistory) ∧
    enginePolicyFor segmentHistory .validAtReportCutoff "2026-06-30" "cif" =
      .ok juneAttribution ∧
    (juneAttribution.rows sameText [fromJanuary none]).length = 1 ∧
    (decidedRows sameText segmentHistory segmentSelection "2026-06-30" "cif"
      [fromJanuary none]).length = 0 := by
  refine ⟨?_, ?_, ?_, ?_, ?_⟩
  · decide +kernel
  · rfl
  · rfl
  · decide +kernel
  · decide +kernel

theorem loadedAt_named : "loaded_at" ≠ "" := by decide

def loadedAt : LogicalColumnRef := ⟨"ftr", "core", "segments", "loaded_at", loadedAt_named⟩

/-- The same dataset, where a row is there from its load on. -/
def loadedHistory : DatasetTemporalPolicyRevisionV1 :=
  { segmentHistory with availabilityRef := some loadedAt }

def loadedSelection : DatasetRowSelectionV1 :=
  { segmentSelection with
    predicatePayloads := segmentSelection.predicatePayloads ++
      [⟨.availabilityTime, loadedAt, .le, some "report_cutoff"⟩] }

def segmentRow (firstDay lastDay loaded : String) : Row String := fun column =>
  if column = "valid_from" then some firstDay
  else if column = "valid_to" then some lastDay
  else if column = "loaded_at" then some loaded
  else none

/-- One row at the cutoff, one over before it, one over and loaded late, one still to come. -/
def loadedSegments : Table String :=
  [segmentRow "2026-01-01" "2026-12-31" "2026-01-05",
    segmentRow "2025-01-01" "2026-01-01" "2025-01-03",
    segmentRow "2024-01-01" "2025-01-01" "2026-09-01",
    segmentRow "2026-07-01" "2027-01-01" "2026-08-01"]

theorem engine_reads_named_rows_loaded :
    (juneAttribution.rows sameText loadedSegments).Perm
      (decidedRows sameText loadedHistory loadedSelection "2026-06-30" "cif" loadedSegments) ∧
    (juneAttribution.rows sameText loadedSegments).length = 1 := by
  have resolved : resolveRowSelection id (fun _ => false) (some loadedHistory) none
      "ftr::core.segments" "profile" .historical (some "report_cutoff") =
        .ok (.selected loadedSelection loadedHistory) := rfl
  have engine : enginePolicyFor loadedHistory .validAtReportCutoff "2026-06-30" "cif" =
      .ok juneAttribution := rfl
  refine ⟨(engine_reads_named_rows resolved engine rfl).mpr ?_, by decide +kernel⟩
  intro row hrow starts
  simp only [loadedSegments, List.mem_cons, List.not_mem_nil, or_false] at hrow
  rcases hrow with rfl | rfl | rfl | rfl
  · refine ⟨by decide, fun _ payload hpayload => ?_⟩
    obtain rfl := List.mem_singleton.mp hpayload
    decide
  · exact ⟨by decide, fun ends => absurd ends (by decide)⟩
  · exact ⟨by decide, fun ends => absurd ends (by decide)⟩
  · exact absurd starts (by decide)

/-- The engine admits an open-ended row that the decision leaves out. -/
theorem open_ended_row_differs :
    ∃ (policy : DatasetTemporalPolicyRevisionV1) (selection : DatasetRowSelectionV1)
      (p : EnginePolicy) (t : Table String), policy.check = .ok () ∧
      resolveRowSelection id (fun _ => false) (some policy) none "ftr::core.segments" "profile"
        .historical (some "report_cutoff") = .ok (.selected selection policy) ∧
      enginePolicyFor policy selection.selectionKind "2026-06-30" "cif" = .ok p ∧
      p.ties sameText t = 0 ∧
      ¬ (p.rows sameText t).Perm (decidedRows sameText policy selection "2026-06-30" "cif" t) := by
  obtain ⟨checked, resolved, engine, admitted, decided⟩ := segments_resolved
  refine ⟨segmentHistory, segmentSelection, juneAttribution, [fromJanuary none], checked, resolved,
    engine, rfl, fun perm => ?_⟩
  have lengths := perm.length_eq
  omega

end FeatureGen.Overlay
