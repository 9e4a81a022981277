import Mathlib
import FeatureGen.DataAgent.Analysis

/-! # Equal plans

What the hash of a plan tells of it. The joined text tells the fields of two plans
that are cut alike, the fields tell the structural identity, and the structural
identity tells the statement.
-/

namespace FeatureGen.DataAgent

open Sql Checks FeatureGen.Overlay

namespace AnalysisExecutionIRV1

/-- The separators of the joined text. -/
def separators : List Char := ['|', ',', ':']

/-- Fields of one shape, whose texts carry each separator equally often, place by place. -/
def CutAlike (f g : List HashField) : Prop :=
  List.Forall₂ (List.Forall₂ (List.Forall₂ fun s t =>
    ∀ c ∈ separators, Joined.SameCount c s t)) f g

theorem CutAlike.refl (f : List HashField) : CutAlike f f :=
  List.forall₂_same.mpr fun _ _ => List.forall₂_same.mpr fun _ _ =>
    List.forall₂_same.mpr fun s _ c _ => Joined.SameCount.refl c s

section Text

variable {c : Char} {f g : HashField}

theorem members_sameCount (hc : c ∈ separators)
    (same : List.Forall₂ (List.Forall₂ fun s t => ∀ c ∈ separators, Joined.SameCount c s t) f g) :
    List.Forall₂ (Joined.SameCount c) (f.map (Joined.join ':')) (g.map (Joined.join ':')) := by
  rw [List.forall₂_map_left_iff, List.forall₂_map_right_iff]
  refine same.imp fun parts parts' hparts => ?_
  exact Joined.SameCount.join (hparts.imp fun s t hst => hst c hc)

theorem text_inj
    (same : List.Forall₂ (List.Forall₂ fun s t => ∀ c ∈ separators, Joined.SameCount c s t) f g)
    (h : f.text = g.text) : f = g := by
  have members := Joined.join_inj (members_sameCount (by decide) same) h
  refine Joined.eq_of_map_eq same (fun parts parts' hparts hjoin => ?_) members
  exact Joined.join_inj (hparts.imp fun s t hst => hst ':' (by decide)) hjoin

end Text

theorem material_inj {f g : List HashField} (same : CutAlike f g)
    (h : material f = material g) : f = g := by
  have counts : List.Forall₂ (Joined.SameCount '|') (f.map HashField.text)
      (g.map HashField.text) := by
    rw [List.forall₂_map_left_iff, List.forall₂_map_right_iff]
    exact same.imp fun x y hxy => Joined.SameCount.join (members_sameCount (by decide) hxy)
  exact Joined.eq_of_map_eq same (fun x y hxy htext => text_inj hxy htext)
    (Joined.join_inj counts h)

@[simp]
theorem single_inj {s t : String} : single s = single t ↔ s = t := by simp [single]

@[simp]
theorem several_inj {xs ys : List String} : several xs = several ys ↔ xs = ys := by
  constructor
  · intro h
    exact List.map_injective_iff.mpr (fun _ _ same => (List.cons.inj same).1) h
  · intro h
    rw [h]

theorem pairs_inj {xs ys : List (String × String)} :
    (xs.map fun d => [d.1, d.2]) = (ys.map fun d => [d.1, d.2]) ↔ xs = ys := by
  constructor
  · intro h
    refine List.map_injective_iff.mpr (fun x y hxy => ?_) h
    injection hxy with hfirst hrest
    injection hrest with hsecond _
    exact Prod.ext hfirst hsecond
  · intro h
    rw [h]

theorem column_inj {xs ys : List Dimension} :
    xs.map Dimension.column = ys.map Dimension.column ↔ xs = ys := by
  constructor
  · intro h
    refine List.map_injective_iff.mpr (fun x y hxy => ?_) h
    cases x
    cases y
    exact congrArg Dimension.mk hxy
  · intro h
    rw [h]

section Values

@[simp]
theorem basis_inj {a b : AttributionBasis} : a.value = b.value ↔ a = b := by
  cases a <;> cases b <;> decide

@[simp]
theorem missing_inj {a b : MissingValueBehavior} : a.value = b.value ↔ a = b := by
  cases a <;> cases b <;> decide

@[simp]
theorem scope_inj {a b : SnapshotScope} : a.value = b.value ↔ a = b := by
  cases a <;> cases b <;> decide

@[simp]
theorem reversalMode_inj {a b : ReversalMode} : a.value = b.value ↔ a = b := by
  cases a <;> cases b <;> decide

@[simp]
theorem nullBehavior_inj {a b : NullBehavior} : a.value = b.value ↔ a = b := by
  cases a <;> cases b <;> decide

@[simp]
theorem comparison_inj {a b : Comparison} : a.value = b.value ↔ a = b := by
  cases a <;> cases b <;> decide

end Values

section Fields

variable {lower : String → String} {a b : AnalysisExecutionIRV1}

theorem baseFields_inj {e e' : TransactionEligibilityPolicyV1}
    (h : a.baseFields lower e = b.baseFields lower e') :
    a.spine.binding.identity.tableId lower = b.spine.binding.identity.tableId lower ∧
      a.spine.keyColumn = b.spine.keyColumn ∧
      a.eventBinding.identity.tableId lower = b.eventBinding.identity.tableId lower ∧
      a.eventKeyColumn = b.eventKeyColumn ∧ a.periodColumn = b.periodColumn ∧
      a.current.values = b.current.values ∧ a.previous.values = b.previous.values ∧
      a.measure = b.measure ∧ a.comparison = b.comparison ∧ a.dimensions = b.dimensions ∧
      e = e' ∧ a.bridgeRealizationDependencies = b.bridgeRealizationDependencies := by
  simp only [baseFields, List.cons.injEq, single_inj, several_inj, comparison_inj, column_inj,
    reversalMode_inj, nullBehavior_inj, pairs_inj] at h
  obtain ⟨h1, h2, h3, h4, h5, h6, h7, h8, h9, h10, e1, e2, e3, e4, e5, e6, h11, _⟩ := h
  have policies : e = e' := by
    cases e
    cases e'
    simp_all
  exact ⟨h1, h2, h3, h4, h5, h6, h7, h8, h9, h10, policies, h11⟩

def ruleFields (lower : String → String) (ir : AnalysisExecutionIRV1) : List HashField :=
  ir.attributionFields lower ++ ir.currentFlagFields ++ ir.snapshotFields lower

theorem dimensionTableText_ne_missing (ir : AnalysisExecutionIRV1)
    (missing : MissingValueBehavior) : ir.dimensionTableText lower ≠ missing.value := by
  intro h
  rw [dimensionTableText] at h
  cases hb : ir.dimensionBinding with
  | none =>
      rw [hb] at h
      cases missing <;> simp [MissingValueBehavior.value] at h
  | some binding =>
      rw [hb] at h
      have colon := PhysicalObjectIdentityV1.colon_mem_tableId lower binding.identity
      rw [show binding.identity.tableId lower = missing.value from h] at colon
      cases missing <;> exact absurd colon (by decide)

theorem dimensionTableId_eq_of_text (h : a.dimensionTableText lower = b.dimensionTableText lower) :
    (a.dimensionBinding.map fun t => t.identity.tableId lower) =
      b.dimensionBinding.map fun t => t.identity.tableId lower := by
  have nonempty : ∀ binding : PhysicalDatasetBindingV1, binding.identity.tableId lower ≠ "" := by
    intro binding hempty
    have colon := PhysicalObjectIdentityV1.colon_mem_tableId lower binding.identity
    rw [hempty] at colon
    exact absurd colon (by decide)
  simp only [dimensionTableText] at h
  cases ha : a.dimensionBinding with
  | none =>
      cases hb : b.dimensionBinding with
      | none => rfl
      | some t =>
          rw [ha, hb] at h
          exact absurd h.symm (nonempty t)
  | some s =>
      cases hb : b.dimensionBinding with
      | none =>
          rw [ha, hb] at h
          exact absurd h (nonempty s)
      | some t =>
          rw [ha, hb] at h
          exact congrArg some h

theorem ruleFields_inj (ha : a.attribution = none ∨ a.snapshotSelection = none)
    (hb : b.attribution = none ∨ b.snapshotSelection = none)
    (h : ruleFields lower a = ruleFields lower b) :
    a.attribution.map attributionPayload = b.attribution.map attributionPayload ∧
      a.snapshotSelection = b.snapshotSelection ∧
      (a.attribution ≠ none ∨ a.snapshotSelection ≠ none →
        a.dimensionTableText lower = b.dimensionTableText lower) := by
  have missing : ∀ (ir : AnalysisExecutionIRV1) (m : MissingValueBehavior),
      ir.dimensionTableText lower ≠ m.value := dimensionTableText_ne_missing
  simp only [ruleFields, attributionFields, currentFlagFields, snapshotFields] at h
  cases pa : a.attribution with
  | none =>
      cases pb : b.attribution with
      | none =>
          cases sa : a.snapshotSelection with
          | none =>
              cases sb : b.snapshotSelection with
              | none => simp
              | some t => simp [pa, pb, sa, sb] at h
          | some s =>
              cases sb : b.snapshotSelection with
              | none => simp [pa, pb, sa, sb] at h
              | some t =>
                  simp only [pa, pb, sa, sb, List.nil_append, List.cons.injEq, single_inj,
                    several_inj, scope_inj, missing_inj] at h
                  cases s
                  cases t
                  simp_all
      | some q =>
          have sb := hb.resolve_left (by simp [pb])
          cases sa : a.snapshotSelection with
          | none => simp [pa, pb, sa, sb] at h
          | some s =>
              simp only [pa, pb, sa, sb, List.nil_append, List.append_nil, List.cons_append,
                List.cons.injEq, single_inj] at h
              exact absurd h.2.2.2.2.2.1.symm (missing b _)
  | some p =>
      have sa := ha.resolve_left (by simp [pa])
      cases pb : b.attribution with
      | none =>
          cases sb : b.snapshotSelection with
          | none => simp [pa, pb, sa, sb] at h
          | some t =>
              simp only [pa, pb, sa, sb, List.nil_append, List.append_nil, List.cons_append,
                List.cons.injEq, single_inj] at h
              exact absurd h.2.2.2.2.2.1 (missing a _)
      | some q =>
          have sb := hb.resolve_left (by simp [pb])
          simp only [pa, pb, sa, sb, List.append_nil, List.cons_append, List.nil_append,
            List.cons.injEq, single_inj, basis_inj, missing_inj] at h
          obtain ⟨hbasis, hcutoff, hfrom, hto, hmissing, htable, hflag⟩ := h
          have flags : p.currentFlagColumn = q.currentFlagColumn := by
            by_cases hp : p.currentFlagColumn = "" <;> by_cases hq : q.currentFlagColumn = "" <;>
              simp_all
          refine ⟨?_, by rw [sa, sb], fun _ => htable⟩
          simp [attributionPayload, hbasis, hcutoff, hfrom, hto, hmissing, flags]

end Fields

section Payload

variable {lower digest : String → String} {a b : AnalysisExecutionIRV1}

theorem eligibilityPayload_inj {e e' : TransactionEligibilityPolicyV1} :
    eligibilityPayload e = eligibilityPayload e' ↔ e = e' := by
  constructor
  · intro h
    cases e
    cases e'
    simp only [eligibilityPayload, EligibilityPayload.mk.injEq, reversalMode_inj,
      nullBehavior_inj] at h
    simp_all
  · intro h
    rw [h]

theorem snapshotPayload_inj {p q : Option LatestSnapshotPolicyV1} :
    p.map snapshotPayload = q.map snapshotPayload ↔ p = q := by
  constructor
  · intro h
    refine Option.map_injective (fun s t hst => ?_) h
    cases s
    cases t
    simp only [snapshotPayload, SnapshotPayload.mk.injEq, scope_inj, missing_inj] at hst
    simp_all
  · intro h
    rw [h]

theorem attributionFields_congr
    (h : a.attribution.map attributionPayload = b.attribution.map attributionPayload)
    (table : a.dimensionTableText lower = b.dimensionTableText lower) :
    a.attributionFields lower = b.attributionFields lower ∧
      a.currentFlagFields = b.currentFlagFields := by
  cases pa : a.attribution with
  | none =>
      cases pb : b.attribution with
      | none => simp [attributionFields, currentFlagFields, pa, pb]
      | some q => simp [pa, pb] at h
  | some p =>
      cases pb : b.attribution with
      | none => simp [pa, pb] at h
      | some q =>
          simp only [pa, pb, Option.map_some, Option.some.injEq, attributionPayload,
            AttributionPayload.mk.injEq] at h
          obtain ⟨hbasis, hcutoff, hfrom, hto, hmissing, hflag⟩ := h
          simp [attributionFields, currentFlagFields, pa, pb, hbasis, hcutoff, hfrom, hto,
            hmissing, hflag, table]

theorem hashFields_congr (h : a.identityPayload lower = b.identityPayload lower) :
    a.hashFields lower = b.hashFields lower := by
  rw [identityPayload, identityPayload] at h
  cases ea : a.eligibility with
  | none =>
      cases eb : b.eligibility with
      | none => simp [hashFields, ea, eb]
      | some e' => simp [ea, eb] at h
  | some e =>
      cases eb : b.eligibility with
      | none => simp [ea, eb] at h
      | some e' =>
          simp only [ea, eb, Option.map_some, Option.some.injEq, IdentityPayload.mk.injEq,
            eligibilityPayload_inj, snapshotPayload_inj, comparison_inj, column_inj] at h
          obtain ⟨h1, h2, h3, h4, h5, h6, h7, h8, h9, h10, htable, he, h11, hattr, hsnap⟩ := h
          have table : a.dimensionTableText lower = b.dimensionTableText lower := by
            rw [dimensionTableText, dimensionTableText, htable]
          obtain ⟨hattribution, hflag⟩ := attributionFields_congr hattr table
          simp only [hashFields, ea, eb, Option.map_some, baseFields, snapshotFields, h1, h2, h3,
            h4, h5, h6, h7, h8, h9, h10, he, h11, hsnap, hattribution, hflag, table]

theorem identityPayload_congr (ha : a.attribution = none ∨ a.snapshotSelection = none)
    (hb : b.attribution = none ∨ b.snapshotSelection = none)
    (table : a.attribution = none → a.snapshotSelection = none →
      (a.dimensionBinding.map fun t => t.identity.tableId lower) =
        b.dimensionBinding.map fun t => t.identity.tableId lower)
    (h : a.hashFields lower = b.hashFields lower) :
    a.identityPayload lower = b.identityPayload lower := by
  cases ea : a.eligibility with
  | none =>
      cases eb : b.eligibility with
      | none => simp [identityPayload, ea, eb]
      | some e' => simp [hashFields, ea, eb] at h
  | some e =>
      cases eb : b.eligibility with
      | none => simp [hashFields, ea, eb] at h
      | some e' =>
          simp only [hashFields, ea, eb, Option.map_some, Option.some.injEq,
            List.append_assoc] at h
          obtain ⟨hbase, hrules⟩ := List.append_inj h rfl
          obtain ⟨h1, h2, h3, h4, h5, h6, h7, h8, h9, h10, he, h11⟩ := baseFields_inj hbase
          obtain ⟨hattr, hsnap, htable⟩ := @ruleFields_inj lower a b ha hb (by
            simpa only [ruleFields, List.append_assoc] using hrules)
          have ids : (a.dimensionBinding.map fun t => t.identity.tableId lower) =
              b.dimensionBinding.map fun t => t.identity.tableId lower := by
            by_cases none : a.attribution = none ∧ a.snapshotSelection = none
            · exact table none.1 none.2
            · exact dimensionTableId_eq_of_text (htable (not_and_or.mp none))
          simp only [identityPayload, ea, eb, Option.map_some, h1, h2, h3, h4, h5, h6, h7, h8, h9,
            h10, he, h11, hattr, hsnap, ids]

end Payload

section Statement

variable {lower digest : String → String} {a b : AnalysisExecutionIRV1}

theorem Valid.one_rule (valid : a.Valid lower) :
    a.attribution = none ∨ a.snapshotSelection = none := by
  have passed := valid.plan
  simp only [check, check_bind_eq_ok, ensure_eq_ok] at passed
  exact passed.2.2.2.2.2.2.1

theorem interval_of_check {policy : DimensionAttributionPolicyV1} (h : policy.check = .ok ()) :
    policy.intervalSemantics = "start_inclusive_end_exclusive" := by
  simp only [DimensionAttributionPolicyV1.check, check_bind_eq_ok, ensure_eq_ok] at h
  exact h.2.1

theorem attribution_eq_of_payload (ha : a.Valid lower) (hb : b.Valid lower)
    (h : a.attribution.map attributionPayload = b.attribution.map attributionPayload) :
    a.attribution = b.attribution := by
  cases pa : a.attribution with
  | none =>
      cases pb : b.attribution with
      | none => rfl
      | some q => simp [pa, pb] at h
  | some p =>
      cases pb : b.attribution with
      | none => simp [pa, pb] at h
      | some q =>
          have hp := interval_of_check (ha.attribution p pa)
          have hq := interval_of_check (hb.attribution q pb)
          simp only [pa, pb, Option.map_some, Option.some.injEq, attributionPayload,
            AttributionPayload.mk.injEq, basis_inj, missing_inj] at h
          cases p
          cases q
          simp_all

theorem compileAt_congr (ha : a.Valid lower) (hb : b.Valid lower)
    (h : a.identityPayload lower = b.identityPayload lower) (ident : String → String)
    (refs : TableRefs) : a.compileAt ident refs = b.compileAt ident refs := by
  obtain ⟨e, ea⟩ := ha.exists_eligibility
  obtain ⟨e', eb⟩ := hb.exists_eligibility
  simp only [identityPayload, ea, eb, Option.map_some, Option.some.injEq, IdentityPayload.mk.injEq,
    eligibilityPayload_inj, snapshotPayload_inj, comparison_inj, column_inj] at h
  obtain ⟨_, hkey, _, heventKey, hperiod, hcurrent, hprevious, _, _, hdimensions, _, he, _, hattr,
    hsnap⟩ := h
  have hattribution := attribution_eq_of_payload ha hb hattr
  have cte : ∀ name values, a.periodCte ident refs.event e' name values =
      b.periodCte ident refs.event e' name values := by
    intro name values
    unfold periodCte periodConditions
    rw [heventKey, hperiod]
  have dim : a.dimensionCte ident refs.dimension = b.dimensionCte ident refs.dimension := by
    unfold dimensionCte
    rw [hdimensions, hsnap, hattribution, hkey]
  have select : a.dimensionSelect ident = b.dimensionSelect ident := by
    funext missing
    unfold dimensionSelect
    rw [hdimensions]
  have text : a.statementText ident refs = b.statementText ident refs := by
    funext ctes select join
    unfold statementText
    rw [hkey]
  unfold compileAt
  rw [ea, eb, he, hdimensions, hkey, hcurrent, hprevious, select, text, dim]
  simp only [Option.bind_eq_bind, Option.bind_some, cte]

theorem exists_compileAt (ha : a.Valid lower) (ident : String → String) (refs : TableRefs) :
    ∃ statement, a.compileAt ident refs = some statement := by
  obtain ⟨e, ea⟩ := ha.exists_eligibility
  have passed := ha.plan
  simp only [check, check_bind_eq_ok, ensure_eq_ok] at passed
  have ruled := passed.2.2.2.2.2.2.2.1
  by_cases none : a.dimensions = []
  · simp [compileAt, ea, none]
  · obtain ⟨_, hrule⟩ := ruled.resolve_left none
    cases hs : a.snapshotSelection with
    | some snapshot => simp [compileAt, ea, none, dimensionCte, hs]
    | none =>
        obtain ⟨p, hp⟩ := Option.ne_none_iff_exists'.mp (hrule.resolve_right (by simp [hs]))
        simp [compileAt, ea, none, dimensionCte, hs, hp]

end Statement

/-- The fields of two plans are cut alike; without a row rule, which would put the table
of the dimensions into the fields, this table is one. -/
def SameCuts (lower : String → String) (a b : AnalysisExecutionIRV1) : Prop :=
  (∀ f ∈ a.hashFields lower, ∀ g ∈ b.hashFields lower, CutAlike f g) ∧
    (a.attribution = none → a.snapshotSelection = none →
      (a.dimensionBinding.map fun t => t.identity.tableId lower) =
        b.dimensionBinding.map fun t => t.identity.tableId lower)

/-- One hash is one identity exactly where the fields are cut alike, and one identity is
one statement, in every dialect and at every address. -/
theorem equal_plans_compute_equally {lower digest : String → String}
    (injective : Function.Injective digest) {a b : AnalysisExecutionIRV1} (ha : a.Valid lower)
    (hb : b.Valid lower) :
    (a.planHash lower digest = b.planHash lower digest →
      (a.identityPayload lower = b.identityPayload lower ↔ SameCuts lower a b)) ∧
    (a.identityPayload lower = b.identityPayload lower →
      a.planHash lower digest = b.planHash lower digest ∧
        ∀ ident refs, ∃ statement, a.compileAt ident refs = some statement ∧
          b.compileAt ident refs = some statement) := by
  refine ⟨fun hashes => ⟨fun payloads => ⟨?_, ?_⟩, fun same => ?_⟩, fun payloads => ⟨?_, ?_⟩⟩
  · intro f hf g hg
    rw [hashFields_congr payloads] at hf
    cases Option.mem_unique hf hg
    exact CutAlike.refl f
  · intro _ _
    obtain ⟨e, ea⟩ := ha.exists_eligibility
    obtain ⟨e', eb⟩ := hb.exists_eligibility
    simp only [identityPayload, ea, eb, Option.map_some, Option.some.injEq,
      IdentityPayload.mk.injEq] at payloads
    exact payloads.2.2.2.2.2.2.2.2.2.2.1
  · obtain ⟨e, ea⟩ := ha.exists_eligibility
    obtain ⟨e', eb⟩ := hb.exists_eligibility
    refine identityPayload_congr ha.one_rule hb.one_rule same.2 ?_
    have fa : ∃ f, a.hashFields lower = some f := ⟨_, by rw [hashFields, ea]; rfl⟩
    have fb : ∃ g, b.hashFields lower = some g := ⟨_, by rw [hashFields, eb]; rfl⟩
    obtain ⟨f, hf⟩ := fa
    obtain ⟨g, hg⟩ := fb
    simp only [planHash, hf, hg, Option.map_some, Option.some.injEq] at hashes
    rw [hf, hg, material_inj (same.1 f hf g hg) (injective hashes)]
  · rw [planHash, planHash, hashFields_congr payloads]
  · intro ident refs
    obtain ⟨statement, hstatement⟩ := exists_compileAt ha ident refs
    exact ⟨statement, hstatement, by rw [← compileAt_congr ha hb payloads, hstatement]⟩

def tableIdentity (table : String) : PhysicalObjectIdentityV1 :=
  ⟨"ftr", "edp", "core", table, "table", none⟩

def tableBinding (table : String) : PhysicalDatasetBindingV1 :=
  ⟨table, "ftr::core." ++ table, "hive", tableIdentity table, [], none, []⟩

def postedOnly : TransactionEligibilityPolicyV1 :=
  ⟨"status", ["POSTED"], .booleanOrCodeColumn, "reversal", ["N"], .exclude⟩

/-- Activity per customer, with the previous period's values. -/
def activity (previous : List String) : AnalysisExecutionIRV1 where
  question := "whose activity decreased"
  spine := ⟨tableBinding "customers", "cif"⟩
  eventBinding := tableBinding "moves"
  eventKeyColumn := "cif"
  periodColumn := "month"
  current := ⟨"June", ["06"]⟩
  previous := ⟨"May", previous⟩
  measure := "count"
  comparison := .decreased
  dimensions := []
  eligibility := some postedOnly
  dimensionBinding := none
  attribution := none
  snapshotSelection := none
  joinEvidence := none
  bridgeRealizationDependencies := []

theorem activity_parts :
    ((tableBinding "customers").identity.check id = .ok () ∧
      (tableBinding "customers").build id = .ok (tableBinding "customers")) ∧
    ((tableBinding "moves").identity.check id = .ok () ∧
      (tableBinding "moves").build id = .ok (tableBinding "moves")) ∧
    postedOnly.check = .ok () ∧ (activity ["04,05"]).check = .ok () ∧
    (activity ["04", "05"]).check = .ok () := by
  exact ⟨⟨rfl, rfl⟩, ⟨rfl, rfl⟩, rfl, rfl, rfl⟩

theorem activity_valid {previous : List String} (h : (activity previous).check = .ok ()) :
    (activity previous).Valid id := by
  obtain ⟨⟨hcustomers, hbuilt⟩, ⟨hmoves, hbuilt'⟩, hposted, _⟩ := activity_parts
  refine ⟨⟨hcustomers, _, hbuilt⟩, ⟨hmoves, _, hbuilt'⟩, ?_, ?_, ?_, ?_, h⟩
  · intro policy hpolicy
    cases hpolicy
  · intro policy hpolicy
    cases hpolicy
    exact hposted
  · intro policy hpolicy
    cases hpolicy
  · intro policy hpolicy
    cases hpolicy

theorem equal_plans_compute_equally_activity :
    SameCuts id (activity ["04", "05"])
      { activity ["04", "05"] with question := "who moved less" } := by
  have valid := activity_valid activity_parts.2.2.2.2
  have reworded : Valid { activity ["04", "05"] with question := "who moved less" } id :=
    ⟨valid.spine, valid.event, valid.dimension, valid.eligibility, valid.attribution,
      valid.snapshot, valid.plan⟩
  have both := @equal_plans_compute_equally id id Function.injective_id _ _ valid reworded
  exact (both.1 rfl).mp rfl

/-- One value '04,05' and the values '04' and '05' have one hash and two identities. -/
theorem comma_shares_hash :
    ∃ a b : AnalysisExecutionIRV1, a.Valid id ∧ b.Valid id ∧
      (∀ digest : String → String, a.planHash id digest = b.planHash id digest) ∧
      a.identityPayload id ≠ b.identityPayload id := by
  refine ⟨activity ["04,05"], activity ["04", "05"], activity_valid activity_parts.2.2.2.1,
    activity_valid activity_parts.2.2.2.2, fun digest => ?_, ?_⟩
  · have texts : (several ["04,05"]).text = (several ["04", "05"]).text := by decide
    simp only [planHash, hashFields, activity, Option.map_some, material, List.map_append,
      baseFields, List.map_cons, texts]
    rfl
  · simp [identityPayload, activity]

end AnalysisExecutionIRV1

end FeatureGen.DataAgent
