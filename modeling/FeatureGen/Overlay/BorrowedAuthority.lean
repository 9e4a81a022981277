import FeatureGen.Overlay.FieldAuthority

/-! # Whose authority a value has

The rule of a field is asked of all its evidence at once, and the value is then picked
among all of it: when the picked value is asserted by evidence that the rule names.
-/

namespace FeatureGen.Overlay

theorem evaluateAny_of_leaves {active standings : List Standing}
    {conditions : List AuthorityPredicate}
    (h : conditions.mapM AuthorityPredicate.leaf = some standings) :
    evaluateAny active conditions = standings.any active.contains := by
  induction conditions generalizing standings with
  | nil =>
      obtain rfl : [] = standings := by simpa using h
      rfl
  | cons condition others ih =>
      cases condition with
      | hasEvidence standing =>
          obtain ⟨rest, hrest, rfl⟩ : ∃ rest, others.mapM AuthorityPredicate.leaf = some rest ∧
              standing :: rest = standings := by
            simpa [AuthorityPredicate.leaf, Option.bind_eq_some_iff] using h
          simp [evaluateAny, evaluate, ih hrest]
      | anyOf first more => simp [AuthorityPredicate.leaf] at h
      | allOf first more => simp [AuthorityPredicate.leaf] at h

theorem evaluate_of_leaves {active standings : List Standing} {rule : AuthorityPredicate}
    (h : rule.leaves = some standings) :
    evaluate active rule = standings.any active.contains := by
  cases rule with
  | hasEvidence standing =>
      obtain rfl : [standing] = standings := by simpa [AuthorityPredicate.leaves] using h
      simp [evaluate]
  | anyOf first others =>
      have all : evaluateAny active (first :: others) = standings.any active.contains :=
        evaluateAny_of_leaves h
      simpa [evaluate, evaluateAny] using all
  | allOf first others => simp [AuthorityPredicate.leaves] at h

namespace FieldPolicy

/-- The rule of a load-bearing value names the evidence. -/
def names (policy : FieldPolicy) (e : FieldEvidenceView) : Prop :=
  policy.certifies [e.standing] = true

/-- A load-bearing value is the preferred one, where the evidence has any one of some standings,
    none of them a proposal's. -/
def prefers (policy : FieldPolicy) : Bool :=
  policy.conflictStrategy = .preferConfirmed &&
    ((policy.operationalRule.bind (·.leaves)).any fun standings =>
      standings.all fun standing => standing.2 ≠ .proposed)

end FieldPolicy

theorem policyFor_prefers {field : String} {policy : FieldPolicy}
    (registered : policyFor field = some policy) (other : field ≠ "sensitivity") :
    policy.prefers = true := by
  obtain ⟨entry, found, rfl⟩ := Option.map_eq_some_iff.mp registered
  have all : ∀ entry ∈ fieldPolicies, entry.1 ≠ "sensitivity" → entry.2.prefers = true := by
    decide +kernel
  obtain rfl : entry.1 = field := by simpa using List.find?_some found
  exact all entry (List.mem_of_find?_eq_some found) other

section Rules

variable {policy : FieldPolicy}

theorem exists_standings (h : policy.prefers = true) :
    ∃ standings : List Standing, (∀ standing ∈ standings, standing.2 ≠ .proposed) ∧
      ∀ active, policy.certifies active = standings.any active.contains := by
  simp only [FieldPolicy.prefers, Bool.and_eq_true, decide_eq_true_eq, Option.any_eq_true,
    Option.bind_eq_some_iff, List.all_eq_true] at h
  obtain ⟨_, standings, ⟨rule, hrule, hleaves⟩, strong⟩ := h
  refine ⟨standings, strong, fun active => ?_⟩
  simp [FieldPolicy.certifies, hrule, evaluate_of_leaves hleaves]

theorem certifies_iff (h : policy.prefers = true) (evidence : List FieldEvidenceView) :
    policy.certifies (evidence.map (·.standing)) = true ↔ ∃ e ∈ evidence, policy.names e := by
  obtain ⟨standings, _, certifies⟩ := exists_standings h
  simp only [FieldPolicy.names, certifies, List.any_eq_true, List.contains_iff_mem, List.mem_map,
    List.mem_singleton]
  constructor
  · rintro ⟨_, named, e, he, rfl⟩
    exact ⟨e, he, e.standing, named, rfl⟩
  · rintro ⟨e, he, _, named, rfl⟩
    exact ⟨e.standing, named, e, he, rfl⟩

theorem strength_of_names (h : policy.prefers = true) {e : FieldEvidenceView}
    (named : policy.names e) : e.strength ≠ .proposed := by
  obtain ⟨standings, strong, certifies⟩ := exists_standings h
  simp only [FieldPolicy.names, certifies, List.any_eq_true, List.contains_iff_mem,
    List.mem_singleton] at named
  obtain ⟨_, named, rfl⟩ := named
  exact strong _ named

end Rules

def Strongest (evidence : List FieldEvidenceView) (e : FieldEvidenceView) : Prop :=
  e ∈ evidence ∧ ∀ e' ∈ evidence, e'.strength.rank ≤ e.strength.rank

section Selection

variable {evidence : List FieldEvidenceView} {e : FieldEvidenceView} {v : String}

theorem rank_le_topRank (h : e ∈ evidence) : e.strength.rank ≤ topRank evidence := by
  induction evidence with
  | nil => simp at h
  | cons head tail ih =>
      have step : topRank (head :: tail) = max head.strength.rank (topRank tail) := rfl
      rw [step]
      rcases List.mem_cons.mp h with rfl | h
      · exact le_max_left _ _
      · exact le_max_of_le_right (ih h)

theorem exists_rank_eq_topRank (h : evidence ≠ []) :
    ∃ e ∈ evidence, e.strength.rank = topRank evidence := by
  induction evidence with
  | nil => exact absurd rfl h
  | cons head tail ih =>
      have step : topRank (head :: tail) = max head.strength.rank (topRank tail) := rfl
      by_cases hle : topRank tail ≤ head.strength.rank
      · exact ⟨head, List.mem_cons_self, by rw [step]; omega⟩
      · have nonempty : tail ≠ [] := by
          rintro rfl
          simp [topRank] at hle
        obtain ⟨e, he, top⟩ := ih nonempty
        exact ⟨e, List.mem_cons_of_mem _ he, by rw [step]; omega⟩

theorem strongest_iff :
    Strongest evidence e ↔ e ∈ evidence ∧ e.strength.rank = topRank evidence := by
  constructor
  · intro h
    obtain ⟨e', he', top⟩ := exists_rank_eq_topRank (List.ne_nil_of_mem h.1)
    have lower := rank_le_topRank h.1
    have upper := h.2 e' he'
    exact ⟨h.1, by omega⟩
  · intro h
    exact ⟨h.1, fun e' he' => h.2 ▸ rank_le_topRank he'⟩

theorem exists_strongest (h : evidence ≠ []) : ∃ e, Strongest evidence e := by
  obtain ⟨e, he, top⟩ := exists_rank_eq_topRank h
  exact ⟨e, strongest_iff.mpr ⟨he, top⟩⟩

theorem singleValue_eq_some {values : List String} :
    singleValue values = some v ↔ v ∈ values ∧ ∀ w ∈ values, w = v := by
  constructor
  · intro h
    unfold singleValue at h
    split at h
    · next w hw =>
        obtain rfl : w = v := by simpa using h
        have mem (u : String) : u ∈ values ↔ u = w := by
          rw [← List.mem_dedup, hw, List.mem_singleton]
        exact ⟨(mem w).mpr rfl, fun u hu => (mem u).mp hu⟩
    · simp at h
  · intro h
    have only : values.dedup = [v] := by
      refine List.Perm.singleton_eq ?_ |>.symm
      refine (List.perm_ext_iff_of_nodup (List.nodup_singleton v) (List.nodup_dedup values)).mpr
        fun u => ?_
      rw [List.mem_singleton, List.mem_dedup]
      constructor
      · rintro rfl
        exact h.1
      · exact h.2 u
    simp [singleValue, only]

theorem preferred_eq_some : preferred evidence = some v ↔
    (∃ e, Strongest evidence e ∧ e.value = v) ∧ ∀ e, Strongest evidence e → e.value = v := by
  simp only [preferred, singleValue_eq_some, List.mem_map, List.mem_filter, decide_eq_true_eq,
    ← strongest_iff]
  refine and_congr_right fun _ => ?_
  constructor
  · intro h e he
    exact h e.value ⟨e, he, rfl⟩
  · rintro h _ ⟨e, he, rfl⟩
    exact h e he

end Selection

section Resolution

variable {iterated : List String → List String} {evidence : List FieldEvidenceView}
  {policy : FieldPolicy} {active : List Disqualifier} {v : String}

/-- The resolution makes a value load-bearing. -/
def Bears (iterated : List String → List String) (evidence : List FieldEvidenceView)
    (policy : FieldPolicy) (active : List Disqualifier) (v : String) : Prop :=
  ∃ resolution, resolveFieldAuthority iterated evidence policy active = .ok resolution ∧
    resolution.loadBearingValue = some v

theorem bears_iff (h : policy.prefers = true) : Bears iterated evidence policy active v ↔
    barredReason policy active = none ∧ (∃ e ∈ evidence, policy.names e) ∧
      preferred evidence = some v := by
  have strategy : policy.conflictStrategy = .preferConfirmed := by
    simp only [FieldPolicy.prefers, Bool.and_eq_true, decide_eq_true_eq] at h
    exact h.1
  rw [← certifies_iff h]
  cases hbar : barredReason policy active with
  | some reason => simp [Bears, resolveFieldAuthority, operationalOutcome, hbar, Except.map]
  | none =>
      cases hcert : policy.certifies (evidence.map (·.standing)) with
      | false => simp [Bears, resolveFieldAuthority, operationalOutcome, hbar, hcert, Except.map]
      | true =>
          have nonempty : evidence ≠ [] := by
            rintro rfl
            obtain ⟨e, he, _⟩ := (certifies_iff h []).mp hcert
            simp at he
          cases hpick : preferred evidence with
          | none =>
              simp [Bears, resolveFieldAuthority, operationalOutcome, hbar, hcert, Except.map,
                selectValue, nonempty, strategy, selectBy, hpick]
          | some w =>
              simp [Bears, resolveFieldAuthority, operationalOutcome, hbar, hcert, Except.map,
                selectValue, nonempty, strategy, selectBy, hpick]

end Resolution

def asserting (v : String) (evidence : List FieldEvidenceView) : List FieldEvidenceView :=
  evidence.filter fun e => e.value = v

/-- Nothing can become load-bearing, or no evidence is of the rule's, or the strongest evidence
    disagrees, or some of the rule's asserts what the strongest does. -/
def Earned (policy : FieldPolicy) (evidence : List FieldEvidenceView)
    (active : List Disqualifier) : Prop :=
  (barredReason policy active).isSome ∨ (∀ e ∈ evidence, ¬ policy.names e) ∨
    (∃ e e', Strongest evidence e ∧ Strongest evidence e' ∧ e.value ≠ e'.value) ∨
      ∃ e e', Strongest evidence e ∧ e' ∈ evidence ∧ policy.names e' ∧ e'.value = e.value

theorem not_earned {policy : FieldPolicy} {evidence : List FieldEvidenceView}
    {active : List Disqualifier} (h : ¬ Earned policy evidence active) :
    barredReason policy active = none ∧ (∃ e ∈ evidence, policy.names e) ∧
      ∃ v, preferred evidence = some v ∧
        ∀ e ∈ asserting v evidence, ¬ policy.names e := by
  simp only [Earned, not_or, not_exists, not_and, not_forall, not_not] at h
  obtain ⟨free, ⟨e, he, named⟩, agree, apart⟩ := h
  refine ⟨by simpa using free, ⟨e, he, named⟩, ?_⟩
  obtain ⟨top, strongest⟩ := exists_strongest (List.ne_nil_of_mem he)
  refine ⟨top.value, preferred_eq_some.mpr ⟨⟨top, strongest, rfl⟩, fun e' he' => ?_⟩,
    fun e' he' named' => ?_⟩
  · exact agree e' top he' strongest
  · obtain ⟨mem, value⟩ := List.mem_filter.mp he'
    exact apart top e' strongest mem named' (by simpa using value)

/-- A field's load-bearing value has authority of its own exactly where the field's is earned; and
    it is never the value of proposals alone. -/
theorem authority_not_borrowed_iff {field : String} {policy : FieldPolicy}
    (registered : policyFor field = some policy) (other : field ≠ "sensitivity")
    (iterated : List String → List String) (evidence : List FieldEvidenceView)
    (active : List Disqualifier) :
    ((∀ v, Bears iterated evidence policy active v →
        policy.certifies ((asserting v evidence).map (·.standing)) = true) ↔
      Earned policy evidence active) ∧
    ∀ v, Bears iterated evidence policy active v →
      ∃ e ∈ asserting v evidence, e.strength ≠ .proposed := by
  have prefers := policyFor_prefers registered other
  refine ⟨⟨fun own => ?_, fun earned v bears => ?_⟩, fun v bears => ?_⟩
  · by_contra unearned
    obtain ⟨free, named, v, picked, apart⟩ := not_earned unearned
    have certified := own v ((bears_iff prefers).mpr ⟨free, named, picked⟩)
    obtain ⟨e, he, hnamed⟩ := (certifies_iff prefers _).mp certified
    exact apart e he hnamed
  · obtain ⟨free, ⟨named, hmem, hnamed⟩, picked⟩ := (bears_iff prefers).mp bears
    obtain ⟨_, agree⟩ := preferred_eq_some.mp picked
    rcases earned with barred | unnamed | ⟨e, e', he, he', differ⟩ | ⟨e, e', he, mem, hn, same⟩
    · simp [free] at barred
    · exact absurd hnamed (unnamed named hmem)
    · exact absurd ((agree e he).trans (agree e' he').symm) differ
    · have value : e'.value = v := same.trans (agree e he)
      exact (certifies_iff prefers _).mpr
        ⟨e', List.mem_filter.mpr ⟨mem, by simpa using value⟩, hn⟩
  · obtain ⟨_, ⟨named, hmem, hnamed⟩, picked⟩ := (bears_iff prefers).mp bears
    obtain ⟨⟨top, strongest, value⟩, _⟩ := preferred_eq_some.mp picked
    refine ⟨top, List.mem_filter.mpr ⟨strongest.1, by simpa using value⟩, fun proposed => ?_⟩
    have bound := strongest.2 named hmem
    have strong := strength_of_names prefers hnamed
    rw [proposed] at bound
    cases hs : named.strength <;> simp_all [AssertionStrength.rank]

/-- A structural source attests one type, and a person has confirmed another. -/
def confirmedType : List FieldEvidenceView :=
  [⟨.source, .attested, "integer", "fev_1"⟩, ⟨.human, .confirmed, "decimal", "fev_2"⟩]

theorem authority_not_borrowed_iff_dataType :
    (∀ v, Bears id confirmedType FieldPolicy.dataType [] v → FieldPolicy.dataType.certifies
      ((asserting v confirmedType).map (·.standing)) = true) ↔
      Earned FieldPolicy.dataType confirmedType [] :=
  (@authority_not_borrowed_iff "data_type" FieldPolicy.dataType rfl (by decide) id confirmedType
    []).1

/-- The confirmed type becomes load-bearing on what the source attested. -/
theorem confirmed_type_borrows : ¬ ∀ (field : String) (policy : FieldPolicy)
    (iterated : List String → List String) (evidence : List FieldEvidenceView)
    (active : List Disqualifier) (v : String), policyFor field = some policy →
      field ≠ "sensitivity" → Bears iterated evidence policy active v →
        policy.certifies ((asserting v evidence).map (·.standing)) = true := by
  intro claim
  have bears : Bears id confirmedType FieldPolicy.dataType [] "decimal" :=
    ⟨⟨some "decimal", some "decimal", none, false⟩, rfl, rfl⟩
  have own := claim "data_type" FieldPolicy.dataType id confirmedType [] "decimal" (by rfl)
    (by decide) bears
  revert own
  decide +kernel

end FeatureGen.Overlay
