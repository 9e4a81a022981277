import Mathlib
import FeatureGen.Overlay.BorrowedAuthority
import FeatureGen.Overlay.RestrictionFloor

/-! # The order of evidence

A resolution reads which evidence there is and not how it stands, but where the most
restrictive value is taken among several that the severity order does not list: those
tie, and the first that the set is iterated to is the one.
-/

namespace FeatureGen.Overlay

section Greatest

variable {α : Type} {f : α → ℕ} {xs ys : List α} {a : α}

theorem argmax_eq_of_members (same : ∀ a, a ∈ xs ↔ a ∈ ys)
    (inj : ∀ a ∈ xs, ∀ b ∈ xs, f a = f b → a = b) : xs.argmax f = ys.argmax f := by
  cases hx : xs.argmax f with
  | none =>
      rw [List.argmax_eq_none] at hx
      subst hx
      have none : ys = [] := List.eq_nil_iff_forall_not_mem.mpr fun a ha =>
        absurd ((same a).mpr ha) List.not_mem_nil
      rw [none, List.argmax_nil]
  | some top =>
      have htop : top ∈ xs := List.argmax_mem hx
      cases hy : ys.argmax f with
      | none =>
          rw [List.argmax_eq_none] at hy
          subst hy
          exact absurd ((same top).mp htop) List.not_mem_nil
      | some other =>
          have hother : other ∈ xs := (same other).mpr (List.argmax_mem hy)
          have le : f other ≤ f top := List.le_of_mem_argmax hother hx
          have ge : f top ≤ f other := List.le_of_mem_argmax ((same top).mp htop) hy
          rw [inj top htop other hother (le_antisymm ge le)]

theorem argmax_cons_of_le (h : ∀ b ∈ xs, f b ≤ f a) : (a :: xs).argmax f = some a := by
  rw [List.argmax_cons]
  cases htop : xs.argmax f with
  | none => rfl
  | some top =>
      have le := h top (List.argmax_mem htop)
      exact if_neg (by omega)

end Greatest

mutual

theorem evaluate_congr {active active' : List Standing}
    (same : ∀ s, active.contains s = active'.contains s) :
    ∀ rule, evaluate active rule = evaluate active' rule
  | .hasEvidence standing => same standing
  | .anyOf first others => by
      rw [evaluate, evaluate, evaluate_congr same first, evaluateAny_congr same others]
  | .allOf first others => by
      rw [evaluate, evaluate, evaluate_congr same first, evaluateAll_congr same others]

theorem evaluateAny_congr {active active' : List Standing}
    (same : ∀ s, active.contains s = active'.contains s) :
    ∀ rules, evaluateAny active rules = evaluateAny active' rules
  | [] => rfl
  | rule :: rules => by
      rw [evaluateAny, evaluateAny, evaluate_congr same rule, evaluateAny_congr same rules]

theorem evaluateAll_congr {active active' : List Standing}
    (same : ∀ s, active.contains s = active'.contains s) :
    ∀ rules, evaluateAll active rules = evaluateAll active' rules
  | [] => rfl
  | rule :: rules => by
      rw [evaluateAll, evaluateAll, evaluate_congr same rule, evaluateAll_congr same rules]

end

section Selection

variable {evidence evidence' : List FieldEvidenceView}
  {iterated iterated' : List String → List String} {severityOrder : List String}
  {policy : FieldPolicy} {active : List Disqualifier} {v w : String}

structure Tie (evidence : List FieldEvidenceView) (severityOrder : List String) (v w : String) :
    Prop where
  left : v ∈ evidence.map (·.value)
  right : w ∈ evidence.map (·.value)
  differ : v ≠ w
  unlisted : v ∉ severityOrder
  unlisted' : w ∉ severityOrder

theorem severityRank_of_unlisted (h : v ∉ severityOrder) :
    severityRank severityOrder v = severityOrder.length := List.idxOf_eq_length h

theorem severityRank_le (severityOrder : List String) (v : String) :
    severityRank severityOrder v ≤ severityOrder.length := List.idxOf_le_length

theorem eq_of_severityRank_eq (untied : ∀ v w, ¬Tie evidence severityOrder v w)
    (hv : v ∈ evidence.map (·.value)) (hw : w ∈ evidence.map (·.value))
    (same : severityRank severityOrder v = severityRank severityOrder w) : v = w := by
  by_cases listed : v ∈ severityOrder
  · exact (List.idxOf_inj listed).mp same
  · have last := severityRank_of_unlisted listed
    have unlisted : w ∉ severityOrder := by
      intro mem
      have lt := List.idxOf_lt_length_iff.mpr mem
      unfold severityRank at same last
      omega
    by_contra differ
    exact untied v w ⟨hv, hw, differ, listed, unlisted⟩

theorem values_perm (h : evidence.Perm evidence') :
    (evidence.map (·.value)).Perm (evidence'.map (·.value)) := h.map _

theorem standing_contains_perm (h : evidence.Perm evidence') (s : Standing) :
    (evidence.map (·.standing)).contains s = (evidence'.map (·.standing)).contains s :=
  (h.map _).contains_eq

theorem strongest_perm (h : evidence.Perm evidence') {e : FieldEvidenceView} :
    Strongest evidence e ↔ Strongest evidence' e := by
  simp only [Strongest, h.mem_iff]

theorem preferred_perm (h : evidence.Perm evidence') :
    preferred evidence = preferred evidence' := by
  apply Option.ext
  intro v
  rw [preferred_eq_some, preferred_eq_some]
  simp only [strongest_perm h]

theorem singleValue_perm {values values' : List String} (h : values.Perm values') :
    singleValue values = singleValue values' := by
  apply Option.ext
  intro v
  simp only [singleValue_eq_some, h.mem_iff]

theorem selectBy_perm (h : evidence.Perm evidence') (sets : IteratesSets iterated)
    (sets' : IteratesSets iterated') {strategy : ConflictStrategy}
    (untied : strategy = .mostRestrictive → severityOrder ≠ [] →
      ∀ v w, ¬Tie evidence severityOrder v w) :
    selectBy iterated evidence severityOrder strategy =
      selectBy iterated' evidence' severityOrder strategy := by
  cases strategy with
  | preferConfirmed => simp only [selectBy, preferred_perm h]
  | mostRestrictive =>
      simp only [selectBy]
      split
      · rfl
      · next ordered =>
        congr 1
        apply argmax_eq_of_members
        · intro v
          rw [sets, sets', (values_perm h).mem_iff]
        · intro v hv w hw
          exact eq_of_severityRank_eq (untied rfl ordered) ((sets _ _).mp hv) ((sets _ _).mp hw)
  | unionClasses =>
      have sorted : KeySort.sortBy id (evidence.map (·.value)).dedup =
          KeySort.sortBy id (evidence'.map (·.value)).dedup :=
        (KeySort.sortBy_eq_iff fun _ _ _ _ same => same).mpr (values_perm h).dedup
      simp only [selectBy, sorted]
  | unresolvedOnConflict => simp only [selectBy, singleValue_perm (values_perm h)]

/-- The load-bearing value is picked among values that tie. -/
structure PicksAmongTied (policy : FieldPolicy) (evidence : List FieldEvidenceView)
    (active : List Disqualifier) : Prop where
  unbarred : barredReason policy active = none
  certified : policy.certifies (evidence.map (·.standing)) = true
  strategy : policy.conflictStrategy = .mostRestrictive
  tied : policy.severityOrder ≠ [] ∧ ∃ v w, Tie evidence policy.severityOrder v w

theorem certifies_perm (h : evidence.Perm evidence') :
    policy.certifies (evidence.map (·.standing)) =
      policy.certifies (evidence'.map (·.standing)) := by
  unfold FieldPolicy.certifies
  cases policy.operationalRule with
  | none => rfl
  | some rule => exact evaluate_congr (standing_contains_perm h) rule

theorem operationalOutcome_perm (h : evidence.Perm evidence') (sets : IteratesSets iterated)
    (sets' : IteratesSets iterated') (untied : ¬PicksAmongTied policy evidence active) :
    operationalOutcome iterated evidence policy active =
      operationalOutcome iterated' evidence' policy active := by
  unfold operationalOutcome
  rw [certifies_perm h]
  cases hbar : barredReason policy active with
  | some reason => rfl
  | none =>
      dsimp only
      split
      · rfl
      · next certified =>
        rw [not_not] at certified
        have picked : selectValue iterated evidence policy.conflictStrategy policy.severityOrder =
            selectValue iterated' evidence' policy.conflictStrategy policy.severityOrder := by
          unfold selectValue
          rw [selectBy_perm h sets sets']
          · by_cases none : evidence = []
            · rw [none] at h
              rw [if_pos none, if_pos h.nil_eq.symm]
            · rw [if_neg none, if_neg fun none' => none (by rw [none'] at h; exact h.eq_nil)]
          · intro strategy ordered v w tie
            exact untied ⟨hbar, (certifies_perm h).trans certified, strategy, ordered, v, w, tie⟩
        rw [picked]

theorem resolveFieldAuthority_perm (h : evidence.Perm evidence') (sets : IteratesSets iterated)
    (sets' : IteratesSets iterated') (untied : ¬PicksAmongTied policy evidence active) :
    resolveFieldAuthority iterated evidence policy active =
      resolveFieldAuthority iterated' evidence' policy active := by
  have shown := evaluate_congr (standing_contains_perm h) policy.displayRule
  unfold resolveFieldAuthority
  rw [operationalOutcome_perm h sets sets' untied, shown, preferred_perm h]

/-- A set iterated from one of its members on. -/
def startingAt (v : String) (values : List String) : List String :=
  if v ∈ values then v :: values else values

theorem iteratesSets_startingAt (v : String) : IteratesSets (startingAt v) := by
  intro values u
  unfold startingAt
  split
  · next mem =>
    rw [List.mem_cons]
    constructor
    · intro h
      cases h with
      | inl same => exact same ▸ mem
      | inr h => exact h
    · exact Or.inr
  · rfl

theorem argmax_startingAt (hv : v ∈ evidence.map (·.value)) (unlisted : v ∉ severityOrder) :
    (startingAt v (evidence.map (·.value))).argmax (severityRank severityOrder) = some v := by
  rw [startingAt, if_pos hv]
  apply argmax_cons_of_le
  intro w _
  rw [severityRank_of_unlisted unlisted]
  exact severityRank_le severityOrder w

theorem loadBearing_startingAt (picks : PicksAmongTied policy evidence active)
    (hv : v ∈ evidence.map (·.value)) (unlisted : v ∉ policy.severityOrder) :
    ∃ resolution, resolveFieldAuthority (startingAt v) evidence policy active = .ok resolution ∧
      resolution.loadBearingValue = some v := by
  obtain ⟨unbarred, certified, strategy, ordered, _⟩ := picks
  have some : evidence ≠ [] := by
    rintro rfl
    exact absurd hv List.not_mem_nil
  have picked : selectValue (startingAt v) evidence policy.conflictStrategy policy.severityOrder =
      .ok (Option.some v) := by
    simp only [selectValue, some, if_false, strategy, selectBy, ordered,
      argmax_startingAt hv unlisted]
  have outcome : operationalOutcome (startingAt v) evidence policy active = .ok (.inl v) := by
    simp [operationalOutcome, unbarred, certified, picked, Except.map]
  exact ⟨_, by rw [resolveFieldAuthority, outcome]; rfl, rfl⟩

/-- A resolution is a function of which evidence there is. -/
def OrderFree (policy : FieldPolicy) (evidence : List FieldEvidenceView)
    (active : List Disqualifier) : Prop :=
  ∀ evidence' iterated iterated', evidence.Perm evidence' → IteratesSets iterated →
    IteratesSets iterated' → resolveFieldAuthority iterated evidence policy active =
      resolveFieldAuthority iterated' evidence' policy active

theorem orderFree_iff :
    OrderFree policy evidence active ↔ ¬PicksAmongTied policy evidence active := by
  constructor
  · intro free picks
    obtain ⟨v, w, tie⟩ := picks.tied.2
    obtain ⟨first, hfirst, bears⟩ := loadBearing_startingAt picks tie.left tie.unlisted
    obtain ⟨second, hsecond, bears'⟩ := loadBearing_startingAt picks tie.right tie.unlisted'
    have same := free evidence (startingAt v) (startingAt w) (List.Perm.refl _)
      (iteratesSets_startingAt v) (iteratesSets_startingAt w)
    rw [hfirst, hsecond, Except.ok.injEq] at same
    rw [same, bears'] at bears
    exact tie.differ (Option.some.inj bears).symm
  · intro untied evidence' iterated iterated' h sets sets'
    exact resolveFieldAuthority_perm h sets sets' untied

end Selection

section Restriction

variable {floors floors' classes classes' : List FieldEvidenceView}
  {iterated iterated' : List String → List String} {active : List Disqualifier} {lb v w : String}

def certifiedAt (floors : List FieldEvidenceView) (v : String) : String :=
  raisedFloor (taxonomyFloor floors) [toRestriction v]

/-- The certified value is picked among values that tie and restrict differently. -/
structure RestrictsAmongTied (floors classes : List FieldEvidenceView)
    (active : List Disqualifier) : Prop where
  unbarred : barredReason FieldPolicy.sensitivity active = none
  certified : FieldPolicy.sensitivity.certifies (classes.map (·.standing)) = true
  tied : ∃ v w, Tie classes sensitivityOrder v w ∧ certifiedAt floors v ≠ certifiedAt floors w

theorem taxonomyFloor_perm (h : floors.Perm floors') :
    taxonomyFloor floors = taxonomyFloor floors' := by
  have sub : restrictions floors ⊆ restrictions floors' := List.map_subset _ h.subset
  have sub' : restrictions floors' ⊆ restrictions floors := List.map_subset _ h.symm.subset
  exact eq_of_restrictionRank_eq (raisedFloor_mem _ _) (raisedFloor_mem _ _)
    (le_antisymm (raisedFloor_mono le_rfl sub) (raisedFloor_mono le_rfl sub'))

theorem Certifies.agrees (h : Certifies iterated classes active lb) (perm : classes.Perm classes')
    (sets : IteratesSets iterated) (sets' : IteratesSets iterated') :
    ∃ lb', Certifies iterated' classes' active lb' ∧
      (lb' = lb ∨ Tie classes sensitivityOrder lb' lb) := by
  have mem := h.mem sets
  have mem' : lb ∈ iterated' (classes'.map (·.value)) :=
    (sets' _ _).mpr ((values_perm perm).mem_iff.mp mem)
  cases htop : (iterated' (classes'.map (·.value))).argmax (severityRank sensitivityOrder) with
  | none =>
      rw [List.argmax_eq_none] at htop
      rw [htop] at mem'
      exact absurd mem' List.not_mem_nil
  | some lb' =>
      have certified := (certifies_perm perm).symm.trans h.2.1
      refine ⟨lb', ⟨h.1, certified, htop⟩, ?_⟩
      have found : lb' ∈ classes.map (·.value) :=
        (values_perm perm).mem_iff.mpr ((sets' _ _).mp (List.argmax_mem htop))
      have le : severityRank sensitivityOrder lb' ≤ severityRank sensitivityOrder lb :=
        List.le_of_mem_argmax ((sets _ _).mpr found) h.2.2
      have ge : severityRank sensitivityOrder lb ≤ severityRank sensitivityOrder lb' :=
        List.le_of_mem_argmax mem' htop
      by_contra apart
      rw [not_or] at apart
      by_cases listed : lb' ∈ sensitivityOrder
      · exact apart.1 ((List.idxOf_inj listed).mp (le_antisymm le ge))
      · have last := severityRank_of_unlisted listed
        refine apart.2 ⟨found, mem, apart.1, listed, fun mem => ?_⟩
        have lt := List.idxOf_lt_length_iff.mpr mem
        unfold severityRank at last le ge
        omega

theorem certifiedRestriction_of_agrees {d d' : SensitivityDecision} {c : String}
    (hfloors : floors.Perm floors') (hclasses : classes.Perm classes')
    (sets : IteratesSets iterated) (sets' : IteratesSets iterated')
    (untied : ¬RestrictsAmongTied floors classes active)
    (hd : resolveSensitivity iterated floors classes active = .ok d)
    (hd' : resolveSensitivity iterated' floors' classes' active = .ok d')
    (hc : d.certifiedRestriction = some c) : d'.certifiedRestriction = some c := by
  obtain ⟨made, hmade, _, certified⟩ := exists_decision iterated floors classes active
  obtain ⟨made', hmade', _, certified'⟩ := exists_decision iterated' floors' classes' active
  obtain rfl : made = d := Except.ok.inj (hmade.symm.trans hd)
  obtain rfl : made' = d' := Except.ok.inj (hmade'.symm.trans hd')
  obtain ⟨lb, hlb, rfl⟩ := (certified c).mp hc
  obtain ⟨lb', hlb', alike⟩ := hlb.agrees hclasses sets sets'
  refine (certified' _).mpr ⟨lb', hlb', ?_⟩
  rw [← taxonomyFloor_perm hfloors]
  cases alike with
  | inl same => rw [same]
  | inr tie =>
      by_contra differ
      exact untied ⟨hlb.1, hlb.2.1, lb', lb, tie, differ⟩

def RestrictionOrderFree (floors classes : List FieldEvidenceView) (active : List Disqualifier) :
    Prop :=
  ∀ floors' classes' iterated iterated', floors.Perm floors' → classes.Perm classes' →
    IteratesSets iterated → IteratesSets iterated' →
      (resolveSensitivity iterated floors classes active).map (·.certifiedRestriction) =
        (resolveSensitivity iterated' floors' classes' active).map (·.certifiedRestriction)

theorem not_restrictsAmongTied_perm (hfloors : floors.Perm floors')
    (hclasses : classes.Perm classes') (untied : ¬RestrictsAmongTied floors classes active) :
    ¬RestrictsAmongTied floors' classes' active := by
  intro tied
  obtain ⟨unbarred, certified, v, w, tie, differ⟩ := tied
  have members := fun u => (values_perm hclasses).mem_iff (a := u)
  refine untied ⟨unbarred, (certifies_perm hclasses).trans certified, v, w,
    ⟨(members v).mpr tie.left, (members w).mpr tie.right, tie.differ, tie.unlisted,
      tie.unlisted'⟩, ?_⟩
  rwa [certifiedAt, certifiedAt, taxonomyFloor_perm hfloors]

theorem certifies_startingAt (tied : RestrictsAmongTied floors classes active)
    (hv : v ∈ classes.map (·.value)) (unlisted : v ∉ sensitivityOrder) :
    Certifies (startingAt v) classes active v :=
  ⟨tied.unbarred, tied.certified, argmax_startingAt hv unlisted⟩

theorem restrictionOrderFree_iff :
    RestrictionOrderFree floors classes active ↔ ¬RestrictsAmongTied floors classes active := by
  constructor
  · intro free tied
    obtain ⟨v, w, tie, differ⟩ := tied.tied
    obtain ⟨d, hd, _, certified⟩ := exists_decision (startingAt v) floors classes active
    obtain ⟨d', hd', _, certified'⟩ := exists_decision (startingAt w) floors classes active
    have first := (certified _).mpr ⟨v, certifies_startingAt tied tie.left tie.unlisted, rfl⟩
    have second := (certified' _).mpr ⟨w, certifies_startingAt tied tie.right tie.unlisted', rfl⟩
    have same := free floors classes (startingAt v) (startingAt w) (List.Perm.refl _)
      (List.Perm.refl _) (iteratesSets_startingAt v) (iteratesSets_startingAt w)
    rw [hd, hd', Except.map, Except.map, Except.ok.injEq, first, second] at same
    exact differ (Option.some.inj same)
  · intro untied floors' classes' iterated iterated' hfloors hclasses sets sets'
    obtain ⟨d, hd, _⟩ := exists_decision iterated floors classes active
    obtain ⟨d', hd', _⟩ := exists_decision iterated' floors' classes' active
    have untied' := not_restrictsAmongTied_perm hfloors hclasses untied
    rw [hd, hd', Except.map, Except.map, Except.ok.injEq]
    apply Option.ext
    intro c
    constructor
    · exact certifiedRestriction_of_agrees hfloors hclasses sets sets' untied hd hd'
    · exact certifiedRestriction_of_agrees hfloors.symm hclasses.symm sets' sets untied' hd' hd

end Restriction

/-- Resolution is a function of the evidence set but where it picks among values that tie. -/
theorem resolution_order_free_iff (policy : FieldPolicy) (evidence : List FieldEvidenceView)
    (active : List Disqualifier) (floors classes : List FieldEvidenceView)
    (classActive : List Disqualifier) :
    (OrderFree policy evidence active ↔ ¬PicksAmongTied policy evidence active) ∧
      (RestrictionOrderFree floors classes classActive ↔
        ¬RestrictsAmongTied floors classes classActive) :=
  ⟨orderFree_iff, restrictionOrderFree_iff⟩

/-- A source attests one concept's label, and a person has confirmed another's. -/
def conceptLabels : List FieldEvidenceView :=
  [⟨.source, .attested, "pii", "fev_1"⟩, ⟨.human, .confirmed, "proxy", "fev_2"⟩]

theorem concept_labels_picked_by_order :
    ¬OrderFree FieldPolicy.sensitivity conceptLabels [] ∧
      ¬RestrictionOrderFree [] conceptLabels [] := by
  constructor
  · intro free
    have same := free conceptLabels (startingAt "pii") (startingAt "proxy") (List.Perm.refl _)
      (iteratesSets_startingAt "pii") (iteratesSets_startingAt "proxy")
    have bearing := congrArg (Except.map FieldResolution.loadBearingValue) same
    revert bearing
    decide +kernel
  · intro free
    have same := free [] conceptLabels (startingAt "pii") (startingAt "proxy") (List.Perm.refl _)
      (List.Perm.refl _) (iteratesSets_startingAt "pii") (iteratesSets_startingAt "proxy")
    revert same
    decide +kernel

end FeatureGen.Overlay
