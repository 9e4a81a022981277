import Mathlib
import FeatureGen.Overlay.SafetyFloor

/-! # What holds a restriction up

The effective restriction is the least that is at or above every floor and every
proposal. A certified one is only clamped to the floors: the classification that it
restricts is picked before the two vocabularies are mapped into one.
-/

namespace FeatureGen.Overlay

section Severity

variable {floor value : String} {proposals : List String}

theorem restrictionRank_eq_min (value : String) :
    restrictionRank value = min (severityRank sensitivityOrder value) 4 := by
  unfold restrictionRank severityRank
  split
  · next listed =>
      have bound : sensitivityOrder.idxOf value < 5 :=
        List.idxOf_lt_length_iff.mpr (List.contains_iff_mem.mp listed)
      omega
  · next listed =>
      have last : sensitivityOrder.idxOf value = 5 :=
        List.idxOf_eq_length (fun mem => listed (List.contains_iff_mem.mpr mem))
      rw [last]
      decide

theorem restrictionRank_mono {v w : String}
    (h : severityRank sensitivityOrder v ≤ severityRank sensitivityOrder w) :
    restrictionRank v ≤ restrictionRank w := by
  rw [restrictionRank_eq_min, restrictionRank_eq_min]
  omega

theorem normalizeRestriction_mem (value : String) :
    normalizeRestriction value ∈ sensitivityOrder := by
  unfold normalizeRestriction
  split
  · next listed => exact List.contains_iff_mem.mp listed
  · decide

@[simp]
theorem restrictionRank_normalizeRestriction (value : String) :
    restrictionRank (normalizeRestriction value) = restrictionRank value := by
  unfold normalizeRestriction
  split
  · rfl
  · next unlisted =>
      have last : sensitivityOrder.contains prohibited = true := by decide
      rw [restrictionRank, restrictionRank, if_pos last, if_neg unlisted]

theorem eq_of_restrictionRank_eq {v w : String} (hv : v ∈ sensitivityOrder)
    (hw : w ∈ sensitivityOrder) (h : restrictionRank v = restrictionRank w) : v = w := by
  have apart : ∀ v ∈ sensitivityOrder, ∀ w ∈ sensitivityOrder,
      restrictionRank v = restrictionRank w → v = w := by
    decide
  exact apart v hv w hw h

theorem mostRestrictive_mem (floor : String) (proposals : List String) :
    mostRestrictive floor proposals ∈ floor :: proposals := by
  unfold mostRestrictive
  cases h : (floor :: proposals).argmax restrictionRank with
  | none => exact List.mem_cons_self
  | some top => exact List.argmax_mem h

theorem le_mostRestrictive (h : value ∈ floor :: proposals) :
    restrictionRank value ≤ restrictionRank (mostRestrictive floor proposals) := by
  unfold mostRestrictive
  cases htop : (floor :: proposals).argmax restrictionRank with
  | none => simp [List.argmax_eq_none] at htop
  | some top => exact List.le_of_mem_argmax h htop

theorem raisedFloor_mem (floor : String) (proposals : List String) :
    raisedFloor floor proposals ∈ sensitivityOrder :=
  normalizeRestriction_mem _

theorem raisedFloor_le_iff {n : ℕ} : restrictionRank (raisedFloor floor proposals) ≤ n ↔
    restrictionRank floor ≤ n ∧ ∀ p ∈ proposals, restrictionRank p ≤ n := by
  rw [raisedFloor, restrictionRank_normalizeRestriction]
  constructor
  · intro h
    exact ⟨(le_mostRestrictive List.mem_cons_self).trans h, fun p hp =>
      (le_mostRestrictive (List.mem_cons_of_mem _ hp)).trans h⟩
  · intro h
    have all : ∀ p ∈ floor :: proposals, restrictionRank p ≤ n := List.forall_mem_cons.mpr h
    exact all _ (mostRestrictive_mem floor proposals)

theorem floor_le_raisedFloor :
    restrictionRank floor ≤ restrictionRank (raisedFloor floor proposals) :=
  (raisedFloor_le_iff.mp le_rfl).1

theorem proposal_le_raisedFloor (h : value ∈ proposals) :
    restrictionRank value ≤ restrictionRank (raisedFloor floor proposals) :=
  (raisedFloor_le_iff.mp le_rfl).2 value h

theorem raisedFloor_mono {floor' : String} {proposals' : List String}
    (hfloor : restrictionRank floor ≤ restrictionRank floor')
    (h : ∀ p ∈ proposals, p ∈ proposals') :
    restrictionRank (raisedFloor floor proposals) ≤
      restrictionRank (raisedFloor floor' proposals') :=
  raisedFloor_le_iff.mpr ⟨hfloor.trans floor_le_raisedFloor, fun p hp =>
    proposal_le_raisedFloor (h p hp)⟩

end Severity

section Classification

variable {iterated : List String → List String} {classes classes' : List FieldEvidenceView}
  {active : List Disqualifier} {lb : String}

def Certifies (iterated : List String → List String) (classes : List FieldEvidenceView)
    (active : List Disqualifier) (lb : String) : Prop :=
  barredReason FieldPolicy.sensitivity active = none ∧
    FieldPolicy.sensitivity.certifies (classes.map (·.standing)) = true ∧
    lb ∈ (iterated (classes.map (·.value))).argmax (severityRank sensitivityOrder)

theorem certifies_mono (h : classes ⊆ classes')
    (certified : FieldPolicy.sensitivity.certifies (classes.map (·.standing)) = true) :
    FieldPolicy.sensitivity.certifies (classes'.map (·.standing)) = true := by
  have listed : ∀ cs : List FieldEvidenceView,
      FieldPolicy.sensitivity.certifies (cs.map (·.standing)) = true ↔
        (.source, .attested) ∈ cs.map (·.standing) ∨ (.human, .confirmed) ∈ cs.map (·.standing) := by
    intro cs
    simp [FieldPolicy.certifies, FieldPolicy.sensitivity, AuthorityPredicate.sourceOrHuman,
      AuthorityPredicate.sourceAttested, AuthorityPredicate.humanConfirmed, evaluate, evaluateAny]
  rw [listed] at certified ⊢
  exact certified.imp (fun mem => List.map_subset _ h mem) (fun mem => List.map_subset _ h mem)

theorem nonempty_of_certifies
    (certified : FieldPolicy.sensitivity.certifies (classes.map (·.standing)) = true) :
    classes ≠ [] := by
  intro none
  subst none
  revert certified
  decide

theorem exists_outcome (iterated : List String → List String) (classes : List FieldEvidenceView)
    (active : List Disqualifier) :
    ∃ outcome, operationalOutcome iterated classes FieldPolicy.sensitivity active = .ok outcome ∧
      ∀ lb, outcome.getLeft? = some lb ↔ Certifies iterated classes active lb := by
  cases hbar : barredReason FieldPolicy.sensitivity active with
  | some reason =>
      refine ⟨.inr reason, by simp [operationalOutcome, hbar], ?_⟩
      simp [Certifies, hbar]
  | none =>
      cases hcert : FieldPolicy.sensitivity.certifies (classes.map (·.standing)) with
      | false =>
          refine ⟨.inr "authority_insufficient", by simp [operationalOutcome, hbar, hcert], ?_⟩
          simp [Certifies, hcert]
      | true =>
          have nonempty := nonempty_of_certifies hcert
          have ordered : sensitivityOrder ≠ [] := by decide
          have picked : selectValue iterated classes FieldPolicy.sensitivity.conflictStrategy
              FieldPolicy.sensitivity.severityOrder =
                .ok ((iterated (classes.map (·.value))).argmax (severityRank sensitivityOrder)) := by
            simp [selectValue, nonempty, selectBy, FieldPolicy.sensitivity, ordered]
          refine ⟨((iterated (classes.map (·.value))).argmax
            (severityRank sensitivityOrder)).elim (.inr "conflict") .inl, ?_, ?_⟩
          · simp [operationalOutcome, hbar, hcert, picked, Except.map]
          · intro lb
            cases hpick : (iterated (classes.map (·.value))).argmax
                (severityRank sensitivityOrder) with
            | none => simp [Certifies, hpick]
            | some top => simp [Certifies, hbar, hcert, hpick]

/-- A set is iterated in some order, each member once or more. -/
def IteratesSets (iterated : List String → List String) : Prop :=
  ∀ values v, v ∈ iterated values ↔ v ∈ values

theorem Certifies.mem (sets : IteratesSets iterated) (h : Certifies iterated classes active lb) :
    lb ∈ classes.map (·.value) :=
  (sets _ _).mp (List.argmax_mem h.2.2)

theorem Certifies.le (sets : IteratesSets iterated) (h : Certifies iterated classes active lb)
    {e : FieldEvidenceView} (he : e ∈ classes) :
    severityRank sensitivityOrder e.value ≤ severityRank sensitivityOrder lb :=
  List.le_of_mem_argmax ((sets _ _).mpr (List.mem_map_of_mem he)) h.2.2

theorem Certifies.mono (sets : IteratesSets iterated) (h : Certifies iterated classes active lb)
    (more : classes ⊆ classes') : ∃ lb', Certifies iterated classes' active lb' := by
  have listed : lb ∈ iterated (classes'.map (·.value)) :=
    (sets _ _).mpr (List.map_subset _ more (h.mem sets))
  cases htop : (iterated (classes'.map (·.value))).argmax (severityRank sensitivityOrder) with
  | none =>
      rw [List.argmax_eq_none] at htop
      rw [htop] at listed
      exact absurd listed List.not_mem_nil
  | some top => exact ⟨top, h.1, certifies_mono more h.2.1, htop⟩

end Classification

def restrictions (evidence : List FieldEvidenceView) : List String :=
  evidence.map fun e => toRestriction e.value

def taxonomyFloor (floors : List FieldEvidenceView) : String :=
  raisedFloor "public" (restrictions floors)

/-- No label is of the concepts' vocabulary, but where the two agree on it. -/
def Unmapped (classes : List FieldEvidenceView) : Prop :=
  ∀ e ∈ classes, toRestriction e.value = e.value

section Sensitivity

variable {iterated : List String → List String} {floors floors' classes classes' :
  List FieldEvidenceView} {active : List Disqualifier} {d d' : SensitivityDecision} {c lb : String}

theorem exists_decision (iterated : List String → List String)
    (floors classes : List FieldEvidenceView) (active : List Disqualifier) :
    ∃ d, resolveSensitivity iterated floors classes active = .ok d ∧
      d.effectiveRestriction = raisedFloor (taxonomyFloor floors) (restrictions classes) ∧
      ∀ c, d.certifiedRestriction = some c ↔ ∃ lb, Certifies iterated classes active lb ∧
        raisedFloor (taxonomyFloor floors) [toRestriction lb] = c := by
  obtain ⟨outcome, houtcome, hlb⟩ := exists_outcome iterated classes active
  refine ⟨_, by rw [resolveSensitivity, resolveFieldAuthority, houtcome]; rfl, rfl, fun c => ?_⟩
  simp only [Option.map_eq_some_iff, hlb]
  rfl

structure FloorHolds (floors classes : List FieldEvidenceView) (d : SensitivityDecision) :
    Prop where
  known : d.effectiveRestriction ∈ sensitivityOrder
  restricts : ∀ e ∈ floors ++ classes,
    restrictionRank (toRestriction e.value) ≤ restrictionRank d.effectiveRestriction
  unknown : (∃ e ∈ floors ++ classes, toRestriction e.value ∉ sensitivityOrder) →
    d.effectiveRestriction = prohibited
  clamped : ∀ c, d.certifiedRestriction = some c → c ∈ sensitivityOrder ∧
    ∀ e ∈ floors, restrictionRank (toRestriction e.value) ≤ restrictionRank c
  certified : Unmapped classes → ∀ c, d.certifiedRestriction = some c → c = d.effectiveRestriction

/-- A decision of more evidence restricts no less; and where it certifies, no less either. -/
structure NotLowered (classes classes' : List FieldEvidenceView) (d d' : SensitivityDecision) :
    Prop where
  restricts : restrictionRank d.effectiveRestriction ≤ restrictionRank d'.effectiveRestriction
  certified : classes = classes' ∨ Unmapped classes' → ∀ c, d.certifiedRestriction = some c →
    ∃ c', d'.certifiedRestriction = some c' ∧ restrictionRank c ≤ restrictionRank c'

theorem mem_restrictions {evidence : List FieldEvidenceView} {e : FieldEvidenceView}
    (h : e ∈ evidence) : toRestriction e.value ∈ restrictions evidence :=
  List.mem_map_of_mem h

theorem restrictions_subset (h : floors ⊆ floors') :
    ∀ p ∈ restrictions floors, p ∈ restrictions floors' :=
  fun _ hp => List.map_subset _ h hp

theorem Certifies.restricts (sets : IteratesSets iterated) (unmapped : Unmapped classes)
    (h : Certifies iterated classes active lb) :
    ∀ p ∈ restrictions classes, restrictionRank p ≤ restrictionRank (toRestriction lb) := by
  intro p hp
  obtain ⟨e, he, rfl⟩ := List.mem_map.mp hp
  obtain ⟨top, htop, rfl⟩ := List.mem_map.mp (h.mem sets)
  rw [unmapped e he, unmapped top htop]
  exact restrictionRank_mono (h.le sets he)

theorem Certifies.raised_eq (sets : IteratesSets iterated) (unmapped : Unmapped classes)
    (h : Certifies iterated classes active lb) (floor : String) :
    raisedFloor floor [toRestriction lb] = raisedFloor floor (restrictions classes) := by
  refine eq_of_restrictionRank_eq (raisedFloor_mem _ _) (raisedFloor_mem _ _) (le_antisymm ?_ ?_)
  · refine raisedFloor_le_iff.mpr ⟨floor_le_raisedFloor, fun p hp => ?_⟩
    obtain rfl := List.mem_singleton.mp hp
    obtain ⟨top, htop, rfl⟩ := List.mem_map.mp (h.mem sets)
    exact proposal_le_raisedFloor (mem_restrictions htop)
  · refine raisedFloor_le_iff.mpr ⟨floor_le_raisedFloor, fun p hp => ?_⟩
    exact (h.restricts sets unmapped p hp).trans
      (proposal_le_raisedFloor (List.mem_singleton.mpr rfl))

theorem floorHolds (sets : IteratesSets iterated)
    (h : resolveSensitivity iterated floors classes active = .ok d) :
    FloorHolds floors classes d := by
  obtain ⟨made, hmade, effective, certified⟩ := exists_decision iterated floors classes active
  obtain rfl : made = d := Except.ok.inj (hmade.symm.trans h)
  have restricts : ∀ e ∈ floors ++ classes,
      restrictionRank (toRestriction e.value) ≤ restrictionRank made.effectiveRestriction := by
    intro e he
    rw [effective]
    cases List.mem_append.mp he with
    | inl floor =>
        have raised : restrictionRank (toRestriction e.value) ≤
            restrictionRank (taxonomyFloor floors) :=
          proposal_le_raisedFloor (mem_restrictions floor)
        exact raised.trans floor_le_raisedFloor
    | inr label => exact proposal_le_raisedFloor (mem_restrictions label)
  have known : made.effectiveRestriction ∈ sensitivityOrder := effective ▸ raisedFloor_mem _ _
  refine ⟨known, restricts, ?_, ?_, ?_⟩
  · intro unknown
    obtain ⟨e, he, unlisted⟩ := unknown
    have last : restrictionRank (toRestriction e.value) = restrictionRank prohibited := by
      have listed : ¬ sensitivityOrder.contains (toRestriction e.value) = true :=
        fun mem => unlisted (List.contains_iff_mem.mp mem)
      rw [restrictionRank, if_neg listed]
      decide
    have top : restrictionRank made.effectiveRestriction ≤ restrictionRank prohibited := by
      rw [restrictionRank_eq_min]
      exact min_le_right _ _
    refine eq_of_restrictionRank_eq known (by decide) (le_antisymm top ?_)
    exact last ▸ restricts e he
  · intro c hc
    obtain ⟨lb, _, rfl⟩ := (certified c).mp hc
    refine ⟨raisedFloor_mem _ _, fun e he => ?_⟩
    have raised : restrictionRank (toRestriction e.value) ≤
        restrictionRank (taxonomyFloor floors) :=
      proposal_le_raisedFloor (mem_restrictions he)
    exact raised.trans floor_le_raisedFloor
  · intro unmapped c hc
    obtain ⟨lb, hlb, rfl⟩ := (certified c).mp hc
    rw [effective, hlb.raised_eq sets unmapped]

theorem notLowered (sets : IteratesSets iterated) (hfloors : floors ⊆ floors')
    (hclasses : classes ⊆ classes')
    (h : resolveSensitivity iterated floors classes active = .ok d)
    (h' : resolveSensitivity iterated floors' classes' active = .ok d') :
    NotLowered classes classes' d d' := by
  obtain ⟨made, hmade, effective, certified⟩ := exists_decision iterated floors classes active
  obtain ⟨made', hmade', effective', certified'⟩ := exists_decision iterated floors' classes' active
  obtain rfl : made = d := Except.ok.inj (hmade.symm.trans h)
  obtain rfl : made' = d' := Except.ok.inj (hmade'.symm.trans h')
  have floor : restrictionRank (taxonomyFloor floors) ≤ restrictionRank (taxonomyFloor floors') :=
    raisedFloor_mono le_rfl (restrictions_subset hfloors)
  have restricts : restrictionRank made.effectiveRestriction ≤
      restrictionRank made'.effectiveRestriction := by
    rw [effective, effective']
    exact raisedFloor_mono floor (restrictions_subset hclasses)
  refine ⟨restricts, fun alike c hc => ?_⟩
  obtain ⟨lb, hlb, rfl⟩ := (certified c).mp hc
  obtain ⟨lb', hlb'⟩ := hlb.mono sets hclasses
  cases alike with
  | inl same =>
      subst same
      exact ⟨_, (certified' _).mpr ⟨lb, hlb, rfl⟩, raisedFloor_mono floor fun _ => id⟩
  | inr unmapped =>
      have smaller : Unmapped classes := fun e he => unmapped e (hclasses he)
      refine ⟨_, (certified' _).mpr ⟨lb', hlb', rfl⟩, ?_⟩
      rw [hlb.raised_eq sets smaller, hlb'.raised_eq sets unmapped]
      exact raisedFloor_mono floor (restrictions_subset hclasses)

end Sensitivity

structure Granted (o : SafetyOverride) (floor forced : String) (now : ℤ) : Prop where
  field : o.field = "sensitivity"
  floor : o.previousFloor = floor
  value : o.overrideValue = forced
  authority : o.approvedByAuthority = .privacy ∨ o.approvedByAuthority = .security
  started : ∀ start, o.effectiveFrom = some start → start ≤ now
  unexpired : ∀ stop, o.effectiveUntil = some stop → now ≤ stop

theorem permitsDowngrade_iff {o : SafetyOverride} {floor forced : String} {now : ℤ} :
    o.permitsDowngrade floor forced now = true ↔ Granted o floor forced now := by
  simp only [SafetyOverride.permitsDowngrade, SafetyOverride.isEffective, downgradeAuthorities,
    Bool.and_eq_true, decide_eq_true_eq, List.contains_iff_mem, List.mem_cons, List.not_mem_nil,
    or_false, Option.all_eq_true]
  constructor
  · intro h
    exact ⟨h.1.1.1.1, h.1.1.1.2, h.1.1.2, h.1.2, h.2.1, h.2.2⟩
  · intro h
    exact ⟨⟨⟨⟨h.field, h.floor⟩, h.value⟩, h.authority⟩, h.started, h.unexpired⟩

theorem granted_of_below {floor : String} {proposals : List String}
    {override : Option SafetyOverride} {forceTo : Option String} {now : ℤ} {v : String}
    (h : applySensitivityFloor floor proposals override forceTo now = .ok v) :
    v ∈ sensitivityOrder ∧
      (restrictionRank v < restrictionRank (raisedFloor floor proposals) →
        ∃ o forced, override = some o ∧ forceTo = some forced ∧ v = normalizeRestriction forced ∧
          Granted o floor forced now) := by
  cases forceTo with
  | none =>
      obtain rfl : raisedFloor floor proposals = v := Except.ok.inj h
      exact ⟨raisedFloor_mem _ _, fun below => absurd below (lt_irrefl _)⟩
  | some forced =>
      simp only [applySensitivityFloor] at h
      split at h
      · next raised =>
          obtain rfl := Except.ok.inj h
          exact ⟨normalizeRestriction_mem _, fun below => absurd below (not_lt.mpr raised)⟩
      · split at h
        · next permitted =>
            obtain rfl := Except.ok.inj h
            obtain ⟨o, ho, granted⟩ := (Option.any_eq_true _ _).mp permitted
            exact ⟨normalizeRestriction_mem _, fun _ =>
              ⟨o, forced, ho, rfl, rfl, permitsDowngrade_iff.mp granted⟩⟩
        · cases h

/-- The sensitivity floor holds: for every decision over the evidence, for every two decisions of
    which one has more evidence, and for every value that a floor is taken to. -/
theorem sensitivity_floor_holds (iterated : List String → List String)
    (sets : IteratesSets iterated) :
    (∀ floors classes active, ∃ d,
      resolveSensitivity iterated floors classes active = .ok d ∧ FloorHolds floors classes d) ∧
    (∀ floors floors' classes classes' active d d', floors ⊆ floors' → classes ⊆ classes' →
      resolveSensitivity iterated floors classes active = .ok d →
      resolveSensitivity iterated floors' classes' active = .ok d' →
        NotLowered classes classes' d d') ∧
    ∀ floor proposals override forceTo now v,
      applySensitivityFloor floor proposals override forceTo now = .ok v →
        (∀ p ∈ floor :: proposals, restrictionRank p ≤ restrictionRank v) ∨
          ∃ o forced, override = some o ∧ forceTo = some forced ∧ v = normalizeRestriction forced ∧
            Granted o floor forced now := by
  refine ⟨fun floors classes active => ?_, fun floors floors' classes classes' active d d' => ?_,
    fun floor proposals override forceTo now v h => ?_⟩
  · obtain ⟨d, hd, _⟩ := exists_decision iterated floors classes active
    exact ⟨d, hd, floorHolds sets hd⟩
  · exact notLowered sets
  · by_cases below : restrictionRank v < restrictionRank (raisedFloor floor proposals)
    · exact Or.inr ((granted_of_below h).2 below)
    · left
      intro p hp
      have raised := not_lt.mp below
      have bounds : ∀ p ∈ floor :: proposals, restrictionRank p ≤ restrictionRank v :=
        List.forall_mem_cons.mpr (raisedFloor_le_iff.mp raised)
      exact bounds p hp

/-- A source attests one restriction, and a person has confirmed a concept's label. -/
def proxyConfirmed : List FieldEvidenceView :=
  [⟨.source, .attested, "restricted", "fev_1"⟩, ⟨.human, .confirmed, "proxy", "fev_2"⟩]

/-- A downgrade from public, which nothing is below. -/
def fromPublic : SafetyOverride where
  factKey := "bank::public.customers.name"
  field := "sensitivity"
  previousFloor := "public"
  overrideValue := "internal"
  approvedByAuthority := .privacy
  rationale := "tokenized"
  policyReference := "POL-1"
  effectiveFrom := none
  effectiveUntil := none

theorem iteratesSets_dedup : IteratesSets List.dedup :=
  fun _ _ => List.mem_dedup

theorem fromPublic_downgrades : applySensitivityFloor "public" ["restricted"] (some fromPublic)
    (some "internal") 0 = .ok "internal" := by
  rfl

theorem sensitivity_floor_holds_proxy :
    (∃ d, resolveSensitivity List.dedup [] proxyConfirmed [] = .ok d ∧
      FloorHolds [] proxyConfirmed d) ∧
    (∀ d d', resolveSensitivity List.dedup [] [] [] = .ok d →
      resolveSensitivity List.dedup [] proxyConfirmed [] = .ok d' →
        NotLowered [] proxyConfirmed d d') ∧
    ((∀ p ∈ ["public", "restricted"], restrictionRank p ≤ restrictionRank "internal") ∨
      ∃ o forced, some fromPublic = some o ∧ some "internal" = some forced ∧
        "internal" = normalizeRestriction forced ∧ Granted o "public" forced 0) :=
  have holds := sensitivity_floor_holds List.dedup iteratesSets_dedup
  ⟨holds.1 [] proxyConfirmed [],
    fun d d' => holds.2.1 [] [] [] proxyConfirmed [] d d' (List.Subset.refl _)
      (List.nil_subset _),
    holds.2.2 "public" ["restricted"] (some fromPublic) (some "internal") 0 "internal"
      fromPublic_downgrades⟩

/-- A certified restriction is below a classification, and a value is below a proposal on an
    override that was granted against another level. -/
theorem certified_below_classification :
    ((resolveSensitivity List.dedup [] proxyConfirmed []).toOption.any fun d =>
      d.certifiedRestriction.any fun c => proxyConfirmed.any fun e =>
        restrictionRank c < restrictionRank (toRestriction e.value)) = true ∧
    applySensitivityFloor "public" ["restricted"] (some fromPublic) (some "internal") 0 =
      .ok "internal" ∧
    restrictionRank "internal" < restrictionRank "restricted" ∧
      fromPublic.previousFloor ≠ "restricted" :=
  ⟨by decide +kernel, fromPublic_downgrades, by decide, by decide⟩

end FeatureGen.Overlay
