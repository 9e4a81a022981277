import FeatureGen.Materialize.ActiveRevisions

/-! # The order of publications

A seq is read before the row is inserted, and neither the read nor the trigger sees the
rows of open transactions; the unique index makes the second writer of a seq wait for
the first. So one transaction at a time has rows of a group in an environment, from its
insert to its end, and its swaps fall between the two.
-/

namespace FeatureGen.Materialize

open Transition

def PublishAction.txn : PublishAction → ℕ
  | .publish txn _ | .trigger txn | .insert txn | .swap txn | .commit txn | .rollback txn => txn

namespace Publications

/-- The revisions of a group in an environment that a transaction has written. -/
def ownIn (w : Publications) (txn : ℕ) (scope : Scope) : List ActiveRevision :=
  (w.revisions.own txn).filter (·.scope = scope)

def visibleIn (w : Publications) (txn : ℕ) (scope : Scope) : List ActiveRevision :=
  (w.revisions.visible txn).filter (·.scope = scope)

/-- The revisions of an open transaction whose swaps it has performed. -/
def swapped (w : Publications) (txn : ℕ) : List ActiveRevision :=
  match w.calls txn with
  | some ⟨_, .recorded _⟩ => (w.revisions.own txn).dropLast
  | _ => w.revisions.own txn

/-- The revisions that a group in an environment was swapped to, in order. -/
def swapsIn (w : Publications) (scope : Scope) : List ActiveRevision :=
  (w.swaps.map (·.revision)).filter (·.scope = scope)

/-- The step ends its transaction, and what it has written is gone. -/
def rollsBack (w : Publications) (action : PublishAction) : Bool :=
  match w.step action with
  | none => false
  | some w' => w'.calls action.txn = none && w'.revisions.own action.txn = [] &&
      w'.revisions.committed = w.revisions.committed

/-- A transaction that is rolled back has not swapped. -/
def Keeps (w : Publications) (action : PublishAction) : Prop :=
  w.rollsBack action = true → w.swapped action.txn = []

instance : DecidableRel Keeps := fun w action =>
  inferInstanceAs (Decidable (w.rollsBack action = true → w.swapped action.txn = []))

variable {w w' : Publications} {txn other : ℕ} {scope : Scope} {p : Publication}
  {r : ActiveRevision} {call : PublishCall}

theorem visibleIn_eq : w.visibleIn txn scope = w.committedIn scope ++ w.ownIn txn scope :=
  List.filter_append ..

inductive Stepped (w : Publications) : PublishAction → Publications → Prop where
  | rolledBack (action : PublishAction) : Stepped w action (w.rollback action.txn)
  | begun (txn : ℕ) (p : Publication) (idle : w.calls txn = none) : Stepped w (.publish txn p)
      (w.goOn txn ⟨p, .numbered (w.nextRevisionSeq txn p.scope)⟩)
  | checked (txn : ℕ) (p : Publication) (seq : ℕ)
      (begun : w.calls txn = some ⟨p, .numbered seq⟩) :
      Stepped w (.trigger txn) (w.goOn txn ⟨p, .checked seq⟩)
  | inserted (txn : ℕ) (p : Publication) (seq : ℕ)
      (begun : w.calls txn = some ⟨p, .checked seq⟩) (revisions : AppendLog ActiveRevision)
      (inserted : w.revisions.insert ActiveRevision.conflicts txn (p.revision seq) =
        .log revisions) :
      Stepped w (.insert txn)
        (goOn ⟨revisions, w.calls, w.swaps⟩ txn ⟨p, .recorded (p.revision seq)⟩)
  | swapped (txn : ℕ) (p : Publication) (r : ActiveRevision)
      (begun : w.calls txn = some ⟨p, .recorded r⟩) : Stepped w (.swap txn)
      ⟨w.revisions, Function.update w.calls txn none,
        w.swaps ++ [⟨r, p.columns, p.stagingRoot⟩]⟩
  | committed (txn : ℕ) (idle : w.calls txn = none) :
      Stepped w (.commit txn) ⟨w.revisions.commit txn, w.calls, w.swaps⟩

theorem stepped {action : PublishAction} (h : w.step action = some w') :
    Stepped w action w' := by
  cases action with
  | publish txn p =>
      simp only [step] at h
      split at h
      · cases h
      · rename_i idle
        split at h
        · cases h
          exact .rolledBack (.publish txn p)
        · cases h
          exact .begun txn p idle
  | trigger txn =>
      simp only [step] at h
      split at h
      · rename_i p seq begun
        split at h
        · cases h
          exact .rolledBack (.trigger txn)
        · cases h
          exact .checked txn p seq begun
      · cases h
  | insert txn =>
      simp only [step] at h
      split at h
      · rename_i p seq begun
        split at h
        · cases h
          exact .rolledBack (.insert txn)
        · split at h
          · cases h
          · cases h
            exact .rolledBack (.insert txn)
          · rename_i revisions inserted
            cases h
            exact .inserted txn p seq begun revisions inserted
      · cases h
  | swap txn =>
      simp only [step] at h
      split at h
      · rename_i p r begun
        cases h
        exact .swapped txn p r begun
      · cases h
  | commit txn =>
      simp only [step] at h
      split at h
      · cases h
      · rename_i idle
        cases h
        exact .committed txn idle
  | rollback txn =>
      cases h
      exact .rolledBack (.rollback txn)

theorem swapped_recorded (begun : w.calls txn = some ⟨p, .recorded r⟩) :
    w.swapped txn = (w.revisions.own txn).dropLast := by
  simp [swapped, begun]

theorem swapped_unrecorded (unrecorded : ∀ p r, w.calls txn ≠ some ⟨p, .recorded r⟩) :
    w.swapped txn = w.revisions.own txn := by
  unfold swapped
  split
  · rename_i p r begun
    exact absurd begun (unrecorded p r)
  · rfl

theorem swapped_of_ownIn (none : w.ownIn txn scope = []) :
    (w.swapped txn).filter (·.scope = scope) = [] := by
  have sub : (w.swapped txn).Sublist (w.revisions.own txn) := by
    unfold swapped
    split
    · exact List.dropLast_sublist _
    · exact List.Sublist.refl _
  exact List.sublist_nil.mp (none ▸ sub.filter _)

theorem swapped_congr (calls : w'.calls txn = w.calls txn)
    (own : w'.revisions.own txn = w.revisions.own txn) : w'.swapped txn = w.swapped txn := by
  simp only [swapped, calls, own]

theorem swapped_rollback (kept : w.swapped txn = []) :
    (w.rollback txn).swapped other = w.swapped other := by
  by_cases h : other = txn
  · subst h
    rw [swapped_unrecorded (by simp [rollback]), kept]
    exact AppendLog.own_rollback_self
  · exact swapped_congr (by simp [rollback, h]) (AppendLog.own_rollback_ne h)

theorem swapped_goOn (before : ∀ p r, w.calls txn ≠ some ⟨p, .recorded r⟩)
    (after : ∀ r, call.phase ≠ .recorded r) :
    (w.goOn txn call).swapped other = w.swapped other := by
  by_cases h : other = txn
  · subst h
    rw [swapped_unrecorded before, swapped_unrecorded]
    · rfl
    · rintro p r begun
      obtain rfl : call = ⟨p, .recorded r⟩ := by simpa [goOn] using begun
      exact after r rfl
  · exact swapped_congr (by simp [goOn, h]) rfl

structure Ordered (w : Publications) : Prop where
  numbered : ∀ txn scope, (w.visibleIn txn scope).map (·.seq) =
    List.range (w.visibleIn txn scope).length
  alone : ∀ txn other scope, txn ≠ other → w.ownIn txn scope = [] ∨ w.ownIn other scope = []
  next : ∀ txn p seq, w.calls txn = some ⟨p, .numbered seq⟩ ∨ w.calls txn = some ⟨p, .checked seq⟩ →
    seq ≤ (w.visibleIn txn p.scope).length
  recorded : ∀ txn p r, w.calls txn = some ⟨p, .recorded r⟩ →
    r.scope = p.scope ∧ ∃ rows, w.revisions.own txn = rows ++ [r]
  swaps : ∀ txn scope, (∀ other ≠ txn, (w.swapped other).filter (·.scope = scope) = []) →
    w.swapsIn scope = w.committedIn scope ++ (w.swapped txn).filter (·.scope = scope)

theorem ordered_empty : empty.Ordered where
  numbered := by simp [empty, visibleIn, AppendLog.visible, AppendLog.empty, AppendLog.own]
  alone := by simp [empty, ownIn]
  next := by simp [empty]
  recorded := by simp [empty]
  swaps := by simp [empty, swapsIn, committedIn, swapped, AppendLog.empty, AppendLog.own]

theorem Ordered.committed (h : w.Ordered) : (w.committedIn scope).map (·.seq) =
    List.range (w.committedIn scope).length := by
  have all := h.numbered 0 scope
  simp only [visibleIn_eq, List.map_append, List.length_append] at all
  have first := congrArg (List.take (w.committedIn scope).length) all
  simpa [List.take_range] using first

theorem Ordered.nextRevisionSeq (h : w.Ordered) :
    w.nextRevisionSeq txn scope = (w.visibleIn txn scope).length := by
  have numbered : ((w.revisions.visible txn).filter (·.scope = scope)).map (·.seq) =
      List.range (w.visibleIn txn scope).length := h.numbered txn scope
  rw [Publications.nextRevisionSeq, numbered]
  cases hn : (w.visibleIn txn scope).length with
  | zero => rfl
  | succ n =>
      have hmax : (List.range (n + 1)).max? = some n := by
        rw [List.max?_eq_some_iff]
        exact ⟨by simp, fun b hb => by simpa [Nat.lt_succ_iff] using hb⟩
      rw [hmax]

theorem Ordered.rollback (h : w.Ordered) (kept : w.swapped txn = []) :
    (w.rollback txn).Ordered where
  numbered t s := by
    by_cases ht : t = txn
    · subst ht
      have own : (w.rollback t).ownIn t s = [] := by
        simp [ownIn, Publications.rollback, AppendLog.own_rollback_self]
      rw [visibleIn_eq, own, List.append_nil]
      exact h.committed
    · have own : (w.rollback txn).visibleIn t s = w.visibleIn t s := by
        simp only [visibleIn, AppendLog.visible, Publications.rollback,
          AppendLog.own_rollback_ne ht]
        rfl
      rw [own]
      exact h.numbered t s
  alone t u s hne := by
    have own (v) : (w.rollback txn).ownIn v s = [] ∨ (w.rollback txn).ownIn v s = w.ownIn v s := by
      by_cases hv : v = txn
      · subst hv
        left
        simp [ownIn, Publications.rollback, AppendLog.own_rollback_self]
      · right
        simp only [ownIn, Publications.rollback, AppendLog.own_rollback_ne hv]
    rcases own t with ht | ht
    · exact Or.inl ht
    · rcases own u with hu | hu
      · exact Or.inr hu
      · rw [ht, hu]
        exact h.alone t u s hne
  next t p seq begun := by
    by_cases ht : t = txn
    · subst ht
      simp [Publications.rollback] at begun
    · have seen : (w.rollback txn).visibleIn t p.scope = w.visibleIn t p.scope := by
        simp only [visibleIn, AppendLog.visible, Publications.rollback,
          AppendLog.own_rollback_ne ht]
        rfl
      rw [seen]
      exact h.next t p seq (by simpa [Publications.rollback, ht] using begun)
  recorded t p r begun := by
    by_cases ht : t = txn
    · subst ht
      simp [Publications.rollback] at begun
    · have own : (w.rollback txn).revisions.own t = w.revisions.own t :=
        AppendLog.own_rollback_ne ht
      rw [own]
      exact h.recorded t p r (by simpa [Publications.rollback, ht] using begun)
  swaps t s others := by
    simp only [swapped_rollback kept] at others ⊢
    exact h.swaps t s others

theorem Ordered.goOn (h : w.Ordered) (before : ∀ p r, w.calls txn ≠ some ⟨p, .recorded r⟩)
    (after : ∀ r, call.phase ≠ .recorded r)
    (bound : ∀ seq, call.phase = .numbered seq ∨ call.phase = .checked seq →
      seq ≤ (w.visibleIn txn call.publication.scope).length) : (w.goOn txn call).Ordered where
  numbered := h.numbered
  alone := h.alone
  next t p seq begun := by
    by_cases ht : t = txn
    · subst ht
      have begun : call = ⟨p, .numbered seq⟩ ∨ call = ⟨p, .checked seq⟩ := by
        simpa [Publications.goOn] using begun
      rcases begun with rfl | rfl
      · exact bound seq (Or.inl rfl)
      · exact bound seq (Or.inr rfl)
    · exact h.next t p seq (by simpa [Publications.goOn, ht] using begun)
  recorded t p r begun := by
    by_cases ht : t = txn
    · subst ht
      obtain rfl : call = ⟨p, .recorded r⟩ := by simpa [Publications.goOn] using begun
      exact absurd rfl (after r)
    · exact h.recorded t p r (by simpa [Publications.goOn, ht] using begun)
  swaps t s others := by
    simp only [swapped_goOn before after] at others ⊢
    exact h.swaps t s others

theorem conflicts_of_seq {seq : ℕ} (hscope : r.scope = p.scope) (hseq : r.seq = seq) :
    r.conflicts (p.revision seq) = true := by
  have same : r.scope = (p.revision seq).scope := hscope
  have last : r.seq = (p.revision seq).seq := hseq
  simp [ActiveRevision.conflicts, same, last]

theorem Ordered.next_free (h : w.Ordered) {seq : ℕ} {revisions : AppendLog ActiveRevision}
    (begun : w.calls txn = some ⟨p, .checked seq⟩)
    (inserted : w.revisions.insert ActiveRevision.conflicts txn (p.revision seq) =
      .log revisions) :
    seq = (w.visibleIn txn p.scope).length ∧ ∀ other ≠ txn, w.ownIn other p.scope = [] := by
  obtain ⟨clear, kept, _⟩ := AppendLog.insert_eq_log inserted
  have taken (t : ℕ) (hlt : seq < (w.visibleIn t p.scope).length) :
      ∃ r ∈ w.visibleIn t p.scope, r.conflicts (p.revision seq) = true := by
    have hmem : seq ∈ (w.visibleIn t p.scope).map (·.seq) := by
      rw [h.numbered t p.scope]
      exact List.mem_range.mpr hlt
    obtain ⟨r, hr, hseq⟩ := List.mem_map.mp hmem
    exact ⟨r, hr, conflicts_of_seq (of_decide_eq_true (List.mem_filter.mp hr).2) hseq⟩
  have bound := h.next txn p seq (Or.inr begun)
  have hlen : seq = (w.visibleIn txn p.scope).length := by
    refine le_antisymm bound (not_lt.mp fun hlt => ?_)
    obtain ⟨r, hr, clash⟩ := taken txn hlt
    exact absurd clash (by simp [kept r (List.mem_filter.mp hr).1])
  refine ⟨hlen, fun other hne => ?_⟩
  by_contra hown
  have none : w.ownIn txn p.scope = [] := (h.alone txn other p.scope hne.symm).resolve_right hown
  have hlt : seq < (w.visibleIn other p.scope).length := by
    rw [hlen, visibleIn_eq, visibleIn_eq, none, List.append_nil, List.length_append]
    have := List.length_pos_iff.mpr hown
    omega
  obtain ⟨r, hr, clash⟩ := taken other hlt
  rcases List.mem_append.mp (visibleIn_eq ▸ hr) with old | own
  · exact absurd clash (by simp [kept r (List.mem_append_left _ (List.mem_filter.mp old).1)])
  · exact absurd clash (by simp [clear other hne r (List.mem_filter.mp own).1])

theorem Ordered.insert (h : w.Ordered) {seq : ℕ} {revisions : AppendLog ActiveRevision}
    (begun : w.calls txn = some ⟨p, .checked seq⟩)
    (inserted : w.revisions.insert ActiveRevision.conflicts txn (p.revision seq) =
      .log revisions) :
    Ordered (Publications.goOn ⟨revisions, w.calls, w.swaps⟩ txn
      ⟨p, .recorded (p.revision seq)⟩) := by
  obtain ⟨hseq, free⟩ := h.next_free begun inserted
  obtain ⟨_, _, rfl⟩ := AppendLog.insert_eq_log inserted
  set w' := Publications.goOn ⟨⟨w.revisions.committed, w.revisions.drafts ++
    [(txn, p.revision seq)]⟩, w.calls, w.swaps⟩ txn ⟨p, .recorded (p.revision seq)⟩ with hw'
  have own : w'.revisions.own txn = w.revisions.own txn ++ [p.revision seq] :=
    AppendLog.own_insert_self
  have own_ne (t) (ht : t ≠ txn) : w'.revisions.own t = w.revisions.own t :=
    AppendLog.own_insert_ne ht
  have ownIn_self : w'.ownIn txn p.scope = w.ownIn txn p.scope ++ [p.revision seq] := by
    have hscope : (p.revision seq).scope = p.scope := rfl
    simp [ownIn, own, hscope]
  have ownIn_ne (t s) (hts : t ≠ txn ∨ s ≠ p.scope) : w'.ownIn t s = w.ownIn t s := by
    by_cases ht : t = txn
    · subst ht
      have hscope : ¬ (p.revision seq).scope = s := (hts.resolve_left (by simp)).symm
      simp [ownIn, own, hscope]
    · simp only [ownIn, own_ne t ht]
  have visibleIn_ne (t s) (hts : t ≠ txn ∨ s ≠ p.scope) : w'.visibleIn t s = w.visibleIn t s := by
    rw [visibleIn_eq, visibleIn_eq, ownIn_ne t s hts]
    rfl
  have visibleIn_self : w'.visibleIn txn p.scope = w.visibleIn txn p.scope ++ [p.revision seq] := by
    rw [visibleIn_eq, visibleIn_eq, ownIn_self, ← List.append_assoc]
    rfl
  have swapped_same (t) : w'.swapped t = w.swapped t := by
    by_cases ht : t = txn
    · subst ht
      have recorded : w'.calls t = some ⟨p, .recorded (p.revision seq)⟩ := by
        simp [w', Publications.goOn]
      rw [swapped_recorded recorded, own, List.dropLast_concat,
        swapped_unrecorded (by simp [begun])]
    · exact swapped_congr (by simp [w', Publications.goOn, ht]) (own_ne t ht)
  refine ⟨fun t s => ?_, fun t u s hne => ?_, fun t p' seq' begun' => ?_, fun t p' r begun' => ?_,
    fun t s others => ?_⟩
  · by_cases hts : t ≠ txn ∨ s ≠ p.scope
    · rw [visibleIn_ne t s hts]
      exact h.numbered t s
    · obtain ⟨rfl, rfl⟩ : t = txn ∧ s = p.scope := by simpa using hts
      have last : (p.revision seq).seq = (w.visibleIn t p.scope).length := hseq
      rw [visibleIn_self, List.map_append, h.numbered, List.map_singleton, last,
        List.length_append, List.length_singleton, List.range_succ]
  · by_cases hs : s = p.scope
    · subst hs
      by_cases ht : t = txn
      · subst ht
        exact Or.inr (by rw [ownIn_ne u _ (Or.inl hne.symm), free u hne.symm])
      · exact Or.inl (by rw [ownIn_ne t _ (Or.inl ht), free t ht])
    · rw [ownIn_ne t s (Or.inr hs), ownIn_ne u s (Or.inr hs)]
      exact h.alone t u s hne
  · have ht : t ≠ txn := by
      rintro rfl
      simp [w', Publications.goOn] at begun'
    rw [visibleIn_ne t _ (Or.inl ht)]
    exact h.next t p' seq' (by simpa [w', Publications.goOn, ht] using begun')
  · by_cases ht : t = txn
    · subst ht
      obtain ⟨rfl, rfl⟩ : p = p' ∧ p.revision seq = r := by
        simpa [w', Publications.goOn] using begun'
      exact ⟨rfl, _, own⟩
    · rw [own_ne t ht]
      exact h.recorded t p' r (by simpa [w', Publications.goOn, ht] using begun')
  · simp only [swapped_same] at others ⊢
    exact h.swaps t s others

theorem Ordered.swap (h : w.Ordered) (begun : w.calls txn = some ⟨p, .recorded r⟩) :
    Ordered ⟨w.revisions, Function.update w.calls txn none,
      w.swaps ++ [⟨r, p.columns, p.stagingRoot⟩]⟩ := by
  set w' : Publications := ⟨w.revisions, Function.update w.calls txn none,
    w.swaps ++ [⟨r, p.columns, p.stagingRoot⟩]⟩ with hw'
  obtain ⟨_, rows, own⟩ := h.recorded txn p r begun
  have before : w.swapped txn = rows := by
    rw [swapped_recorded begun, own, List.dropLast_concat]
  have after : w'.swapped txn = rows ++ [r] := by
    rw [swapped_unrecorded (by simp [w'])]
    exact own
  have swapped_ne (t) (ht : t ≠ txn) : w'.swapped t = w.swapped t :=
    swapped_congr (by simp [w', ht]) rfl
  have calls_of {t c} (hc : w'.calls t = some c) : w.calls t = some c := by
    by_cases ht : t = txn
    · subst ht
      simp [w'] at hc
    · simpa [w', ht] using hc
  refine ⟨h.numbered, h.alone, fun t p seq begun => ?_, fun t p r begun => ?_,
    fun t s others => ?_⟩
  · exact h.next t p seq (begun.imp calls_of calls_of)
  · exact h.recorded t p r (calls_of begun)
  · by_cases hs : r.scope = s
    · subst hs
      have mine : t = txn := by
        by_contra ht
        have := others txn (Ne.symm ht)
        simp [after] at this
      subst mine
      have old := h.swaps t r.scope fun other hne => by
        rw [← swapped_ne other hne]
        exact others other hne
      have all : w'.swapsIn r.scope = w.swapsIn r.scope ++ [r] := by
        simp [swapsIn, w']
      rw [all, old, before, after]
      simp [committedIn, w']
    · have same (u) : (w'.swapped u).filter (·.scope = s) = (w.swapped u).filter (·.scope = s) := by
        by_cases hu : u = txn
        · subst hu
          simp [before, after, hs]
        · rw [swapped_ne u hu]
      have all : w'.swapsIn s = w.swapsIn s := by
        simp [swapsIn, w', hs]
      simp only [same] at others ⊢
      rw [all]
      exact h.swaps t s others

theorem Ordered.commit (h : w.Ordered) (idle : w.calls txn = none) :
    Ordered ⟨w.revisions.commit txn, w.calls, w.swaps⟩ := by
  set w' : Publications := ⟨w.revisions.commit txn, w.calls, w.swaps⟩ with hw'
  have mine : w.swapped txn = w.revisions.own txn := swapped_unrecorded (by simp [idle])
  have own : w'.revisions.own txn = [] := AppendLog.own_commit_self
  have own_ne (t) (ht : t ≠ txn) : w'.revisions.own t = w.revisions.own t :=
    AppendLog.own_commit_ne ht
  have ownIn_self (s) : w'.ownIn txn s = [] := by simp [ownIn, own]
  have ownIn_ne (t s) (ht : t ≠ txn) : w'.ownIn t s = w.ownIn t s := by
    simp only [ownIn, own_ne t ht]
  have committedIn_eq (s) : w'.committedIn s = w.visibleIn txn s := by
    simp [committedIn, visibleIn, w', AppendLog.commit, AppendLog.visible]
  have visibleIn_self (s) : w'.visibleIn txn s = w.visibleIn txn s := by
    rw [visibleIn_eq, ownIn_self, List.append_nil, committedIn_eq]
  -- Where the transaction has rows, no other has; where it has none, nothing changes.
  have visibleIn_ne (t s) (ht : t ≠ txn) :
      w'.visibleIn t s = w.visibleIn txn s ∨ w'.visibleIn t s = w.visibleIn t s := by
    rw [visibleIn_eq, ownIn_ne t s ht, committedIn_eq]
    rcases h.alone txn t s ht.symm with none | none
    · right
      rw [visibleIn_eq, visibleIn_eq, none, List.append_nil]
    · left
      rw [none, List.append_nil]
  refine ⟨fun t s => ?_, fun t u s hne => ?_, fun t p seq begun => ?_, fun t p r begun => ?_,
    fun t s others => ?_⟩
  · by_cases ht : t = txn
    · subst ht
      rw [visibleIn_self]
      exact h.numbered t s
    · rcases visibleIn_ne t s ht with same | same
      · rw [same]
        exact h.numbered txn s
      · rw [same]
        exact h.numbered t s
  · by_cases ht : t = txn
    · subst ht
      exact Or.inl (ownIn_self s)
    · by_cases hu : u = txn
      · subst hu
        exact Or.inr (ownIn_self s)
      · rw [ownIn_ne t s ht, ownIn_ne u s hu]
        exact h.alone t u s hne
  · have ht : t ≠ txn := by
      rintro rfl
      rw [show w'.calls t = none from idle] at begun
      simp at begun
    refine (h.next t p seq begun).trans ?_
    rw [visibleIn_eq, visibleIn_eq, ownIn_ne t _ ht, committedIn_eq, visibleIn_eq]
    simp only [List.length_append]
    omega
  · have ht : t ≠ txn := by
      rintro rfl
      rw [show w'.calls t = none from idle] at begun
      simp at begun
    rw [own_ne t ht]
    exact h.recorded t p r begun
  · have swapped_ne (u) (hu : u ≠ txn) : w'.swapped u = w.swapped u :=
      swapped_congr rfl (own_ne u hu)
    have swapped_self : w'.swapped txn = [] := by
      rw [swapped_unrecorded (by simp [w', idle]), own]
    have all : w'.swapsIn s = w.swapsIn s := rfl
    rw [all, committedIn_eq, visibleIn_eq]
    by_cases ht : t = txn
    · subst ht
      have old := h.swaps t s fun other hne => by
        rw [← swapped_ne other hne]
        exact others other hne
      rw [old, mine, swapped_self, List.filter_nil, List.append_nil]
      rfl
    · rw [swapped_ne t ht]
      by_cases none : w.ownIn txn s = []
      · rw [none, List.append_nil]
        refine h.swaps t s fun other hne => ?_
        by_cases hother : other = txn
        · subst hother
          rw [mine]
          exact none
        · rw [← swapped_ne other hother]
          exact others other hne
      · have theirs : w.ownIn t s = [] := (h.alone t txn s ht).resolve_right none
        have old := h.swaps txn s fun other hne => by
          by_cases hother : other = t
          · subst hother
            exact swapped_of_ownIn theirs
          · rw [← swapped_ne other hne]
            exact others other hother
        rw [old, mine, swapped_of_ownIn theirs, List.append_nil]
        rfl

theorem Ordered.step {action : PublishAction} (h : w.Ordered) (keeps : w.Keeps action)
    (hstep : w.step action = some w') : w'.Ordered := by
  cases stepped hstep with
  | rolledBack action =>
      have back : w.rollsBack action = true := by
        simp [rollsBack, hstep, Publications.rollback, AppendLog.own_rollback_self]
        rfl
      exact h.rollback (keeps back)
  | begun txn p idle =>
      refine h.goOn (by simp [idle]) (by simp) fun seq hseq => ?_
      obtain rfl : w.nextRevisionSeq txn p.scope = seq := by simpa using hseq
      exact h.nextRevisionSeq.le
  | checked txn p seq begun =>
      refine h.goOn (by simp [begun]) (by simp) fun seq' hseq => ?_
      obtain rfl : seq = seq' := by simpa using hseq
      exact h.next txn p seq (Or.inl begun)
  | inserted txn p seq begun revisions inserted => exact h.insert begun inserted
  | swapped txn p r begun => exact h.swap begun
  | committed txn idle => exact h.commit idle

theorem ordered_of_run {actions : List PublishAction} (run : exec step empty actions = some w)
    (keeps : Along step Keeps empty actions) : w.Ordered :=
  exec_induction_along ordered_empty (fun _ _ _ h keeps hstep => h.step keeps hstep) keeps run

theorem Ordered.one_publisher (h : w.Ordered) : ∃ txn,
    w.swapsIn scope = w.committedIn scope ++ (w.swapped txn).filter (·.scope = scope) ∧
      ∀ other ≠ txn, w.ownIn other scope = [] := by
  have publisher : ∃ txn, ∀ other ≠ txn, w.ownIn other scope = [] := by
    by_cases some : ∃ txn, w.ownIn txn scope ≠ []
    · obtain ⟨txn, hown⟩ := some
      exact ⟨txn, fun other hne => (h.alone other txn scope hne).resolve_right hown⟩
    · exact ⟨0, fun other _ => not_not.mp fun hown => some ⟨other, hown⟩⟩
  obtain ⟨txn, others⟩ := publisher
  exact ⟨txn, h.swaps txn scope fun other hne => swapped_of_ownIn (others other hne), others⟩

theorem Ordered.last_swap (h : w.Ordered)
    (settled : ∀ txn, (w.swapped txn).filter (·.scope = scope) = []) :
    (w.swapsIn scope).getLast? = w.readActiveRevision scope := by
  have all := h.swaps 0 scope fun other _ => settled other
  rw [all, settled 0, List.append_nil, readActiveRevision]
  have seqs : (w.committedIn scope).map (·.seq) = _ := h.committed
  rcases List.eq_nil_or_concat' (w.committedIn scope) with none | ⟨rows, last, hrows⟩
  · rw [none]
    rfl
  · rw [hrows] at seqs ⊢
    simp only [List.map_append, List.map_singleton, List.length_append, List.length_singleton,
      List.range_succ] at seqs
    obtain ⟨before, hlast⟩ := List.append_inj' seqs rfl
    rw [List.getLast?_concat, List.argmax_concat]
    cases hmax : rows.argmax (·.seq) with
    | none => rfl
    | some r =>
        have hr : r.seq ∈ rows.map (·.seq) := List.mem_map_of_mem (List.argmax_mem hmax)
        have newer : r.seq < last.seq := by
          have newest : last.seq = rows.length := by simpa using hlast
          rw [newest]
          exact List.mem_range.mp (before ▸ hr)
        exact (if_pos newer).symm

section Only

variable (scope) in
/-- What there is of a group in an environment. -/
def only (w : Publications) : Publications where
  revisions := w.revisions.only (·.scope = scope)
  calls txn := (w.calls txn).filter (·.publication.scope = scope)
  swaps := w.swaps.filter (·.revision.scope = scope)

variable (scope) in
/-- The action is a step of a publication of a group in an environment, or ends a
    transaction. -/
def concerns (w : Publications) : PublishAction → Bool
  | .publish _ p => p.scope = scope
  | .trigger txn | .insert txn | .swap txn => (w.calls txn).any (·.publication.scope = scope)
  | .commit _ | .rollback _ => true

/-- The ids of revisions, each with its group and environment. -/
structure Named (ids : String → Scope → Prop) (w : Publications) : Prop where
  committed : ∀ r ∈ w.revisions.committed, ids r.revisionId r.scope
  own : ∀ txn, ∀ r ∈ w.revisions.own txn, ids r.revisionId r.scope
  calls : ∀ txn call, w.calls txn = some call →
    ids call.publication.revisionId call.publication.scope

variable {ids : String → Scope → Prop}

theorem named_empty : empty.Named ids where
  committed := by simp [empty, AppendLog.empty]
  own := by simp [empty]
  calls := by simp [empty]

def Names (ids : String → Scope → Prop) : PublishAction → Prop
  | .publish _ p => ids p.revisionId p.scope
  | _ => True

theorem Named.goOn (h : w.Named ids)
    (named : ids call.publication.revisionId call.publication.scope) :
    (w.goOn txn call).Named ids where
  committed := h.committed
  own := h.own
  calls t c hc := by
    by_cases ht : t = txn
    · subst ht
      obtain rfl : call = c := by simpa [Publications.goOn] using hc
      exact named
    · exact h.calls t c (by simpa [Publications.goOn, ht] using hc)

theorem Named.step {action : PublishAction} (h : w.Named ids) (names : Names ids action)
    (hstep : w.step action = some w') : w'.Named ids := by
  cases stepped hstep with
  | rolledBack action =>
      refine ⟨h.committed, fun t r hr => ?_, fun t c hc => ?_⟩
      · by_cases ht : t = action.txn
        · subst ht
          simp [Publications.rollback, AppendLog.own_rollback_self] at hr
        · simp only [Publications.rollback, AppendLog.own_rollback_ne ht] at hr
          exact h.own t r hr
      · by_cases ht : t = action.txn
        · subst ht
          simp [Publications.rollback] at hc
        · exact h.calls t c (by simpa [Publications.rollback, ht] using hc)
  | begun txn p idle => exact h.goOn names
  | checked txn p seq begun => exact h.goOn (h.calls txn ⟨p, .numbered seq⟩ begun)
  | inserted txn p seq begun revisions inserted =>
      obtain ⟨_, _, rfl⟩ := AppendLog.insert_eq_log inserted
      have named := h.calls txn _ begun
      refine Named.goOn ⟨h.committed, fun t r hr => ?_, h.calls⟩ named
      by_cases ht : t = txn
      · subst ht
        rw [AppendLog.own_insert_self, List.mem_append, List.mem_singleton] at hr
        rcases hr with old | rfl
        · exact h.own t r old
        · exact named
      · rw [AppendLog.own_insert_ne ht] at hr
        exact h.own t r hr
  | swapped txn p r begun =>
      refine ⟨h.committed, h.own, fun t c hc => ?_⟩
      by_cases ht : t = txn
      · subst ht
        simp at hc
      · exact h.calls t c (by simpa [ht] using hc)
  | committed txn idle =>
      refine ⟨fun r hr => ?_, fun t r hr => ?_, h.calls⟩
      · rcases List.mem_append.mp hr with old | own
        · exact h.committed r old
        · exact h.own txn r own
      · by_cases ht : t = txn
        · subst ht
          simp [AppendLog.own_commit_self] at hr
        · simp only [AppendLog.own_commit_ne ht] at hr
          exact h.own t r hr

theorem Named.conflicts_scope (h : w.Named ids)
    (one : ∀ id s s', ids id s → ids id s' → s = s') {seq : ℕ} (named : ids p.revisionId p.scope)
    {r' : ActiveRevision} (hr' : r' ∈ w.revisions.committed ∨ ∃ t, r' ∈ w.revisions.own t)
    (clash : r'.conflicts (p.revision seq) = true) : r'.scope = p.scope := by
  have named' : ids r'.revisionId r'.scope := by
    rcases hr' with old | ⟨t, own⟩
    · exact h.committed r' old
    · exact h.own t r' own
  simp only [ActiveRevision.conflicts, Bool.or_eq_true, decide_eq_true_eq, Bool.and_eq_true]
    at clash
  rcases clash with sameId | ⟨sameScope, _⟩
  · refine one r'.revisionId _ _ named' ?_
    rw [sameId]
    exact named
  · exact sameScope

theorem Named.waits_scope (h : w.Named ids) (one : ∀ id s s', ids id s → ids id s' → s = s')
    {seq : ℕ} (begun : w.calls txn = some ⟨p, .checked seq⟩) (blocked : w.step (.insert txn) = none) :
    ∃ other ≠ txn, w.ownIn other p.scope ≠ [] := by
  simp only [Publications.step, begun] at blocked
  split at blocked
  · cases blocked
  · split at blocked
    · rename_i waits
      obtain ⟨other, hne, r, hr, clash⟩ := AppendLog.insert_eq_waits waits
      have hscope := h.conflicts_scope one (h.calls txn _ begun) (Or.inr ⟨other, hr⟩) clash
      exact ⟨other, hne, List.ne_nil_of_mem (List.mem_filter.mpr ⟨hr, decide_eq_true hscope⟩)⟩
    · cases blocked
    · cases blocked

theorem rollback_only : (w.rollback txn).only scope = (w.only scope).rollback txn := by
  simp only [only, Publications.rollback, AppendLog.rollback_only, Publications.mk.injEq, true_and,
    and_true]
  funext t
  by_cases ht : t = txn
  · subst ht
    simp
  · simp [ht]

theorem goOn_only (call : PublishCall) (hscope : call.publication.scope = scope) :
    (w.goOn txn call).only scope = (w.only scope).goOn txn call := by
  simp only [only, Publications.goOn, Publications.mk.injEq, true_and, and_true]
  funext t
  by_cases ht : t = txn
  · subst ht
    simp [Option.filter, hscope]
  · simp [ht]

theorem goOn_only_not (idle : (w.only scope).calls txn = none)
    (hscope : call.publication.scope ≠ scope) :
    (w.goOn txn call).only scope = w.only scope := by
  simp only [only, Publications.goOn, Publications.mk.injEq, true_and, and_true]
  funext t
  by_cases ht : t = txn
  · subst ht
    have idle : (w.calls t).filter (·.publication.scope = scope) = none := idle
    rw [idle]
    simp [Option.filter, hscope]
  · simp [ht]

theorem visible_only_filter : ((w.only scope).revisions.visible txn).filter (·.scope = scope) =
    (w.revisions.visible txn).filter (·.scope = scope) := by
  simp only [only, AppendLog.visible_only, List.filter_filter, Bool.and_self]

theorem nextRevisionSeq_only :
    (w.only scope).nextRevisionSeq txn scope = w.nextRevisionSeq txn scope := by
  simp only [Publications.nextRevisionSeq, visible_only_filter]

theorem reached_only {seq : ℕ} :
    (w.only scope).reached txn scope seq = w.reached txn scope seq := by
  simp only [reached, only, AppendLog.visible_only]
  exact AppendLog.any_filter_of_imp fun r _ hr => (Bool.and_eq_true_iff.mp hr).1

theorem step_only (h : w.Named ids) (one : ∀ id s s', ids id s → ids id s' → s = s')
    (recorded : ∀ txn p r, w.calls txn = some ⟨p, .recorded r⟩ → r.scope = p.scope)
    {action : PublishAction} (concerned : w.concerns scope action = true)
    (hstep : w.step action = some w') : (w.only scope).step action = some (w'.only scope) := by
  have calls {t c} (hc : w.calls t = some c) (hscope : c.publication.scope = scope) :
      (w.only scope).calls t = some c := by
    simp [only, hc, Option.filter, hscope]
  have idle {t} (hc : w.calls t = none) : (w.only scope).calls t = none := by
    simp [only, hc]
  cases action with
  | publish txn p =>
      have hscope : p.scope = scope := by simpa [concerns] using concerned
      subst hscope
      simp only [Publications.step] at hstep ⊢
      split at hstep
      · cases hstep
      · rename_i none
        rw [idle none, nextRevisionSeq_only]
        dsimp only
        split at hstep
        · cases hstep
          rw [if_pos (by assumption), rollback_only]
        · cases hstep
          rw [if_neg (by assumption)]
          exact congrArg some (goOn_only ⟨p, _⟩ rfl).symm
  | trigger txn =>
      simp only [Publications.step] at hstep ⊢
      split at hstep
      · rename_i p seq begun
        have hscope : p.scope = scope := by simpa [concerns, begun] using concerned
        subst hscope
        rw [calls begun rfl]
        dsimp only
        rw [reached_only]
        split at hstep
        · cases hstep
          rw [if_pos (by assumption), rollback_only]
        · cases hstep
          rw [if_neg (by assumption)]
          exact congrArg some (goOn_only ⟨p, _⟩ rfl).symm
      · cases hstep
  | insert txn =>
      simp only [Publications.step] at hstep ⊢
      split at hstep
      · rename_i p seq begun
        have hscope : p.scope = scope := by simpa [concerns, begun] using concerned
        subst hscope
        rw [calls begun rfl]
        dsimp only
        split at hstep
        · cases hstep
          rw [if_pos (by assumption), rollback_only]
        · rw [if_neg (by assumption)]
          have apart : (w.only p.scope).revisions.insert _ txn (p.revision seq) = _ :=
            AppendLog.insert_only (·.scope = p.scope) fun r' hr' clash => decide_eq_true
              (h.conflicts_scope one (h.calls txn ⟨p, .checked seq⟩ begun) hr' clash)
          rw [apart]
          split at hstep
          · cases hstep
          · rename_i violation
            cases hstep
            rw [violation, rollback_only]
          · rename_i revisions inserted
            cases hstep
            rw [inserted]
            obtain ⟨_, _, rfl⟩ := AppendLog.insert_eq_log inserted
            refine congrArg some (Eq.trans ?_ (goOn_only ⟨p, _⟩ rfl).symm)
            have rows : AppendLog.only (·.scope = p.scope) ⟨w.revisions.committed,
                w.revisions.drafts ++ [(txn, p.revision seq)]⟩ = _ :=
              @AppendLog.append_only _ w.revisions _ _ _ (decide_eq_true rfl)
            simp only [only, rows]
      · cases hstep
  | swap txn =>
      simp only [Publications.step] at hstep ⊢
      split at hstep
      · rename_i p r begun
        have hscope : p.scope = scope := by simpa [concerns, begun] using concerned
        subst hscope
        cases hstep
        rw [calls begun rfl]
        refine congrArg some ?_
        have hr : r.scope = p.scope := recorded txn p r begun
        simp only [only, List.filter_append, Publications.mk.injEq, true_and]
        refine ⟨funext fun t => ?_, by simp [hr]⟩
        by_cases ht : t = txn
        · subst ht
          simp
        · simp [ht]
      · cases hstep
  | commit txn =>
      simp only [Publications.step] at hstep ⊢
      split at hstep
      · cases hstep
      · rename_i none
        cases hstep
        rw [idle none]
        simp [only, AppendLog.commit_only]
  | rollback txn =>
      cases hstep
      simp only [Publications.step]
      rw [rollback_only]

theorem rollback_only_not (calls : (w.only scope).calls txn = none)
    (own : w.ownIn txn scope = []) : (w.rollback txn).only scope = w.only scope := by
  have none_own : (w.only scope).revisions.own txn = [] := by
    rw [only, AppendLog.own_only]
    exact own
  rw [rollback_only, Publications.rollback, AppendLog.rollback_of_own none_own]
  have same : Function.update (w.only scope).calls txn none = (w.only scope).calls := by
    rw [← calls, Function.update_eq_self]
  rw [same]

theorem idle_of_any (other : (w.calls txn).any (·.publication.scope = scope) = false) :
    (w.only scope).calls txn = none := by
  cases hcall : w.calls txn with
  | none => simp [only, hcall]
  | some call =>
      have hscope : call.publication.scope ≠ scope := by simpa [hcall] using other
      simp [only, hcall, Option.filter, hscope]

theorem Ordered.ownIn_of_kept (h : w.Ordered) (idle : (w.only scope).calls txn = none)
    (kept : w.swapped txn = []) : w.ownIn txn scope = [] := by
  by_cases recorded : ∃ p r, w.calls txn = some ⟨p, .recorded r⟩
  · obtain ⟨p, r, begun⟩ := recorded
    obtain ⟨hr, rows, own⟩ := h.recorded txn p r begun
    have hscope : p.scope ≠ scope := by simpa [only, begun, Option.filter] using idle
    have none : rows = [] := by
      rw [← kept, swapped_recorded begun, own, List.dropLast_concat]
    simp [ownIn, own, none, hr, hscope]
  · have own : w.revisions.own txn = [] := by
      rw [← kept, swapped_unrecorded fun p r begun => recorded ⟨p, r, begun⟩]
    simp [ownIn, own]

theorem step_only_not (h : w.Ordered) {action : PublishAction} (keeps : w.Keeps action)
    (other : w.concerns scope action = false) (hstep : w.step action = some w') :
    w'.only scope = w.only scope := by
  cases stepped hstep with
  | rolledBack action =>
      have back : w.rollsBack action = true := by
        simp [rollsBack, hstep, Publications.rollback, AppendLog.own_rollback_self]
        rfl
      have idle : (w.only scope).calls action.txn = none := by
        cases action with
        | publish txn p =>
            cases hcall : w.calls txn with
            | none => simp [only, PublishAction.txn, hcall]
            | some call => simp [step, hcall] at hstep
        | trigger txn => exact idle_of_any other
        | insert txn => exact idle_of_any other
        | swap txn => exact idle_of_any other
        | commit txn => simp [concerns] at other
        | rollback txn => simp [concerns] at other
      exact rollback_only_not idle (h.ownIn_of_kept idle (keeps back))
  | begun txn p idle =>
      exact goOn_only_not (by simp [only, idle]) (by simpa [concerns] using other)
  | checked txn p seq begun =>
      have hscope : p.scope ≠ scope := by simpa [concerns, begun] using other
      exact goOn_only_not (by simp [only, begun, hscope]) hscope
  | inserted txn p seq begun revisions inserted =>
      have hscope : p.scope ≠ scope := by simpa [concerns, begun] using other
      obtain ⟨_, _, rfl⟩ := AppendLog.insert_eq_log inserted
      rw [goOn_only_not (by simp [only, begun, hscope]) hscope]
      have rows : AppendLog.only (·.scope = scope) ⟨w.revisions.committed,
          w.revisions.drafts ++ [(txn, p.revision seq)]⟩ = _ :=
        @AppendLog.append_only_not _ w.revisions _ _ _ (decide_eq_false hscope)
      simp only [only, rows]
  | swapped txn p r begun =>
      have hscope : p.scope ≠ scope := by simpa [concerns, begun] using other
      have hr : r.scope ≠ scope := (h.recorded txn p r begun).1 ▸ hscope
      simp only [only, List.filter_append, Publications.mk.injEq, true_and]
      refine ⟨funext fun t => ?_, by simp [hr]⟩
      by_cases ht : t = txn
      · subst ht
        simp [begun, Option.filter, hscope]
      · simp [ht]
  | committed txn idle => simp [concerns] at other

variable (scope) in
def stepsOf (w : Publications) (actions : List PublishAction) : List PublishAction :=
  ((history step w actions).filter fun m => m.before.concerns scope m.action).map (·.action)

theorem run_only {start : Publications} (one : ∀ id s s', ids id s → ids id s' → s = s')
    (h : start.Ordered) (named : start.Named ids) {actions : List PublishAction}
    (names : ∀ action ∈ actions, Names ids action) (keeps : Along step Keeps start actions)
    (run : exec step start actions = some w) :
    exec step (start.only scope) (start.stepsOf scope actions) = some (w.only scope) := by
  induction actions generalizing start with
  | nil =>
      obtain rfl : start = w := by simpa using run
      rfl
  | cons action actions ih =>
      obtain ⟨next, hstep, rest⟩ := exec_cons_eq_some.mp run
      have moves : history step start (action :: actions) = _ := history_cons hstep
      have first : start.Keeps action := keeps ⟨start, action, next⟩ (by simp [moves])
      have later : Along step Keeps next actions := fun m hm => keeps m (by simp [moves, hm])
      have rest := ih (h.step first hstep) (named.step (names action List.mem_cons_self) hstep)
        (fun a ha => names a (List.mem_cons_of_mem _ ha)) later rest
      cases concerned : start.concerns scope action with
      | true =>
          have hsteps : start.stepsOf scope (action :: actions) =
              action :: next.stepsOf scope actions := by
            simp [stepsOf, moves, concerned]
          have hnext := step_only named one (fun txn p r begun => (h.recorded txn p r begun).1)
            concerned hstep
          rw [hsteps, exec_cons_eq_some]
          exact ⟨next.only scope, hnext, rest⟩
      | false =>
          have hsteps : start.stepsOf scope (action :: actions) = next.stepsOf scope actions := by
            simp [stepsOf, moves, concerned]
          rw [hsteps, ← step_only_not h first concerned hstep]
          exact rest

end Only

/-- An id names the revisions of one group in one environment: it is derived from the id of
    the request that publishes. -/
def OneScope (actions : List PublishAction) : Prop :=
  ∀ t p u q, .publish t p ∈ actions → .publish u q ∈ actions → p.revisionId = q.revisionId →
    p.scope = q.scope

/-- In every interleaving of publications whose transactions commit, or roll back before they
    have swapped: the seqs of a group in an environment count up in commit order; where no
    open transaction has swapped it, its last swap is to the revision that readers see; and,
    where an id names one scope, an insert waits for publications of the same scope only,
    without whose others the scope is the same. -/
theorem active_revision_ordered {actions : List PublishAction}
    (run : exec step empty actions = some w) (keeps : Along step Keeps empty actions)
    (scope : Scope) :
    (w.committedIn scope).map (·.seq) = List.range (w.committedIn scope).length ∧
      (∃ txn, w.swapsIn scope = w.committedIn scope ++ (w.swapped txn).filter (·.scope = scope) ∧
        ∀ other ≠ txn, w.ownIn other scope = []) ∧
      ((∀ txn, (w.swapped txn).filter (·.scope = scope) = []) →
        (w.swapsIn scope).getLast? = w.readActiveRevision scope) ∧
      (OneScope actions →
        exec step empty (empty.stepsOf scope actions) = some (w.only scope) ∧
        ∀ txn p seq, p.scope = scope → w.calls txn = some ⟨p, .checked seq⟩ →
          w.step (.insert txn) = none → ∃ other ≠ txn, w.ownIn other scope ≠ []) := by
  have h := ordered_of_run run keeps
  refine ⟨h.committed, h.one_publisher, h.last_swap, fun ids => ?_⟩
  let ids' : String → Scope → Prop := fun id s =>
    ∃ t p, .publish t p ∈ actions ∧ p.revisionId = id ∧ p.scope = s
  have one : ∀ id s s', ids' id s → ids' id s' → s = s' := by
    rintro id s s' ⟨t, p, hp, rfl, rfl⟩ ⟨u, q, hq, same, rfl⟩
    exact ids t p u q hp hq same.symm
  have names : ∀ action ∈ actions, Names ids' action := by
    intro action ha
    cases action with
    | publish txn p => exact ⟨txn, p, ha, rfl, rfl⟩
    | _ => trivial
  have named : w.Named ids' := by
    have along : Along step (fun _ action => Names ids' action) empty actions :=
      along_of_forall fun action ha _ => names action ha
    exact exec_induction_along named_empty (fun _ _ _ h names hstep => h.step names hstep) along run
  constructor
  · exact run_only one ordered_empty named_empty names keeps run
  · rintro txn p seq rfl begun blocked
    exact named.waits_scope one begun blocked

def publicationOf (environmentId : Option String) (revisionId : String) : Publication where
  environmentId := environmentId
  mechanism := .setLocation
  capabilityAttestationId := "att_1"
  logicalGroupName := "churn"
  columns := ["customer_id", "business_dt"]
  generationId := "gen_1"
  runId := "run_1"
  publishedObject := "sandbox_feature.churn"
  stagingRoot := "staging"
  revisionId := revisionId
  activatedAt := "2026-08-15T10:00:00+00:00"

/-- A publication in production, between whose steps one in the legacy environment fails and
    another does not. -/
def twoEnvironments : List PublishAction :=
  [.publish 1 (publicationOf "production" "frev_1"), .publish 2 (publicationOf none "frev_2"),
    .trigger 2, .trigger 1, .insert 1, .rollback 2, .publish 3 (publicationOf none "frev_3"),
    .swap 1, .trigger 3, .insert 3, .commit 1, .swap 3, .commit 3]

theorem active_revision_ordered_twoEnvironments : ∃ w, exec step empty twoEnvironments = some w ∧
    (w.committedIn ⟨none, "churn"⟩).map (·.seq) = [0] ∧
      (w.swapsIn ⟨none, "churn"⟩).getLast? = w.readActiveRevision ⟨none, "churn"⟩ ∧
      exec step empty (empty.stepsOf ⟨none, "churn"⟩ twoEnvironments) =
        some (w.only ⟨none, "churn"⟩) := by
  have ends : (exec step empty twoEnvironments).any fun w =>
      (w.committedIn ⟨none, "churn"⟩).length = 1 && w.revisions.drafts = [] := by
    decide +kernel
  obtain ⟨w, run, hw⟩ := (Option.any_eq_true _ _).mp ends
  simp only [Bool.and_eq_true, decide_eq_true_eq] at hw
  have keeps : Along step Keeps empty twoEnvironments := by
    unfold Along
    decide +kernel
  have ids : OneScope twoEnvironments := by
    intro t p u q hp hq same
    simp only [twoEnvironments, List.mem_cons, PublishAction.publish.injEq, reduceCtorEq, false_or,
      or_false, List.not_mem_nil] at hp hq
    rcases hp with ⟨_, rfl⟩ | ⟨_, rfl⟩ | ⟨_, rfl⟩
    · rcases hq with ⟨_, rfl⟩ | ⟨_, rfl⟩ | ⟨_, rfl⟩ <;> simp_all [publicationOf]
    · rcases hq with ⟨_, rfl⟩ | ⟨_, rfl⟩ | ⟨_, rfl⟩ <;> simp_all [publicationOf]
    · rcases hq with ⟨_, rfl⟩ | ⟨_, rfl⟩ | ⟨_, rfl⟩ <;> simp_all [publicationOf]
  obtain ⟨seqs, _, last, alone⟩ := active_revision_ordered run keeps ⟨none, "churn"⟩
  refine ⟨w, run, by rw [seqs, hw.1]; rfl, last fun txn => swapped_of_ownIn ?_, (alone ids).1⟩
  simp [ownIn, AppendLog.own, hw.2]

end Publications

end FeatureGen.Materialize
