import FeatureGen.Lib.RowLocks

/-! # What calls return in transactions

What a call returns stands once its transaction commits, and is taken back when the
transaction rolls back.

A condition that rows keep once they meet it. Whoever makes a row meet it is known until it
commits.
-/

namespace RowLocks

variable {κ ρ α : Type*}

structure Outcome (α : Type*) where
  /-- The transaction it waits for, until that commits. -/
  pending : Option ℕ
  value : α

namespace Outcome

def settle (txn : ℕ) (o : Outcome α) : Outcome α where
  pending := o.pending.filter (· ≠ txn)
  value := o.value

theorem settle_own {txn : ℕ} {o : Outcome α} (h : o.pending = some txn) :
    (settle txn o).pending = none := by
  simp [settle, h, Option.filter]

theorem settle_other {txn : ℕ} {o : Outcome α} (h : o.pending ≠ some txn) :
    (settle txn o).pending = o.pending := by
  cases hp : o.pending with
  | none => simp [settle, hp]
  | some t =>
      have other : t ≠ txn := fun same => h (by rw [hp, same])
      simp [settle, hp, Option.filter, other]

def commit (txn : ℕ) (l : List (Outcome α)) : List (Outcome α) := l.map (settle txn)

def rollback (txn : ℕ) (l : List (Outcome α)) : List (Outcome α) :=
  l.filter (·.pending ≠ some txn)

def about (p : α → Bool) (l : List (Outcome α)) : List (Outcome α) := l.filter (p ·.value)

variable {p : α → Bool} {txn : ℕ} {l l' : List (Outcome α)}

theorem about_append : about p (l ++ l') = about p l ++ about p l' := List.filter_append ..

theorem about_commit : about p (commit txn l) = commit txn (about p l) := by
  induction l with
  | nil => rfl
  | cons o l ih =>
      simp only [about, commit, settle, List.map_cons, List.filter_cons] at ih ⊢
      split <;> simp [ih, settle]

theorem about_rollback : about p (rollback txn l) = rollback txn (about p l) := by
  simp only [about, rollback, List.filter_filter, Bool.and_comm]

end Outcome

namespace Rows

/-- What a transaction under way reads, or one that begins. -/
def seen (rows : Rows κ ρ) : Option ℕ → κ → Option ρ
  | none => rows.committed
  | some txn => rows.visible txn

variable {rows : Rows κ ρ} {txn t : ℕ} {k : κ} {row : Option ρ}
  {R : Option ρ → Option ρ → Prop}

theorem visible_of_other {d : Draft ρ} (h : rows.drafts k = some d) (other : d.holder ≠ t) :
    rows.visible t k = rows.committed k := by
  simp [Rows.visible, h, other]

theorem visible_congr {rows' : Rows κ ρ} (drafts : rows'.drafts k = rows.drafts k)
    (committed : rows'.committed k = rows.committed k) :
    rows'.visible t k = rows.visible t k := by
  simp only [Rows.visible, drafts, committed]

theorem othersDrafts_none (h : rows.drafts k = none) : rows.othersDrafts txn k = none := by
  simp [othersDrafts, h]

theorem othersDrafts_own {d : Draft ρ} (h : rows.drafts k = some d) (own : d.holder = txn) :
    rows.othersDrafts txn k = none := by
  simp [othersDrafts, h, Option.filter, own]

theorem othersDrafts_other {d : Draft ρ} (h : rows.drafts k = some d) (other : d.holder ≠ txn) :
    rows.othersDrafts txn k = some d :=
  othersDrafts_eq_some.mpr ⟨h, other⟩

theorem visible_commit_self : (rows.commit txn).visible txn k = rows.visible txn k := by
  cases h : rows.othersDrafts txn k with
  | none => exact visible_of_none h
  | some d => exact visible_of_other h (othersDrafts_eq_some.mp h).2

theorem visible_rollback_other (h : t ≠ txn) :
    (rows.rollback txn).visible t k = rows.visible t k := by
  cases hd : rows.drafts k with
  | none => rw [visible_of_none hd, visible_of_none (othersDrafts_none hd)]; rfl
  | some d =>
      by_cases own : d.holder = txn
      · rw [visible_of_none (othersDrafts_own hd own),
          visible_of_other hd fun same => h (same.symm.trans own)]
        rfl
      · exact visible_congr ((othersDrafts_other hd own).trans hd.symm) rfl

theorem Follow.visible_commit (refl : ∀ a, R a a) (h : rows.Follow R) :
    R (rows.visible t k) ((rows.commit txn).visible t k) := by
  cases hd : rows.drafts k with
  | none =>
      have before : rows.visible t k = rows.committed k := visible_of_none hd
      have after : (rows.commit txn).visible t k = rows.visible txn k :=
        visible_of_none (othersDrafts_none hd)
      rw [before, after, visible_of_none hd]
      exact refl _
  | some d =>
      obtain ⟨holder, row⟩ := d
      by_cases own : holder = txn
      · subst own
        have after : (rows.commit holder).visible t k = rows.visible holder k :=
          visible_of_none (othersDrafts_own hd rfl)
        rw [after, visible_of_holder hd]
        by_cases same : holder = t
        · subst same
          rw [visible_of_holder hd]
          exact refl _
        · rw [visible_of_other hd same]
          exact h k _ hd
      · have held : (rows.commit txn).drafts k = some ⟨holder, row⟩ := othersDrafts_other hd own
        by_cases same : holder = t
        · subst same
          rw [visible_of_holder hd, visible_of_holder held]
          exact refl _
        · have after : (rows.commit txn).committed k = rows.committed k := visible_of_other hd own
          rw [visible_of_other hd same, visible_of_other held same, after]
          exact refl _

section Writes

variable [DecidableEq κ]

theorem visible_write_self : (rows.write txn k row).visible txn k = row :=
  visible_of_holder drafts_write_self

theorem visible_write_ne {k' : κ} (h : k' ≠ k) :
    (rows.write txn k row).visible t k' = rows.visible t k' :=
  visible_congr (drafts_write_ne h) rfl

theorem visible_write_other (free : rows.free txn k = true) (h : t ≠ txn) {k' : κ} :
    (rows.write txn k row).visible t k' = rows.visible t k' := by
  by_cases hk : k' = k
  · subst hk
    have after : (rows.write txn k' row).visible t k' = rows.committed k' :=
      visible_of_other drafts_write_self h.symm
    rcases drafts_of_free free with none | own
    · rw [after, visible_of_none none]
    · rw [after, visible_of_other own h.symm]
  · exact visible_write_ne hk

theorem Follow.seen_apply {P : κ → ρ → Prop} (refl : ∀ a, R a a) (h : rows.Follow R)
    (change : Change κ ρ) (proper : change.Proper P R rows) {who : Option ℕ}
    (stays : ∀ t, change = .rollback t → who ≠ some t) :
    R (rows.seen who k) ((change.apply rows).seen who k) := by
  cases who with
  | none => exact h.committed refl change k
  | some t =>
      cases change with
      | write txn k' row =>
          obtain ⟨free, _, becomes⟩ := proper
          by_cases same : t = txn
          · subst same
            by_cases hk : k = k'
            · subst hk
              simpa [Rows.seen, Change.apply, visible_write_self] using becomes
            · simpa [Rows.seen, Change.apply, visible_write_ne hk] using refl _
          · simpa [Rows.seen, Change.apply, visible_write_other free same] using refl _
      | commit txn => exact h.visible_commit refl
      | rollback txn =>
          have other : t ≠ txn := fun same => stays txn rfl (by rw [same])
          simpa [Rows.seen, Change.apply, visible_rollback_other other] using refl _

end Writes

end Rows

def Change.outcomes (l : List (Outcome α)) : Change κ ρ → List (Outcome α)
  | .write _ _ _ => l
  | .commit txn => Outcome.commit txn l
  | .rollback txn => Outcome.rollback txn l

/-- What a call has returned can have become what is read now. -/
def Rows.Stand (rows : Rows κ ρ) (R : Option ρ → Option ρ → Prop) (key : α → κ)
    (row : α → Option ρ) (l : List (Outcome α)) : Prop :=
  ∀ o ∈ l, R (row o.value) (rows.seen o.pending (key o.value))

variable {rows : Rows κ ρ} {R : Option ρ → Option ρ → Prop} {key : α → κ}
  {row : α → Option ρ} {l : List (Outcome α)}

theorem Rows.Stand.apply [DecidableEq κ] {P : κ → ρ → Prop} (refl : ∀ a, R a a)
    (trans : ∀ a b c, R a b → R b c → R a c) (h : rows.Stand R key row l) (follow : rows.Follow R)
    (change : Change κ ρ) (proper : change.Proper P R rows) :
    (change.apply rows).Stand R key row (change.outcomes l) := by
  have grows {o : Outcome α} (ho : o ∈ l)
      (stays : ∀ t, change = .rollback t → o.pending ≠ some t) :
      R (row o.value) ((change.apply rows).seen o.pending (key o.value)) :=
    trans _ _ _ (h o ho) (follow.seen_apply refl change proper stays)
  intro o ho
  cases change with
  | write txn k row => exact grows ho (by simp)
  | commit txn =>
      obtain ⟨o, mem, rfl⟩ := List.mem_map.mp ho
      have before := grows mem (by simp)
      by_cases own : o.pending = some txn
      · rw [own, Rows.seen] at before
        rw [Outcome.settle_own own]
        have shown : R (row o.value) ((rows.commit txn).visible txn (key o.value)) := before
        rw [Rows.visible_commit_self] at shown
        exact shown
      · rw [Outcome.settle_other own]
        exact before
  | rollback txn =>
      obtain ⟨mem, other⟩ := List.mem_filter.mp ho
      refine grows mem fun t same => ?_
      cases same
      exact of_decide_eq_true other

namespace Rows

/-- Who has made the row meet the condition: a transaction under way, or one that has ended. -/
def reached (rows : Rows κ ρ) (q : Option ρ → Bool) (k : κ) : Option (Option ℕ) :=
  if q (rows.committed k) then some none
  else ((rows.drafts k).filter fun d => q d.row).map fun d => some d.holder

variable {q : Option ρ → Bool} {txn : ℕ} {k k' : κ} {new : Option ρ}

theorem reached_congr {rows' : Rows κ ρ} (drafts : rows'.drafts k = rows.drafts k)
    (committed : rows'.committed k = rows.committed k) :
    rows'.reached q k = rows.reached q k := by
  simp only [reached, drafts, committed]

theorem reached_none (h : rows.drafts k = none) :
    rows.reached q k = if q (rows.committed k) then some none else none := by
  simp [reached, h]

theorem reached_draft {holder : ℕ} {row : Option ρ} (h : rows.drafts k = some ⟨holder, row⟩) :
    rows.reached q k = if q (rows.committed k) then some none
      else if q row then some (some holder) else none := by
  by_cases hq : q row = true <;> simp [reached, h, Option.filter, hq]

theorem reached_write [DecidableEq κ] (free : rows.free txn k = true)
    (same : q (rows.visible txn k) = q new) :
    (rows.write txn k new).reached q k' = rows.reached q k' := by
  by_cases hk : k' = k
  · subst hk
    have after : (rows.write txn k' new).reached q k' =
        if q (rows.committed k') then some none else if q new then some (some txn) else none :=
      reached_draft drafts_write_self
    rcases drafts_of_free free with none | own
    · rw [visible_of_none none] at same
      rw [after, reached_none none, ← same]
      split <;> rfl
    · rw [after, reached_draft own, same]
  · exact reached_congr (drafts_write_ne hk) rfl

theorem unmet_of_visible (mono : ∀ a b, R a b → q a = true → q b = true) (refl : ∀ a, R a a)
    (follow : rows.Follow R) (h : q (rows.visible txn k) = false) :
    q (rows.committed k) = false := by
  have becomes : R (rows.committed k) (rows.visible txn k) := follow.visible refl
  cases met : q (rows.committed k) with
  | false => rfl
  | true => exact absurd (mono _ _ becomes met) (by simp [h])

theorem unreached_of_visible (mono : ∀ a b, R a b → q a = true → q b = true)
    (refl : ∀ a, R a a) (follow : rows.Follow R) (free : rows.free txn k = true)
    (h : q (rows.visible txn k) = false) : rows.reached q k = none := by
  have committed := unmet_of_visible mono refl follow h
  rcases drafts_of_free free with none | own
  · simp [reached_none none, committed]
  · simp [reached_draft own, committed, h]

theorem reached_commit (mono : ∀ a b, R a b → q a = true → q b = true) (follow : rows.Follow R) :
    (rows.commit txn).reached q k = (rows.reached q k).map (Option.filter (· ≠ txn)) := by
  cases hd : rows.drafts k with
  | none =>
      have committed : (rows.commit txn).committed k = rows.committed k := visible_of_none hd
      rw [reached_none (othersDrafts_none hd), reached_none hd, committed]
      split <;> rfl
  | some d =>
      obtain ⟨holder, row⟩ := d
      by_cases own : holder = txn
      · subst own
        have committed : (rows.commit holder).committed k = row := visible_of_holder hd
        have grows := mono _ _ (follow k _ hd)
        rw [reached_none (othersDrafts_own hd rfl), reached_draft hd, committed]
        by_cases met : q row = true
        · by_cases before : q (rows.committed k) = true <;> simp [met, before, Option.filter]
        · have before : ¬ q (rows.committed k) = true := fun before => met (grows before)
          simp [met, before]
      · have committed : (rows.commit txn).committed k = rows.committed k := visible_of_other hd own
        rw [reached_draft (othersDrafts_other hd own), reached_draft hd, committed]
        split
        · rfl
        · split <;> simp [Option.filter, own]

theorem reached_rollback :
    (rows.rollback txn).reached q k = (rows.reached q k).filter (· ≠ some txn) := by
  have committed : (rows.rollback txn).committed k = rows.committed k := rfl
  cases hd : rows.drafts k with
  | none =>
      rw [reached_none (othersDrafts_none hd), reached_none hd, committed]
      split <;> rfl
  | some d =>
      obtain ⟨holder, row⟩ := d
      by_cases own : holder = txn
      · subst own
        rw [reached_none (othersDrafts_own hd rfl), reached_draft hd, committed]
        split
        · rfl
        · split <;> simp [Option.filter]
      · rw [reached_draft (othersDrafts_other hd own), reached_draft hd, committed]
        split
        · rfl
        · split <;> simp [Option.filter, own]

end Rows

section Credits

variable [DecidableEq κ] {q : Option ρ → Bool}

/-- The outcomes are those of the calls that made a row meet the condition. -/
def Rows.Credited (rows : Rows κ ρ) (q : Option ρ → Bool) (l : List (Outcome κ)) : Prop :=
  ∀ k, Outcome.about (· = k) l = ((rows.reached q k).map fun p => ⟨p, k⟩).toList

theorem Rows.Credited.apply {l : List (Outcome κ)} (h : rows.Credited q l)
    (mono : ∀ a b, R a b → q a = true → q b = true) (follow : rows.Follow R) (change : Change κ ρ)
    (same : ∀ txn k row, change = .write txn k row →
      rows.free txn k = true ∧ q (rows.visible txn k) = q row) :
    (change.apply rows).Credited q (change.outcomes l) := by
  intro k
  cases change with
  | write txn k' row =>
      obtain ⟨free, same⟩ := same txn k' row rfl
      simp only [Change.apply, Change.outcomes, Rows.reached_write free same, h k]
  | commit txn =>
      simp only [Change.apply, Change.outcomes, Outcome.about_commit, h k,
        Rows.reached_commit mono follow]
      cases rows.reached q k <;> rfl
  | rollback txn =>
      simp only [Change.apply, Change.outcomes, Outcome.about_rollback, h k,
        Rows.reached_rollback]
      cases hr : rows.reached q k with
      | none => rfl
      | some p => by_cases own : p = some txn <;> simp [Outcome.rollback, Option.filter, own]

theorem Rows.Credited.append {l : List (Outcome κ)} {txn : ℕ} {k : κ} {row : Option ρ}
    (h : rows.Credited q l) (mono : ∀ a b, R a b → q a = true → q b = true) (refl : ∀ a, R a a)
    (follow : rows.Follow R) (free : rows.free txn k = true)
    (before : q (rows.visible txn k) = false) (after : q row = true) :
    (rows.write txn k row).Credited q (l ++ [⟨some txn, k⟩]) := by
  intro k'
  rw [Outcome.about_append, h k']
  by_cases hk : k' = k
  · subst hk
    have unreached := Rows.unreached_of_visible mono refl follow free before
    have unmet := Rows.unmet_of_visible mono refl follow before
    have committed : q ((rows.write txn k' row).committed k') = false := unmet
    rw [unreached, Rows.reached_draft Rows.drafts_write_self, committed, after]
    simp [Outcome.about]
  · have same : (rows.write txn k row).reached q k' = rows.reached q k' :=
      Rows.reached_congr (Rows.drafts_write_ne hk) rfl
    rw [same]
    simp [Outcome.about, Ne.symm hk]

end Credits

end RowLocks
