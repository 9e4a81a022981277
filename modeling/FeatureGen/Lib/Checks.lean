import Mathlib

/-! # Fallible checks

A check that passes or stops with an error, the sequence of two, the same check on
every entry of a list, and the counting of what checks return: each with the
statement of when it passes.
-/

namespace Checks

variable {ε α β : Type}

/-- Stops with `e` unless `p`. -/
def ensure (p : Prop) [Decidable p] (e : ε) : Except ε Unit := if p then .ok () else .error e

@[simp] theorem ensure_eq_ok {p : Prop} [Decidable p] {e : ε} {u : Unit} :
    ensure p e = .ok u ↔ p := by
  unfold ensure
  split <;> simp [*]

theorem bind_eq_ok {x : Except ε α} {f : α → Except ε β} {b : β} :
    (x >>= f) = .ok b ↔ ∃ a, x = .ok a ∧ f a = .ok b := by
  cases x with
  | error e => simp [bind, Except.bind]
  | ok a => simp [bind, Except.bind]

theorem isSome_toOption {x : Except ε α} : x.toOption.isSome = true ↔ ∃ a, x = .ok a := by
  cases x <;> simp [Except.toOption]

theorem toOption_eq_some {x : Except ε α} {a : α} : x.toOption = some a ↔ x = .ok a := by
  cases x <;> simp [Except.toOption]

theorem toOption_ensure_bind {p : Prop} [Decidable p] {e : ε} {f : Unit → Except ε α} :
    (ensure p e >>= f).toOption = if p then (f ()).toOption else none := by
  unfold ensure
  split <;> rfl

theorem check_bind_eq_ok {x : Except ε Unit} {f : Unit → Except ε β} {b : β} :
    (x >>= f) = .ok b ↔ x = .ok () ∧ f () = .ok b := by
  rw [bind_eq_ok]
  constructor
  · rintro ⟨u, hx, hf⟩
    exact ⟨hx, hf⟩
  · rintro ⟨hx, hf⟩
    exact ⟨(), hx, hf⟩

theorem map_eq_ok {x : Except ε α} {f : α → β} {b : β} :
    (f <$> x) = .ok b ↔ ∃ a, x = .ok a ∧ f a = b := by
  cases x with
  | error e => simp [Functor.map, Except.map]
  | ok a => simp [Functor.map, Except.map]

theorem mapError_eq_ok {ε' : Type} {x : Except ε α} {f : ε → ε'} {a : α} :
    x.mapError f = .ok a ↔ x = .ok a := by
  cases x <;> simp [Except.mapError]

theorem mapError_ensure {ε' : Type} (p : Prop) [Decidable p] (e : ε) (f : ε → ε') :
    (ensure p e).mapError f = ensure p (f e) := by
  unfold ensure
  split <;> rfl

theorem mapError_bind {ε' : Type} (x : Except ε α) (f : α → Except ε β) (g : ε → ε') :
    (x >>= f).mapError g = x.mapError g >>= fun a => (f a).mapError g := by
  cases x <;> rfl

theorem mapError_mapError {ε' ε'' : Type} (x : Except ε α) (f : ε → ε') (g : ε' → ε'') :
    (x.mapError f).mapError g = x.mapError fun e => g (f e) := by
  cases x <;> rfl

theorem checked_eq_ok {p : Prop} [Decidable p] {e : ε} {x : Except ε α}
    {check : α → Except ε Unit} {a : α} :
    (do
      ensure p e
      let a ← x
      check a
      .ok a) = .ok a ↔ p ∧ x = .ok a ∧ check a = .ok () := by
  rw [check_bind_eq_ok, ensure_eq_ok, bind_eq_ok]
  refine and_congr_right fun _ => ?_
  constructor
  · rintro ⟨b, hb, h⟩
    obtain ⟨hcheck, h⟩ := check_bind_eq_ok.mp h
    cases h
    exact ⟨hb, hcheck⟩
  · rintro ⟨ha, hcheck⟩
    exact ⟨a, ha, check_bind_eq_ok.mpr ⟨hcheck, rfl⟩⟩

/-- `f` on each entry with its index, from `start`. -/
def eachFrom (f : ℕ → α → Except ε Unit) : ℕ → List α → Except ε Unit
  | _, [] => .ok ()
  | start, a :: as => do
      f start a
      eachFrom f (start + 1) as

/-- `f` on each entry with its index. -/
def each (f : ℕ → α → Except ε Unit) (as : List α) : Except ε Unit := eachFrom f 0 as

theorem eachFrom_eq_ok {f : ℕ → α → Except ε Unit} {as : List α} {start : ℕ} :
    eachFrom f start as = .ok () ↔ ∀ i a, as[i]? = some a → f (start + i) a = .ok () := by
  induction as generalizing start with
  | nil => simp [eachFrom]
  | cons a as ih =>
      rw [eachFrom, check_bind_eq_ok, ih]
      constructor
      · rintro ⟨first, rest⟩ i b hb
        cases i with
        | zero => simpa [← Option.some.inj (by simpa using hb)] using first
        | succ i =>
            have hrest := rest i b (by simpa using hb)
            rwa [show start + (i + 1) = start + 1 + i by omega]
      · intro all
        refine ⟨all 0 a rfl, fun i b hb => ?_⟩
        rw [show start + 1 + i = start + (i + 1) by omega]
        exact all (i + 1) b (by simpa using hb)

theorem exists_of_eachFrom_eq_error {f : ℕ → α → Except ε Unit} {as : List α} {start : ℕ} {e : ε}
    (h : eachFrom f start as = .error e) : ∃ i, ∃ a ∈ as, f i a = .error e := by
  induction as generalizing start with
  | nil => cases h
  | cons a as ih =>
      cases ha : f start a with
      | error e' =>
          rw [eachFrom, ha] at h
          cases h
          exact ⟨start, a, List.mem_cons_self, ha⟩
      | ok u =>
          rw [eachFrom, ha] at h
          obtain ⟨i, b, hb, hi⟩ := ih h
          exact ⟨i, b, List.mem_cons_of_mem _ hb, hi⟩

theorem each_eq_ok {f : ℕ → α → Except ε Unit} {as : List α} :
    each f as = .ok () ↔ ∀ i a, as[i]? = some a → f i a = .ok () := by
  simp only [each, eachFrom_eq_ok, Nat.zero_add]

theorem each_eq_ok_of_forall {f : ℕ → α → Except ε Unit} {P : α → Prop}
    (h : ∀ i a, f i a = .ok () ↔ P a) {as : List α} :
    each f as = .ok () ↔ ∀ a ∈ as, P a := by
  rw [each_eq_ok]
  constructor
  · intro all a ha
    obtain ⟨i, hi⟩ := List.mem_iff_getElem?.mp ha
    exact (h i a).mp (all i a hi)
  · intro all i a ha
    exact (h i a).mpr (all a (List.mem_of_getElem? ha))

theorem mapM_eq_ok {f : α → Except ε β} {as : List α} {bs : List β} :
    as.mapM f = .ok bs ↔ List.Forall₂ (fun a b => f a = .ok b) as bs := by
  induction as generalizing bs with
  | nil => cases bs <;> simp [pure, Except.pure]
  | cons a as ih =>
      rw [List.mapM_cons, bind_eq_ok]
      constructor
      · rintro ⟨b, hb, h⟩
        obtain ⟨cs, hcs, h⟩ := bind_eq_ok.mp h
        cases h
        exact .cons hb (ih.mp hcs)
      · intro h
        cases h with
        | cons hb hrest => exact ⟨_, hb, bind_eq_ok.mpr ⟨_, ih.mpr hrest, rfl⟩⟩

theorem exists_mapM {f : α → Except ε β} {as : List α} (h : ∀ a ∈ as, ∃ b, f a = .ok b) :
    ∃ bs, as.mapM f = .ok bs := by
  induction as with
  | nil => exact ⟨[], rfl⟩
  | cons a as ih =>
      obtain ⟨b, hb⟩ := h a List.mem_cons_self
      obtain ⟨bs, hbs⟩ := ih fun a' ha' => h a' (List.mem_cons_of_mem a ha')
      exact ⟨b :: bs, mapM_eq_ok.mpr (.cons hb (mapM_eq_ok.mp hbs))⟩

theorem exists_of_mem_forall₂ {R : α → β → Prop} {as : List α} {bs : List β}
    (h : List.Forall₂ R as bs) {b : β} (hb : b ∈ bs) : ∃ a ∈ as, R a b := by
  induction h with
  | nil => simp at hb
  | cons first _ ih =>
      rcases List.mem_cons.mp hb with rfl | hb
      · exact ⟨_, List.mem_cons_self, first⟩
      · obtain ⟨a, ha, hab⟩ := ih hb
        exact ⟨a, List.mem_cons_of_mem _ ha, hab⟩

theorem exists_mem_of_mapM {f : α → Except ε β} {as : List α} {bs : List β}
    (h : as.mapM f = .ok bs) {a : α} (ha : a ∈ as) : ∃ b ∈ bs, f a = .ok b :=
  exists_of_mem_forall₂ (mapM_eq_ok.mp h).flip ha

theorem mem_of_mapM {f : α → Except ε β} {as : List α} {bs : List β} (h : as.mapM f = .ok bs)
    {b : β} : b ∈ bs ↔ ∃ a ∈ as, f a = .ok b := by
  constructor
  · exact exists_of_mem_forall₂ (mapM_eq_ok.mp h)
  · intro hb
    obtain ⟨a, ha, hab⟩ := hb
    obtain ⟨b', hb', hab'⟩ := exists_mem_of_mapM h ha
    cases hab.symm.trans hab'
    exact hb'

theorem forM_eq_ok {f : α → Except ε Unit} {as : List α} :
    as.forM f = .ok () ↔ ∀ a ∈ as, f a = .ok () := by
  induction as with
  | nil => simp [List.forM, pure, Except.pure]
  | cons a as ih => rw [List.forM, check_bind_eq_ok, ih, List.forall_mem_cons]

theorem exists_of_mapM_eq_error {f : α → Except ε β} {as : List α} {e : ε}
    (h : as.mapM f = .error e) : ∃ a ∈ as, f a = .error e := by
  induction as with
  | nil => simp [pure, Except.pure] at h
  | cons a as ih =>
      rw [List.mapM_cons] at h
      cases ha : f a with
      | error e' =>
          rw [ha] at h
          have same : e' = e := by simpa [bind, Except.bind] using h
          exact ⟨a, List.mem_cons_self, same ▸ ha⟩
      | ok b =>
          rw [ha] at h
          cases hrest : as.mapM f with
          | error e' =>
              rw [hrest] at h
              have same : e' = e := by simpa [bind, Except.bind] using h
              obtain ⟨a', ha', failed⟩ := ih (same ▸ hrest)
              exact ⟨a', List.mem_cons_of_mem _ ha', failed⟩
          | ok bs =>
              rw [hrest] at h
              simp [bind, Except.bind, pure, Except.pure] at h

end Checks
