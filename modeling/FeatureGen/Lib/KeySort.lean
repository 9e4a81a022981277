import Mathlib

/-! # Sorting by a key

Python's `sorted` with a `key`, and the values of a dictionary keyed by one. Where
the key tells the members apart, the sorted list depends on which members there are
and not on how they stood.
-/

namespace KeySort

variable {α κ : Type} [LinearOrder κ] (key : α → κ)

/-- `sorted(xs, key=key)`. The sort is stable. -/
def sortBy (xs : List α) : List α := xs.insertionSort fun a b => key a ≤ key b

/-- The values of `{key(x): x for x in xs}`: the last one under each key. -/
def lastByKey : List α → List α
  | [] => []
  | x :: xs => if xs.any (fun y => key y = key x) then lastByKey xs else x :: lastByKey xs

theorem perm_sortBy (xs : List α) : (sortBy key xs).Perm xs := List.perm_insertionSort _ xs

@[simp] theorem mem_sortBy {xs : List α} {x : α} : x ∈ sortBy key xs ↔ x ∈ xs :=
  (perm_sortBy key xs).mem_iff

theorem pairwise_sortBy (xs : List α) : (sortBy key xs).Pairwise fun a b => key a ≤ key b :=
  List.pairwise_insertionSort (Order.Preimage key (· ≤ ·)) xs

theorem mem_take_sortBy {xs : List α} {x : α} {n : ℕ} (hx : x ∈ xs)
    (few : (xs.filter fun y => key y ≤ key x).length ≤ n) : x ∈ (sortBy key xs).take n := by
  obtain ⟨before, after, hsorted⟩ := List.append_of_mem ((mem_sortBy key).mpr hx)
  have ordered := pairwise_sortBy key xs
  rw [hsorted, List.pairwise_append] at ordered
  have kept : (before ++ [x]).filter (fun y => key y ≤ key x) = before ++ [x] := by
    refine List.filter_eq_self.mpr fun y hy => decide_eq_true ?_
    rcases List.mem_append.mp hy with hy | hy
    · exact ordered.2.2 y hy x List.mem_cons_self
    · rw [List.mem_singleton.mp hy]
  have count : (before ++ [x]).length ≤ n := by
    have all := ((perm_sortBy key xs).filter fun y => key y ≤ key x).length_eq
    rw [hsorted, List.append_cons, List.filter_append, kept, List.length_append] at all
    omega
  rw [hsorted, List.append_cons, List.take_append, List.take_of_length_le count]
  simp

theorem head?_sortBy {xs : List α} {x : α} (hx : x ∈ xs)
    (first : ∀ y ∈ xs, y ≠ x → key x < key y) : (sortBy key xs).head? = some x := by
  have mem := (mem_sortBy key).mpr hx
  have ordered := pairwise_sortBy key xs
  cases hsorted : sortBy key xs with
  | nil =>
      rw [hsorted] at mem
      cases mem
  | cons y ys =>
      rw [hsorted] at mem ordered
      have hy : y ∈ xs := (mem_sortBy key).mp (hsorted ▸ List.mem_cons_self)
      by_cases same : y = x
      · rw [same]
        rfl
      · have later : x ∈ ys := List.mem_of_ne_of_mem (Ne.symm same) mem
        have before := (List.pairwise_cons.mp ordered).1 x later
        exact absurd (first y hy same) (not_lt.mpr before)

theorem nodup_map_take_sortBy {β : Type} {f : α → β} {xs : List α} (h : (xs.map f).Nodup)
    (n : ℕ) : (((sortBy key xs).take n).map f).Nodup :=
  (((perm_sortBy key xs).map f).nodup_iff.mpr h).sublist ((List.take_sublist _ _).map f)

variable {key}

theorem sortBy_eq_iff {xs ys : List α} (inj : ∀ a ∈ xs, ∀ b ∈ ys, key a = key b → a = b) :
    sortBy key xs = sortBy key ys ↔ xs.Perm ys := by
  constructor
  · intro h
    have hxs := (perm_sortBy key xs).symm
    rw [h] at hxs
    exact hxs.trans (perm_sortBy key ys)
  · intro h
    have hsorted : (sortBy key xs).Perm (sortBy key ys) :=
      ((perm_sortBy key xs).trans h).trans (perm_sortBy key ys).symm
    refine hsorted.eq_of_pairwise ?_ (pairwise_sortBy key xs) (pairwise_sortBy key ys)
    intro a b ha hb hab hba
    exact inj a ((mem_sortBy key).mp ha) b ((mem_sortBy key).mp hb) (le_antisymm hab hba)

theorem mem_of_mem_lastByKey {xs : List α} {x : α} (h : x ∈ lastByKey key xs) : x ∈ xs := by
  induction xs with
  | nil => simp [lastByKey] at h
  | cons y ys ih =>
      unfold lastByKey at h
      split at h
      · exact List.mem_cons_of_mem _ (ih h)
      · rcases List.mem_cons.mp h with rfl | h
        · exact List.mem_cons_self
        · exact List.mem_cons_of_mem _ (ih h)

theorem nodup_lastByKey (xs : List α) : (lastByKey key xs).Nodup := by
  induction xs with
  | nil => simp [lastByKey]
  | cons x xs ih =>
      unfold lastByKey
      split
      · exact ih
      · rename_i fresh
        refine List.nodup_cons.mpr ⟨fun hmem => fresh ?_, ih⟩
        exact List.any_eq_true.mpr ⟨x, mem_of_mem_lastByKey hmem, by simp⟩

theorem mem_lastByKey {xs : List α} (inj : ∀ a ∈ xs, ∀ b ∈ xs, key a = key b → a = b) {x : α} :
    x ∈ lastByKey key xs ↔ x ∈ xs := by
  induction xs with
  | nil => simp [lastByKey]
  | cons y ys ih =>
      have tail := ih fun a ha b hb =>
        inj a (List.mem_cons_of_mem _ ha) b (List.mem_cons_of_mem _ hb)
      unfold lastByKey
      split
      · rename_i later
        obtain ⟨z, hz, hkey⟩ := List.any_eq_true.mp later
        have same : z = y :=
          inj z (List.mem_cons_of_mem _ hz) y List.mem_cons_self (by simpa using hkey)
        subst same
        rw [tail, List.mem_cons]
        exact ⟨Or.inr, fun h => h.elim (fun h => h ▸ hz) id⟩
      · rw [List.mem_cons, List.mem_cons, tail]

theorem sortBy_lastByKey_eq {xs ys : List α}
    (inj : ∀ a ∈ xs ++ ys, ∀ b ∈ xs ++ ys, key a = key b → a = b)
    (same : ∀ a, a ∈ xs ↔ a ∈ ys) :
    sortBy key (lastByKey key xs) = sortBy key (lastByKey key ys) := by
  have left : ∀ a, a ∈ lastByKey key xs ↔ a ∈ xs := fun a =>
    mem_lastByKey fun a ha b hb =>
      inj a (List.mem_append_left _ ha) b (List.mem_append_left _ hb)
  have right : ∀ a, a ∈ lastByKey key ys ↔ a ∈ ys := fun a =>
    mem_lastByKey fun a ha b hb =>
      inj a (List.mem_append_right _ ha) b (List.mem_append_right _ hb)
  have perm : (lastByKey key xs).Perm (lastByKey key ys) :=
    (List.perm_ext_iff_of_nodup (nodup_lastByKey xs) (nodup_lastByKey ys)).mpr fun a => by
      rw [left, right, same]
  refine (sortBy_eq_iff fun a ha b hb => ?_).mpr perm
  exact inj a (List.mem_append_left _ ((left a).mp ha)) b
    (List.mem_append_right _ ((right b).mp hb))

theorem length_le_of_mem_take_sortBy {xs : List α} {x : α} {n : ℕ}
    (nodup : (xs.map key).Nodup) (h : x ∈ (sortBy key xs).take n) :
    (xs.filter fun y => key y ≤ key x).length ≤ n := by
  have split := List.take_append_drop n (sortBy key xs)
  have ordered := pairwise_sortBy key xs
  have distinct : ((sortBy key xs).map key).Nodup :=
    ((perm_sortBy key xs).map key).nodup_iff.mpr nodup
  rw [← split] at ordered
  rw [← split, List.map_append] at distinct
  have none : ((sortBy key xs).drop n).filter (fun y => key y ≤ key x) = [] := by
    refine List.filter_eq_nil_iff.mpr fun y hy hle => ?_
    have le := (List.pairwise_append.mp ordered).2.2 x h y hy
    have same : key x = key y := le_antisymm le (of_decide_eq_true hle)
    exact List.disjoint_of_nodup_append distinct (List.mem_map_of_mem h)
      (same ▸ List.mem_map_of_mem hy)
  have count := ((perm_sortBy key xs).filter fun y => key y ≤ key x).length_eq
  rw [← split, List.filter_append, none, List.append_nil] at count
  have short : ((sortBy key xs).take n).length ≤ n := List.length_take_le _ _
  have fewer := List.length_filter_le (fun y => decide (key y ≤ key x)) ((sortBy key xs).take n)
  omega

section Map

variable {β : Type} (f : β → α)

theorem sortBy_map (xs : List β) :
    sortBy key (xs.map f) = (sortBy (fun x => key (f x)) xs).map f :=
  (List.map_insertionSort (fun a b => key (f a) ≤ key (f b)) (fun a b => key a ≤ key b) f xs
    fun _ _ _ _ => Iff.rfl).symm

theorem lastByKey_map (xs : List β) :
    lastByKey key (xs.map f) = (lastByKey (fun x => key (f x)) xs).map f := by
  induction xs with
  | nil => rfl
  | cons x xs ih =>
      simp only [List.map_cons, lastByKey, List.any_map, Function.comp_def]
      split
      · exact ih
      · rw [ih, List.map_cons]

end Map

end KeySort
