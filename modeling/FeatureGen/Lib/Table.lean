import Mathlib

/-! # Keyed tables

A database table with a primary (or otherwise unique) key, as a list of rows
that carries the uniqueness of its keys. An insert that would break uniqueness
is not a table: `insert?` reports the violation and `insertNew` is the
`ON CONFLICT DO NOTHING` form. Updates keep the key by construction.
-/

theorem find?_key_eq_some {ρ κ : Type*} [DecidableEq κ] {key : ρ → κ} {rows : List ρ}
    (nodup : (rows.map key).Nodup) {k : κ} {r : ρ} :
    (rows.find? fun r => decide (key r = k)) = some r ↔ r ∈ rows ∧ key r = k := by
  constructor
  · intro h
    have hk := List.find?_some h
    exact ⟨List.mem_of_find?_eq_some h, of_decide_eq_true hk⟩
  · rintro ⟨hr, hk⟩
    cases h : rows.find? fun r => decide (key r = k) with
    | none =>
        have hnone := List.find?_eq_none.mp h r hr
        simp [hk] at hnone
    | some r' =>
        have hk' := List.find?_some h
        have hr' := List.mem_of_find?_eq_some h
        rw [List.inj_on_of_nodup_map nodup hr' hr ((of_decide_eq_true hk').trans hk.symm)]

/-- Rows in insertion order, no two with one key. -/
structure Table {ρ κ : Type*} (key : ρ → κ) where
  rows : List ρ
  keys_nodup : (rows.map key).Nodup

namespace Table

variable {ρ κ : Type*} {key : ρ → κ}

instance : Membership ρ (Table key) := ⟨fun t r => r ∈ t.rows⟩

theorem mem_rows {t : Table key} {r : ρ} : r ∈ t.rows ↔ r ∈ t := Iff.rfl

instance {t : Table key} {p : ρ → Prop} [DecidablePred p] : Decidable (∀ r ∈ t, p r) :=
  inferInstanceAs (Decidable (∀ r ∈ t.rows, p r))

instance {t : Table key} {p : ρ → Prop} [DecidablePred p] : Decidable (∃ r ∈ t, p r) :=
  inferInstanceAs (Decidable (∃ r ∈ t.rows, p r))

def empty : Table key := ⟨[], List.nodup_nil⟩

@[simp] theorem not_mem_empty {r : ρ} : r ∉ (empty : Table key) := List.not_mem_nil

theorem eq_of_key_eq {t : Table key} {r r' : ρ} (hr : r ∈ t) (hr' : r' ∈ t)
    (h : key r = key r') : r = r' :=
  List.inj_on_of_nodup_map t.keys_nodup hr hr' h

/-- `UPDATE … SET f WHERE p`, for an `f` that leaves the key alone. -/
def updateWhere (t : Table key) (p : ρ → Bool) (f : ρ → ρ) (hf : ∀ r, key (f r) = key r) :
    Table key where
  rows := t.rows.map fun r => if p r then f r else r
  keys_nodup := by
    have hkeys : (t.rows.map fun r => if p r then f r else r).map key = t.rows.map key := by
      rw [List.map_map]
      refine List.map_congr_left fun r _ => ?_
      by_cases hp : p r <;> simp [hp, hf]
    rw [hkeys]
    exact t.keys_nodup

/-- `DELETE … WHERE p`. -/
def deleteWhere (t : Table key) (p : ρ → Bool) : Table key where
  rows := t.rows.filter fun r => !p r
  keys_nodup := (List.filter_sublist.map key).nodup t.keys_nodup

theorem mem_updateWhere {t : Table key} {p : ρ → Bool} {f : ρ → ρ} {hf : ∀ r, key (f r) = key r}
    {x : ρ} : x ∈ t.updateWhere p f hf ↔ ∃ y ∈ t, x = if p y then f y else y := by
  simp only [updateWhere, ← mem_rows, List.mem_map]
  exact exists_congr fun y => and_congr_right fun _ => eq_comm

theorem mem_deleteWhere {t : Table key} {p : ρ → Bool} {x : ρ} :
    x ∈ t.deleteWhere p ↔ x ∈ t ∧ p x = false := by
  simp [deleteWhere, ← mem_rows]

theorem updateWhere_eq_self {t : Table key} {p : ρ → Bool} {f : ρ → ρ}
    {hf : ∀ r, key (f r) = key r} (h : ∀ r ∈ t, p r = false) : t.updateWhere p f hf = t := by
  obtain ⟨rows, nodup⟩ := t
  have hrows : (rows.map fun r => if p r then f r else r) = rows :=
    (List.map_congr_left fun r hr => by simp [h r hr]).trans (List.map_id rows)
  simp only [updateWhere, hrows]

section Lookup

variable [DecidableEq κ]

/-- `INSERT`: none on a unique violation. -/
def insert? (t : Table key) (r : ρ) : Option (Table key) :=
  if h : key r ∈ t.rows.map key then none
  else some ⟨t.rows ++ [r], by
    rw [List.map_append, List.map_singleton]
    exact List.nodup_append.mpr ⟨t.keys_nodup, List.nodup_singleton _, by
      rintro a ha b hb rfl
      rw [List.mem_singleton] at hb
      exact h (hb ▸ ha)⟩⟩

/-- `INSERT … ON CONFLICT DO NOTHING`. -/
def insertNew (t : Table key) (r : ρ) : Table key := (t.insert? r).getD t

theorem insert?_eq_none {t : Table key} {r : ρ} : t.insert? r = none ↔ ∃ x ∈ t, key x = key r := by
  simp [insert?, ← mem_rows]

theorem rows_of_insert? {t t' : Table key} {r : ρ} (h : t.insert? r = some t') :
    t'.rows = t.rows ++ [r] ∧ ∀ x ∈ t, key x ≠ key r := by
  have hfresh : ∀ x ∈ t, key x ≠ key r := by
    intro x hx hk
    rw [insert?_eq_none.mpr ⟨x, hx, hk⟩] at h
    cases h
  simp only [insert?] at h
  split at h
  · cases h
  · cases h
    exact ⟨rfl, hfresh⟩

theorem mem_insert? {t t' : Table key} {r x : ρ} (h : t.insert? r = some t') :
    x ∈ t' ↔ x ∈ t ∨ x = r := by
  rw [← mem_rows, (rows_of_insert? h).1, List.mem_append, List.mem_singleton, mem_rows]

theorem insertNew_of_mem {t : Table key} {r x : ρ} (hx : x ∈ t) (hk : key x = key r) :
    t.insertNew r = t := by
  rw [insertNew, insert?_eq_none.mpr ⟨x, hx, hk⟩, Option.getD_none]

theorem mem_insertNew {t : Table key} {r x : ρ} :
    x ∈ t.insertNew r ↔ x ∈ t ∨ (x = r ∧ ∀ y ∈ t, key y ≠ key r) := by
  cases h : t.insert? r with
  | none =>
      obtain ⟨y, hy, hk⟩ := insert?_eq_none.mp h
      rw [insertNew_of_mem hy hk]
      exact ⟨Or.inl, fun hx => hx.elim id fun hx => absurd hk (hx.2 y hy)⟩
  | some t' =>
      rw [insertNew, h, Option.getD_some, mem_insert? h]
      exact or_congr_right ⟨fun hx => ⟨hx, (rows_of_insert? h).2⟩, And.left⟩

theorem mem_of_mem_foldl_insertNew {rows : List ρ} {t : Table key} {x : ρ}
    (h : x ∈ rows.foldl insertNew t) : x ∈ t ∨ x ∈ rows := by
  induction rows generalizing t with
  | nil => exact Or.inl h
  | cons r rows ih =>
      rcases ih h with hx | hx
      · rcases mem_insertNew.mp hx with hx | ⟨rfl, -⟩
        · exact Or.inl hx
        · exact Or.inr List.mem_cons_self
      · exact Or.inr (List.mem_cons_of_mem _ hx)

theorem mem_foldl_insertNew_of_mem {rows : List ρ} {t : Table key} {x : ρ} (h : x ∈ t) :
    x ∈ rows.foldl insertNew t := by
  induction rows generalizing t with
  | nil => exact h
  | cons r rows ih => exact ih (mem_insertNew.mpr (Or.inl h))

theorem mem_foldl_insertNew {rows : List ρ} {t : Table key} {r : ρ} (hr : r ∈ rows)
    (old : ∀ x ∈ t, key x = key r → x = r) (new : ∀ x ∈ rows, key x = key r → x = r) :
    r ∈ rows.foldl insertNew t := by
  induction rows generalizing t with
  | nil => cases hr
  | cons r' rows ih =>
      rcases List.mem_cons.mp hr with rfl | hr
      · have here : r ∈ t.insertNew r := by
          rw [mem_insertNew]
          by_cases taken : ∃ x ∈ t, key x = key r
          · obtain ⟨x, hx, hk⟩ := taken
            exact Or.inl (old x hx hk ▸ hx)
          · push Not at taken
            exact Or.inr ⟨rfl, taken⟩
        have kept : r ∈ rows.foldl insertNew (t.insertNew r) := mem_foldl_insertNew_of_mem here
        exact kept
      · refine ih hr (fun x hx hk => ?_) fun x hx => new x (List.mem_cons_of_mem _ hx)
        rcases mem_insertNew.mp hx with hx | ⟨rfl, -⟩
        · exact old x hx hk
        · exact new _ List.mem_cons_self hk

def get? (t : Table key) (k : κ) : Option ρ := t.rows.find? fun r => decide (key r = k)

theorem get?_eq_some {t : Table key} {k : κ} {r : ρ} : t.get? k = some r ↔ r ∈ t ∧ key r = k :=
  find?_key_eq_some t.keys_nodup

theorem get?_eq_none {t : Table key} {k : κ} : t.get? k = none ↔ ∀ r ∈ t, key r ≠ k := by
  simp only [get?, List.find?_eq_none, decide_eq_true_eq, ← mem_rows, ne_eq]

theorem mem_of_get? {t : Table key} {k : κ} {r : ρ} (h : t.get? k = some r) : r ∈ t :=
  (get?_eq_some.mp h).1

theorem key_of_get? {t : Table key} {k : κ} {r : ρ} (h : t.get? k = some r) : key r = k :=
  (get?_eq_some.mp h).2

theorem get?_key {t : Table key} {r : ρ} (h : r ∈ t) : t.get? (key r) = some r :=
  get?_eq_some.mpr ⟨h, rfl⟩

@[simp] theorem get?_empty {k : κ} : (empty : Table key).get? k = none := rfl

/-- `UPDATE … SET f WHERE key = k`. -/
def update (t : Table key) (k : κ) (f : ρ → ρ) (hf : ∀ r, key (f r) = key r) : Table key :=
  t.updateWhere (fun r => decide (key r = k)) f hf

theorem mem_update {t : Table key} {k : κ} {f : ρ → ρ} {hf : ∀ r, key (f r) = key r} {x : ρ} :
    x ∈ t.update k f hf ↔ ∃ y ∈ t, x = if key y = k then f y else y := by
  simp only [update, mem_updateWhere, decide_eq_true_eq]

theorem update_update {t : Table key} {k : κ} {f g : ρ → ρ} {hf : ∀ r, key (f r) = key r}
    {hg : ∀ r, key (g r) = key r} :
    (t.update k f hf).update k g hg =
      t.update k (fun r => g (f r)) fun r => (hg (f r)).trans (hf r) := by
  simp only [update, updateWhere, List.map_map, mk.injEq]
  refine List.map_congr_left fun r _ => ?_
  by_cases hk : key r = k <;> simp [hk, hf]

theorem get?_updateWhere {t : Table key} {p : ρ → Bool} {f : ρ → ρ}
    {hf : ∀ r, key (f r) = key r} {k : κ} :
    (t.updateWhere p f hf).get? k = (t.get? k).map fun r => if p r then f r else r := by
  have keeps (r : ρ) : key (if p r then f r else r) = key r := by
    split
    · exact hf r
    · rfl
  cases h : t.get? k with
  | none =>
      rw [get?_eq_none] at h
      rw [Option.map_none, get?_eq_none]
      intro r hr
      obtain ⟨y, hy, rfl⟩ := mem_updateWhere.mp hr
      rw [keeps y]
      exact h y hy
  | some r =>
      obtain ⟨hr, rfl⟩ := get?_eq_some.mp h
      rw [Option.map_some, get?_eq_some]
      exact ⟨mem_updateWhere.mpr ⟨r, hr, rfl⟩, keeps r⟩

theorem get?_update {t : Table key} {k k' : κ} {f : ρ → ρ} {hf : ∀ r, key (f r) = key r} :
    (t.update k f hf).get? k' = if k = k' then (t.get? k').map f else t.get? k' := by
  rw [update, get?_updateWhere]
  cases h : t.get? k' with
  | none => simp
  | some r =>
      obtain ⟨-, rfl⟩ := get?_eq_some.mp h
      by_cases hk : k = key r
      · simp [hk]
      · simp [hk, Ne.symm hk]

theorem get?_deleteWhere {t : Table key} {p : ρ → Bool} {k : κ} :
    (t.deleteWhere p).get? k = (t.get? k).filter fun r => !p r := by
  cases h : t.get? k with
  | none =>
      rw [get?_eq_none] at h
      rw [Option.filter_none, get?_eq_none]
      exact fun r hr => h r (mem_deleteWhere.mp hr).1
  | some r =>
      obtain ⟨hr, rfl⟩ := get?_eq_some.mp h
      cases hp : p r with
      | true =>
          have gone : (some r).filter (fun r => !p r) = none := by simp [hp]
          rw [gone, get?_eq_none]
          intro x hx hk
          obtain ⟨hmem, hnot⟩ := mem_deleteWhere.mp hx
          rw [eq_of_key_eq hmem hr hk, hp] at hnot
          cases hnot
      | false =>
          have kept : (some r).filter (fun r => !p r) = some r := by simp [hp]
          rw [kept]
          exact get?_key (mem_deleteWhere.mpr ⟨hr, hp⟩)

theorem get?_insert? {t t' : Table key} {r : ρ} {k : κ} (h : t.insert? r = some t') :
    t'.get? k = if key r = k then some r else t.get? k := by
  by_cases hk : key r = k
  · rw [if_pos hk, get?_eq_some]
    exact ⟨(mem_insert? h).mpr (Or.inr rfl), hk⟩
  · rw [if_neg hk, get?, (rows_of_insert? h).1, List.find?_append]
    simp [hk, get?]

/-- `INSERT … ON CONFLICT DO UPDATE SET f`. -/
def upsert (t : Table key) (r : ρ) (f : ρ → ρ) (hf : ∀ r, key (f r) = key r) : Table key :=
  (t.insert? r).getD (t.update (key r) f hf)

theorem get?_upsert {t : Table key} {r : ρ} {f : ρ → ρ} {hf : ∀ r, key (f r) = key r} {k : κ} :
    (t.upsert r f hf).get? k =
      if key r = k then some (((t.get? k).map f).getD r) else t.get? k := by
  cases h : t.insert? r with
  | none =>
      obtain ⟨x, hx, hk⟩ := insert?_eq_none.mp h
      rw [upsert, h, Option.getD_none, get?_update]
      by_cases heq : key r = k
      · have hget : t.get? k = some x := get?_eq_some.mpr ⟨hx, hk.trans heq⟩
        simp [heq, hget]
      · simp [heq]
  | some t' =>
      rw [upsert, h, Option.getD_some, get?_insert? h]
      by_cases heq : key r = k
      · have hnone : t.get? k = none :=
          get?_eq_none.mpr fun x hx => heq ▸ (rows_of_insert? h).2 x hx
        simp [heq, hnone]
      · simp [heq]

end Lookup

end Table
