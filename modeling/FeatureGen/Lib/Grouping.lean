import Mathlib

/-! # Grouping by a key

A dictionary that is filled entry by entry: the first item under a key stays, and the
tags under it accumulate, each once. What is under a key depends on which entries
there were, and only the item and the order on how they stood.
-/

namespace Grouping

variable {κ α τ : Type}

/-- What is under one key. -/
structure Group (κ α τ : Type) where
  key : κ
  first : α
  tags : List τ

def Group.tag [DecidableEq τ] (g : Group κ α τ) (t : τ) : Group κ α τ where
  key := g.key
  first := g.first
  tags := if g.tags.contains t then g.tags else g.tags ++ [t]

/-- `setdefault`, and a tag. -/
def add [DecidableEq κ] [DecidableEq τ] (gs : List (Group κ α τ)) (key : κ) (item : α) (t : τ) :
    List (Group κ α τ) :=
  if gs.any (·.key = key) then gs.map fun g => if g.key = key then g.tag t else g
  else gs ++ [⟨key, item, [t]⟩]

/-- The groups of some entries. -/
def collect [DecidableEq κ] [DecidableEq τ] (xs : List (κ × α × τ)) : List (Group κ α τ) :=
  xs.foldl (fun gs x => add gs x.1 x.2.1 x.2.2) []

@[simp] theorem Group.tag_key [DecidableEq τ] (g : Group κ α τ) (t : τ) :
    (g.tag t).key = g.key := rfl

@[simp] theorem Group.tag_first [DecidableEq τ] (g : Group κ α τ) (t : τ) :
    (g.tag t).first = g.first := rfl

@[simp] theorem Group.mem_tags_tag [DecidableEq τ] {g : Group κ α τ} {s t : τ} :
    s ∈ (g.tag t).tags ↔ s ∈ g.tags ∨ s = t := by
  unfold Group.tag
  dsimp only
  split
  · next present =>
    have held : t ∈ g.tags := by simpa using present
    constructor
    · exact Or.inl
    · intro h
      cases h with
      | inl h => exact h
      | inr h => rwa [h]
  · simp

/-- The groups are those of the entries. -/
structure Collected (xs : List (κ × α × τ)) (gs : List (Group κ α τ)) : Prop where
  nodup : (gs.map (·.key)).Nodup
  covered : ∀ x ∈ xs, ∃ g ∈ gs, g.key = x.1
  first : ∀ g ∈ gs, ∃ t, (g.key, g.first, t) ∈ xs
  tags : ∀ g ∈ gs, ∀ t, t ∈ g.tags ↔ ∃ a, (g.key, a, t) ∈ xs

theorem Collected.nil : Collected ([] : List (κ × α × τ)) [] where
  nodup := List.nodup_nil
  covered _ h := absurd h List.not_mem_nil
  first _ h := absurd h List.not_mem_nil
  tags _ h := absurd h List.not_mem_nil

theorem Collected.tagged [DecidableEq κ] [DecidableEq τ] {xs : List (κ × α × τ)}
    {gs : List (Group κ α τ)} (h : Collected xs gs) {key : κ} (item : α) (t : τ)
    (present : ∃ g ∈ gs, g.key = key) :
    Collected (xs ++ [(key, item, t)])
      (gs.map fun g => if g.key = key then g.tag t else g) := by
  have keys : ∀ g : Group κ α τ, (if g.key = key then g.tag t else g).key = g.key := by
    intro g
    split <;> simp
  refine ⟨?_, ?_, ?_, ?_⟩
  · simpa only [List.map_map, Function.comp_def, keys] using h.nodup
  · intro x hx
    obtain hx | hx := List.mem_append.mp hx
    · obtain ⟨g, hg, hkey⟩ := h.covered x hx
      exact ⟨_, List.mem_map_of_mem hg, (keys g).trans hkey⟩
    · obtain ⟨g, hg, hkey⟩ := present
      rw [List.mem_singleton] at hx
      exact ⟨_, List.mem_map_of_mem hg, by rw [keys, hkey, hx]⟩
  · intro g' hg'
    obtain ⟨g, hg, rfl⟩ := List.mem_map.mp hg'
    obtain ⟨s, hs⟩ := h.first g hg
    refine ⟨s, List.mem_append_left _ ?_⟩
    split <;> exact hs
  · intro g' hg' s
    obtain ⟨g, hg, rfl⟩ := List.mem_map.mp hg'
    have old := h.tags g hg s
    by_cases same : g.key = key
    · simp only [same, if_true, Group.mem_tags_tag, Group.tag_key, List.mem_append,
        List.mem_singleton, Prod.mk.injEq, true_and] at old ⊢
      rw [old]
      constructor
      · intro hs
        cases hs with
        | inl hs => exact ⟨hs.choose, Or.inl hs.choose_spec⟩
        | inr hs => exact ⟨item, Or.inr ⟨rfl, hs⟩⟩
      · intro hs
        obtain ⟨a, ha | ha⟩ := hs
        · exact Or.inl ⟨a, ha⟩
        · exact Or.inr ha.2
    · simp only [same, if_false, List.mem_append, List.mem_singleton, Prod.mk.injEq, false_and,
        or_false]
      exact old

theorem Collected.opened {xs : List (κ × α × τ)} {gs : List (Group κ α τ)} (h : Collected xs gs)
    {key : κ} (item : α) (t : τ) (absent : ∀ g ∈ gs, g.key ≠ key) :
    Collected (xs ++ [(key, item, t)]) (gs ++ [⟨key, item, [t]⟩]) := by
  have unused : ∀ a s, (key, a, s) ∉ xs := by
    intro a s hx
    obtain ⟨g, hg, hkey⟩ := h.covered _ hx
    exact absent g hg hkey
  refine ⟨?_, ?_, ?_, ?_⟩
  · simp only [List.map_append, List.map_cons, List.map_nil]
    refine List.nodup_append.mpr ⟨h.nodup, by simp, ?_⟩
    intro k hk k' hk' same
    obtain ⟨g, hg, hkey⟩ := List.mem_map.mp hk
    simp only [List.mem_singleton] at hk'
    exact absent g hg (hkey.trans (same.trans hk'))
  · intro x hx
    obtain hx | hx := List.mem_append.mp hx
    · obtain ⟨g, hg, hkey⟩ := h.covered x hx
      exact ⟨g, List.mem_append_left _ hg, hkey⟩
    · rw [List.mem_singleton] at hx
      exact ⟨_, List.mem_append_right _ List.mem_cons_self, by rw [hx]⟩
  · intro g hg
    obtain hg | hg := List.mem_append.mp hg
    · obtain ⟨s, hs⟩ := h.first g hg
      exact ⟨s, List.mem_append_left _ hs⟩
    · rw [List.mem_singleton] at hg
      exact ⟨t, by simp [hg]⟩
  · intro g hg s
    obtain hg | hg := List.mem_append.mp hg
    · have other : g.key ≠ key := absent g hg
      simp only [List.mem_append, List.mem_singleton, Prod.mk.injEq, other, false_and, or_false]
      exact h.tags g hg s
    · rw [List.mem_singleton] at hg
      simp [hg, unused]

theorem Collected.add [DecidableEq κ] [DecidableEq τ] {xs : List (κ × α × τ)}
    {gs : List (Group κ α τ)} (h : Collected xs gs) (key : κ) (item : α) (t : τ) :
    Collected (xs ++ [(key, item, t)]) (Grouping.add gs key item t) := by
  unfold Grouping.add
  by_cases present : gs.any (·.key = key) = true
  · rw [if_pos present]
    exact h.tagged item t (by simpa using present)
  · rw [if_neg present]
    exact h.opened item t (by simpa using present)

theorem collected [DecidableEq κ] [DecidableEq τ] (xs : List (κ × α × τ)) :
    Collected xs (collect xs) := by
  induction xs using List.reverseRecOn with
  | nil => exact .nil
  | append_singleton xs x ih =>
      simp only [collect, List.foldl_append, List.foldl_cons, List.foldl_nil]
      exact ih.add x.1 x.2.1 x.2.2

end Grouping
