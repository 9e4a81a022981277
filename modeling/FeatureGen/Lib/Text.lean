import Mathlib

/-! # Texts

Python's string operations on texts: `partition`, `split` on a character, `repr`,
and the reading of decimal digits.
-/

namespace Text

/-- What stands before and after the first occurrence of `sep`. -/
def cut (sep : List Char) : List Char → Option (List Char × List Char)
  | [] => none
  | c :: cs =>
      if sep.isPrefixOf (c :: cs) then some ([], (c :: cs).drop sep.length)
      else (cut sep cs).map fun parts => (c :: parts.1, parts.2)

/-- `s.partition(sep)`, none where `sep` does not occur. -/
def partition (sep s : String) : Option (String × String) :=
  (cut sep.toList s.toList).map fun parts => (String.ofList parts.1, String.ofList parts.2)

/-- `sep in s`. -/
def contains (sep s : String) : Bool := (partition sep s).isSome

/-- `s.split(sep)`. -/
def split (sep : Char) (s : String) : List String := (s.toList.splitOn sep).map String.ofList

/-- `repr(s)`. The characters without an escape of their own are written as they are. -/
def repr (s : String) : String :=
  let mark := if '\'' ∈ s.toList ∧ '"' ∉ s.toList then '"' else '\''
  let escape (c : Char) : List Char :=
    if c = '\\' ∨ c = mark then ['\\', c]
    else if c = '\n' then ['\\', 'n']
    else if c = '\r' then ['\\', 'r']
    else if c = '\t' then ['\\', 't']
    else [c]
  String.ofList (mark :: s.toList.flatMap escape ++ [mark])

theorem eq_of_cut {sep s a b : List Char} (h : cut sep s = some (a, b)) : s = a ++ sep ++ b := by
  induction s generalizing a b with
  | nil => simp [cut] at h
  | cons c cs ih =>
      unfold cut at h
      split at h
      · rename_i found
        obtain ⟨rest, hrest⟩ := List.isPrefixOf_iff_prefix.mp found
        simp only [← hrest, List.drop_left, Option.some.injEq, Prod.mk.injEq] at h
        rw [← h.1, ← h.2, ← hrest, List.nil_append]
      · obtain ⟨⟨a', b'⟩, hcut, heq⟩ := Option.map_eq_some_iff.mp h
        simp only [Prod.mk.injEq] at heq
        rw [← heq.1, ← heq.2, ih hcut]
        rfl

theorem eq_of_partition {sep s a b : String} (h : partition sep s = some (a, b)) :
    s = a ++ sep ++ b := by
  obtain ⟨⟨a', b'⟩, hcut, heq⟩ := Option.map_eq_some_iff.mp h
  simp only [Prod.mk.injEq] at heq
  apply String.toList_injective
  rw [← heq.1, ← heq.2, eq_of_cut hcut]
  simp

theorem eq_of_split {sep : Char} {s : String} {parts : List String} (h : split sep s = parts) :
    s.toList = [sep].intercalate (parts.map String.toList) := by
  rw [← h, split, List.map_map]
  have same : String.toList ∘ String.ofList = id := by
    funext cs
    simp
  rw [same, List.map_id, List.intercalate_splitOn]

theorem cut_of_short {sep s : List Char} (h : s.length < sep.length) : cut sep s = none := by
  induction s with
  | nil => rfl
  | cons c cs ih =>
      have notHere : sep.isPrefixOf (c :: cs) = false := by
        rw [Bool.eq_false_iff]
        intro here
        have le := (List.isPrefixOf_iff_prefix.mp here).length_le
        omega
      rw [List.length_cons] at h
      rw [cut, notHere, ih (by omega)]
      rfl

theorem cut_append {sep : List Char} (hsep : sep ≠ []) (a b : List Char) :
    cut sep (a ++ sep ++ b) = some (a, b) ↔ cut sep (a ++ sep.dropLast) = none := by
  induction a with
  | nil =>
      have short : cut sep sep.dropLast = none := by
        apply cut_of_short
        have pos := List.length_pos_of_ne_nil hsep
        rw [List.length_dropLast]
        omega
      rw [List.nil_append, List.nil_append, short]
      cases sep with
      | nil => exact absurd rfl hsep
      | cons c cs =>
          rw [List.cons_append, cut, if_pos]
          · simp
          · rw [List.isPrefixOf_iff_prefix, ← List.cons_append]
            exact List.prefix_append _ _
  | cons x a ih =>
      -- what follows `x` agrees as far as the separator reaches
      have agree : sep.isPrefixOf (x :: (a ++ sep ++ b))
          = sep.isPrefixOf (x :: (a ++ sep.dropLast)) := by
        have whole : x :: (a ++ sep ++ b)
            = x :: (a ++ sep.dropLast) ++ (sep.getLast hsep :: b) := by
          conv_lhs => rw [← List.dropLast_append_getLast hsep]
          simp
        rw [Bool.eq_iff_iff, List.isPrefixOf_iff_prefix, List.isPrefixOf_iff_prefix, whole]
        constructor
        · intro h
          apply List.prefix_of_prefix_length_le h (List.prefix_append _ _)
          rw [List.length_cons, List.length_append, List.length_dropLast]
          omega
        · intro h
          exact h.trans (List.prefix_append _ _)
      rw [List.cons_append, List.cons_append, List.cons_append, cut, cut, agree]
      split
      · simp
      · rw [Option.map_eq_none_iff, ← ih, Option.map_eq_some_iff]
        constructor
        · intro h
          obtain ⟨parts, hparts, eq⟩ := h
          simp only [Prod.mk.injEq, List.cons.injEq, true_and] at eq
          rw [hparts, ← eq.1, ← eq.2]
        · intro h
          exact ⟨(a, b), h, rfl⟩

theorem partition_append {sep : String} (hsep : sep ≠ "") (a b : String) :
    partition sep (a ++ sep ++ b) = some (a, b) ↔
      cut sep.toList (a.toList ++ sep.toList.dropLast) = none := by
  have nonempty : sep.toList ≠ [] := by
    intro h
    exact hsep (String.toList_injective h)
  rw [← cut_append nonempty a.toList b.toList, partition, Option.map_eq_some_iff,
    String.toList_append, String.toList_append]
  constructor
  · intro h
    obtain ⟨parts, hparts, eq⟩ := h
    simp only [Prod.mk.injEq] at eq
    rw [hparts, ← eq.1, ← eq.2, String.toList_ofList, String.toList_ofList]
  · intro h
    exact ⟨(a.toList, b.toList), h, by simp⟩

theorem not_mem_of_mem_splitOn {sep : Char} {cs piece : List Char} (h : piece ∈ cs.splitOn sep) :
    sep ∉ piece := by
  induction cs generalizing piece with
  | nil =>
      rw [List.splitOn_nil, List.mem_singleton] at h
      rw [h]
      exact List.not_mem_nil
  | cons c cs ih =>
      rw [List.splitOn_cons_eq_if_modifyHead] at h
      split at h
      · cases List.mem_cons.mp h with
        | inl eq =>
            rw [eq]
            exact List.not_mem_nil
        | inr later => exact ih later
      · rename_i other
        cases hpieces : cs.splitOn sep with
        | nil => exact absurd hpieces (List.splitOn_ne_nil sep cs)
        | cons first rest =>
            rw [hpieces] at h ih
            cases List.mem_cons.mp h with
            | inl eq =>
                rw [eq, List.mem_cons, not_or]
                constructor
                · intro same
                  exact other (by simp [same])
                · exact ih List.mem_cons_self
            | inr later => exact ih (List.mem_cons_of_mem _ later)

theorem split_intercalate {sep : Char} {parts : List String} (nonempty : parts ≠ []) :
    split sep (String.intercalate (String.singleton sep) parts) = parts ↔
      ∀ part ∈ parts, sep ∉ part.toList := by
  have same : String.ofList ∘ String.toList = id := by
    funext s
    simp
  rw [split, String.toList_intercalate, String.toList_singleton]
  constructor
  · intro h part hpart
    rw [← h] at hpart
    obtain ⟨piece, hpiece, rfl⟩ := List.mem_map.mp hpart
    rw [String.toList_ofList]
    exact not_mem_of_mem_splitOn hpiece
  · intro h
    rw [List.splitOn_intercalate, List.map_map, same, List.map_id]
    · intro piece hpiece
      obtain ⟨part, hpart, rfl⟩ := List.mem_map.mp hpiece
      exact h part hpart
    · simpa using nonempty

/-- `[0-9]+`. -/
def digits (cs : List Char) : Bool := cs ≠ [] ∧ cs.all Char.isDigit

/-- The number some digits write. -/
def natOf (cs : List Char) : ℕ := cs.foldl (fun n c => 10 * n + (c.toNat - '0'.toNat)) 0

/-- The text without a leading `-`, and whether it had one. -/
def unsigned : List Char → Bool × List Char
  | '-' :: cs => (true, cs)
  | cs => (false, cs)

end Text
