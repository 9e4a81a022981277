import Mathlib
import FeatureGen.Overlay.ObjectRef
import FeatureGen.Overlay.Lifecycle

/-! # Logical refs read back

Which parts a logical ref keeps apart: those without a separator of the ref's own
inside. `parse_ref` recovers these and no others.
-/

namespace FeatureGen.Overlay

/-- The normal forms of the parts: stripped and lower-cased, the schema `public` and the
    column none where they are blank. -/
def normalParts (lower : String → String) (source : String) (schema : Option String)
    (table : String) (column : Option String) : LogicalParts where
  source := norm lower source
  schema := ((schema.filter fun s => strip s ≠ "").map (norm lower)).getD defaultSchema
  table := norm lower table
  column := (column.filter fun c => strip c ≠ "").map (norm lower)

def LogicalParts.path (parts : LogicalParts) : List String :=
  [parts.schema, parts.table] ++ parts.column.toList

/-- No separator of a ref begins inside the source, and none stands inside the path's parts. -/
structure LogicalParts.Separable (parts : LogicalParts) : Prop where
  source : Text.contains "::" (parts.source ++ ":") = false
  path : ∀ part ∈ parts.path, '.' ∉ part.toList

theorem normalizeRef_eq (lower : String → String) (source : String) (schema : Option String)
    (table : String) (column : Option String) :
    normalizeRef lower source schema table column
      = (normalParts lower source schema table column).source ++ "::" ++
        String.intercalate "." (normalParts lower source schema table column).path := rfl

theorem LogicalParts.path_ne_nil (parts : LogicalParts) : parts.path ≠ [] := by
  simp [path]

theorem LogicalParts.path_text_ne (parts : LogicalParts) :
    String.intercalate "." parts.path ≠ "" := by
  intro empty
  have dots := congrArg String.toList empty
  rw [String.toList_intercalate] at dots
  cases hcolumn : parts.column with
  | none => simp [path, hcolumn, List.intercalate] at dots
  | some column => simp [path, hcolumn, List.intercalate] at dots

theorem parseRef_eq_ok {ref : String} {parts : LogicalParts} :
    parseRef ref = .ok parts ↔ ∃ path, Text.partition "::" ref = some (parts.source, path) ∧
      path ≠ "" ∧ Text.split '.' path = parts.path := by
  obtain ⟨source, schema, table, column⟩ := parts
  simp only [parseRef]
  cases Text.partition "::" ref with
  | none => simp
  | some cut =>
      obtain ⟨source', path⟩ := cut
      dsimp only
      split
      · rename_i empty
        simp only [Option.some.injEq, Prod.mk.injEq, reduceCtorEq, false_iff, not_exists, not_and]
        intro path' hcut nonempty
        rw [← hcut.2] at nonempty
        exact absurd empty nonempty
      · rename_i nonempty
        simp only [Option.some.injEq, Prod.mk.injEq]
        split
        · rename_i schema' table' hsplit
          constructor
          · intro h
            simp only [Except.ok.injEq, LogicalParts.mk.injEq] at h
            obtain ⟨rfl, rfl, rfl, rfl⟩ := h
            exact ⟨path, ⟨rfl, rfl⟩, nonempty, hsplit⟩
          · intro h
            obtain ⟨path', ⟨rfl, rfl⟩, _, h⟩ := h
            rw [hsplit] at h
            cases column with
            | none =>
                simp only [LogicalParts.path, Option.toList_none, List.append_nil,
                  List.cons.injEq, and_true] at h
                rw [h.1, h.2]
            | some column => simp [LogicalParts.path] at h
        · rename_i schema' table' column' hsplit
          constructor
          · intro h
            simp only [Except.ok.injEq, LogicalParts.mk.injEq] at h
            obtain ⟨rfl, rfl, rfl, rfl⟩ := h
            exact ⟨path, ⟨rfl, rfl⟩, nonempty, hsplit⟩
          · intro h
            obtain ⟨path', ⟨rfl, rfl⟩, _, h⟩ := h
            rw [hsplit] at h
            cases column with
            | none => simp [LogicalParts.path] at h
            | some column =>
                simp only [LogicalParts.path, Option.toList_some, List.cons_append,
                  List.nil_append, List.cons.injEq, and_true] at h
                rw [h.1, h.2.1, h.2.2]
        · rename_i notTwo notThree
          simp only [reduceCtorEq, false_iff, not_exists, not_and]
          intro path' hcut _ hsplit
          rw [← hcut.2] at hsplit
          cases column with
          | none => exact notTwo _ _ hsplit
          | some column => exact notThree _ _ _ hsplit

theorem parseRef_text {parts : LogicalParts} :
    parseRef (parts.source ++ "::" ++ String.intercalate "." parts.path) = .ok parts ↔
      parts.Separable := by
  have source : Text.contains "::" (parts.source ++ ":") = false ↔
      Text.cut [':', ':'] (parts.source.toList ++ [':']) = none := by
    rw [Text.contains, Text.partition, Option.isSome_map, Option.isSome_eq_false_iff,
      Option.isNone_iff_eq_none, String.toList_append]
    rfl
  have separator : "::" ≠ "" := by decide
  have cut := Text.partition_append separator parts.source
    (String.intercalate "." parts.path)
  rw [parseRef_eq_ok]
  constructor
  · intro h
    obtain ⟨path, hcut, _, hsplit⟩ := h
    have text := Text.eq_of_partition hcut
    have same : String.intercalate "." parts.path = path := by
      have := congrArg String.toList text
      simp only [String.toList_append, List.append_assoc, List.append_cancel_left_eq] at this
      exact String.toList_injective this
    rw [← same] at hcut hsplit
    constructor
    · exact source.mpr (cut.mp hcut)
    · exact (Text.split_intercalate parts.path_ne_nil).mp hsplit
  · intro h
    exact ⟨_, cut.mpr (source.mp h.source), parts.path_text_ne,
      (Text.split_intercalate parts.path_ne_nil).mpr h.path⟩

/-- A logical ref reads back exactly if the normal forms of its parts hold no separator of
    a ref, and two refs of this kind are the same only for the same normal forms. -/
theorem ref_round_trips_iff (lower : String → String) :
    (∀ source schema table column,
      parseRef (normalizeRef lower source schema table column)
          = .ok (normalParts lower source schema table column) ↔
        (normalParts lower source schema table column).Separable) ∧
    (∀ source schema table column source' schema' table' column',
      (normalParts lower source schema table column).Separable →
      (normalParts lower source' schema' table' column').Separable →
      normalizeRef lower source schema table column
          = normalizeRef lower source' schema' table' column' →
        normalParts lower source schema table column
          = normalParts lower source' schema' table' column') := by
  constructor
  · intro source schema table column
    rw [normalizeRef_eq]
    exact parseRef_text
  · intro source schema table column source' schema' table' column' sep sep' same
    rw [normalizeRef_eq, normalizeRef_eq] at same
    have read := parseRef_text.mpr sep
    rw [same, parseRef_text.mpr sep'] at read
    simpa using read.symm

theorem ref_round_trips_iff_orders :
    normalParts asciiLower "Core" none "Orders" none
      = normalParts asciiLower "core " (some "public") "orders" (some " ") := by
  apply (ref_round_trips_iff asciiLower).2
  · exact ⟨by decide, by decide⟩
  · exact ⟨by decide, by decide⟩
  · decide

/-- A source that ends in a colon, and a table with a dot: neither ref reads back, and each
    is the ref of other parts, too. -/
theorem separators_alias :
    (parseRef (normalizeRef asciiLower "core:" none "orders" none)
        ≠ .ok (normalParts asciiLower "core:" none "orders" none) ∧
      normalizeRef asciiLower "core:" none "orders" none
        = normalizeRef asciiLower "core" (some ":public") "orders" none) ∧
    (parseRef (normalizeRef asciiLower "core" none "orders.v2" none)
        ≠ .ok (normalParts asciiLower "core" none "orders.v2" none) ∧
      normalizeRef asciiLower "core" none "orders.v2" none
        = normalizeRef asciiLower "core" none "orders" (some "v2")) := by
  decide +kernel

end FeatureGen.Overlay
