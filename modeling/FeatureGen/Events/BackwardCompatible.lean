import FeatureGen.Events.JsonSchema

/-! # What backward compatibility promises

`is_backward_compatible` compares the required fields of two schemas and the types
and enumerations of the fields that both declare. A body of the old schema passes
these parts of the new one, so it is valid under it exactly if it passes the others.
-/

namespace FeatureGen.EventSchemas

/-- The keywords of a schema besides `type` and `enum`. -/
def Schema.nested (schema : Schema) : Value → Bool
  | .dict members =>
      hasRequired schema.required members && schema.properties.validate members &&
        schema.additional.validate schema.properties.names members
  | _ => true

/-- A boolean or one of the numbers that Python takes them for. -/
def Ambiguous (value : Value) : Prop :=
  asNumber value = some 0 ∨ asNumber value = some 1

structure Uncompared (oldSchema newSchema : Schema) (body : Body) : Prop where
  /-- The object's own type and enumeration, and its members that are not declared. -/
  type : allowsType newSchema.types (.dict body) = true
  enum : allowsEnum newSchema.enum (.dict body) = true
  additional : newSchema.additional.validate newSchema.properties.names body = true
  /-- A field that only the new schema declares. -/
  added : ∀ name newSpec value, oldSchema.properties.get? name = none →
    newSchema.properties.get? name = some newSpec → body.get? name = some value →
      newSpec.validate value = true
  /-- The type of a field that had none. -/
  typed : ∀ name oldSpec newSpec value, oldSchema.properties.get? name = some oldSpec →
    newSchema.properties.get? name = some newSpec → body.get? name = some value →
      oldSpec.types = [] → allowsType newSpec.types value = true
  /-- The enumeration, where Python does not tell the value from a boolean or a number. -/
  ambiguous : ∀ name oldSpec newSpec value, oldSchema.properties.get? name = some oldSpec →
    newSchema.properties.get? name = some newSpec → body.get? name = some value →
      Ambiguous value → allowsEnum newSpec.enum value = true
  /-- What a field holds in turn. -/
  nested : ∀ name oldSpec newSpec value, oldSchema.properties.get? name = some oldSpec →
    newSchema.properties.get? name = some newSpec → body.get? name = some value →
      newSpec.nested value = true

theorem Schema.validate_eq (schema : Schema) (value : Value) :
    schema.validate value =
      (allowsType schema.types value && allowsEnum schema.enum value && schema.nested value) := by
  obtain ⟨types, enum, properties, required, additional⟩ := schema
  cases value <;> rfl

theorem Schema.validate_iff {schema : Schema} {value : Value} :
    schema.validate value = true ↔ allowsType schema.types value = true ∧
      allowsEnum schema.enum value = true ∧ schema.nested value = true := by
  rw [schema.validate_eq, Bool.and_eq_true, Bool.and_eq_true, and_assoc]

theorem Schema.validate_dict {schema : Schema} {body : Body} :
    schema.validate (.dict body) = true ↔
      (allowsType schema.types (.dict body) = true ∧ allowsEnum schema.enum (.dict body) = true) ∧
        (hasRequired schema.required body = true ∧ schema.properties.validate body = true) ∧
          schema.additional.validate schema.properties.names body = true := by
  rw [Schema.validate_iff, Schema.nested, Bool.and_eq_true, Bool.and_eq_true]
  exact and_assoc.symm

theorem mem_names_of_get? {properties : Schema.Properties} {name : String} {spec : Schema}
    (h : properties.get? name = some spec) : name ∈ properties.names := by
  induction properties with
  | nil => simp [Schema.Properties.get?] at h
  | cons name' spec' properties ih =>
      rw [Schema.Properties.get?] at h
      rw [Schema.Properties.names, List.mem_cons]
      split at h
      · rename_i eq
        exact Or.inl eq.symm
      · exact Or.inr (ih h)

theorem properties_validate_iff {properties : Schema.Properties}
    (keys : properties.names.Nodup) {body : Body} :
    properties.validate body = true ↔ ∀ name spec value, properties.get? name = some spec →
      body.get? name = some value → spec.validate value = true := by
  induction properties with
  | nil => simp [Schema.Properties.validate, Schema.Properties.get?]
  | cons name spec properties ih =>
      rw [Schema.Properties.names, List.nodup_cons] at keys
      rw [Schema.Properties.validate, Bool.and_eq_true, ih keys.2]
      constructor
      · intro h other spec' value hspec hvalue
        rw [Schema.Properties.get?] at hspec
        split at hspec
        · rename_i eq
          rw [← eq] at hvalue
          rw [← Option.some.inj hspec]
          have own := h.1
          rw [hvalue] at own
          exact own
        · exact h.2 other spec' value hspec hvalue
      · intro h
        constructor
        · cases hvalue : body.get? name with
          | none => rfl
          | some value =>
              apply h name spec value _ hvalue
              rw [Schema.Properties.get?, if_pos rfl]
        · intro other spec' value hspec hvalue
          apply h other spec' value _ hvalue
          rw [Schema.Properties.get?, if_neg]
          · exact hspec
          · intro eq
            exact keys.1 (eq ▸ mem_names_of_get? hspec)

theorem of_properties_validate {properties : Schema.Properties} {body : Body}
    (h : properties.validate body = true) {name : String} {spec : Schema} {value : Value}
    (hspec : properties.get? name = some spec) (hvalue : body.get? name = some value) :
    spec.validate value = true := by
  induction properties with
  | nil => simp [Schema.Properties.get?] at hspec
  | cons name' spec' properties ih =>
      rw [Schema.Properties.validate, Bool.and_eq_true] at h
      rw [Schema.Properties.get?] at hspec
      split at hspec
      · rename_i eq
        have own := h.1
        rw [eq, hvalue] at own
        rw [← Option.some.inj hspec]
        exact own
      · exact ih h.2 hspec

/-- What the comparison has established of a field that both schemas declare. -/
structure Compared (oldSpec newSpec : Schema) : Prop where
  types : typeCompatible oldSpec newSpec = true
  enums : enumCompatible oldSpec newSpec = some true

theorem compared_of_compareProperties {newProperties oldProperties : Schema.Properties}
    (h : compareProperties newProperties oldProperties = some true) {name : String}
    {oldSpec newSpec : Schema} (hold : oldProperties.get? name = some oldSpec)
    (hnew : newProperties.get? name = some newSpec) : Compared oldSpec newSpec := by
  induction oldProperties with
  | nil => simp [Schema.Properties.get?] at hold
  | cons name' spec properties ih =>
      rw [compareProperties] at h
      cases hget : newProperties.get? name' with
      | none =>
          rw [hget] at h
          simp at h
      | some spec' =>
          rw [hget] at h
          dsimp only at h
          split at h
          · rename_i types
            cases enums : enumCompatible spec spec' with
            | none =>
                rw [enums] at h
                simp at h
            | some verdict =>
                rw [enums] at h
                cases verdict with
                | false => simp at h
                | true =>
                    rw [Schema.Properties.get?] at hold
                    split at hold
                    · rename_i eq
                      rw [← eq, hget] at hnew
                      rw [← Option.some.inj hold, ← Option.some.inj hnew]
                      exact ⟨types, enums⟩
                    · exact ih h hold
          · simp at h

theorem allowsType_of_compared {oldSpec newSpec : Schema} (h : Compared oldSpec newSpec)
    (typed : oldSpec.types ≠ []) {value : Value}
    (old : allowsType oldSpec.types value = true) : allowsType newSpec.types value = true := by
  have types := h.types
  simp only [typeCompatible, Bool.or_eq_true, List.isEmpty_iff, List.all_eq_true,
    List.contains_iff_mem] at types
  simp only [allowsType, Bool.or_eq_true, List.isEmpty_iff, List.any_eq_true] at old ⊢
  cases old with
  | inl empty => exact absurd empty typed
  | inr old =>
      obtain ⟨t, ht, holds⟩ := old
      rcases types with (empty | empty) | within
      · exact absurd empty typed
      · exact Or.inl empty
      · exact Or.inr ⟨t, within t ht, holds⟩

theorem equal_iff_of_hashable {a b : Value} (h : hashable a = true) : equal a b = true ↔ a = b := by
  cases a with
  | list items => simp [hashable] at h
  | dict members => simp [hashable] at h
  | null => cases b <;> simp [equal]
  | bool _ => cases b <;> simp [equal]
  | num _ => cases b <;> simp [equal]
  | str _ => cases b <;> simp [equal]

theorem eq_of_sameEntry {a b : Value} (hash : hashable a = true) (plain : ¬ Ambiguous a)
    (h : sameEntry a b = true) : a = b := by
  rw [Ambiguous, not_or] at plain
  cases a with
  | list items => simp [hashable] at hash
  | dict members => simp [hashable] at hash
  | bool flag => cases flag <;> simp [asNumber] at plain
  | num n =>
      cases b with
      | bool flag => cases flag <;> simp_all [sameEntry, asNumber]
      | num m => simp_all [sameEntry, asNumber]
      | _ => simp [sameEntry, asNumber] at h
  | null => cases b <;> simp_all [sameEntry, asNumber, equal]
  | str s => cases b <;> simp_all [sameEntry, asNumber, equal]

theorem allowsEnum_of_compared {oldSpec newSpec : Schema} (h : Compared oldSpec newSpec)
    {value : Value} (plain : ¬ Ambiguous value) (old : allowsEnum oldSpec.enum value = true) :
    allowsEnum newSpec.enum value = true := by
  have enums := h.enums
  rw [enumCompatible] at enums
  cases hnew : newSpec.enum with
  | none => rfl
  | some newEnum =>
      cases hold : oldSpec.enum with
      | none =>
          rw [hold, hnew] at enums
          simp at enums
      | some oldEnum =>
          rw [hold, hnew] at enums
          rw [hold] at old
          dsimp only at enums
          unfold entriesWithin at enums
          split at enums
          · rename_i hashes
            rw [Bool.and_eq_true, List.all_eq_true, List.all_eq_true] at hashes
            have within := List.all_eq_true.mp (Option.some.inj enums)
            simp only [allowsEnum, Option.all_some, List.any_eq_true] at old ⊢
            obtain ⟨entry, hentry, same⟩ := old
            have hash := hashes.1 entry hentry
            have eq := (equal_iff_of_hashable hash).mp same
            obtain ⟨entry', hentry', same'⟩ := List.any_eq_true.mp (within entry hentry)
            have eq' := eq_of_sameEntry hash (eq ▸ plain) same'
            refine ⟨entry', hentry', ?_⟩
            rw [← eq', ← eq]
            exact (equal_iff_of_hashable hash).mpr rfl
          · simp at enums

/-- A body of the old schema is valid under a compatible new one exactly if it passes what the
    comparison leaves out. -/
theorem compatible_bodies_valid_iff {oldSchema newSchema : Schema} {body : Body}
    (compatible : isBackwardCompatible oldSchema newSchema = some true)
    (keys : newSchema.properties.names.Nodup)
    (valid : oldSchema.validate (.dict body) = true) :
    newSchema.validate (.dict body) = true ↔ Uncompared oldSchema newSchema body := by
  unfold isBackwardCompatible at compatible
  split at compatible
  · simp at compatible
  rename_i required
  split at compatible
  · simp at compatible
  have compared : ∀ name oldSpec newSpec, oldSchema.properties.get? name = some oldSpec →
      newSchema.properties.get? name = some newSpec → Compared oldSpec newSpec := by
    intro name oldSpec newSpec hold hnew
    exact compared_of_compareProperties compatible hold hnew
  obtain ⟨_, ⟨hasOld, oldFields⟩, _⟩ := Schema.validate_dict.mp valid
  rw [Schema.validate_dict, properties_validate_iff keys]
  constructor
  · intro h
    obtain ⟨⟨type, enum⟩, ⟨_, fields⟩, additional⟩ := h
    constructor
    · exact type
    · exact enum
    · exact additional
    · intro name newSpec value _ hnew hvalue
      exact fields name newSpec value hnew hvalue
    · intro name oldSpec newSpec value _ hnew hvalue _
      exact (Schema.validate_iff.mp (fields name newSpec value hnew hvalue)).1
    · intro name oldSpec newSpec value _ hnew hvalue _
      exact (Schema.validate_iff.mp (fields name newSpec value hnew hvalue)).2.1
    · intro name oldSpec newSpec value _ hnew hvalue
      exact (Schema.validate_iff.mp (fields name newSpec value hnew hvalue)).2.2
  · intro h
    refine ⟨⟨h.type, h.enum⟩, ⟨?_, ?_⟩, h.additional⟩
    · -- the new schema requires nothing that the old one does not
      rw [hasRequired, List.all_eq_true] at hasOld ⊢
      intro name hname
      apply hasOld
      simp only [List.any_eq_true, not_exists, not_and, Bool.not_eq_true] at required
      simpa using required name hname
    · intro name newSpec value hnew hvalue
      cases hold : oldSchema.properties.get? name with
      | none => exact h.added name newSpec value hold hnew hvalue
      | some oldSpec =>
          have pair := compared name oldSpec newSpec hold hnew
          obtain ⟨oldType, oldEnum, _⟩ :=
            Schema.validate_iff.mp (of_properties_validate oldFields hold hvalue)
          rw [Schema.validate_iff]
          refine ⟨?_, ?_, h.nested name oldSpec newSpec value hold hnew hvalue⟩
          · by_cases typed : oldSpec.types = []
            · exact h.typed name oldSpec newSpec value hold hnew hvalue typed
            · exact allowsType_of_compared pair typed oldType
          · by_cases ambiguous : Ambiguous value
            · exact h.ambiguous name oldSpec newSpec value hold hnew hvalue ambiguous
            · exact allowsEnum_of_compared pair ambiguous oldEnum

/-- The new schema adds an optional field and types one that had no type. -/
def untypedNote : Schema :=
  .mk [.object] none
    (.cons "id" (.mk [.string] none .nil [] .any) (.cons "note" (.mk [] none .nil [] .any) .nil))
    ["id"] .any

def typedNote : Schema :=
  .mk [.object] none
    (.cons "id" (.mk [.string] none .nil [] .any)
      (.cons "note" (.mk [.string] none .nil [] .any)
        (.cons "flag" (.mk [.boolean] none .nil [] .any) .nil)))
    ["id"] .any

/-- A number under a field that had no type breaks, and so does one under the added field. -/
theorem typed_note_breaks :
    isBackwardCompatible untypedNote typedNote = some true ∧
      (untypedNote.validate (.dict (.cons "id" (.str "x") (.cons "note" (.num 1) .nil))) = true ∧
        typedNote.validate (.dict (.cons "id" (.str "x") (.cons "note" (.num 1) .nil))) = false) ∧
      untypedNote.validate (.dict (.cons "id" (.str "x") (.cons "flag" (.num 1) .nil))) = true ∧
      typedNote.validate (.dict (.cons "id" (.str "x") (.cons "flag" (.num 1) .nil))) = false := by
  decide +kernel

/-- A text for a note is valid under both. -/
theorem compatible_bodies_valid_iff_note :
    Uncompared untypedNote typedNote (.cons "id" (.str "x") (.cons "note" (.str "n") .nil)) :=
  (compatible_bodies_valid_iff (by decide +kernel) (by decide +kernel) (by decide +kernel)).mp
    (by decide +kernel)

end FeatureGen.EventSchemas
