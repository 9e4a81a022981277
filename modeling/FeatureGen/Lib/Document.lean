import FeatureGen.Lib.Json

/-! # Documents

JSON trees over a type `ν` of numbers, their members by key, and the shapes a
JSON schema can ask of them: an object with named properties and no others, an
array of at least so many items, exactly one of several alternatives. At the end,
the enumerations whose members are serialized as strings.

A dictionary has no order of its members. The tree that lists them by key stands
for all that list them otherwise.
-/

mutual

inductive Document (ν : Type) where
  | null
  | bool (b : Bool)
  | num (n : ν)
  | str (s : String)
  | list (items : Document.Items ν)
  | dict (members : Document.Members ν)

inductive Document.Items (ν : Type) where
  | nil
  | cons (item : Document ν) (items : Document.Items ν)

inductive Document.Members (ν : Type) where
  | nil
  | cons (key : String) (value : Document ν) (members : Document.Members ν)

end

namespace Document

variable {ν : Type}

@[elab_as_elim, induction_eliminator]
theorem Items.induction {motive : Items ν → Prop} (nil : motive .nil)
    (cons : ∀ item items, motive items → motive (.cons item items)) : ∀ items, motive items
  | .nil => nil
  | .cons item items => cons item items (induction nil cons items)

@[elab_as_elim, induction_eliminator]
theorem Members.induction {motive : Members ν → Prop} (nil : motive .nil)
    (cons : ∀ key value members, motive members → motive (.cons key value members)) :
    ∀ members, motive members
  | .nil => nil
  | .cons key value members => cons key value members (induction nil cons members)

def Items.ofList : List (Document ν) → Items ν
  | [] => .nil
  | d :: ds => .cons d (ofList ds)

def Items.toList : Items ν → List (Document ν)
  | .nil => []
  | .cons d ds => d :: ds.toList

def Members.ofList : List (String × Document ν) → Members ν
  | [] => .nil
  | (key, value) :: members => .cons key value (ofList members)

def Members.toList : Members ν → List (String × Document ν)
  | .nil => []
  | .cons key value members => (key, value) :: members.toList

@[simp] theorem Items.toList_ofList (ds : List (Document ν)) : (ofList ds).toList = ds := by
  induction ds with
  | nil => rfl
  | cons d ds ih => simp [ofList, toList, ih]

@[simp] theorem Members.toList_ofList (ms : List (String × Document ν)) :
    (ofList ms).toList = ms := by
  induction ms with
  | nil => rfl
  | cons m ms ih => simp [ofList, toList, ih]

theorem Items.ofList_injective : Function.Injective (ofList (ν := ν)) :=
  Function.LeftInverse.injective toList_ofList

theorem Members.ofList_injective : Function.Injective (ofList (ν := ν)) :=
  Function.LeftInverse.injective toList_ofList

/-- An array of the given items. -/
def array (ds : List (Document ν)) : Document ν := .list (.ofList ds)

/-- An object with the given members. -/
def object (ms : List (String × Document ν)) : Document ν := .dict (.ofList ms)

theorem array_injective : Function.Injective (array (ν := ν)) := by
  intro a b h
  exact Items.ofList_injective (by simpa [array] using h)

theorem object_injective : Function.Injective (object (ν := ν)) := by
  intro a b h
  exact Members.ofList_injective (by simpa [object] using h)

/-- `d.get(key)` of an object. -/
def Members.get? (key : String) : Members ν → Option (Document ν)
  | .nil => none
  | .cons key' value members => if key' = key then some value else members.get? key

/-- Each value replaced by what `f` makes of it under its key. -/
def Members.mapValues (f : String → Document ν → Document ν) : Members ν → Members ν
  | .nil => .nil
  | .cons key value members => .cons key (f key value) (members.mapValues f)

/-- The members without those under `key`. -/
def Members.erase (key : String) : Members ν → Members ν
  | .nil => .nil
  | .cons key' value members =>
      if key' = key then members.erase key else .cons key' value (members.erase key)

def Members.all (p : String → Document ν → Bool) : Members ν → Bool
  | .nil => true
  | .cons key value members => p key value && members.all p

@[simp] theorem Members.get?_mapValues (f : String → Document ν → Document ν) (key : String)
    (members : Members ν) :
    (members.mapValues f).get? key = (members.get? key).map (f key) := by
  induction members with
  | nil => rfl
  | cons key' value members ih =>
      by_cases hkey : key' = key
      · simp [mapValues, get?, hkey]
      · simp [mapValues, get?, hkey, ih]

theorem Members.get?_erase (key key' : String) (members : Members ν) :
    (members.erase key).get? key' = if key' = key then none else members.get? key' := by
  induction members with
  | nil => simp [erase, get?]
  | cons key₀ value members ih =>
      by_cases hkey : key₀ = key
      · subst hkey
        by_cases hsame : key' = key₀
        · subst hsame
          simpa [erase] using ih
        · simp [erase, get?, ih, hsame, Ne.symm hsame]
      · by_cases hsame : key₀ = key'
        · subst hsame
          simp [erase, get?, hkey]
        · simp [erase, get?, hkey, hsame, ih]

theorem Members.all_mapValues {p q : String → Document ν → Bool}
    {f : String → Document ν → Document ν} (h : ∀ key value, p key value → q key (f key value))
    {members : Members ν} (hall : members.all p) : (members.mapValues f).all q := by
  induction members with
  | nil => rfl
  | cons key value members ih =>
      simp only [all, Bool.and_eq_true] at hall
      simp only [mapValues, all, Bool.and_eq_true]
      exact ⟨h key value hall.1, ih hall.2⟩

theorem Members.all_erase {p q : String → Document ν → Bool} {erased : String}
    (h : ∀ key value, key ≠ erased → p key value → q key value)
    {members : Members ν} (hall : members.all p) : (members.erase erased).all q := by
  induction members with
  | nil => rfl
  | cons key value members ih =>
      simp only [all, Bool.and_eq_true] at hall
      by_cases hkey : key = erased
      · simpa [erase, hkey] using ih hall.2
      · simp only [erase, hkey, if_false, all, Bool.and_eq_true]
        exact ⟨h key value hkey hall.1, ih hall.2⟩

theorem Members.of_all {p : String → Document ν → Bool} {members : Members ν}
    (hall : members.all p) {key : String} {value : Document ν}
    (hget : members.get? key = some value) : p key value := by
  induction members with
  | nil => simp [get?] at hget
  | cons key' value' members ih =>
      simp only [all, Bool.and_eq_true] at hall
      by_cases hkey : key' = key
      · subst hkey
        simp only [get?, if_true, Option.some.injEq] at hget
        exact hget ▸ hall.1
      · simp only [get?, hkey, if_false] at hget
        exact ih hall.2 hget

/-- What a schema asks of a value. -/
abbrev Shape (ν : Type) := Document ν → Bool

namespace Shape

/-- `{"type": "string", "minLength": n}`. -/
def string (minLength : ℕ) : Shape ν
  | .str s => minLength ≤ s.length
  | _ => false

/-- `{"enum": values}`, of strings; `{"const": value}` for one. -/
def enum (values : List String) : Shape ν
  | .str s => s ∈ values
  | _ => false

/-- `{"type": "boolean"}`. -/
def boolean : Shape ν
  | .bool _ => true
  | _ => false

/-- A number with the given property. -/
def number (p : ν → Bool) : Shape ν
  | .num n => p n
  | _ => false

/-- `{"anyOf": [shape, {"type": "null"}]}`. -/
def nullable (shape : Shape ν) : Shape ν
  | .null => true
  | d => shape d

/-- `{"type": "array", "items": shape, "minItems": n}`. -/
def array (shape : Shape ν) (minItems : ℕ) : Shape ν
  | .list items => minItems ≤ items.toList.length && items.toList.all shape
  | _ => false

/-- The property of that name, if it is one of the named ones. -/
def property (properties : List (String × Shape ν)) (key : String) (value : Document ν) : Bool :=
  (properties.lookup key).any fun shape => shape value

/-- `{"type": "object", "properties": …, "required": …, "additionalProperties": false}`. -/
def object (properties : List (String × Shape ν)) (required : List String) : Shape ν
  | .dict members =>
      required.all (fun key => (members.get? key).isSome) && members.all (property properties)
  | _ => false

/-- `{"oneOf": shapes}`: exactly one of them. -/
def oneOf (shapes : List (Shape ν)) : Shape ν := fun d =>
  (shapes.filter fun shape => shape d).length = 1

theorem property_eq_true {properties : List (String × Shape ν)} {key : String} {value : Document ν} :
    property properties key value ↔ ∃ shape, properties.lookup key = some shape ∧ shape value := by
  cases h : properties.lookup key <;> simp [property, h]

@[simp] theorem object_dict {properties : List (String × Shape ν)} {required : List String}
    {members : Members ν} :
    object properties required (.dict members) = true ↔
      (∀ key ∈ required, ((members.get? key).isSome : Bool) = true) ∧
        members.all (property properties) = true := by
  simp only [object, Bool.and_eq_true, List.all_eq_true]

theorem exists_dict {properties : List (String × Shape ν)} {required : List String}
    {d : Document ν} (h : object properties required d) : ∃ members, d = .dict members := by
  cases d with
  | dict members => exact ⟨members, rfl⟩
  | _ => cases h

theorem of_get? {properties : List (String × Shape ν)} {required : List String}
    {members : Members ν} (h : object properties required (.dict members)) {key : String}
    {value : Document ν} (hget : members.get? key = some value) {shape : Shape ν}
    (hlookup : properties.lookup key = some shape) : shape value := by
  obtain ⟨shape', h', hvalue⟩ := property_eq_true.mp (Members.of_all (object_dict.mp h).2 hget)
  rw [hlookup] at h'
  exact Option.some.inj h' ▸ hvalue

theorem exists_of_required {properties : List (String × Shape ν)} {required : List String}
    {members : Members ν} (h : object properties required (.dict members)) {key : String}
    (hkey : key ∈ required) {shape : Shape ν} (hlookup : properties.lookup key = some shape) :
    ∃ value, members.get? key = some value ∧ shape value := by
  obtain ⟨value, hvalue⟩ := Option.isSome_iff_exists.mp ((object_dict.mp h).1 key hkey)
  exact ⟨value, hvalue, of_get? h hvalue hlookup⟩

/-- Each property's new value has the new shape of that name. -/
def Keeps (f : String → Document ν → Document ν) (a b : String × Shape ν) : Prop :=
  a.1 = b.1 ∧ ∀ value, a.2 value → b.2 (f a.1 value)

theorem property_keeps {f : String → Document ν → Document ν}
    {properties properties' : List (String × Shape ν)}
    (keeps : List.Forall₂ (Keeps f) properties properties') {key : String} {value : Document ν}
    (h : property properties key value) : property properties' key (f key value) := by
  rw [property_eq_true] at h ⊢
  induction keeps with
  | nil => simp at h
  | @cons a b as bs hab _ ih =>
      obtain ⟨shape, hlookup, hvalue⟩ := h
      obtain ⟨key', shape'⟩ := a
      obtain ⟨key'', shape''⟩ := b
      obtain ⟨rfl, hkeeps⟩ := hab
      by_cases hkey : key = key'
      · subst hkey
        simp only [List.lookup, beq_self_eq_true, Option.some.injEq] at hlookup
        refine ⟨shape'', by simp [List.lookup], hkeeps value ?_⟩
        rwa [← hlookup] at hvalue
      · have hne : (key == key') = false := by simpa using hkey
        simp only [List.lookup, hne] at hlookup ⊢
        exact ih ⟨shape, hlookup, hvalue⟩

theorem object_mapValues {properties properties' : List (String × Shape ν)}
    {required : List String} {f : String → Document ν → Document ν}
    (keeps : List.Forall₂ (Keeps f) properties properties')
    {members : Members ν} (h : object properties required (.dict members)) :
    object properties' required (.dict (members.mapValues f)) := by
  rw [object_dict] at h ⊢
  have kept : ∀ key value, property properties key value →
      property properties' key (f key value) := fun _ _ => property_keeps keeps
  refine ⟨fun key hkey => ?_, Members.all_mapValues kept h.2⟩
  rw [Members.get?_mapValues, Option.isSome_map]
  exact h.1 key hkey

theorem object_erase {properties properties' : List (String × Shape ν)} {required : List String}
    {erased : String} (optional : erased ∉ required)
    (keeps : ∀ key value, key ≠ erased → property properties key value →
      property properties' key value)
    {members : Members ν} (h : object properties required (.dict members)) :
    object properties' required (.dict (members.erase erased)) := by
  rw [object_dict] at h ⊢
  refine ⟨fun key hkey => ?_, Members.all_erase keeps h.2⟩
  have hne : key ≠ erased := fun heq => optional (heq ▸ hkey)
  rw [Members.get?_erase, if_neg hne]
  exact h.1 key hkey

theorem oneOf_iff {shapes : List (Shape ν)} {d : Document ν}
    (exclusive : shapes.Pairwise fun a b => ¬ (a d = true ∧ b d = true)) :
    oneOf shapes d = true ↔ ∃ shape ∈ shapes, shape d = true := by
  have alone : (shapes.filter fun shape => shape d).length ≤ 1 := by
    cases h : shapes.filter fun shape => shape d with
    | nil => simp
    | cons a as =>
        cases as with
        | nil => simp
        | cons b bs =>
            have ha := List.of_mem_filter (h ▸ List.mem_cons_self : a ∈ shapes.filter _)
            have hb := List.of_mem_filter
              (h ▸ List.mem_cons_of_mem _ List.mem_cons_self : b ∈ shapes.filter _)
            have hab := List.rel_of_pairwise_cons (h ▸ exclusive.filter _) List.mem_cons_self
            exact absurd ⟨ha, hb⟩ hab
  simp only [oneOf, decide_eq_true_eq]
  constructor
  · intro one
    have pos : 0 < (shapes.filter fun shape => shape d).length := by omega
    obtain ⟨shape, hshape⟩ := List.exists_mem_of_length_pos pos
    exact ⟨shape, List.mem_filter.mp hshape⟩
  · rintro ⟨shape, hmem, hd⟩
    have hfilter : shape ∈ shapes.filter fun shape => shape d :=
      List.mem_filter.mpr ⟨hmem, hd⟩
    have pos := List.length_pos_of_mem hfilter
    omega

theorem array_list {shape : Shape ν} {minItems : ℕ} {items : Items ν} :
    array shape minItems (.list items) = true ↔
      minItems ≤ items.toList.length ∧ ∀ d ∈ items.toList, shape d = true := by
  simp [array]

end Shape

mutual

/-- Every object lists its members by strictly increasing keys. -/
def sorted : Document ν → Bool
  | .list items => items.sorted
  | .dict members => members.sorted
  | _ => true

def Items.sorted : Items ν → Bool
  | .nil => true
  | .cons item items => Document.sorted item && items.sorted

def Members.sorted : Members ν → Bool
  | .nil => true
  | .cons key value members =>
      Document.sorted value && members.all (fun key' _ => key < key') && members.sorted

end

theorem Items.sorted_ofList {ds : List (Document ν)} :
    (ofList ds).sorted = true ↔ ∀ d ∈ ds, d.sorted = true := by
  induction ds with
  | nil => simp [ofList, sorted]
  | cons d ds ih => simp [ofList, sorted, ih]

theorem sorted_array {ds : List (Document ν)} :
    (array ds).sorted = true ↔ ∀ d ∈ ds, d.sorted = true := Items.sorted_ofList

theorem Members.all_ofList {p : String → Document ν → Bool} {ms : List (String × Document ν)} :
    (ofList ms).all p = true ↔ ∀ m ∈ ms, p m.1 m.2 = true := by
  induction ms with
  | nil => simp [ofList, all]
  | cons m ms ih => simp [ofList, all, ih]

theorem sorted_object {ms : List (String × Document ν)} :
    (object ms).sorted = true ↔
      (ms.map (·.1)).Pairwise (· < ·) ∧ ∀ m ∈ ms, m.2.sorted = true := by
  have members : (Members.ofList ms).sorted = true ↔
      (ms.map (·.1)).Pairwise (· < ·) ∧ ∀ m ∈ ms, m.2.sorted = true := by
    induction ms with
    | nil => simp [Members.ofList, Members.sorted]
    | cons m ms ih =>
        simp only [Members.ofList, Members.sorted, Bool.and_eq_true, Members.all_ofList, ih,
          decide_eq_true_eq, List.map_cons, List.pairwise_cons, List.mem_map, List.mem_cons,
          forall_eq_or_imp, forall_exists_index, and_imp, forall_apply_eq_imp_iff₂]
        tauto
  exact members

theorem sorted_object_of (keys : List String) {ms : List (String × Document ν)}
    (hkeys : ms.map (·.1) = keys) (increasing : keys.Pairwise (· < ·))
    (values : ∀ m ∈ ms, m.2.sorted = true) : (object ms).sorted = true :=
  sorted_object.mpr ⟨hkeys ▸ increasing, values⟩

/-- What is assumed of a serializer: it tells trees with sorted keys apart. -/
def Faithful {α : Type} (dumps : Document ν → α) : Prop :=
  ∀ a b : Document ν, a.sorted = true → b.sorted = true → dumps a = dumps b → a = b

mutual

/-- The tree with its numbers written. -/
def json : Document ℚ → Json
  | .null => .null
  | .bool b => .bool b
  | .num q => .num (.ofRat q)
  | .str s => .str s
  | .list items => .arr items.json
  | .dict members => .obj members.json

def Items.json : Items ℚ → Json.Items
  | .nil => .nil
  | .cons item items => .cons item.json items.json

def Members.json : Members ℚ → Json.Members
  | .nil => .nil
  | .cons key value members => .cons key value.json members.json

end

mutual

theorem json_inj (a b : Document ℚ) (h : a.json = b.json) : a = b := by
  cases a <;> cases b <;> simp only [json, reduceCtorEq] at h
  case null.null => rfl
  case bool.bool => rw [Json.bool.inj h]
  case num.num => rw [Json.Number.ofRat_injective (Json.num.inj h)]
  case str.str => rw [Json.str.inj h]
  case list.list items items' => rw [Items.json_inj items items' (Json.arr.inj h)]
  case dict.dict members members' => rw [Members.json_inj members members' (Json.obj.inj h)]

theorem Items.json_inj (a b : Items ℚ) (h : a.json = b.json) : a = b := by
  cases a <;> cases b <;> simp only [Items.json, reduceCtorEq, Json.Items.cons.injEq] at h
  case nil.nil => rfl
  case cons.cons item items item' items' =>
    rw [Document.json_inj item item' h.1, Items.json_inj items items' h.2]

theorem Members.json_inj (a b : Members ℚ) (h : a.json = b.json) : a = b := by
  cases a <;> cases b <;> simp only [Members.json, reduceCtorEq, Json.Members.cons.injEq] at h
  case nil.nil => rfl
  case cons.cons key value members key' value' members' =>
    rw [h.1, Document.json_inj value value' h.2.1, Members.json_inj members members' h.2.2]

end

/-- The text of a tree, in the order of its members. -/
def text (d : Document ℚ) : String := String.ofList d.json.render

theorem text_injective : Function.Injective text := fun a b h =>
  json_inj a b (Json.render_injective (String.ofList_injective h))

theorem text_faithful : Faithful text := fun _ _ _ _ h => text_injective h

end Document

/-- A `StrEnum`: its members, and the string each is serialized as. -/
class StrEnum (α : Type) where
  members : List α
  value : α → String
  complete : ∀ a : α, a ∈ members
  distinct : ∀ a ∈ members, ∀ b ∈ members, value a = value b → a = b

namespace StrEnum

variable {α : Type} [StrEnum α]

/-- The strings of an enumeration. -/
def values (α : Type) [StrEnum α] : List String := (members : List α).map value

def ofValue? (s : String) : Option α := members.find? fun a => value a = s

theorem value_injective : Function.Injective (value : α → String) := fun a b =>
  distinct a (complete a) b (complete b)

theorem ofValue?_eq_some {s : String} {a : α} : ofValue? s = some a ↔ value a = s := by
  constructor
  · intro h
    simpa using List.find?_some h
  · rintro rfl
    cases h : (ofValue? (value a) : Option α) with
    | none =>
        have hnot := List.find?_eq_none.mp h a (complete a)
        simp at hnot
    | some b =>
        have hb : value b = value a := by simpa using List.find?_some h
        rw [value_injective hb]

end StrEnum
