import FeatureGen.Lib.Document

/-! # Event schemas

The JSON schemas of the event registry and what `jsonschema` makes of them, as far
as they are built from `type`, `enum`, `properties`, `required` and
`additionalProperties`, and the comparison `is_backward_compatible` of
`events/registry.py`.
-/

namespace FeatureGen.EventSchemas

abbrev Value := Document ℚ

/-- The body of an event: a JSON object. -/
abbrev Body := Document.Members ℚ

inductive JsonType where
  | null
  | boolean
  | integer
  | number
  | string
  | array
  | object
  deriving DecidableEq

mutual

inductive Schema where
  /-- A single type is a list of one, an absent `type` an empty list. -/
  | mk (types : List JsonType) (enum : Option (List (Document ℚ)))
      (properties : Schema.Properties) (required : List String) (additional : Schema.Additional)

/-- `properties`: a dictionary of schemas. -/
inductive Schema.Properties where
  | nil
  | cons (name : String) (spec : Schema) (properties : Schema.Properties)

/-- `additionalProperties`: true, false or a schema. -/
inductive Schema.Additional where
  | any
  | none
  | only (spec : Schema)

end

namespace Schema

@[elab_as_elim, induction_eliminator]
theorem Properties.induction {motive : Properties → Prop} (nil : motive .nil)
    (cons : ∀ name spec properties, motive properties → motive (.cons name spec properties)) :
    ∀ properties, motive properties
  | .nil => nil
  | .cons name spec properties => cons name spec properties (induction nil cons properties)

def types : Schema → List JsonType
  | .mk types _ _ _ _ => types

def enum : Schema → Option (List Value)
  | .mk _ enum _ _ _ => enum

def properties : Schema → Properties
  | .mk _ _ properties _ _ => properties

def required : Schema → List String
  | .mk _ _ _ required _ => required

def additional : Schema → Additional
  | .mk _ _ _ _ additional => additional

def Properties.names : Properties → List String
  | .nil => []
  | .cons name _ properties => name :: properties.names

/-- `properties[name]`. -/
def Properties.get? (name : String) : Properties → Option Schema
  | .nil => none
  | .cons name' spec properties => if name' = name then some spec else properties.get? name

end Schema

/-- The `type` keyword, one type. A whole number is an integer, a boolean is no number. -/
def JsonType.holds : JsonType → Value → Bool
  | .null, .null => true
  | .boolean, .bool _ => true
  | .integer, .num n => n.den = 1
  | .number, .num _ => true
  | .string, .str _ => true
  | .array, .list _ => true
  | .object, .dict _ => true
  | _, _ => false

def memberCount : Body → ℕ
  | .nil => 0
  | .cons _ _ members => memberCount members + 1

mutual

/-- Equality of JSON values: objects without order, booleans apart from numbers. -/
def equal : Document ℚ → Document ℚ → Bool
  | .null, .null => true
  | .bool a, .bool b => a = b
  | .num a, .num b => a = b
  | .str a, .str b => a = b
  | .list a, .list b => equalItems a b
  | .dict a, .dict b => memberCount a = memberCount b && equalMembers a b
  | _, _ => false

def equalItems : Document.Items ℚ → Document.Items ℚ → Bool
  | .nil, .nil => true
  | .cons a as, .cons b bs => equal a b && equalItems as bs
  | _, _ => false

def equalMembers : Document.Members ℚ → Document.Members ℚ → Bool
  | .nil, _ => true
  | .cons key value members, other =>
      (match other.get? key with
        | some value' => equal value value'
        | none => false) && equalMembers members other

end

/-- The `type` keyword. -/
def allowsType (types : List JsonType) (value : Value) : Bool :=
  types.isEmpty || types.any fun t => t.holds value

/-- The `enum` keyword. -/
def allowsEnum (enum : Option (List Value)) (value : Value) : Bool :=
  enum.all fun values => values.any fun entry => equal entry value

/-- The `required` keyword. -/
def hasRequired (required : List String) (body : Body) : Bool :=
  required.all fun name => (body.get? name).isSome

mutual

/-- `jsonschema.validate` accepts the value. -/
def Schema.validate : Schema → Document ℚ → Bool
  | .mk types enum properties required additional, value =>
      allowsType types value && allowsEnum enum value &&
        match value with
        | .dict members =>
            hasRequired required members && properties.validate members &&
              additional.validate properties.names members
        | _ => true

def Schema.Properties.validate : Schema.Properties → Document.Members ℚ → Bool
  | .nil, _ => true
  | .cons name spec properties, members =>
      (match members.get? name with
        | some value => spec.validate value
        | none => true) && properties.validate members

/-- The members that no property declares. -/
def Schema.Additional.validate : Schema.Additional → List String → Document.Members ℚ → Bool
  | .any, _, _ => true
  | .none, declared, members => members.all fun key _ => declared.contains key
  | .only spec, declared, members =>
      members.all fun key value => declared.contains key || spec.validate value

end

def typeCompatible (oldSpec newSpec : Schema) : Bool :=
  oldSpec.types.isEmpty || newSpec.types.isEmpty ||
    oldSpec.types.all fun t => newSpec.types.contains t

/-- Lists and dictionaries have no hash. -/
def hashable : Value → Bool
  | .list _ => false
  | .dict _ => false
  | _ => true

/-- The number a value is to Python: `True == 1`. -/
def asNumber : Value → Option ℚ
  | .bool b => some (if b then 1 else 0)
  | .num n => some n
  | _ => none

/-- `a == b` of hashable values. -/
def sameEntry (a b : Value) : Bool :=
  match asNumber a, asNumber b with
  | some m, some n => m = n
  | none, none => equal a b
  | _, _ => false

/-- `set(old_enum) <= set(new_enum)`; none for the `TypeError` of an entry without a hash. -/
def entriesWithin (oldEnum newEnum : List Value) : Option Bool :=
  if oldEnum.all hashable && newEnum.all hashable then
    some (oldEnum.all fun entry => newEnum.any fun entry' => sameEntry entry entry')
  else none

def enumCompatible (oldSpec newSpec : Schema) : Option Bool :=
  match oldSpec.enum, newSpec.enum with
  | none, none => some true
  | none, some _ => some false
  | some _, none => some true
  | some oldEnum, some newEnum => entriesWithin oldEnum newEnum

/-- The loop over `old_props`. -/
def compareProperties (newProperties : Schema.Properties) : Schema.Properties → Option Bool
  | .nil => some true
  | .cons name oldSpec rest =>
      match newProperties.get? name with
      | none => none
      | some newSpec =>
          if typeCompatible oldSpec newSpec then
            match enumCompatible oldSpec newSpec with
            | some true => compareProperties newProperties rest
            | verdict => verdict
          else some false

/-- `is_backward_compatible`; none where it raises. -/
def isBackwardCompatible (oldSchema newSchema : Schema) : Option Bool :=
  if newSchema.required.any fun name => !oldSchema.required.contains name then some false
  else if oldSchema.properties.names.any fun name => !newSchema.properties.names.contains name then
    some false
  else compareProperties newSchema.properties oldSchema.properties

end FeatureGen.EventSchemas
