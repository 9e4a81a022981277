import FeatureGen.Lib.Json
import FeatureGen.Lib.Sha256

/-! # Overlay facts

The fact types of `overlay/facts.py` and their values. A value is an object some
schema of `FACT_VALUE_SCHEMAS` admits up to the schema's own checks (minimum
lengths, unique items, patterns, conditional fields), which `validateFactValue`
makes; every other object is `other`.

The two identities of `overlay/identity.py`: the key of a fact, which normalizes
what it reads, and the fingerprint of a proposal, which digests the value after
`canonical_bridge_value` alone. The write gate `join_write_error` compares a
value's key with its ref's.

`lower` is `str.lower`.
-/

namespace FeatureGen.Overlay

/-- Microseconds since the epoch. -/
abbrev Instant := ℤ

inductive FactType where
  | availabilityTime
  | grain
  | scdEffectiveDating
  | approvedJoin
  | entityBridge
  | entityAssignment
  | currencyBinding
  | policyTag
  deriving DecidableEq

def FactType.name : FactType → String
  | .availabilityTime => "availability_time"
  | .grain => "grain"
  | .scdEffectiveDating => "scd_effective_dating"
  | .approvedJoin => "approved_join"
  | .entityBridge => "entity_bridge"
  | .entityAssignment => "entity_assignment"
  | .currencyBinding => "currency_binding"
  | .policyTag => "policy_tag"

/-- A catalog object ref as a value carries it. Its `column` can be absent, null
    or a string, and the three are different objects. -/
structure RefValue where
  catalogSource : String
  objectKind : String
  schema : String
  table : String
  column : Option (Option String)
  deriving DecidableEq

structure ColumnPair where
  fromCol : String
  toCol : String
  deriving DecidableEq

inductive Basis where
  | postedAt
  | ingestedAt
  | eventTimePlusLag
  deriving DecidableEq

inductive Decision where
  | allow
  | deny
  | restricted
  deriving DecidableEq

inductive FactValue where
  | availabilityTime (column : String) (basis : Basis) (lagHours : Option Json.Number)
  | grain (columns : List String) (isUnique : Bool)
  | scdEffectiveDating (validFrom : String) (validTo currentFlag : Option String)
  | approvedJoin (fromRef toRef : RefValue) (columnPairs : List ColumnPair)
      (cardinality : Option String)
  | entityBridge (entityId : String) (leftRef rightRef : RefValue)
  | entityAssignment (entityId : String)
  | currencyColumn (column : RefValue)
  | currencyCode (code : String)
  | policyTag (decision : Decision) (sensitivity : Option String) (basis : String)
  /-- An object of no schema's shape. -/
  | other (object : Json)
  deriving DecidableEq

/-- `^[A-Z]{3}$` as `re.search` reads it: a final newline is let through. -/
def threeCapitals (s : String) : Bool :=
  let chars := if s.toList.getLast? = some '\n' then s.toList.dropLast else s.toList
  chars.length = 3 ∧ chars.all fun c => 'A' ≤ c ∧ c ≤ 'Z'

def schemaAdmits : FactType → FactValue → Bool
  | .availabilityTime, .availabilityTime _ basis lagHours =>
      basis ≠ .eventTimePlusLag ∨ lagHours.isSome
  | .grain, .grain columns _ => columns ≠ [] ∧ columns.Nodup
  | .scdEffectiveDating, .scdEffectiveDating _ _ _ => true
  | .approvedJoin, .approvedJoin _ _ columnPairs cardinality =>
      columnPairs ≠ [] ∧ columnPairs.Nodup ∧
        cardinality ∈ [some "1:1", some "1:N", some "N:1", none]
  | .entityBridge, .entityBridge _ _ _ => true
  | .entityAssignment, .entityAssignment entityId => entityId ≠ ""
  | .currencyBinding, .currencyColumn _ => true
  | .currencyBinding, .currencyCode code => threeCapitals code
  | .policyTag, .policyTag _ _ _ => true
  | _, _ => false

/-- `if not use_case`. -/
def falsy : Option String → Bool
  | none => true
  | some s => s = ""

/-- `validate_fact_value`; `message` is the schema library's text. -/
def validateFactValue (message : FactType → FactValue → String) (factType : FactType)
    (value : FactValue) (useCase : Option String) : Except String Unit :=
  if factType = .policyTag ∧ falsy useCase then
    .error s!"{factType.name} requires a use_case"
  else if factType ≠ .policyTag ∧ useCase ≠ none then
    .error s!"{factType.name} prohibits a use_case"
  else if schemaAdmits factType value then .ok ()
  else .error s!"{factType.name} value invalid: {message factType value}"

theorem schemaAdmits_of_validate {message : FactType → FactValue → String} {factType : FactType}
    {value : FactValue} {useCase : Option String}
    (h : validateFactValue message factType value useCase = .ok ()) :
    schemaAdmits factType value = true := by
  unfold validateFactValue at h
  split at h
  · cases h
  · split at h
    · cases h
    · split at h
      · assumption
      · cases h

theorem approvedJoin_of_schemaAdmits {value : FactValue}
    (h : schemaAdmits .approvedJoin value = true) :
    ∃ fromRef toRef pairs cardinality, value = .approvedJoin fromRef toRef pairs cardinality := by
  cases value <;> simp_all [schemaAdmits]

theorem entityBridge_of_schemaAdmits {value : FactValue}
    (h : schemaAdmits .entityBridge value = true) :
    ∃ entityId leftRef rightRef, value = .entityBridge entityId leftRef rightRef := by
  cases value <;> simp_all [schemaAdmits]

def RefValue.json (r : RefValue) : Json :=
  .obj <| .ofList <|
    [("catalog_source", .str r.catalogSource), ("object_kind", .str r.objectKind),
      ("schema", .str r.schema), ("table", .str r.table)] ++
    match r.column with
    | none => []
    | some column => [("column", .ofOption column)]

def ColumnPair.json (p : ColumnPair) : Json :=
  .obj (.ofList [("from_col", .str p.fromCol), ("to_col", .str p.toCol)])

def Basis.name : Basis → String
  | .postedAt => "posted_at"
  | .ingestedAt => "ingested_at"
  | .eventTimePlusLag => "event_time_plus_lag"

def Decision.name : Decision → String
  | .allow => "allow"
  | .deny => "deny"
  | .restricted => "restricted"

/-- A member that is left out when it is absent. -/
def optionalMember (key : String) : Option Json → List (String × Json)
  | none => []
  | some value => [(key, value)]

def FactValue.json : FactValue → Json
  | .availabilityTime column basis lagHours => .obj <| .ofList <|
      [("column", .str column), ("basis", .str basis.name)] ++
        optionalMember "lag_hours" (lagHours.map .num)
  | .grain columns isUnique => .obj <| .ofList
      [("columns", .arr (.ofList (columns.map .str))), ("is_unique", .bool isUnique)]
  | .scdEffectiveDating validFrom validTo currentFlag => .obj <| .ofList <|
      [("valid_from", .str validFrom), ("valid_to", .ofOption validTo)] ++
        optionalMember "current_flag" (currentFlag.map .str)
  | .approvedJoin fromRef toRef columnPairs cardinality => .obj <| .ofList
      [("from_ref", fromRef.json), ("to_ref", toRef.json),
        ("column_pairs", .arr (.ofList (columnPairs.map ColumnPair.json))),
        ("cardinality", .ofOption cardinality)]
  | .entityBridge entityId leftRef rightRef => .obj <| .ofList
      [("entity_id", .str entityId), ("left_ref", leftRef.json), ("right_ref", rightRef.json)]
  | .entityAssignment entityId => .obj <| .ofList [("entity_id", .str entityId)]
  | .currencyColumn column => .obj <| .ofList [("currency_column", column.json)]
  | .currencyCode code => .obj <| .ofList [("currency_code", .str code)]
  | .policyTag decision sensitivity basis => .obj <| .ofList <|
      [("decision", .str decision.name), ("basis", .str basis)] ++
        optionalMember "sensitivity" (sensitivity.map .str)
  | .other object => object

end FeatureGen.Overlay

namespace FeatureGen.Overlay

structure CatalogObjectRef where
  catalogSource : String
  objectKind : String
  schema : String
  table : String
  column : Option String
  deriving DecidableEq

structure ApprovedJoinRef where
  fromRef : CatalogObjectRef
  toRef : CatalogObjectRef
  columnPairs : List ColumnPair
  cardinality : Option String
  deriving DecidableEq

structure EntityBridgeRef where
  entityId : String
  leftRef : CatalogObjectRef
  rightRef : CatalogObjectRef
  deriving DecidableEq

inductive Ref where
  | object (ref : CatalogObjectRef)
  | join (ref : ApprovedJoinRef)
  | bridge (ref : EntityBridgeRef)
  deriving DecidableEq

/-- `CatalogObjectRef(**value)`. -/
def RefValue.ref (r : RefValue) : CatalogObjectRef where
  catalogSource := r.catalogSource
  objectKind := r.objectKind
  schema := r.schema
  table := r.table
  column := r.column.join

section Normalization

variable (lower : String → String)

/-- `str.isspace` of one character. -/
def isSpace (c : Char) : Bool :=
  (9 ≤ c.toNat ∧ c.toNat ≤ 13) ∨ (28 ≤ c.toNat ∧ c.toNat ≤ 32) ∨ c.toNat = 0x85 ∨
    c.toNat = 0xA0 ∨ c.toNat = 0x1680 ∨ (0x2000 ≤ c.toNat ∧ c.toNat ≤ 0x200A) ∨
    c.toNat = 0x2028 ∨ c.toNat = 0x2029 ∨ c.toNat = 0x202F ∨ c.toNat = 0x205F ∨ c.toNat = 0x3000

def strip (s : String) : String :=
  String.ofList ((s.toList.dropWhile isSpace).reverse.dropWhile isSpace).reverse

def norm (s : String) : String := lower (strip s)

def refTuple (ref : CatalogObjectRef) : List (Option String) :=
  [norm lower ref.catalogSource, norm lower ref.objectKind, norm lower ref.schema,
    norm lower ref.table, ref.column.map (norm lower)]

def endpointOrderKey (parts : List (Option String)) : List String :=
  parts.map fun p => (p.map (norm lower)).getD ""

def canonicalBridgeEndpoints (left right : CatalogObjectRef) :
    CatalogObjectRef × CatalogObjectRef :=
  if endpointOrderKey lower (refTuple lower left) ≤ endpointOrderKey lower (refTuple lower right)
  then (left, right)
  else (right, left)

/-- `EntityBridgeRef.__post_init__`: what the constructor makes of its arguments. -/
def EntityBridgeRef.postInit (ref : EntityBridgeRef) : EntityBridgeRef :=
  let (left, right) := canonicalBridgeEndpoints lower ref.leftRef ref.rightRef
  { ref with leftRef := left, rightRef := right }

def Ref.constructed : Ref → Ref
  | .bridge ref => .bridge (ref.postInit lower)
  | ref => ref

/-- The endpoint fields of a value's ref, in `_ENDPOINT_FIELDS` order. -/
def RefValue.parts (r : RefValue) : List (Option String) :=
  [r.catalogSource, r.objectKind, r.schema, r.table, r.column.join]

def canonicalBridgeValue : FactValue → FactValue
  | .entityBridge entityId left right =>
      if endpointOrderKey lower left.parts ≤ endpointOrderKey lower right.parts
      then .entityBridge entityId left right
      else .entityBridge entityId right left
  | value => value

inductive RefIdentity where
  | object (ref : List (Option String))
  | relation (fromRef toRef : List (Option String)) (cardinality : Option String)
      (columnPairs : List (List String))
  | bridge (entityId : String) (endpoints : List (List (Option String)))
  deriving DecidableEq

/-- The object `fact_key` digests. Streams and rows are found by it, that is, by
    its digest under a hash without collisions. The fact types are already
    lower case, so they stand for their normalized names. -/
structure FactKey where
  ref : RefIdentity
  factType : FactType
  useCase : Option String
  deriving DecidableEq

def refIdentity : Ref → RefIdentity
  | .object ref => .object (refTuple lower ref)
  | .join ref =>
      .relation (refTuple lower ref.fromRef) (refTuple lower ref.toRef)
        (ref.cardinality.map (norm lower))
        ((ref.columnPairs.map fun p => [norm lower p.fromCol, norm lower p.toCol]).insertionSort
          (· ≤ ·))
  | .bridge ref =>
      let (left, right) := canonicalBridgeEndpoints lower ref.leftRef ref.rightRef
      .bridge (norm lower ref.entityId) [refTuple lower left, refTuple lower right]

def factKey (ref : Ref) (factType : FactType) (useCase : Option String) : FactKey where
  ref := refIdentity lower ref
  factType := factType
  useCase := useCase.map (norm lower)

end Normalization

def CatalogObjectRef.display (ref : CatalogObjectRef) : String :=
  String.intercalate "." <| [ref.schema, ref.table] ++
    match ref.column with
    | none => []
    | some column => if column = "" then [] else [column]

def displayObjectRef : Ref → String
  | .object ref => ref.display
  | .join ref => s!"{ref.fromRef.display} -> {ref.toRef.display}"
  | .bridge ref => s!"{ref.entityId}: {ref.leftRef.display} <-> {ref.rightRef.display}"

section WriteGate

variable (lower : String → String) (knownEntities : List String)

def knownCurrencyCodes : List String :=
  ["AED", "ARS", "AUD", "BDT", "BGN", "BHD", "BRL", "CAD", "CHF", "CLP", "CNY", "COP", "CZK",
    "DKK", "EGP", "EUR", "GBP", "HKD", "HUF", "IDR", "ILS", "INR", "JOD", "JPY", "KES", "KRW",
    "KWD", "LKR", "MAD", "MXN", "MYR", "NGN", "NOK", "NZD", "OMR", "PHP", "PKR", "PLN", "QAR",
    "RON", "RUB", "SAR", "SEK", "SGD", "THB", "TRY", "TWD", "USD", "VND", "ZAR"]

def FactValue.joinRef : FactValue → Option ApprovedJoinRef
  | .approvedJoin fromRef toRef columnPairs cardinality =>
      some ⟨fromRef.ref, toRef.ref, columnPairs, cardinality⟩
  | _ => none

def FactValue.bridgeRef : FactValue → Option EntityBridgeRef
  | .entityBridge entityId left right =>
      some (EntityBridgeRef.postInit lower ⟨entityId, left.ref, right.ref⟩)
  | _ => none

def bridgeWriteError (ref : Ref) (value : FactValue) : Option String :=
  match ref with
  | .bridge bridge =>
      if norm lower bridge.leftRef.catalogSource = norm lower bridge.rightRef.catalogSource then
        some (s!"entity_bridge requires two distinct catalog sources " ++
          s!"(left={bridge.leftRef.catalogSource}, right={bridge.rightRef.catalogSource})")
      else
        match value.bridgeRef lower with
        | none => some "entity_bridge proposed_value is not a bridge ref"
        | some valueRef =>
            if factKey lower (.bridge valueRef) .entityBridge none ≠
                factKey lower ref .entityBridge none then
              some "entity_bridge proposed_value does not match ref"
            else none
  | _ => some "entity_bridge requires an EntityBridgeRef"

def entityAssignmentWriteError (ref : Ref) (value : FactValue) : Option String :=
  match ref with
  | .object object =>
      if falsy object.column then
        some "entity_assignment subject must be a column (ref carries no column)"
      else
        match value with
        | .entityAssignment entityId =>
            if entityId ∈ knownEntities then none
            else some s!"entity_assignment entity_id '{entityId}' is not a known entity"
        | _ => some "entity_assignment entity_id None is not a known entity"
  | _ => some "entity_assignment requires a CatalogObjectRef"

def currencyBindingWriteError (ref : Ref) (value : FactValue) : Option String :=
  match ref with
  | .object object =>
      if falsy object.column then
        some "currency_binding subject (measure) must be a column (ref carries no column)"
      else
        match value with
        | .currencyCode code =>
            if code ∈ knownCurrencyCodes then none
            else some s!"currency_binding currency_code '{code}' is not a known ISO-4217 code"
        | .currencyColumn cc =>
            if falsy cc.column.join then
              some "currency_binding currency_column must reference a concrete column"
            else if norm lower cc.catalogSource ≠ norm lower object.catalogSource ∨
                norm lower cc.schema ≠ norm lower object.schema ∨
                norm lower cc.table ≠ norm lower object.table then
              some ("currency_binding target currency column must be in the same " ++
                s!"source/schema/table as the measure ({object.schema}.{object.table})")
            else none
        | _ => some "currency_binding value.currency_column must be a CatalogObjectRef"
  | _ => some "currency_binding requires a CatalogObjectRef"

/-- The branch of `join_write_error` for approved joins. -/
def approvedJoinWriteError (ref : Ref) (value : FactValue) : Option String :=
  match ref with
  | .join join =>
      if norm lower join.fromRef.catalogSource ≠ norm lower join.toRef.catalogSource then
        some ("cross-catalog approved_join disallowed in SP-1.5 " ++
          s!"(from={join.fromRef.catalogSource}, to={join.toRef.catalogSource})")
      else
        match value.joinRef with
        | none => some "approved_join proposed_value is not a well-formed join"
        | some valueRef =>
            if factKey lower (.join valueRef) .approvedJoin none ≠
                factKey lower ref .approvedJoin none then
              some ("approved_join proposed_value does not match ref " ++
                "(from/to/column_pairs/cardinality)")
            else none
  | _ => some "approved_join requires an ApprovedJoinRef"

def joinWriteError (ref : Ref) (factType : FactType) (value : FactValue) : Option String :=
  match factType with
  | .entityBridge => bridgeWriteError lower ref value
  | .entityAssignment => entityAssignmentWriteError knownEntities ref value
  | .currencyBinding => currencyBindingWriteError lower ref value
  | .approvedJoin => approvedJoinWriteError lower ref value
  | _ => none

end WriteGate

/-- What a proposal's fingerprint is taken of. -/
def fingerprintJson (lower : String → String) (value : FactValue) (profileVersion : Option String)
    (thresholds : Option Json.Members) : Json :=
  .obj <| .ofList
    [("value", (canonicalBridgeValue lower value).json),
      ("profile_version", .ofOption profileVersion),
      ("thresholds", (thresholds.map Json.obj).getD .null)]

/-- `_digest`. The text is ASCII, so its bytes are its code points. -/
def digest (canonical : Json) : String := Sha256.hexdigest (canonical.dumps.map Char.toNat)

def proposalFingerprint (lower : String → String) (value : FactValue)
    (profileVersion : Option String) (thresholds : Option Json.Members) : String :=
  digest (fingerprintJson lower value profileVersion thresholds)

end FeatureGen.Overlay
