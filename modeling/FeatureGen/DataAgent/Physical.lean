import FeatureGen.Lib.Checks
import FeatureGen.Lib.KeySort
import FeatureGen.Overlay.ObjectRef

/-! # Physical identities and bindings

`data_agent/physical.py`: the address of a table or a column, the approved way to
read a table, and `require_identifier` of `observation.py`. `lower` is `str.lower`.
-/

namespace FeatureGen.DataAgent

open FeatureGen.Overlay Checks

/-- What the constructors of the package raise: `code` and the message after it. -/
structure CodedError where
  code : String
  message : String

def isIdentifierStart (c : Char) : Bool := c.isAlpha || c = '_'

/-- `_IDENTIFIER`. -/
def isIdentifier (s : String) : Bool :=
  match s.toList with
  | [] => false
  | c :: cs => isIdentifierStart c && cs.all fun d => isIdentifierStart d || d.isDigit

/-- `require_identifier`: the name is tried without the blanks around it. -/
def requireIdentifier (name what : String) : Except CodedError Unit :=
  ensure (isIdentifier (strip name) = true)
    ⟨"OBSERVATION_UNSAFE_IDENTIFIER", what ++ " " ++ Text.repr name ++ " is not a plain identifier"⟩

structure PhysicalObjectIdentityV1 where
  catalogSource : String
  database : String
  schema : String
  table : String
  objectKind : String
  column : Option String
  deriving DecidableEq

namespace PhysicalObjectIdentityV1

variable (lower : String → String) (identity : PhysicalObjectIdentityV1)

/-- `_norm` of a column that may be absent. -/
def normColumn : String := (identity.column.map (norm lower)).getD ""

/-- How an incomplete address is named in a message. -/
def tableLabel : String :=
  if norm lower identity.table = "" then "<table>" else norm lower identity.table

/-- `__post_init__`. -/
def check : Except CodedError Unit := do
  ensure (norm lower identity.database ≠ "")
    ⟨"PHYSICAL_UNKNOWN_DATABASE", "no database for " ++ identity.tableLabel lower ++
      ": a physical address cannot be completed by assumption"⟩
  ensure (norm lower identity.schema ≠ "")
    ⟨"PHYSICAL_UNKNOWN_SCHEMA", "no schema for " ++ identity.tableLabel lower ++
      ": a physical address cannot be completed by assumption"⟩
  ensure (norm lower identity.table ≠ "") ⟨"PHYSICAL_UNKNOWN_SCHEMA", "no table"⟩
  ensure (identity.objectKind = "table" ∨ identity.objectKind = "column")
    ⟨"PHYSICAL_KIND_MISMATCH", "object_kind must be one of ('table', 'column'), got " ++
      Text.repr identity.objectKind⟩
  ensure (identity.objectKind = "column" → identity.normColumn lower ≠ "")
    ⟨"PHYSICAL_KIND_MISMATCH", "a column identity requires a column"⟩
  ensure (identity.objectKind = "table" → identity.normColumn lower = "")
    ⟨"PHYSICAL_KIND_MISMATCH", "a table identity must not carry a column"⟩

def tableId : String :=
  String.intercalate "::" [norm lower identity.catalogSource, norm lower identity.database,
    norm lower identity.schema, norm lower identity.table]

def physicalId : String :=
  String.intercalate "::" ([norm lower identity.catalogSource, norm lower identity.database,
    norm lower identity.schema, norm lower identity.table] ++
      if identity.objectKind = "column" then [identity.normColumn lower] else [])

theorem colon_mem_tableId : ':' ∈ (identity.tableId lower).toList := by
  simp [tableId]

end PhysicalObjectIdentityV1

structure PhysicalDatasetBindingV1 where
  bindingId : String
  catalogLogicalRef : String
  connectionId : String
  identity : PhysicalObjectIdentityV1
  partitionColumns : List String
  businessTimeColumn : Option String
  purposes : List String
  deriving DecidableEq

namespace PhysicalDatasetBindingV1

variable (lower : String → String) (raw : PhysicalDatasetBindingV1)

/-- The fields after `__post_init__` has normalized them. -/
def normalized (parts : LogicalParts) : PhysicalDatasetBindingV1 where
  bindingId := strip raw.bindingId
  catalogLogicalRef := normalizeRef lower parts.source (some parts.schema) parts.table none
  connectionId := strip raw.connectionId
  identity := raw.identity
  partitionColumns := raw.partitionColumns.map (norm lower)
  businessTimeColumn := (raw.businessTimeColumn.map (norm lower)).filter (· ≠ "")
  purposes := KeySort.sortBy id ((raw.purposes.map (norm lower)).filter (· ≠ "")).dedup

/-- `sorted(declared) or '[]'`, as a message writes it. -/
def declaredText (declared : List String) : String :=
  if declared = [] then "[]"
  else "[" ++ String.intercalate ", " ((KeySort.sortBy id declared.dedup).map Text.repr) ++ "]"

/-- `__post_init__`: what the constructor makes of its arguments. -/
def build : Except CodedError PhysicalDatasetBindingV1 := do
  ensure (strip raw.bindingId ≠ "")
    ⟨"BINDING_BLANK_IDENTITY_FIELD", "binding_id must not be blank"⟩
  ensure (strip raw.catalogLogicalRef ≠ "")
    ⟨"BINDING_BLANK_IDENTITY_FIELD", "catalog_logical_ref must not be blank"⟩
  ensure (strip raw.connectionId ≠ "")
    ⟨"BINDING_BLANK_IDENTITY_FIELD", "connection_id must not be blank"⟩
  let parts ← (parseRef (norm lower raw.catalogLogicalRef)).mapError fun exc =>
    CodedError.mk "BINDING_BLANK_IDENTITY_FIELD"
      ("catalog_logical_ref is not a normalized catalog ref: " ++ exc)
  ensure (parts.column = none)
    ⟨"BINDING_NOT_A_TABLE",
      "a dataset binding catalog_logical_ref must address a table, not a column"⟩
  let binding := raw.normalized lower parts
  ensure (binding.identity.objectKind = "table")
    ⟨"BINDING_NOT_A_TABLE",
      "a dataset binding addresses a table; a column is reached through its table"⟩
  ensure (norm lower binding.identity.catalogSource = parts.source)
    ⟨"PHYSICAL_KIND_MISMATCH",
      "catalog_logical_ref and physical identity must name the same catalog_source"⟩
  let declared := binding.partitionColumns.map (norm lower)
  ensure (∀ column ∈ binding.businessTimeColumn, norm lower column ∈ declared)
    ⟨"BINDING_BUSINESS_TIME_NOT_PARTITIONED",
      "business_time_column " ++ Text.repr (binding.businessTimeColumn.getD "") ++
      " is not a declared partition column " ++ declaredText declared ++
      ": a business-time mapping that cannot prune would silently produce a full scan"⟩
  .ok binding

/-- A binding that the constructors return. -/
def Built (binding : PhysicalDatasetBindingV1) : Prop :=
  binding.identity.check lower = .ok () ∧ ∃ raw : PhysicalDatasetBindingV1,
    raw.build lower = .ok binding

end PhysicalDatasetBindingV1

end FeatureGen.DataAgent
