import FeatureGen.Lib.Checks
import FeatureGen.Lib.Document
import FeatureGen.Lib.Text
import FeatureGen.Overlay.Identity

/-! # The leaves every formula language shares

`formula/schema_leaves.py`: refs, filters, literals, parameters, grains and the
checks that guard them. A check returns the text of the error it raises; the tests
of a value's class are the types here.
-/

namespace FeatureGen.Formula

open Checks Overlay

/-- The text of a `SchemaError`, or of another error a check lets through. -/
abbrev SchemaError := String

/-- `source::schema.table[.column]`. -/
abbrev LogicalRef := String

def maxFilterDepth : ℕ := 4

def maxPredicates : ℕ := 16

def maxInList : ℕ := 64

inductive WindowUnit where
  | day
  | week
  | month
  | quarter
  | year
  deriving DecidableEq

instance : StrEnum WindowUnit where
  members := [.day, .week, .month, .quarter, .year]
  value
    | .day => "day"
    | .week => "week"
    | .month => "month"
    | .quarter => "quarter"
    | .year => "year"
  complete a := by cases a <;> decide
  distinct := by decide

inductive Inclusivity where
  | inclusive
  | exclusive
  deriving DecidableEq

instance : StrEnum Inclusivity where
  members := [.inclusive, .exclusive]
  value
    | .inclusive => "inclusive"
    | .exclusive => "exclusive"
  complete a := by cases a <;> decide
  distinct := by decide

inductive EmptyWindowResult where
  | null
  | zero
  | error
  deriving DecidableEq

instance : StrEnum EmptyWindowResult where
  members := [.null, .zero, .error]
  value
    | .null => "null"
    | .zero => "zero"
    | .error => "error"
  complete a := by cases a <;> decide
  distinct := by decide

inductive NullInput where
  | ignore
  | propagate
  | zero
  deriving DecidableEq

instance : StrEnum NullInput where
  members := [.ignore, .propagate, .zero]
  value
    | .ignore => "ignore"
    | .propagate => "propagate"
    | .zero => "zero"
  complete a := by cases a <;> decide
  distinct := by decide

inductive ZeroDenominator where
  | null
  | zero
  | error
  deriving DecidableEq

instance : StrEnum ZeroDenominator where
  members := [.null, .zero, .error]
  value
    | .null => "null"
    | .zero => "zero"
    | .error => "error"
  complete a := by cases a <;> decide
  distinct := by decide

inductive RoundingMode where
  | halfUp
  | halfEven
  | down
  | up
  | floor
  | ceiling
  deriving DecidableEq

instance : StrEnum RoundingMode where
  members := [.halfUp, .halfEven, .down, .up, .floor, .ceiling]
  value
    | .halfUp => "half_up"
    | .halfEven => "half_even"
    | .down => "down"
    | .up => "up"
    | .floor => "floor"
    | .ceiling => "ceiling"
  complete a := by cases a <;> decide
  distinct := by decide

inductive OverflowBehavior where
  | error
  | saturate
  deriving DecidableEq

instance : StrEnum OverflowBehavior where
  members := [.error, .saturate]
  value
    | .error => "error"
    | .saturate => "saturate"
  complete a := by cases a <;> decide
  distinct := by decide

inductive LiteralType where
  | string
  | integer
  | decimal
  | boolean
  | date
  deriving DecidableEq

instance : StrEnum LiteralType where
  members := [.string, .integer, .decimal, .boolean, .date]
  value
    | .string => "string"
    | .integer => "integer"
    | .decimal => "decimal"
    | .boolean => "boolean"
    | .date => "date"
  complete a := by cases a <;> decide
  distinct := by decide

inductive ParamClass where
  | semantic
  | operational
  deriving DecidableEq

instance : StrEnum ParamClass where
  members := [.semantic, .operational]
  value
    | .semantic => "semantic"
    | .operational => "operational"
  complete a := by cases a <;> decide
  distinct := by decide

inductive FilterBoolOp where
  | and
  | or
  | not
  deriving DecidableEq

instance : StrEnum FilterBoolOp where
  members := [.and, .or, .not]
  value
    | .and => "and"
    | .or => "or"
    | .not => "not"
  complete a := by cases a <;> decide
  distinct := by decide

inductive FilterPredicateOp where
  | equal
  | notEqual
  | greaterThan
  | greaterOrEqual
  | lessThan
  | lessOrEqual
  | isIn
  | notIn
  | isNull
  | isNotNull
  deriving DecidableEq

instance : StrEnum FilterPredicateOp where
  members := [.equal, .notEqual, .greaterThan, .greaterOrEqual, .lessThan, .lessOrEqual, .isIn,
    .notIn, .isNull, .isNotNull]
  value
    | .equal => "equal"
    | .notEqual => "not_equal"
    | .greaterThan => "greater_than"
    | .greaterOrEqual => "greater_or_equal"
    | .lessThan => "less_than"
    | .lessOrEqual => "less_or_equal"
    | .isIn => "in"
    | .notIn => "not_in"
    | .isNull => "is_null"
    | .isNotNull => "is_not_null"
  complete a := by cases a <;> decide
  distinct := by decide

inductive AdditivityClass where
  | additive
  | nonAdditive
  | semiAdditive

structure TypedLiteral where
  type : LiteralType
  value : String
  deriving DecidableEq

structure ParameterDecl where
  name : String
  type : LiteralType
  paramClass : ParamClass
  classification : String
  nullable : Bool
  allowedSet : Option (List String)
  allowedMin : Option String
  allowedMax : Option String

structure ParameterRef where
  name : String
  deriving DecidableEq

structure FilterPredicate where
  op : FilterPredicateOp
  left : LogicalRef
  rightLiteral : Option TypedLiteral
  rightParam : Option ParameterRef
  rightSet : Option (List TypedLiteral)
  deriving DecidableEq

inductive FilterNode where
  | predicate (node : FilterPredicate)
  | bool (op : FilterBoolOp) (children : List FilterNode)

@[elab_as_elim, induction_eliminator]
theorem FilterNode.induction {motive : FilterNode → Prop}
    (predicate : ∀ node, motive (.predicate node))
    (bool : ∀ op children, (∀ child ∈ children, motive child) → motive (.bool op children))
    (node : FilterNode) : motive node :=
  @FilterNode.rec motive (fun children => ∀ child ∈ children, motive child) predicate bool
    (by simp)
    (fun _ _ hchild hchildren => List.forall_mem_cons.mpr ⟨hchild, hchildren⟩) node

structure SourceRelation where
  tableRef : LogicalRef

structure Grain where
  entity : String
  keys : List LogicalRef

/-- The numbers are compared as numbers: `2` and `2.0` are one precision. -/
structure DecimalPolicy where
  precision : ℤ
  scale : ℤ
  rounding : RoundingMode
  overflow : OverflowBehavior

structure ExpectedOutput where
  outputType : Option String
  unit : Option String
  currency : Option String

/-- What a canonical string stands for at its type. -/
inductive TypedValue where
  | string (s : String)
  | integer (n : ℤ)
  | decimal (q : ℚ)
  | boolean (b : Bool)
  | date (year month day : ℕ)
  deriving DecidableEq

/-- `a > b`, of values of one type. -/
def TypedValue.gt : TypedValue → TypedValue → Bool
  | .string a, .string b => b < a
  | .integer a, .integer b => b < a
  | .decimal a, .decimal b => b < a
  | .boolean a, .boolean b => a && !b
  | .date y m d, .date y' m' d' =>
      y' < y ∨ (y' = y ∧ (m' < m ∨ (m' = m ∧ d' < d)))
  | _, _ => false

def daysInMonth (year month : ℕ) : ℕ :=
  if month = 2 then
    if year % 4 = 0 ∧ (year % 100 ≠ 0 ∨ year % 400 = 0) then 29 else 28
  else if month ∈ [4, 6, 9, 11] then 30
  else 31

/-- The longest text `int` reads. -/
def maxStrDigits : ℕ := 4300

/-- `_parse_typed_value`, at `integer`. -/
def parseInteger (value path : String) : Except SchemaError TypedValue :=
  let (negative, ds) := Text.unsigned value.toList
  if ¬ Text.digits ds then .error s!"{path}: {Text.repr value} is not a canonical integer literal"
  else if maxStrDigits < ds.length then
    .error ("Exceeds the limit (4300 digits) for integer string conversion: value has " ++
      s!"{ds.length} digits; use sys.set_int_max_str_digits() to increase the limit")
  else .ok (.integer (if negative then -(Text.natOf ds : ℤ) else Text.natOf ds))

/-- `_parse_typed_value`, at `decimal`. -/
def parseDecimal (value path : String) : Except SchemaError TypedValue :=
  let (negative, cs) := Text.unsigned value.toList
  let whole := cs.takeWhile Char.isDigit
  let rest := cs.dropWhile Char.isDigit
  let fraction := rest.drop 1
  if Text.digits whole ∧ (rest = [] ∨ rest.head? = some '.' ∧ Text.digits fraction) then
    let magnitude : ℚ := Text.natOf (whole ++ fraction) / 10 ^ fraction.length
    .ok (.decimal (if negative then -magnitude else magnitude))
  else .error s!"{path}: {Text.repr value} is not a canonical decimal literal"

/-- `_parse_typed_value`, at `date`: ten characters `YYYY-MM-DD` that name a day. -/
def parseDate (value path : String) : Except SchemaError TypedValue :=
  match value.toList with
  | [a, b, c, d, '-', e, f, '-', g, h] =>
      let year := Text.natOf [a, b, c, d]
      let month := Text.natOf [e, f]
      let day := Text.natOf [g, h]
      if ¬ Text.digits [a, b, c, d, e, f, g, h] then
        .error s!"{path}: {Text.repr value} is not an ISO date literal (YYYY-MM-DD)"
      else if 1 ≤ year ∧ 1 ≤ month ∧ month ≤ 12 ∧ 1 ≤ day ∧ day ≤ daysInMonth year month then
        .ok (.date year month day)
      else .error s!"{path}: {Text.repr value} is not an ISO date literal"
  | _ => .error s!"{path}: {Text.repr value} is not an ISO date literal (YYYY-MM-DD)"

def parseTypedValue (type : LiteralType) (value path : String) : Except SchemaError TypedValue :=
  match type with
  | .string => .ok (.string value)
  | .integer => parseInteger value path
  | .decimal => parseDecimal value path
  | .boolean =>
      if value = "true" then .ok (.boolean true)
      else if value = "false" then .ok (.boolean false)
      else .error (s!"{path}: {Text.repr value} is not a canonical boolean literal " ++
        "('true'/'false')")
  | .date => parseDate value path

def checkTypedLiteral (lit : TypedLiteral) (path : String) : Except SchemaError Unit :=
  (fun _ => ()) <$> parseTypedValue lit.type lit.value path

/-- `_PARAM_NAME_RE`: `^[a-z][a-z0-9_]{0,63}$`. -/
def paramNameRe (name : String) : Bool :=
  match name.toList with
  | [] => false
  | c :: cs =>
      c.isLower && cs.all (fun d => d.isLower || d.isDigit || d = '_') && cs.length ≤ 63

/-- One bound of `_check_parameters`. -/
def checkBound (type : LiteralType) (bound : Option String) (path : String) :
    Except SchemaError (Option TypedValue) :=
  match bound with
  | none => .ok none
  | some value => some <$> parseTypedValue type value path

/-- `_check_parameters`, of `allowed_min` and `allowed_max`. -/
def checkBounds (decl : ParameterDecl) (path : String) : Except SchemaError Unit := do
  let lo ← checkBound decl.type decl.allowedMin s!"{path}.allowed_min"
  let hi ← checkBound decl.type decl.allowedMax s!"{path}.allowed_max"
  let low := Text.repr (decl.allowedMin.getD "")
  let high := Text.repr (decl.allowedMax.getD "")
  ensure (¬ (lo.any fun l => hi.any fun h => l.gt h))
    s!"{path}: allowed_min {low} must be <= allowed_max {high}"

/-- One turn of `_check_parameters`' loop. -/
def checkParameter (declared : List String) (path : String) (decl : ParameterDecl) :
    Except SchemaError Unit := do
  ensure (paramNameRe decl.name)
    s!"{path}: name {Text.repr decl.name} must match ^[a-z][a-z0-9_]\x7b0,63\x7d$"
  ensure (decl.name ∉ declared)
    s!"{path}: parameter names must be unique; {Text.repr decl.name} repeats"
  ensure (decl.allowedSet ≠ some []) s!"{path}: allowed_set must be non-empty when present"
  each (fun j entry => checkTypedLiteral ⟨decl.type, entry⟩ s!"{path}.allowed_set[{j}]")
    (decl.allowedSet.getD [])
  checkBounds decl path

def checkParameters (parameters : List ParameterDecl) : Except SchemaError Unit :=
  each (fun i decl => checkParameter ((parameters.take i).map (·.name)) s!"parameters[{i}]" decl)
    parameters

def checkDecimal (decimal : DecimalPolicy) : Except SchemaError Unit := do
  ensure (0 ≤ decimal.scale) s!"decimal: scale {decimal.scale} must be >= 0"
  ensure (decimal.scale ≤ decimal.precision)
    s!"decimal: precision {decimal.precision} must be >= scale {decimal.scale}"

/-- `{decl.name: decl for decl in parameters}`: of two declarations of one name the later one. -/
def declared (parameters : List ParameterDecl) (name : String) : Option ParameterDecl :=
  parameters.reverse.find? fun decl => decl.name = name

def splitLogicalRef (ref : LogicalRef) (path : String) :
    Except SchemaError (String × List String) :=
  let malformed :=
    s!"{path}: logical_ref {Text.repr ref} must be 'source::schema.table[.column]'"
  match Text.partition "::" ref with
  | none => .error malformed
  | some (source, rest) =>
      if source = "" ∨ rest = "" ∨ Text.contains "::" rest then .error malformed
      else
        let parts := Text.split '.' rest
        if (parts.length ≠ 2 ∧ parts.length ≠ 3) ∨ "" ∈ parts then
          .error (s!"{path}: logical_ref {Text.repr ref} must have non-empty " ++
            "'schema.table' or 'schema.table.column' after '::'")
        else .ok (source, parts)

def requireTableRef (ref : LogicalRef) (path : String) : Except SchemaError Unit := do
  let (_, parts) ← splitLogicalRef ref path
  ensure (parts.length = 2) s!"{path}: {Text.repr ref} must be a table logical_ref (no .column)"

/-- `_require_column_ref`: the table of a column ref. -/
def requireColumnRef (ref : LogicalRef) (path : String) : Except SchemaError String := do
  let (source, parts) ← splitLogicalRef ref path
  match parts with
  | [schema, table, _] => .ok s!"{source}::{schema}.{table}"
  | _ => .error s!"{path}: {Text.repr ref} must be a column logical_ref ('schema.table.column')"

def requireContainedColumn (ref : LogicalRef) (path : String) (tableRef : LogicalRef) :
    Except SchemaError Unit := do
  let columnTable ← requireColumnRef ref path
  ensure (columnTable = tableRef)
    (s!"{path}: {Text.repr ref} is not contained in the expression's " ++
      s!"source_relation.table_ref {Text.repr tableRef}")

def orderedOps : List FilterPredicateOp :=
  [.greaterThan, .greaterOrEqual, .lessThan, .lessOrEqual]

def orderableTypes : List LiteralType := [.integer, .decimal, .date]

/-- The type of the right-hand side of a comparison, where `_check_predicate` finds one. -/
def rightType (node : FilterPredicate) (path : String) (params : String → Option ParameterDecl) :
    Except SchemaError LiteralType :=
  match node.rightLiteral, node.rightParam with
  | some literal, none => do
      checkTypedLiteral literal s!"{path}.right_literal"
      .ok literal.type
  | none, some param =>
      match params param.name with
      | some decl => .ok decl.type
      | none => .error (s!"{path}.right_param: {Text.repr param.name} does not resolve to a " ++
          "declared ParameterDecl")
  | _, _ => .error (s!"{path}: '{StrEnum.value node.op}' requires exactly one of " ++
      "right_literal | right_param")

/-- `_check_predicate`, of `is_null` and `is_not_null`. -/
def checkNoRight (node : FilterPredicate) (path : String) : Except SchemaError Unit :=
  ensure (node.rightLiteral = none ∧ node.rightParam = none ∧ node.rightSet = none)
    s!"{path}: '{StrEnum.value node.op}' takes no right-hand side"

/-- `_check_predicate`, of `in` and `not_in`. -/
def checkSet (node : FilterPredicate) (path : String) : Except SchemaError Unit := do
  ensure (node.rightLiteral = none ∧ node.rightParam = none)
    (s!"{path}: '{StrEnum.value node.op}' takes exactly right_set " ++
      "(no right_literal/right_param)")
  ensure node.rightSet.isSome s!"{path}: '{StrEnum.value node.op}' requires right_set"
  let members := node.rightSet.getD []
  ensure (members ≠ []) s!"{path}: '{StrEnum.value node.op}' requires a non-empty right_set"
  ensure (members.length ≤ maxInList)
    s!"{path}: right_set size {members.length} exceeds MAX_IN_LIST={maxInList}"
  each (fun i entry => checkTypedLiteral entry s!"{path}.right_set[{i}]") members

/-- `_check_predicate`, of the comparisons. -/
def checkComparison (node : FilterPredicate) (path : String)
    (params : String → Option ParameterDecl) : Except SchemaError Unit := do
  ensure (node.rightSet = none) s!"{path}: '{StrEnum.value node.op}' does not take right_set"
  let type ← rightType node path params
  ensure (node.op ∈ orderedOps → type ∈ orderableTypes)
    (s!"{path}: '{StrEnum.value node.op}' requires an integer/decimal/date right-hand side, " ++
      s!"got '{StrEnum.value type}'")

def checkPredicate (node : FilterPredicate) (path : String)
    (params : String → Option ParameterDecl) : Except SchemaError Unit :=
  match node.op with
  | .isNull | .isNotNull => checkNoRight node path
  | .isIn | .notIn => checkSet node path
  | _ => checkComparison node path params

/-- The number of children `_check_filter_node` asks of an operator. -/
def checkArity (op : FilterBoolOp) (children : ℕ) (path : String) : Except SchemaError Unit :=
  match op with
  | .not => ensure (children = 1) s!"{path}: 'not' requires exactly 1 child, got {children}"
  | _ => ensure (2 ≤ children)
      s!"{path}: '{StrEnum.value op}' requires at least 2 children, got {children}"

mutual

/-- `_check_filter_node`: the number of predicates. -/
def checkFilterNode (path : String) (depth : ℕ) (tableRef : LogicalRef)
    (params : String → Option ParameterDecl) : FilterNode → Except SchemaError ℕ
  | .predicate node => do
      ensure (depth ≤ maxFilterDepth)
        s!"{path}: filter tree depth {depth} exceeds MAX_FILTER_DEPTH={maxFilterDepth}"
      checkPredicate node path params
      requireContainedColumn node.left s!"{path}.left" tableRef
      .ok 1
  | .bool op children => do
      ensure (depth ≤ maxFilterDepth)
        s!"{path}: filter tree depth {depth} exceeds MAX_FILTER_DEPTH={maxFilterDepth}"
      checkArity op children.length path
      checkFilterChildren path 0 (depth + 1) tableRef params children

/-- The children of a node, from the `i`-th on. -/
def checkFilterChildren (path : String) (i depth : ℕ) (tableRef : LogicalRef)
    (params : String → Option ParameterDecl) : List FilterNode → Except SchemaError ℕ
  | [] => .ok 0
  | child :: children => do
      let count ← checkFilterNode s!"{path}.children[{i}]" depth tableRef params child
      let rest ← checkFilterChildren path (i + 1) depth tableRef params children
      .ok (count + rest)

end

end FeatureGen.Formula
