import FeatureGen.Formula.FilterTruth
import FeatureGen.Lib.PyExpr
import FeatureGen.Materialize.ExpressionIR
import FeatureGen.Materialize.SpineNode

/-! # A filter as a rendered condition

`materialize/render/nodes_compute.py`: the PySpark condition written for a compiled
filter, and what Spark makes of such a condition in a row. The tree is the canonical
plain form; the tests of a value's class are the types here.
-/

namespace FeatureGen.Materialize

open Checks Formula Overlay

/-- What the renderer calls: `str.isprintable` of a character, and the constructors with which
    it tests a literal. -/
structure LiteralPrimitives where
  printable : Char → Bool
  int : String → Except String ℤ
  decimal : String → Except String Unit
  fromIsoFormat : String → Except String Unit

def comparisons : FilterPredicateOp → Option String
  | .equal => some "=="
  | .notEqual => some "!="
  | .greaterThan => some ">"
  | .greaterOrEqual => some ">="
  | .lessThan => some "<"
  | .lessOrEqual => some "<="
  | _ => none

def nullTests : FilterPredicateOp → Option String
  | .isNull => some "isNull"
  | .isNotNull => some "isNotNull"
  | _ => none

def setTests : List FilterPredicateOp := [.isIn, .notIn]

def readColumn (ref : String) (readSet : List String) (what : String) : Except String String := do
  let column ← columnOf ref what
  ensure (column ∈ readSet)
    (what ++ " is " ++ Text.repr ref ++ ", whose column " ++ Text.repr column ++ " is not in " ++
      "the authorized read set " ++ reprTexts readSet ++ ": §1.3 authorized a SET of columns, and " ++
      "filtering on one outside it is a read this group was never granted")
  .ok column

/-- `_unwrapped`'s loop: whether the depth is zero for the first time at the last character. -/
def closesAtEnd (depth : ℤ) : List Char → Bool
  | [] => false
  | c :: cs =>
      let depth := depth + (if c = '(' then 1 else 0) - (if c = ')' then 1 else 0)
      if depth = 0 then cs.isEmpty else closesAtEnd depth cs

def unwrapped (condition : String) : String :=
  let cs := condition.toList
  if cs.head? ≠ some '(' ∨ cs.getLast? ≠ some ')' then condition
  else if closesAtEnd 0 cs then String.ofList (cs.drop 1).dropLast
  else condition

section

variable (py : LiteralPrimitives)

/-- `repr` of a text. -/
def pyRepr (s : String) : String := String.ofList (Python.repr py.printable s)

def filterLiteral (literal : TypedLiteral) (path : String) : Except String String :=
  match literal.type with
  | .string => .ok (pyRepr py literal.value)
  | .boolean => do
      ensure (literal.value = "true" ∨ literal.value = "false")
        ("the boolean literal at " ++ path ++ " is " ++ Text.repr literal.value ++ ", and " ++
          "Child-1's canonical booleans are 'true' and 'false': anything else would render as a " ++
          "truthy string")
      .ok (if literal.value = "true" then "True" else "False")
  | .integer =>
      match py.int literal.value with
      | .error e => .error ("the integer literal at " ++ path ++ " is " ++
          Text.repr literal.value ++ " (" ++ e ++ ")")
      | .ok n => .ok (String.ofList (Python.reprInt n))
  | .decimal =>
      match py.decimal literal.value with
      | .error e => .error ("the decimal literal at " ++ path ++ " is " ++
          Text.repr literal.value ++ " (" ++ e ++ ")")
      | .ok _ => .ok ("Decimal(" ++ pyRepr py literal.value ++ ")")
  | .date =>
      match py.fromIsoFormat literal.value with
      | .error e => .error ("the date literal at " ++ path ++ " is " ++
          Text.repr literal.value ++ " (" ++ e ++ ")")
      | .ok _ => .ok ("date.fromisoformat(" ++ pyRepr py literal.value ++ ")")

/-- The members of a `right_set`, from the `i`-th on. -/
def filterMembers (path : String) (i : ℕ) : List TypedLiteral → Except String (List String)
  | [] => .ok []
  | literal :: members => do
      let member ← filterLiteral py literal s!"{path}.right_set[{i}]"
      let rest ← filterMembers path (i + 1) members
      .ok (member :: rest)

/-- A membership test of `_filter_predicate`. -/
def filterMembership (node : FilterPredicate) (column path : String) : Except String String := do
  let members := node.rightSet.getD []
  ensure (members ≠ [])
    ("the " ++ StrEnum.value node.op ++ " predicate at " ++ path ++ " has no right_set (" ++
      (if node.rightSet = none then "None" else "[]") ++ "): a membership test over an empty " ++
      "set keeps nothing (or everything, negated), and neither is a filter anybody declared")
  let rendered ← filterMembers py path 0 members
  let inside := "F.col(" ++ pyRepr py column ++ ").isin([" ++ String.intercalate ", " rendered ++
    "])"
  .ok (if node.op = .isIn then inside else "(~" ++ inside ++ ")")

/-- A comparison of `_filter_predicate`. -/
def filterComparison (node : FilterPredicate) (column path : String) : Except String String :=
  match node.rightLiteral with
  | none => .error ("the " ++ StrEnum.value node.op ++ " predicate at " ++ path ++ " has no " ++
      "right_literal: §6 gives a comparison exactly one column reference and one typed literal, " ++
      "and a comparison missing its right-hand side has nothing to compare against")
  | some literal => do
      let right ← filterLiteral py literal (path ++ ".right_literal")
      .ok ("(F.col(" ++ pyRepr py column ++ ") " ++ (comparisons node.op).getD "" ++ " " ++ right ++
        ")")

/-- The test of `_filter_predicate`, of a column that may be read. -/
def filterTest (node : FilterPredicate) (column path : String) : Except String String :=
  match nullTests node.op with
  | some test => .ok ("F.col(" ++ pyRepr py column ++ ")." ++ test ++ "()")
  | none =>
      if node.op ∈ setTests then filterMembership py node column path
      else filterComparison py node column path

def filterPredicate (node : FilterPredicate) (readSet : List String) (path : String) :
    Except String String := do
  let left ← readColumn node.left readSet ("the filter predicate at " ++ path)
  ensure (node.rightParam = none)
    ("the predicate at " ++ path ++ " compares against the run parameter \x7b'name': " ++
      Text.repr ((node.rightParam.map (·.name)).getD "") ++ "\x7d: §11.1's run parameters are a " ++
      "CLOSED set that a formula's own parameters are not part of, so nothing would bind it and " ++
      "the rendered node would read a name the pipeline never supplies")
  filterTest py node left path

/-- The connective of `_filter_bool`, over the rendered children. -/
def joinConditions (op : FilterBoolOp) (rendered : List String) (path : String) :
    Except String String :=
  match op, rendered with
  | .not, [child] => .ok ("(~" ++ child ++ ")")
  | .not, _ => .error (s!"the NOT at {path} negates {rendered.length} children: negation takes " ++
      "exactly one operand, and a NOT over several is ambiguous between NOT(a AND b) and " ++
      "NOT(a) AND NOT(b) — two different filters")
  | .and, _ => .ok ("(" ++ String.intercalate " & " rendered ++ ")")
  | .or, _ => .ok ("(" ++ String.intercalate " | " rendered ++ ")")

mutual

/-- `_filter_condition` and `_filter_bool`. -/
def filterCondition (readSet : List String) (path : String) : FilterNode → Except String String
  | .predicate node => filterPredicate py node readSet path
  | .bool op children => do
      ensure (children.isEmpty = false)
        ("the " ++ StrEnum.value op ++ " node at " ++ path ++ " has no children ([]): a boolean " ++
          "over nothing is a predicate this renderer would have to invent")
      let rendered ← childConditions readSet path 0 children
      joinConditions op rendered path

/-- The conditions of children, from the `i`-th on. -/
def childConditions (readSet : List String) (path : String) (i : ℕ) :
    List FilterNode → Except String (List String)
  | [] => .ok []
  | child :: children => do
      let condition ← filterCondition readSet s!"{path}.children[{i}]" child
      let conditions ← childConditions readSet path (i + 1) children
      .ok (condition :: conditions)

end

end

def holds : Python.Comparison → Ordering → Bool
  | .eq, o => o = .eq
  | .ne, o => o ≠ .eq
  | .lt, o => o = .lt
  | .le, o => o ≠ .gt
  | .gt, o => o = .gt
  | .ge, o => o ≠ .lt

/-- A row: its columns, the values Python's literals are there, and how two values compare.
    `none` is null, and the unknown outcome of a comparison. -/
structure SparkRow (V : Type) where
  col : String → Option V
  text : String → V
  bool : Bool → V
  int : ℤ → V
  decimal : String → V
  date : String → V
  compare : V → V → Option Ordering

namespace SparkRow

variable {V : Type} (row : SparkRow V)

/-- A comparison, unknown when the column is null. -/
def compared (op : Python.Comparison) (a : Option V) (b : V) : Truth :=
  a.bind fun x => (row.compare x b).map (holds op)

/-- `F.col` of a name. -/
def column : Python.Expr → Option (Option V)
  | .call (.attr (.name m) f) [.text s] =>
      if m = "F" ∧ f = "col" then some (row.col s) else none
  | _ => none

/-- The value of a literal. A constructor has one for what it accepts. -/
def literal (py : LiteralPrimitives) : Python.Expr → Option V
  | .text s => some (row.text s)
  | .number n => some (row.int n)
  | .neg (.number n) => some (row.int (-n))
  | .name s =>
      if s = "True" then some (row.bool true)
      else if s = "False" then some (row.bool false)
      else none
  | .call (.name f) [.text s] =>
      if f = "Decimal" then (py.decimal s).toOption.map fun _ => row.decimal s else none
  | .call (.attr (.name m) f) [.text s] =>
      if m = "date" ∧ f = "fromisoformat" then
        (py.fromIsoFormat s).toOption.map fun _ => row.date s
      else none
  | _ => none

/-- `isNull`, `isNotNull` and `isin` of a column. -/
def test (py : LiteralPrimitives) (value : Option V) (method : String) :
    List Python.Expr → Option Truth
  | [] =>
      if method = "isNull" then some (some value.isNone)
      else if method = "isNotNull" then some (some value.isSome)
      else none
  | [.list members] =>
      if method = "isin" then
        (members.mapM (row.literal py)).map fun values =>
          combine true (values.map fun b => row.compared .eq value b)
      else none
  | _ => none

/-- The truth of a condition. `none` where Spark is given something else. -/
def condition (py : LiteralPrimitives) : Python.Expr → Option Truth
  | .invert e => (condition py e).map fun t => t.map (!·)
  | .binary op a b =>
      (condition py a).bind fun x => (condition py b).map fun y =>
        combine (op = .either) [x, y]
  | .compare op a b =>
      (row.column a).bind fun x => (row.literal py b).map fun y => row.compared op x y
  | .call (.attr e method) args =>
      (row.column e).bind fun value => row.test py value method args
  | _ => none

end SparkRow

/-- What an operator of the tree says of how two values are ordered. -/
def ordered : FilterPredicateOp → Ordering → Bool
  | .equal, o => o = .eq
  | .notEqual, o => o ≠ .eq
  | .greaterThan, o => o = .gt
  | .greaterOrEqual, o => o ≠ .lt
  | .lessThan, o => o = .lt
  | .lessOrEqual, o => o ≠ .gt
  | _, _ => false

/-- A ref is read from the column it names, and a literal is the value its text names. -/
def SparkRow.reading {V : Type} (row : SparkRow V) (py : LiteralPrimitives) : Reading V where
  cell ref := (columnName ref).bind row.col
  param _ := none
  literal type value :=
    match type with
    | .string => row.text value
    | .boolean => row.bool (value = "true")
    | .integer =>
        match py.int value with
        | .ok n => row.int n
        | .error _ => row.text value
    | .decimal => row.decimal value
    | .date => row.date value
  compare op a b := (row.compare a b).map (ordered op)

end FeatureGen.Materialize
