import FeatureGen.Formula.Canonical
import FeatureGen.Lib.KeySort
import FeatureGen.Overlay.ObjectRef

/-! # The canonical form of a filter

`formula/canonical_leaves.py`: `filter_plain`, the tree under which a filter is
hashed. Refs are normalized and texts composed, groups of one operator nested in
one another become one group, and the children of a conjunction or disjunction
stand in the order of the hashes of their own forms.
-/

namespace FeatureGen.Formula

open Checks Document KeySort Overlay

/-- What the canonicalizer calls: `unicodedata.normalize("NFC", …)`, `str.lower`, the JCS
    serializer, and the digest of a text. Its hexadecimal digits sort as its bytes do. -/
structure Primitives where
  nfc : String → String
  lower : String → String
  dumps : Plain → String
  sha256 : String → String

section

variable (py : Primitives)

/-- `_ref`. -/
def plainRef (ref : LogicalRef) (path : String) : Except SchemaError String :=
  match parseRef (py.nfc ref) with
  | .error _ => .error s!"{path}: {Text.repr ref} is not a parseable logical_ref"
  | .ok parts => do
      let components := [parts.source, parts.schema, parts.table] ++ parts.column.toList
      ensure (components.all fun component => strip component ≠ "")
        s!"{path}: {Text.repr ref} has an empty logical_ref component"
      .ok (normalizeRef py.lower parts.source (some parts.schema) parts.table parts.column)

def childHash (plain : Plain) : String := py.sha256 (py.dumps plain)

def literalPlain (literal : TypedLiteral) : Plain :=
  .object [("type", plainEnum literal.type), ("value", .str (py.nfc literal.value))]

/-- `right_set` of `_predicate_plain`. -/
def setPlain (members : List TypedLiteral) : Plain :=
  .array (sortBy py.dumps (lastByKey py.dumps (members.map (literalPlain py))))

def predicatePlain (node : FilterPredicate) (path : String) : Except SchemaError Plain := do
  let left ← plainRef py node.left s!"{path}.left"
  .ok <| .object
    [("kind", .str "predicate"), ("left", .str left), ("op", plainEnum node.op),
      ("right_literal", plainOption (literalPlain py) node.rightLiteral),
      ("right_param", plainOption (fun p => .object [("name", .str (py.nfc p.name))])
        node.rightParam),
      ("right_set", plainOption (setPlain py) node.rightSet)]

/-- The form of a group over the forms of its children. -/
def boolPlain (op : FilterBoolOp) (children : List Plain) : Plain :=
  .object [("children", .array children), ("kind", .str "bool"), ("op", plainEnum op)]

mutual

def filterPlain (path : String) : FilterNode → Except SchemaError Plain
  | .predicate node => predicatePlain py node path
  | .bool op children =>
      match op with
      | .not => boolPlain .not <$> childPlains path 0 children
      | op => (fun plains => boolPlain op (sortBy (childHash py) plains)) <$>
          flattenedPlains op s!"{path}.children[*]" children

/-- The forms of children that are neither flattened nor sorted, from the `i`-th on. -/
def childPlains (path : String) (i : ℕ) : List FilterNode → Except SchemaError (List Plain)
  | [] => .ok []
  | child :: children => do
      let plain ← filterPlain s!"{path}.children[{i}]" child
      let plains ← childPlains path (i + 1) children
      .ok (plain :: plains)

/-- The forms of `_flatten_same_op(op, children)`. -/
def flattenedPlains (op : FilterBoolOp) (path : String) :
    List FilterNode → Except SchemaError (List Plain)
  | [] => .ok []
  | .predicate node :: children => do
      let plain ← filterPlain path (.predicate node)
      let plains ← flattenedPlains op path children
      .ok (plain :: plains)
  | .bool op' inner :: children => do
      let here ←
        if op' = op then flattenedPlains op path inner
        else (fun plain => [plain]) <$> filterPlain path (.bool op' inner)
      let plains ← flattenedPlains op path children
      .ok (here ++ plains)

end

end

def flattenSameOp (op : FilterBoolOp) : List FilterNode → List FilterNode
  | [] => []
  | .predicate node :: children => .predicate node :: flattenSameOp op children
  | .bool op' inner :: children =>
      (if op' = op then flattenSameOp op inner else [.bool op' inner]) ++ flattenSameOp op children

theorem flattenedPlains_eq (py : Primitives) (op : FilterBoolOp) (path : String)
    (children : List FilterNode) :
    flattenedPlains py op path children =
      (flattenSameOp op children).mapM (filterPlain py path) := by
  fun_induction flattenSameOp op children with
  | case1 => rfl
  | case2 node children ih =>
      rw [flattenedPlains, ih, List.mapM_cons]
      rfl
  | case3 op' inner children ihInner ih =>
      rw [flattenedPlains, List.mapM_append, ← ih, ihInner]
      by_cases same : op' = op
      · simp only [if_pos same]
        rfl
      · simp only [if_neg same, List.mapM_cons, List.mapM_nil, map_eq_pure_bind]
        rfl

end FeatureGen.Formula
