import FeatureGen.Formula.SchemaLeaves

/-! # What a filter says of a row

Three-valued truth: a comparison with an absent value is unknown, a conjunction is
false when a child is and otherwise unknown when a child is, and dually. What two
values compare to, and what value a literal writes, is left to the reading.
-/

namespace FeatureGen.Formula

/-- `none` is unknown. -/
abbrev Truth := Option Bool

/-- Truth values joined by the connective of which `zero` is the absorbing value. -/
def combine (zero : Bool) (ts : List Truth) : Truth :=
  if some zero ∈ ts then some zero
  else if none ∈ ts then none
  else some !zero

theorem combine_congr {zero : Bool} {ts us : List Truth} (same : ∀ t, t ∈ ts ↔ t ∈ us) :
    combine zero ts = combine zero us := by
  simp [combine, same]

@[simp] theorem combine_singleton (zero : Bool) (t : Truth) : combine zero [t] = t := by
  cases t with
  | none => simp [combine]
  | some b => cases b <;> cases zero <;> rfl

theorem combine_eq_zero {zero : Bool} {ts : List Truth} :
    combine zero ts = some zero ↔ some zero ∈ ts := by
  unfold combine
  split
  · simpa
  · split <;> simp [*]

theorem combine_eq_none {zero : Bool} {ts : List Truth} :
    combine zero ts = none ↔ some zero ∉ ts ∧ none ∈ ts := by
  unfold combine
  split
  · simp [*]
  · split <;> simp [*]

theorem combine_flatMap {α : Type} (zero : Bool) (f : α → List Truth) (xs : List α) :
    combine zero (xs.flatMap f) = combine zero (xs.map fun x => combine zero (f x)) := by
  have zeros : some zero ∈ xs.flatMap f ↔ some zero ∈ xs.map fun x => combine zero (f x) := by
    simp [List.mem_flatMap, List.mem_map, combine_eq_zero]
  by_cases hzero : some zero ∈ xs.flatMap f
  · rw [combine_eq_zero.mpr hzero, combine_eq_zero.mpr (zeros.mp hzero)]
  · have clean : ∀ x ∈ xs, some zero ∉ f x := fun x hx hmem =>
      hzero (List.mem_flatMap.mpr ⟨x, hx, hmem⟩)
    have nones : none ∈ xs.flatMap f ↔ none ∈ xs.map fun x => combine zero (f x) := by
      simp only [List.mem_flatMap, List.mem_map, combine_eq_none]
      exact exists_congr fun x => and_congr_right fun hx => by simp [clean x hx]
    rw [combine, combine, if_neg hzero, if_neg (fun h => hzero (zeros.mpr h))]
    simp only [nones]

/-- The truth of a group over the truth of its children. `not` has one. -/
def FilterBoolOp.truth : FilterBoolOp → List Truth → Truth
  | .and, ts => combine false ts
  | .or, ts => combine true ts
  | .not, ts => (combine false ts).map (!·)

/-- A row and an assignment of the parameters, with what is read into literals and
    comparisons. -/
structure Reading (V : Type) where
  cell : LogicalRef → Option V
  param : String → Option V
  literal : LiteralType → String → V
  compare : FilterPredicateOp → V → V → Truth

namespace Reading

variable {V : Type} (r : Reading V)

/-- A comparison, unknown when a side is absent. -/
def compared (op : FilterPredicateOp) (a b : Option V) : Truth :=
  a.bind fun x => b.bind fun y => r.compare op x y

def literalValue (lit : TypedLiteral) : Option V := some (r.literal lit.type lit.value)

/-- The right-hand side of a comparison. -/
def right (node : FilterPredicate) : Option V :=
  match node.rightLiteral with
  | some lit => r.literalValue lit
  | none => node.rightParam.bind fun p => r.param p.name

/-- `in`: the left-hand side equals a member. -/
def among (node : FilterPredicate) : Truth :=
  combine true <| (node.rightSet.getD []).map fun lit =>
    r.compared .equal (r.cell node.left) (r.literalValue lit)

def predicateTruth (node : FilterPredicate) : Truth :=
  match node.op with
  | .isNull => some (r.cell node.left).isNone
  | .isNotNull => some (r.cell node.left).isSome
  | .isIn => r.among node
  | .notIn => (r.among node).map (!·)
  | op => r.compared op (r.cell node.left) (r.right node)

mutual

def truth : FilterNode → Truth
  | .predicate node => r.predicateTruth node
  | .bool op children => op.truth (truths children)

def truths : List FilterNode → List Truth
  | [] => []
  | child :: children => truth child :: truths children

end

theorem truths_eq (children : List FilterNode) : r.truths children = children.map r.truth := by
  induction children with
  | nil => rfl
  | cons child children ih => simp [truths, ih]

end Reading

end FeatureGen.Formula
