import FeatureGen.Formula.CanonicalLeaves
import FeatureGen.Formula.FilterTruth
import FeatureGen.Formula.FormulaIdentity

/-! # The filter a canonical form is the tree of

Canonicalization bottom-up, as a function from filters to filters: each child's own
canonical filter first, and a child that is a group of the parent's operator gives
its children to the parent. `filter_plain` computes the tree of this filter, where
the hash tells trees apart, and the filter says of a row what the one it came from
does.
-/

namespace FeatureGen.Formula

open Checks Document KeySort Overlay

section

variable (py : Primitives)

def normalRef (ref : LogicalRef) : Option String := (plainRef py ref "").toOption

def canonicalLiteral (literal : TypedLiteral) : TypedLiteral :=
  { literal with value := py.nfc literal.value }

def canonicalSet (members : List TypedLiteral) : List TypedLiteral :=
  let written := fun literal => py.dumps (TypedLiteral.plain literal)
  sortBy written (lastByKey written (members.map (canonicalLiteral py)))

def canonicalPredicate (node : FilterPredicate) : Option FilterPredicate :=
  (normalRef py node.left).map fun left =>
    { op := node.op
      left := left
      rightLiteral := node.rightLiteral.map (canonicalLiteral py)
      rightParam := node.rightParam.map fun p => ⟨py.nfc p.name⟩
      rightSet := node.rightSet.map (canonicalSet py) }

/-- What a child gives to a group of operator `op`. -/
def FilterNode.group (op : FilterBoolOp) : FilterNode → List FilterNode
  | .predicate node => [.predicate node]
  | .bool op' children => if op' = op then children else [.bool op' children]

def arrange (op : FilterBoolOp) (children : List FilterNode) : List FilterNode :=
  match op with
  | .not => children
  | op => sortBy (fun child => childHash py child.plain) (children.flatMap (FilterNode.group op))

mutual

def canonical : FilterNode → Option FilterNode
  | .predicate node => (canonicalPredicate py node).map .predicate
  | .bool op children => (canonicals children).map fun ds => .bool op (arrange py op ds)

def canonicals : List FilterNode → Option (List FilterNode)
  | [] => some []
  | child :: children => do
      let d ← canonical child
      let ds ← canonicals children
      some (d :: ds)

end

end

variable {py : Primitives}

theorem toOption_bind {ε α β : Type} (x : Except ε α) (f : α → Except ε β) :
    (x >>= f).toOption = x.toOption.bind fun a => (f a).toOption := by
  cases x <;> rfl

theorem toOption_map {ε α β : Type} (x : Except ε α) (f : α → β) :
    (f <$> x).toOption = x.toOption.map f := by
  cases x <;> rfl

theorem toOption_plainRef (ref : LogicalRef) (path : String) :
    (plainRef py ref path).toOption = normalRef py ref := by
  unfold normalRef plainRef
  cases parseRef (py.nfc ref) with
  | error _ => rfl
  | ok parts =>
      by_cases blank : ([parts.source, parts.schema, parts.table] ++ parts.column.toList).all
          fun component => strip component ≠ ""
      · simp only [ensure, blank]
        rfl
      · simp only [ensure, blank]
        rfl

theorem plain_canonicalSet (members : List TypedLiteral) :
    plainList TypedLiteral.plain (canonicalSet py members) = setPlain py members := by
  have plain : members.map (literalPlain py) =
      (members.map (canonicalLiteral py)).map TypedLiteral.plain := by
    rw [List.map_map]
    rfl
  rw [setPlain, plain, lastByKey_map, sortBy_map]
  rfl

theorem toOption_predicatePlain (node : FilterPredicate) (path : String) :
    (predicatePlain py node path).toOption =
      (canonicalPredicate py node).map FilterPredicate.plain := by
  rw [predicatePlain, toOption_bind, toOption_plainRef, canonicalPredicate, Option.map_map]
  cases normalRef py node.left with
  | none => rfl
  | some left =>
      obtain ⟨op, ref, literal, param, set⟩ := node
      cases set <;> cases param <;> cases literal <;>
        simp [Except.toOption, FilterPredicate.plain, plainOption, literalPlain, canonicalLiteral,
          TypedLiteral.plain, ParameterRef.plain, plain_canonicalSet]

theorem plain_bool (op : FilterBoolOp) (children : List FilterNode) :
    (FilterNode.bool op children).plain = boolPlain op (children.map FilterNode.plain) := by
  rw [FilterNode.plain, FilterNode.plains_eq]
  rfl

theorem flattenedPlains_cons (op : FilterBoolOp) (path : String) (child : FilterNode)
    (children : List FilterNode) :
    flattenedPlains py op path (child :: children) = (do
      let here ← flattenedPlains py op path [child]
      let plains ← flattenedPlains py op path children
      .ok (here ++ plains)) := by
  cases child with
  | predicate node =>
      simp only [flattenedPlains, bind_assoc]
      rfl
  | bool op' inner =>
      by_cases same : op' = op
      · cases h : flattenedPlains py op path inner with
        | error _ => simp [flattenedPlains, same, h, bind, Except.bind]
        | ok here => simp [flattenedPlains, same, h, bind, Except.bind]
      · cases h : filterPlain py path (.bool op' inner) with
        | error _ => simp [flattenedPlains, same, h, bind, Except.bind]
        | ok plain => simp [flattenedPlains, same, h, bind, Except.bind]

/-- The code's forms of a node, alone and inside a group, are those of its canonical filter. -/
structure Computes (py : Primitives) (node : FilterNode) : Prop where
  alone (path : String) :
    (filterPlain py path node).toOption = (canonical py node).map FilterNode.plain
  inside {op : FilterBoolOp} (hop : op ≠ .not) (path : String) :
    Option.Rel List.Perm (flattenedPlains py op path [node]).toOption
      ((canonical py node).map fun d => (d.group op).map FilterNode.plain)

theorem toOption_childPlains {children : List FilterNode}
    (ih : ∀ child ∈ children, Computes py child) (path : String) (i : ℕ) :
    (childPlains py path i children).toOption =
      (canonicals py children).map (List.map FilterNode.plain) := by
  induction children generalizing i with
  | nil => rfl
  | cons child children ihc =>
      have hchild := (ih child List.mem_cons_self).alone s!"{path}.children[{i}]"
      have hchildren := ihc (fun c hc => ih c (List.mem_cons_of_mem _ hc)) (i + 1)
      simp only [childPlains, canonicals, toOption_bind, hchild, hchildren]
      cases canonical py child with
      | none => rfl
      | some d => cases canonicals py children <;> rfl

theorem rel_append {α β γ : Type} {x y : Option (List α)} {a : Option β} {b : Option γ}
    {f : β → List α} {g : γ → List α} (hx : Option.Rel List.Perm x (a.map f))
    (hy : Option.Rel List.Perm y (b.map g)) :
    Option.Rel List.Perm (x.bind fun xs => y.bind fun ys => some (xs ++ ys))
      (a.bind fun d => b.bind fun e => some (f d ++ g e)) := by
  cases a with
  | none =>
      cases hx
      exact .none
  | some d =>
      cases hx with
      | some perm =>
          cases b with
          | none =>
              cases hy
              exact .none
          | some e =>
              cases hy with
              | some perm' => exact .some (perm.append perm')

theorem toOption_flattenedPlains {children : List FilterNode}
    (ih : ∀ child ∈ children, Computes py child) {op : FilterBoolOp} (hop : op ≠ .not)
    (path : String) :
    Option.Rel List.Perm (flattenedPlains py op path children).toOption
      ((canonicals py children).map fun ds =>
        (ds.flatMap (FilterNode.group op)).map FilterNode.plain) := by
  induction children with
  | nil => exact .some (List.Perm.refl _)
  | cons child children ihc =>
      have hchild := (ih child List.mem_cons_self).inside hop path
      have hchildren := ihc fun c hc => ih c (List.mem_cons_of_mem _ hc)
      have both := rel_append hchild hchildren
      have listed : (canonicals py (child :: children)).map (fun ds =>
          (ds.flatMap (FilterNode.group op)).map FilterNode.plain) =
          (canonical py child).bind fun d => (canonicals py children).bind fun ds =>
            some ((d.group op).map FilterNode.plain ++
              (ds.flatMap (FilterNode.group op)).map FilterNode.plain) := by
        rw [canonicals]
        cases canonical py child with
        | none => rfl
        | some d => cases canonicals py children <;> simp
      rw [listed, flattenedPlains_cons, toOption_bind]
      simp only [toOption_bind]
      exact both

theorem sortBy_plain (hashed : Faithful (childHash py)) {ts : List Plain}
    {nodes : List FilterNode} (perm : ts.Perm (nodes.map FilterNode.plain)) :
    sortBy (childHash py) ts =
      (sortBy (fun node => childHash py node.plain) nodes).map FilterNode.plain := by
  rw [← sortBy_map, sortBy_eq_iff]
  · exact perm
  · intro a ha b hb h
    obtain ⟨node, _, rfl⟩ := List.mem_map.mp (perm.mem_iff.mp ha)
    obtain ⟨node', _, rfl⟩ := List.mem_map.mp hb
    exact hashed _ _ node.sorted_plain node'.sorted_plain h

theorem toOption_filterPlain_bool (hashed : Faithful (childHash py)) {op : FilterBoolOp}
    {children : List FilterNode} (ih : ∀ child ∈ children, Computes py child) (path : String) :
    (filterPlain py path (.bool op children)).toOption =
      (canonical py (.bool op children)).map FilterNode.plain := by
  have sorted (hop : op ≠ .not) :
      ((fun plains => boolPlain op (sortBy (childHash py) plains)) <$>
        flattenedPlains py op s!"{path}.children[*]" children).toOption =
      (canonicals py children).map fun ds => (FilterNode.bool op
        (sortBy (fun d => childHash py d.plain) (ds.flatMap (FilterNode.group op)))).plain := by
    have flattened := toOption_flattenedPlains ih hop s!"{path}.children[*]"
    rw [toOption_map]
    generalize (flattenedPlains py op s!"{path}.children[*]" children).toOption = x at flattened
    cases hds : canonicals py children with
    | none =>
        rw [hds] at flattened
        cases flattened
        rfl
    | some ds =>
        rw [hds] at flattened
        cases flattened with
        | some perm =>
            simp only [Option.map_some, plain_bool, sortBy_plain hashed perm]
  cases op with
  | and =>
      rw [canonical, Option.map_map]
      exact sorted (by simp)
  | or =>
      rw [canonical, Option.map_map]
      exact sorted (by simp)
  | not =>
      rw [canonical, Option.map_map]
      change (boolPlain .not <$> childPlains py path 0 children).toOption = _
      rw [toOption_map, toOption_childPlains ih, Option.map_map]
      congr 1
      funext ds
      exact (plain_bool .not ds).symm

theorem flattenedPlains_group (op : FilterBoolOp) (path : String) (inner : List FilterNode) :
    flattenedPlains py op path [.bool op inner] = flattenedPlains py op path inner := by
  cases h : flattenedPlains py op path inner with
  | error _ => simp [flattenedPlains, h, bind, Except.bind]
  | ok here => simp [flattenedPlains, h, bind, Except.bind]

theorem toOption_flattenedPlains_single {op : FilterBoolOp} {node : FilterNode}
    (other : ∀ inner, node ≠ .bool op inner) (path : String) :
    (flattenedPlains py op path [node]).toOption =
      (filterPlain py path node).toOption.map fun plain => [plain] := by
  cases node with
  | predicate node =>
      simp only [flattenedPlains, toOption_bind]
      cases (filterPlain py path (.predicate node)).toOption <;> rfl
  | bool op' inner =>
      have hop : op' ≠ op := fun h => other inner (h ▸ rfl)
      cases h : filterPlain py path (.bool op' inner) <;>
        simp [flattenedPlains, hop, h, bind, Except.bind, Except.toOption]

theorem group_of_canonical {op : FilterBoolOp} {node d : FilterNode}
    (other : ∀ inner, node ≠ .bool op inner) (h : canonical py node = some d) :
    d.group op = [d] := by
  cases node with
  | predicate node =>
      obtain ⟨_, _, rfl⟩ := Option.map_eq_some_iff.mp h
      rfl
  | bool op' inner =>
      obtain ⟨_, _, rfl⟩ := Option.map_eq_some_iff.mp h
      have hop : op' ≠ op := fun h => other inner (h ▸ rfl)
      simp [FilterNode.group, hop]

theorem inside_of_alone {node : FilterNode} {op : FilterBoolOp}
    (other : ∀ inner, node ≠ .bool op inner) (path : String)
    (alone : (filterPlain py path node).toOption = (canonical py node).map FilterNode.plain) :
    Option.Rel List.Perm (flattenedPlains py op path [node]).toOption
      ((canonical py node).map fun d => (d.group op).map FilterNode.plain) := by
  rw [toOption_flattenedPlains_single other, alone]
  cases h : canonical py node with
  | none => exact .none
  | some d =>
      simp only [Option.map_some, group_of_canonical other h]
      exact .some (List.Perm.refl _)

theorem computes (hashed : Faithful (childHash py)) (node : FilterNode) : Computes py node := by
  induction node with
  | predicate node =>
      have alone (path : String) : (filterPlain py path (.predicate node)).toOption =
          (canonical py (.predicate node)).map FilterNode.plain := by
        rw [canonical, Option.map_map]
        exact toOption_predicatePlain node path
      exact ⟨alone, fun _ path => inside_of_alone (by simp) path (alone path)⟩
  | bool op' inner ih =>
      have alone (path : String) : (filterPlain py path (.bool op' inner)).toOption =
          (canonical py (.bool op' inner)).map FilterNode.plain :=
        toOption_filterPlain_bool hashed ih path
      refine ⟨alone, fun {op} hop path => ?_⟩
      by_cases same : op' = op
      · subst same
        rw [flattenedPlains_group]
        have flattened := toOption_flattenedPlains ih hop path
        have arranged (ds : List FilterNode) :
            (ds.flatMap (FilterNode.group op')).Perm (arrange py op' ds) := by
          cases op' with
          | not => exact absurd rfl hop
          | and => exact (perm_sortBy _ _).symm
          | or => exact (perm_sortBy _ _).symm
        rw [canonical, Option.map_map]
        generalize (flattenedPlains py op' path inner).toOption = x at flattened
        cases hds : canonicals py inner with
        | none =>
            rw [hds] at flattened
            cases flattened
            exact .none
        | some ds =>
            rw [hds] at flattened
            cases flattened with
            | some perm =>
                refine .some (perm.trans ?_)
                simpa [FilterNode.group] using (arranged ds).map FilterNode.plain
      · exact inside_of_alone (by simp [same]) path (alone path)

theorem toOption_filterPlain (hashed : Faithful (childHash py)) (path : String)
    (node : FilterNode) :
    (filterPlain py path node).toOption = (canonical py node).map FilterNode.plain :=
  (computes hashed node).alone path

end FeatureGen.Formula
