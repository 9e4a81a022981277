import FeatureGen.Formula.CanonicalFilter

/-! # One form exactly for one meaning

Filters rearranged into one another have one canonical form: groups of one operator
nested or not, children and members in any order, refs spelled with any case and
padding. Filters of one form say the same of every row.
-/

namespace FeatureGen.Formula

open Checks Document KeySort Overlay

/-- Two spellings of a component: the same up to case and padding. -/
structure Alike (lower : String → String) (a b : String) : Prop where
  folded : norm lower a = norm lower b
  blank : strip a = "" ↔ strip b = ""

/-- The refs parse, to components spelled alike. -/
def Respelled (lower : String → String) (a b : LogicalRef) : Prop :=
  ∃ p q, parseRef a = .ok p ∧ parseRef b = .ok q ∧ Alike lower p.source q.source ∧
    Alike lower p.schema q.schema ∧ Alike lower p.table q.table ∧
      Option.Rel (Alike lower) p.column q.column

/-- What may be rearranged in a filter, where `same` refs may stand for each other. -/
inductive Rearranged (same : LogicalRef → LogicalRef → Prop) : FilterNode → FilterNode → Prop
  | refl (f : FilterNode) : Rearranged same f f
  | symm {f g : FilterNode} (h : Rearranged same f g) : Rearranged same g f
  | trans {f g h : FilterNode} (fg : Rearranged same f g) (gh : Rearranged same g h) :
      Rearranged same f h
  | nest {op : FilterBoolOp} (hop : op ≠ .not) (before inner after : List FilterNode) :
      Rearranged same (.bool op (before ++ .bool op inner :: after))
        (.bool op (before ++ inner ++ after))
  | permute {op : FilterBoolOp} (hop : op ≠ .not) {children children' : List FilterNode}
      (perm : children.Perm children') : Rearranged same (.bool op children) (.bool op children')
  | child (op : FilterBoolOp) (before after : List FilterNode) {f g : FilterNode}
      (h : Rearranged same f g) :
      Rearranged same (.bool op (before ++ f :: after)) (.bool op (before ++ g :: after))
  | members (node : FilterPredicate) {members members' : List TypedLiteral}
      (set : ∀ m, m ∈ members ↔ m ∈ members') :
      Rearranged same (.predicate { node with rightSet := some members })
        (.predicate { node with rightSet := some members' })
  | respell (node : FilterPredicate) {left left' : LogicalRef} (h : same left left') :
      Rearranged same (.predicate { node with left := left })
        (.predicate { node with left := left' })

variable {py : Primitives}

theorem Alike.blank_eq {lower : String → String} {a b : String} (h : Alike lower a b) :
    decide (strip a ≠ "") = decide (strip b ≠ "") := by
  simp [h.blank]

theorem Alike.filter_eq {lower : String → String} {a b : Option String}
    (h : Option.Rel (Alike lower) a b) :
    (a.filter fun s => strip s ≠ "").map (norm lower) =
      (b.filter fun s => strip s ≠ "").map (norm lower) := by
  cases h with
  | none => rfl
  | @some a b h =>
      by_cases blank : strip a = ""
      · simp [Option.filter, blank, h.blank.mp blank]
      · simp [Option.filter, blank, mt h.blank.mpr blank, h.folded]

theorem normalRef_of_respelled {a b : LogicalRef}
    (h : Respelled py.lower (py.nfc a) (py.nfc b)) : normalRef py a = normalRef py b := by
  obtain ⟨p, q, hp, hq, source, schema, table, column⟩ := h
  have path : normalizeRef py.lower p.source (some p.schema) p.table p.column =
      normalizeRef py.lower q.source (some q.schema) q.table q.column := by
    simp only [normalizeRef, Alike.filter_eq (.some schema), Alike.filter_eq column,
      source.folded, table.folded]
  have components : ([p.source, p.schema, p.table] ++ p.column.toList).all
        (fun component => strip component ≠ "") =
      ([q.source, q.schema, q.table] ++ q.column.toList).all
        fun component => strip component ≠ "" := by
    generalize p.column = c at column
    generalize q.column = c' at column
    cases column with
    | none => simp only [List.all_append, List.all_cons, source.blank_eq, schema.blank_eq,
        table.blank_eq, Option.toList_none]
    | some h => simp only [List.all_append, List.all_cons, source.blank_eq, schema.blank_eq,
        table.blank_eq, Option.toList_some, h.blank_eq]
  simp only [normalRef, plainRef, hp, hq, path, components, toOption_ensure_bind]

theorem canonicalSet_congr (faithful : Faithful py.dumps) {members members' : List TypedLiteral}
    (set : ∀ m, m ∈ members ↔ m ∈ members') :
    canonicalSet py members = canonicalSet py members' := by
  refine sortBy_lastByKey_eq ?_ ?_
  · intro a _ b _ h
    exact TypedLiteral.plain_injective (faithful _ _ a.sorted_plain b.sorted_plain h)
  · intro a
    simp only [List.mem_map, set]

theorem map_mapM_perm {α β γ : Type} {f : α → Option β} {g : List β → γ} {xs ys : List α}
    (perm : xs.Perm ys) (inv : ∀ as bs, as.Perm bs → g as = g bs) :
    (xs.mapM f).map g = (ys.mapM f).map g := by
  induction perm generalizing g with
  | nil => rfl
  | cons x _ ih =>
      simp only [List.mapM_cons]
      cases f x with
      | none => rfl
      | some d =>
          have shift (zs : List α) : ((zs.mapM f).bind fun ds => some (d :: ds)).map g =
              (zs.mapM f).map fun ds => g (d :: ds) := by
            cases zs.mapM f <;> rfl
          have tail := @ih (fun ds => g (d :: ds)) fun as bs h => inv _ _ (h.cons d)
          exact (shift _).trans (tail.trans (shift _).symm)
  | swap x y xs =>
      simp only [List.mapM_cons]
      cases f x <;> cases f y <;> cases xs.mapM f <;> try rfl
      exact congrArg some (inv _ _ (List.Perm.swap ..))
  | trans _ _ ih₁ ih₂ => rw [ih₁ inv, ih₂ inv]

theorem canonicals_eq (children : List FilterNode) :
    canonicals py children = children.mapM (canonical py) := by
  induction children with
  | nil => rfl
  | cons child children ih =>
      rw [canonicals, ih, List.mapM_cons]
      rfl

theorem arrange_congr (hashed : Faithful (childHash py)) {op : FilterBoolOp} (hop : op ≠ .not)
    {ds es : List FilterNode}
    (perm : (ds.flatMap (FilterNode.group op)).Perm (es.flatMap (FilterNode.group op))) :
    arrange py op ds = arrange py op es := by
  have sorted : sortBy (fun d => childHash py d.plain) (ds.flatMap (FilterNode.group op)) =
      sortBy (fun d => childHash py d.plain) (es.flatMap (FilterNode.group op)) := by
    refine (sortBy_eq_iff fun a _ b _ h => ?_).mpr perm
    exact FilterNode.plain_injective (hashed _ _ a.sorted_plain b.sorted_plain h)
  cases op with
  | not => exact absurd rfl hop
  | and => exact sorted
  | or => exact sorted

theorem arrange_perm {op : FilterBoolOp} (hop : op ≠ .not) (ds : List FilterNode) :
    (arrange py op ds).Perm (ds.flatMap (FilterNode.group op)) := by
  cases op with
  | not => exact absurd rfl hop
  | and => exact perm_sortBy _ _
  | or => exact perm_sortBy _ _

theorem canonical_nest (hashed : Faithful (childHash py)) {op : FilterBoolOp} (hop : op ≠ .not)
    (before inner after : List FilterNode) :
    canonical py (.bool op (before ++ .bool op inner :: after)) =
      canonical py (.bool op (before ++ inner ++ after)) := by
  simp only [canonical, canonicals_eq, List.mapM_append, List.mapM_cons]
  cases before.mapM (canonical py) with
  | none => rfl
  | some ds =>
      cases inner.mapM (canonical py) with
      | none => rfl
      | some is =>
          cases after.mapM (canonical py) with
          | none => rfl
          | some es =>
              have given : ((ds ++ .bool op (arrange py op is) :: es).flatMap
                  (FilterNode.group op)).Perm ((ds ++ is ++ es).flatMap (FilterNode.group op)) := by
                simp only [List.flatMap_append, List.flatMap_cons, List.append_assoc]
                refine List.Perm.append_left _ (List.Perm.append_right _ ?_)
                simpa [FilterNode.group] using arrange_perm hop is
              exact congrArg (fun cs => some (FilterNode.bool op cs))
                (arrange_congr hashed hop given)

theorem canonical_rearranged (faithful : Faithful py.dumps) (hashed : Faithful (childHash py))
    {f g : FilterNode}
    (h : Rearranged (fun a b => Respelled py.lower (py.nfc a) (py.nfc b)) f g) :
    canonical py f = canonical py g := by
  induction h with
  | refl f => rfl
  | symm _ ih => exact ih.symm
  | trans _ _ ih₁ ih₂ => exact ih₁.trans ih₂
  | nest hop before inner after => exact canonical_nest hashed hop before inner after
  | @permute op hop children children' perm =>
      simp only [canonical, canonicals_eq]
      refine map_mapM_perm perm fun ds es h => ?_
      rw [arrange_congr hashed hop (h.flatMap_right _)]
  | child op before after _ ih =>
      simp only [canonical, canonicals_eq, List.mapM_append, List.mapM_cons, ih]
  | members node set =>
      simp only [canonical, canonicalPredicate, Option.map_some, canonicalSet_congr faithful set]
  | respell node h =>
      simp only [canonical, canonicalPredicate, normalRef_of_respelled h]

def Reading.normalized {V : Type} (py : Primitives) (r : Reading V) : Reading V :=
  { r with
    cell := fun ref => r.cell ((normalRef py ref).getD ref)
    param := fun name => r.param (py.nfc name)
    literal := fun type value => r.literal type (py.nfc value) }

section Meaning

variable {V : Type} {r : Reading V}

theorem among_canonical (faithful : Faithful py.dumps) {node d : FilterPredicate}
    (h : canonicalPredicate py node = some d) :
    (r.normalized py).among node = r.among d := by
  obtain ⟨left, hleft, rfl⟩ := Option.map_eq_some_iff.mp h
  refine combine_congr fun t => ?_
  cases hset : node.rightSet with
  | none => simp
  | some members =>
      have inj : ∀ a ∈ members.map (canonicalLiteral py), ∀ b ∈ members.map (canonicalLiteral py),
          py.dumps a.plain = py.dumps b.plain → a = b := fun a _ b _ h =>
        TypedLiteral.plain_injective (faithful _ _ a.sorted_plain b.sorted_plain h)
      have kept (m : TypedLiteral) :
          m ∈ canonicalSet py members ↔ m ∈ members.map (canonicalLiteral py) := by
        rw [canonicalSet, mem_sortBy, mem_lastByKey inj]
      simp only [Option.map_some, Option.getD_some, List.mem_map, kept]
      constructor
      · rintro ⟨m, hm, rfl⟩
        exact ⟨canonicalLiteral py m, ⟨m, hm, rfl⟩, by simp [Reading.normalized, hleft]; rfl⟩
      · rintro ⟨_, ⟨m, hm, rfl⟩, rfl⟩
        exact ⟨m, hm, by simp [Reading.normalized, hleft]; rfl⟩

theorem predicateTruth_canonical (faithful : Faithful py.dumps) {node d : FilterPredicate}
    (h : canonicalPredicate py node = some d) :
    (r.normalized py).predicateTruth node = r.predicateTruth d := by
  have hamong : (r.normalized py).among node = r.among d := among_canonical faithful h
  obtain ⟨left, hleft, rfl⟩ := Option.map_eq_some_iff.mp h
  have cell : (r.normalized py).cell node.left = r.cell left := by
    simp [Reading.normalized, hleft]
  have right : (r.normalized py).right node = r.right
      ⟨node.op, left, node.rightLiteral.map (canonicalLiteral py),
        node.rightParam.map fun p => ⟨py.nfc p.name⟩, node.rightSet.map (canonicalSet py)⟩ := by
    cases hliteral : node.rightLiteral with
    | none =>
        cases hparam : node.rightParam <;>
          simp [Reading.right, Reading.normalized, hliteral, hparam]
    | some literal => simp only [Reading.right, hliteral, Option.map_some]; rfl
  simp only [Reading.predicateTruth, cell, right, hamong]
  rfl

theorem combine_group {zero : Bool} {op : FilterBoolOp} (hop : op.truth = combine zero)
    (d : FilterNode) : combine zero ((d.group op).map r.truth) = r.truth d := by
  cases d with
  | predicate node => simp [FilterNode.group]
  | bool op' children =>
      by_cases same : op' = op
      · subst same
        simp [FilterNode.group, Reading.truth, Reading.truths_eq, hop]
      · simp [FilterNode.group, same]

theorem combine_arrange {zero : Bool} {op : FilterBoolOp} (hop : op.truth = combine zero)
    (assoc : op ≠ .not) (ds : List FilterNode) :
    combine zero ((arrange py op ds).map r.truth) = combine zero (ds.map r.truth) := by
  have given : combine zero ((arrange py op ds).map r.truth) =
      combine zero ((ds.flatMap (FilterNode.group op)).map r.truth) :=
    combine_congr fun t => ((arrange_perm assoc ds).map r.truth).mem_iff
  rw [given, List.map_flatMap, combine_flatMap]
  simp only [combine_group hop]

theorem truth_arrange (op : FilterBoolOp) (ds : List FilterNode) :
    op.truth ((arrange py op ds).map r.truth) = op.truth (ds.map r.truth) := by
  cases op with
  | and => exact combine_arrange rfl (by simp) ds
  | or => exact combine_arrange rfl (by simp) ds
  | not => rfl

theorem map_truth_canonicals {children ds : List FilterNode}
    (ih : ∀ child ∈ children, ∀ d, canonical py child = some d →
      (r.normalized py).truth child = r.truth d)
    (h : canonicals py children = some ds) :
    children.map (r.normalized py).truth = ds.map r.truth := by
  induction children generalizing ds with
  | nil =>
      cases h
      rfl
  | cons child children ihc =>
      obtain ⟨d, hd, hrest⟩ := Option.bind_eq_some_iff.mp h
      obtain ⟨es, hes, hcons⟩ := Option.bind_eq_some_iff.mp hrest
      cases hcons
      rw [List.map_cons, List.map_cons, ih child List.mem_cons_self d hd,
        ihc (fun c hc => ih c (List.mem_cons_of_mem _ hc)) hes]

theorem truth_canonical (faithful : Faithful py.dumps) {node d : FilterNode}
    (h : canonical py node = some d) : (r.normalized py).truth node = r.truth d := by
  induction node generalizing d with
  | predicate node =>
      obtain ⟨d, hd, rfl⟩ := Option.map_eq_some_iff.mp h
      exact predicateTruth_canonical faithful hd
  | bool op children ih =>
      obtain ⟨ds, hds, rfl⟩ := Option.map_eq_some_iff.mp h
      have truths := map_truth_canonicals (fun child hchild d => @ih child hchild d) hds
      rw [Reading.truth, Reading.truths_eq, truths, Reading.truth, Reading.truths_eq,
        truth_arrange]

end Meaning

/-- The canonical form of a filter is one for all its rearrangements, and filters of one form
    are true, false and unknown on the same rows, texts read up to normalization. -/
theorem filterPlain_decides (faithful : Faithful py.dumps) (hashed : Faithful (childHash py)) :
    (∀ f g path path',
      Rearranged (fun a b => Respelled py.lower (py.nfc a) (py.nfc b)) f g →
        (filterPlain py path f).toOption = (filterPlain py path' g).toOption) ∧
    ∀ f g path path' t, filterPlain py path f = .ok t → filterPlain py path' g = .ok t →
      ∀ (V : Type) (r : Reading V),
        (r.normalized py).truth f = (r.normalized py).truth g := by
  constructor
  · intro f g path path' h
    rw [toOption_filterPlain hashed, toOption_filterPlain hashed,
      canonical_rearranged faithful hashed h]
  · intro f g path path' t hf hg V r
    have hc := toOption_filterPlain hashed path f
    have hd := toOption_filterPlain hashed path' g
    rw [hf] at hc
    rw [hg] at hd
    obtain ⟨c, hfc, hct⟩ := Option.map_eq_some_iff.mp hc.symm
    obtain ⟨d, hgd, hdt⟩ := Option.map_eq_some_iff.mp hd.symm
    have same : c = d := FilterNode.plain_injective (hct.trans hdt.symm)
    rw [truth_canonical faithful hfc, truth_canonical faithful hgd, same]

def composeLetters : List Char → List Char
  | 'j' :: '\u030C' :: cs => '\u01F0' :: composeLetters cs
  | 'e' :: '\u0301' :: cs => '\u00E9' :: composeLetters cs
  | c :: cs => c :: composeLetters cs
  | [] => []

/-- Texts keep their order by digest, and texts of one digest are told apart. -/
def letters : Primitives where
  nfc s := String.ofList (composeLetters s.toList)
  lower s := String.ofList (s.toList.map Char.toLower)
  dumps := Document.text
  sha256 s := Sha256.hexdigest (s.toList.map Char.toNat) ++ s

theorem faithful_childHash_letters : Faithful (childHash letters) := by
  intro a b _ _ h
  have texts := congrArg String.toList h
  simp only [childHash, letters, String.toList_append] at texts
  have lengths (s t : String) : (Sha256.hexdigest (s.toList.map Char.toNat)).toList.length =
      (Sha256.hexdigest (t.toList.map Char.toNat)).toList.length := by
    simp only [String.length_toList, Sha256.length_hexdigest]
  have tails := (List.append_inj texts (lengths _ _)).2
  exact Document.text_injective (String.toList_injective tails)

def statusIs (left value : String) : FilterPredicate :=
  ⟨.equal, left, some ⟨.string, value⟩, none, none⟩

def amountIn (values : List String) : FilterPredicate :=
  ⟨.isIn, "bank::public.txn.amount", none, none, some (values.map fun v => ⟨.integer, v⟩)⟩

def closedIsNull (left : String) : FilterPredicate := ⟨.isNull, left, none, none, none⟩

/-- `(status = 'open' and amount in (1, 2)) and closed is null`. -/
def nestedFilter : FilterNode :=
  .bool .and
    [.bool .and
        [.predicate (statusIs "bank::public.txn.status" "open"), .predicate (amountIn ["1", "2"])],
      .predicate (closedIsNull "bank::public.txn.closed")]

/-- `amount in (2, 1, 2) and STATUS = 'open' and closed is null`. -/
def flatFilter : FilterNode :=
  .bool .and
    [.predicate (amountIn ["2", "1", "2"]),
      .predicate (statusIs "bank::public.txn.STATUS " "open"),
      .predicate (closedIsNull "bank::public.txn.closed")]

theorem nested_rearranged_flat :
    Rearranged (fun a b => Respelled letters.lower (letters.nfc a) (letters.nfc b))
      nestedFilter flatFilter := by
  let amounts : FilterNode := .predicate (amountIn ["1", "2"])
  let amounts' : FilterNode := .predicate (amountIn ["2", "1", "2"])
  let status : FilterNode := .predicate (statusIs "bank::public.txn.status" "open")
  let closed : FilterNode := .predicate (closedIsNull "bank::public.txn.closed")
  have hstatus : Respelled letters.lower (letters.nfc "bank::public.txn.status")
      (letters.nfc "bank::public.txn.STATUS ") := by
    refine ⟨⟨"bank", "public", "txn", some "status"⟩, ⟨"bank", "public", "txn", some "STATUS "⟩,
      ?_, ?_, ⟨rfl, Iff.rfl⟩, ⟨rfl, Iff.rfl⟩, ⟨rfl, Iff.rfl⟩, .some ⟨?_, ?_⟩⟩ <;> decide +kernel
  have hmembers : ∀ m, m ∈ (["1", "2"].map fun v => (⟨.integer, v⟩ : TypedLiteral)) ↔
      m ∈ ["2", "1", "2"].map fun v => (⟨.integer, v⟩ : TypedLiteral) := by
    intro m
    simp only [List.map_cons, List.map_nil, List.mem_cons, List.not_mem_nil, or_false]
    tauto
  refine .trans (.nest (by simp) [] [status, amounts] [closed]) ?_
  refine .trans (.permute (by simp) (List.Perm.swap amounts status [closed])) ?_
  refine .trans (.child .and [] [status, closed] (.members (amountIn []) hmembers)) ?_
  exact .child .and [amounts'] [closed]
    (.respell (statusIs "" "open") hstatus)

theorem filterPlain_decides_nested :
    (filterPlain letters "a.filter" nestedFilter).toOption =
        (filterPlain letters "b.filter" flatFilter).toOption ∧
      ∃ t, filterPlain letters "a.filter" nestedFilter = .ok t ∧
        ∀ (V : Type) (r : Reading V),
          (r.normalized letters).truth nestedFilter = (r.normalized letters).truth flatFilter := by
  have both := filterPlain_decides Document.text_faithful faithful_childHash_letters
  have same := both.1 nestedFilter flatFilter "a.filter" "b.filter" nested_rearranged_flat
  have accepted : (filterPlain letters "a.filter" nestedFilter).toOption.isSome = true := by
    decide +kernel
  obtain ⟨t, ht⟩ := isSome_toOption.mp accepted
  have ht' : filterPlain letters "b.filter" flatFilter = .ok t :=
    toOption_eq_some.mp (same ▸ toOption_eq_some.mpr ht)
  exact ⟨same, t, ht, both.2 _ _ _ _ t ht ht'⟩

/-- The filter passes the checks of an expression over that table. -/
def passes (node : FilterNode) : Bool :=
  (checkFilterNode "filter" 1 "bank::public.txn" (fun _ => none) node).toOption.isSome

def Reading.refsNormalized {V : Type} (py : Primitives) (r : Reading V) : Reading V :=
  { r with cell := fun ref => r.cell ((normalRef py ref).getD ref) }

/-- A row with one composed letter in every cell, texts compared as they are. -/
def letterRow : Reading String where
  cell _ := some "\u00E9"
  param _ := none
  literal _ value := value
  compare op x y :=
    match op with
    | .equal => some (x = y)
    | _ => none

/-- Composition comes before folding, so the two cases of a letter with an accent can have two
    forms; and it makes one form of two literals that differ. -/
theorem composed_before_folded :
    (∃ f g, passes f ∧ passes g ∧ Rearranged (Respelled letters.lower) f g ∧
      (filterPlain letters "filter" f).toOption ≠ (filterPlain letters "filter" g).toOption) ∧
    ∃ f g t, passes f ∧ passes g ∧ filterPlain letters "filter" f = .ok t ∧
      filterPlain letters "filter" g = .ok t ∧
        (letterRow.refsNormalized letters).truth f ≠
          (letterRow.refsNormalized letters).truth g := by
  constructor
  · refine ⟨.predicate (closedIsNull "bank::public.txn.J\u030C"),
      .predicate (closedIsNull "bank::public.txn.j\u030C"), by decide +kernel, by decide +kernel,
      .respell (closedIsNull "") ?_, ?_⟩
    · refine ⟨⟨"bank", "public", "txn", some "J\u030C"⟩, ⟨"bank", "public", "txn", some "j\u030C"⟩,
        ?_, ?_, ⟨rfl, Iff.rfl⟩, ⟨rfl, Iff.rfl⟩, ⟨rfl, Iff.rfl⟩, .some ⟨?_, ?_⟩⟩ <;> decide +kernel
    · have differ : canonicalPredicate letters (closedIsNull "bank::public.txn.J\u030C") ≠
          canonicalPredicate letters (closedIsNull "bank::public.txn.j\u030C") := by
        decide +kernel
      intro h
      simp only [filterPlain, toOption_predicatePlain] at h
      exact differ (Option.map_injective FilterPredicate.plain_injective h)
  · have same : canonicalPredicate letters (statusIs "bank::public.txn.name" "\u00E9") =
        canonicalPredicate letters (statusIs "bank::public.txn.name" "e\u0301") := by
      decide +kernel
    have accepted : (filterPlain letters "filter"
        (.predicate (statusIs "bank::public.txn.name" "\u00E9"))).toOption.isSome = true := by
      decide +kernel
    obtain ⟨t, ht⟩ := isSome_toOption.mp accepted
    refine ⟨.predicate (statusIs "bank::public.txn.name" "\u00E9"),
      .predicate (statusIs "bank::public.txn.name" "e\u0301"), t, by decide +kernel,
      by decide +kernel, ht, ?_, by decide +kernel⟩
    refine toOption_eq_some.mp ?_
    rw [filterPlain, toOption_predicatePlain, ← same, ← toOption_predicatePlain _ "filter"]
    exact toOption_eq_some.mpr ht

end FeatureGen.Formula
