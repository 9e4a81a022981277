import FeatureGen.Materialize.FilterRendering

/-! # A rendered filter means what its tree means

The text of a condition is read as one expression, with or without the bracket pair around
all of it, and in every row Spark makes of this expression what the tree says of the row.
-/

namespace FeatureGen.Materialize

open Checks Formula Overlay Python

variable {py : LiteralPrimitives} {V : Type}

def columnExpr (s : String) : Expr := .call (.attr (.name "F") "col") [.text s]

def columnTokens (s : String) : List Token :=
  [.name "F", .mark .dot, .name "col", .mark .openRound, .text s, .mark .closeRound]

theorem columnExpr_closed (s : String) : Closed (columnTokens s) (columnExpr s) :=
  ((Closed.name "F").attr "col").call (Closed.text s).whole

@[simp] theorem toList_pyRepr (s : String) : (pyRepr py s).toList = repr py.printable s := by
  rw [pyRepr, String.toList_ofList]

theorem scans_quoted (py : LiteralPrimitives) {before : List Char} {ts : List Token}
    (opening : Scans before ts)
    (s : String) :
    Scans (before ++ repr py.printable s ++ [')']) (ts ++ [.text s, .mark .closeRound]) := by
  have text : Scans (repr py.printable s ++ [')']) ([.text s] ++ [.mark .closeRound]) :=
    (spells_repr py.printable s).close (by simp [closers]) fun _ => rfl
  rw [List.append_assoc]
  exact opening.append text

theorem scans_column (py : LiteralPrimitives) (s : String) :
    Scans ("F.col(".toList ++ repr py.printable s ++ [')']) (columnTokens s) :=
  have opening : Scans "F.col(".toList [.name "F", .mark .dot, .name "col", .mark .openRound] :=
    .of_foldl fun _ => rfl
  scans_quoted py opening s

@[simp] theorem column_columnExpr (row : SparkRow V) (s : String) :
    row.column (columnExpr s) = some (row.col s) := by
  simp [columnExpr, SparkRow.column]

theorem columnName_of_columnOf {ref what column : String} (h : columnOf ref what = .ok column) :
    columnName ref = some column := by
  unfold columnOf at h
  cases parsed : parseRef ref with
  | error e =>
      rw [parsed] at h
      cases h
  | ok parts =>
      rw [parsed] at h
      rw [columnName, parsed]
      cases named : parts.column with
      | none =>
          simp only [named] at h
          cases h
      | some name =>
          simp only [named] at h
          cases h
          exact named

/-- The text is read as an expression whose value is the literal's. -/
def SpelledLiteral (py : LiteralPrimitives) (literal : TypedLiteral) (text : String)
    (ts : List Token) (e : Expr) : Prop :=
  Spells text.toList ts ∧ Unary ts e ∧ ∀ (V : Type) (row : SparkRow V),
    row.literal py e = some ((row.reading py).literal literal.type literal.value)

theorem spells_word (w : String) (run : ∀ out, w.toList.foldlM advance ⟨out, .idle⟩ =
      some ⟨out, .word w.toList⟩) (token : wordToken w.toList = some (.name w)) :
    Spells w.toList [.name w] := by
  intro out
  refine ⟨_, run out, ?_, ?_⟩
  · simp only [finish, token]
    rfl
  · intro c hc
    simp only [closers, List.mem_cons, List.not_mem_nil, or_false] at hc
    rcases hc with rfl | rfl | rfl <;> simp only [advance, token] <;> rfl

theorem spelled_integer {value : String} {n : ℤ} (h : py.int value = .ok n) :
    ∃ e, SpelledLiteral py ⟨.integer, value⟩ (String.ofList (reprInt n)) (intTokens n) e := by
  have spells : Spells (String.ofList (reprInt n)).toList (intTokens n) := by
    rw [String.toList_ofList]
    exact spells_reprInt n
  by_cases negative : n < 0
  · refine ⟨.neg (.number n.natAbs), spells, ?_, fun V row => ?_⟩
    · rw [intTokens, if_pos negative]
      exact (Closed.number _).unary.neg
    · have value : -(n.natAbs : ℤ) = n := by omega
      simp only [SparkRow.literal, SparkRow.reading, h, value]
  · refine ⟨.number n.natAbs, spells, ?_, fun V row => ?_⟩
    · rw [intTokens, if_neg negative]
      exact (Closed.number _).unary
    · have value : (n.natAbs : ℤ) = n := by omega
      simp only [SparkRow.literal, SparkRow.reading, h, value]

theorem spelled_filterLiteral {literal : TypedLiteral} {path text : String}
    (h : filterLiteral py literal path = .ok text) :
    ∃ ts e, SpelledLiteral py literal text ts e := by
  obtain ⟨type, value⟩ := literal
  cases type with
  | string =>
      cases h
      refine ⟨[.text value], .text value, ?_, (Closed.text value).unary, fun V row => rfl⟩
      rw [toList_pyRepr]
      exact spells_repr py.printable value
  | integer =>
      simp only [filterLiteral] at h
      cases read : py.int value with
      | error e =>
          rw [read] at h
          cases h
      | ok n =>
          rw [read] at h
          cases h
          obtain ⟨e, spelled⟩ := spelled_integer read
          exact ⟨_, e, spelled⟩
  | decimal =>
      simp only [filterLiteral] at h
      cases read : py.decimal value with
      | error e =>
          rw [read] at h
          cases h
      | ok u =>
          rw [read] at h
          cases h
          refine ⟨[.name "Decimal", .mark .openRound, .text value, .mark .closeRound],
            .call (.name "Decimal") [.text value], ?_,
            ((Closed.name "Decimal").call (Closed.text value).whole).unary, fun V row => ?_⟩
          · have scans : Scans ("Decimal(".toList ++ repr py.printable value ++ [')'])
                ([.name "Decimal", .mark .openRound] ++ [.text value, .mark .closeRound]) :=
              scans_quoted py (.of_foldl fun _ => rfl) value
            rw [String.toList_append, String.toList_append, toList_pyRepr]
            exact scans.spells
          · simp [SparkRow.literal, SparkRow.reading, read, Except.toOption]
  | boolean =>
      simp only [filterLiteral, check_bind_eq_ok, ensure_eq_ok] at h
      obtain ⟨canonical, h⟩ := h
      cases h
      rcases canonical with rfl | rfl
      · exact ⟨_, .name "True", spells_word "True" (fun _ => rfl) (by decide),
          (Closed.name "True").unary, fun V row => rfl⟩
      · exact ⟨_, .name "False", spells_word "False" (fun _ => rfl) (by decide),
          (Closed.name "False").unary, fun V row => rfl⟩
  | date =>
      simp only [filterLiteral] at h
      cases read : py.fromIsoFormat value with
      | error e =>
          rw [read] at h
          cases h
      | ok u =>
          rw [read] at h
          cases h
          refine ⟨[.name "date", .mark .dot, .name "fromisoformat", .mark .openRound, .text value,
              .mark .closeRound], .call (.attr (.name "date") "fromisoformat") [.text value], ?_,
            (((Closed.name "date").attr "fromisoformat").call (Closed.text value).whole).unary,
            fun V row => ?_⟩
          · have scans : Scans ("date.fromisoformat(".toList ++ repr py.printable value ++ [')'])
                ([.name "date", .mark .dot, .name "fromisoformat", .mark .openRound] ++
                  [.text value, .mark .closeRound]) :=
              scans_quoted py (.of_foldl fun _ => rfl) value
            rw [String.toList_append, String.toList_append, toList_pyRepr]
            exact scans.spells
          · simp [SparkRow.literal, SparkRow.reading, read, Except.toOption]

theorem spelled_filterMembers {members : List TypedLiteral} {path : String} {i : ℕ}
    {rendered : List String} (h : filterMembers py path i members = .ok rendered) :
    ∃ tss es, List.Forall₂ Spells (rendered.map String.toList) tss ∧ List.Forall₂ Unary tss es ∧
      ∀ (V : Type) (row : SparkRow V), es.mapM (row.literal py) =
        some (members.map fun literal => (row.reading py).literal literal.type literal.value) := by
  induction members generalizing i rendered with
  | nil =>
      cases h
      exact ⟨[], [], .nil, .nil, fun V row => rfl⟩
  | cons literal members ih =>
      rw [filterMembers] at h
      obtain ⟨member, hmember, h⟩ := bind_eq_ok.mp h
      obtain ⟨rest, hrest, h⟩ := bind_eq_ok.mp h
      cases h
      obtain ⟨ts, e, spells, unary, value⟩ := spelled_filterLiteral hmember
      obtain ⟨tss, es, spelled, unaries, values⟩ := ih hrest
      refine ⟨ts :: tss, e :: es, .cons spells spelled, .cons unary unaries, fun V row => ?_⟩
      rw [List.mapM_cons, value V row, values V row]
      rfl

/-- How a condition is written: as a call on a column, or in brackets of its own. -/
inductive Rendered (condition : String) (e : Expr) : Prop where
  | call {ts : List Token} (starts : condition.toList.head? = some 'F')
      (scans : Scans condition.toList ts) (closed : Closed ts e)
  | bracketed {inner : List Char} {ts : List Token}
      (text : condition.toList = '(' :: inner ++ [')']) (spells : Spells inner ts)
      (whole : Whole ts e)

/-- The first and the last character are brackets of the expression and partners: between them
    every bracket has its partner. -/
def Partners (condition : String) : Prop :=
  ∃ inner, tokenize condition.toList =
    some (.mark .openRound :: inner ++ [.mark .closeRound]) ∧ Balanced inner

theorem Rendered.closed {condition : String} {e : Expr} (h : Rendered condition e) :
    ∃ ts, Scans condition.toList ts ∧ Closed ts e := by
  cases h with
  | call _ scans closed => exact ⟨_, scans, closed⟩
  | bracketed text spells whole =>
      have opening : Scans ['('] [.mark .openRound] := fun _ => rfl
      have closing := spells.close (c := ')') (by simp [closers]) fun _ => rfl
      refine ⟨_, ?_, whole.paren⟩
      rw [text]
      exact opening.append closing

theorem Rendered.read_unwrapped {condition : String} {e : Expr} (h : Rendered condition e) :
    Python.read (unwrapped condition).toList = some e ∧
      (unwrapped condition ≠ condition → Partners condition) := by
  obtain ⟨ts, scans, closed⟩ := h.closed
  have all : Python.read condition.toList = some e := by
    rw [Python.read, scans.spells.tokenize]
    exact closed.whole.parse
  cases h with
  | call starts _ _ =>
      have kept : unwrapped condition = condition := by
        rw [unwrapped, if_pos (.inl (by rw [starts]; decide))]
      rw [kept]
      exact ⟨all, fun changed => absurd rfl changed⟩
  | bracketed text spells whole =>
      have opening : Scans ['('] [.mark .openRound] := fun _ => rfl
      have closing := spells.close (c := ')') (by simp [closers]) fun _ => rfl
      have partners : Partners condition := by
        refine ⟨_, ?_, whole.balanced⟩
        rw [text]
        exact (opening.append closing).spells.tokenize
      refine ⟨?_, fun _ => partners⟩
      simp only [unwrapped]
      split
      · exact all
      · split
        · rw [String.toList_ofList, text, List.cons_append, List.drop_one, List.tail_cons,
            List.dropLast_concat, Python.read, spells.tokenize]
          exact whole.parse
        · exact all

/-- The expression as which the condition is read says in every row what the tree says. -/
def Refines (py : LiteralPrimitives) (condition : String) (node : FilterNode) : Prop :=
  ∃ e, Rendered condition e ∧ ∀ (V : Type) (row : SparkRow V),
    row.condition py e = some ((row.reading py).truth node)

theorem Rendered.invert {condition : String} {e : Expr} (h : Rendered condition e) :
    Rendered ("(~" ++ condition ++ ")") (.invert e) := by
  obtain ⟨ts, scans, closed⟩ := h.closed
  have tilde : Scans ['~'] [.mark .tilde] := fun _ => rfl
  have text : ("(~" ++ condition ++ ")").toList = '(' :: '~' :: condition.toList ++ [')'] := by
    simp [String.toList_append]
  exact .bracketed text (tilde.append scans).spells closed.unary.invert.whole

theorem ordered_equal : ordered .equal = holds .eq := by
  funext o
  cases o <;> rfl

theorem comparison_scans {op : FilterPredicateOp} {text : String}
    (h : comparisons op = some text) :
    ∃ c, Scans (' ' :: text.toList ++ [' ']) [.mark (.compare c)] ∧ ordered op = holds c := by
  cases op with
  | equal =>
      cases h
      exact ⟨.eq, fun _ => rfl, by funext o; cases o <;> rfl⟩
  | notEqual =>
      cases h
      exact ⟨.ne, fun _ => rfl, by funext o; cases o <;> rfl⟩
  | greaterThan =>
      cases h
      exact ⟨.gt, fun _ => rfl, by funext o; cases o <;> rfl⟩
  | greaterOrEqual =>
      cases h
      exact ⟨.ge, fun _ => rfl, by funext o; cases o <;> rfl⟩
  | lessThan =>
      cases h
      exact ⟨.lt, fun _ => rfl, by funext o; cases o <;> rfl⟩
  | lessOrEqual =>
      cases h
      exact ⟨.le, fun _ => rfl, by funext o; cases o <;> rfl⟩
  | _ => cases h

theorem predicateTruth_comparison {r : Formula.Reading V} {node : FilterPredicate} {text : String}
    (h : comparisons node.op = some text) :
    r.predicateTruth node = r.compared node.op (r.cell node.left) (r.right node) := by
  unfold Formula.Reading.predicateTruth
  cases op : node.op <;> rw [op] at h <;> first | rfl | cases h

theorem refines_comparison {node : FilterPredicate} {column path condition : String}
    (named : columnName node.left = some column) (test : nullTests node.op = none)
    (noSet : node.op ∉ setTests) (h : filterComparison py node column path = .ok condition) :
    Refines py condition (.predicate node) := by
  have mark : ∃ text, comparisons node.op = some text := by
    cases op : node.op <;> rw [op] at test noSet <;>
      first | exact ⟨_, rfl⟩ | exact absurd (by decide) noSet | cases test
  obtain ⟨text, mark⟩ := mark
  obtain ⟨c, operator, same⟩ := comparison_scans mark
  unfold filterComparison at h
  cases right : node.rightLiteral with
  | none =>
      simp only [right] at h
      cases h
  | some literal =>
      simp only [right, mark, Option.getD_some] at h
      obtain ⟨written, hwritten, h⟩ := bind_eq_ok.mp h
      cases h
      obtain ⟨ts, e, spells, unary, value⟩ := spelled_filterLiteral hwritten
      refine ⟨.compare c (columnExpr column) e, ?_, fun V row => ?_⟩
      · have whole := Whole.compare c (columnExpr_closed column) unary
        have inner := ((scans_column py column).append operator).append_spells spells
        rw [List.append_assoc] at inner
        refine .bracketed ?_ inner whole
        simp [String.toList_append]
      · rw [SparkRow.condition, column_columnExpr, value V row]
        show some _ = some ((row.reading py).predicateTruth node)
        rw [predicateTruth_comparison mark, Formula.Reading.right, right]
        simp [SparkRow.compared, Formula.Reading.compared, Formula.Reading.literalValue,
          SparkRow.reading, named, same]

theorem rendered_call {column condition : String} {rest : List Char} {us : List Token}
    {e : Expr} (text : condition.toList =
      "F.col(".toList ++ repr py.printable column ++ [')'] ++ rest)
    (scans : Scans rest us) (closed : Closed (columnTokens column ++ us) e) :
    Rendered condition e := by
  have starts : condition.toList.head? = some 'F' := by
    rw [text]
    rfl
  have all : Scans condition.toList (columnTokens column ++ us) := by
    rw [text]
    exact (scans_column py column).append scans
  exact .call starts all closed

theorem refines_nullTest {node : FilterPredicate} {column test : String}
    (named : columnName node.left = some column) (h : nullTests node.op = some test) :
    Refines py ("F.col(" ++ pyRepr py column ++ ")." ++ test ++ "()") (.predicate node) := by
  have suffix : Scans ('.' :: test.toList ++ ['(', ')'])
      [.mark .dot, .name test, .mark .openRound, .mark .closeRound] := by
    cases op : node.op <;> rw [op] at h <;> cases h <;> exact .of_foldl fun _ => rfl
  have text : ("F.col(" ++ pyRepr py column ++ ")." ++ test ++ "()").toList =
      "F.col(".toList ++ repr py.printable column ++ [')'] ++
        ('.' :: test.toList ++ ['(', ')']) := by
    simp [String.toList_append]
  have closed : Closed (columnTokens column ++
      [.mark .dot, .name test, .mark .openRound, .mark .closeRound])
      (.call (.attr (columnExpr column) test) []) :=
    ((columnExpr_closed column).attr test).callEmpty
  refine ⟨_, rendered_call text suffix closed, fun V row => ?_⟩
  rw [SparkRow.condition, column_columnExpr]
  show row.test py (row.col column) test [] = some ((row.reading py).predicateTruth node)
  cases op : node.op <;> rw [op] at h <;> cases h <;>
    simp [SparkRow.test, Formula.Reading.predicateTruth, op, SparkRow.reading, named]

theorem rendered_isin (py : LiteralPrimitives) (column : String) {rendered : List String}
    {tss : List (List Token)} {es : List Expr} (nonempty : rendered ≠ [])
    (spelled : List.Forall₂ Spells (rendered.map String.toList) tss)
    (unary : List.Forall₂ Unary tss es) :
    Rendered ("F.col(" ++ pyRepr py column ++ ").isin([" ++ String.intercalate ", " rendered ++
      "])") (.call (.attr (columnExpr column) "isin") [.list es]) := by
  have comma {cs : List Char} {ts : List Token} (h : Spells cs ts) :
      Scans (cs ++ ", ".toList) (ts ++ [.mark .comma]) := by
    have mark : Scans (cs ++ [',']) (ts ++ [.mark .comma]) :=
      h.close (by simp [closers]) fun _ => rfl
    have blank : Scans [' '] [] := .of_foldl fun _ => rfl
    have both := mark.append blank
    rwa [List.append_assoc, List.append_nil] at both
  have members := spells_intercalate (fun h => h) comma spelled (by simpa using nonempty)
  have opening : Scans ".isin([".toList
      [.mark .dot, .name "isin", .mark .openRound, .mark .openSquare] := .of_foldl fun _ => rfl
  have bracket : Scans [']'] [.mark .closeSquare] := fun _ => rfl
  have square := members.close (by simp [closers]) bracket
  have round : Scans [')'] [.mark .closeRound] := fun _ => rfl
  cases unary with
  | nil =>
      cases rendered with
      | nil => exact absurd rfl nonempty
      | cons text rendered => cases spelled
  | cons first rest =>
      have closed := ((columnExpr_closed column).attr "isin").call
        (Closed.list first.whole (rest.imp fun _ _ => Unary.whole)).whole
      have text : ("F.col(" ++ pyRepr py column ++ ").isin([" ++
          String.intercalate ", " rendered ++ "])").toList =
          "F.col(".toList ++ repr py.printable column ++ [')'] ++ (".isin([".toList ++
            (", ".toList.intercalate (rendered.map String.toList) ++ [']']) ++ [')']) := by
        simp [String.toList_append, String.toList_intercalate]
      refine rendered_call text ((opening.append square).append round) ?_
      simpa only [List.append_assoc, List.cons_append, List.nil_append] using closed

theorem test_isin (row : SparkRow V) (value : Option V) {es : List Expr} {values : List V}
    (h : es.mapM (row.literal py) = some values) :
    row.test py value "isin" [.list es] =
      some (combine true (values.map fun b => row.compared .eq value b)) := by
  rw [SparkRow.test, if_pos rfl, h]
  rfl

theorem refines_membership {node : FilterPredicate} {column path condition : String}
    (named : columnName node.left = some column) (set : node.op ∈ setTests)
    (h : filterMembership py node column path = .ok condition) :
    Refines py condition (.predicate node) := by
  simp only [filterMembership, check_bind_eq_ok, ensure_eq_ok] at h
  obtain ⟨nonempty, h⟩ := h
  obtain ⟨rendered, hrendered, h⟩ := bind_eq_ok.mp h
  obtain ⟨tss, es, spelled, unary, values⟩ := spelled_filterMembers hrendered
  have written : rendered ≠ [] := by
    rintro rfl
    cases members : node.rightSet.getD [] with
    | nil => exact nonempty members
    | cons literal rest =>
        rw [members, filterMembers] at hrendered
        obtain ⟨member, _, hrendered⟩ := bind_eq_ok.mp hrendered
        obtain ⟨others, _, hrendered⟩ := bind_eq_ok.mp hrendered
        cases hrendered
  have call := rendered_isin py column written spelled unary
  have among (V : Type) (row : SparkRow V) :
      row.condition py (.call (.attr (columnExpr column) "isin") [.list es]) =
        some ((row.reading py).among node) := by
    rw [SparkRow.condition, column_columnExpr, Option.bind_some, test_isin row _ (values V row),
      List.map_map, Formula.Reading.among]
    congr 2
    apply List.map_congr_left
    intro literal _
    simp [SparkRow.compared, Formula.Reading.compared, Formula.Reading.literalValue,
      SparkRow.reading, named, ordered_equal]
  cases op : node.op with
  | isIn =>
      rw [op, if_pos rfl] at h
      cases h
      refine ⟨_, call, fun V row => ?_⟩
      rw [among V row, Formula.Reading.truth, Formula.Reading.predicateTruth, op]
  | notIn =>
      rw [op, if_neg (by decide)] at h
      cases h
      refine ⟨_, call.invert, fun V row => ?_⟩
      rw [SparkRow.condition, among V row, Formula.Reading.truth, Formula.Reading.predicateTruth,
        op]
      rfl
  | _ =>
      rw [op] at set
      exact absurd set (by decide)

theorem refines_predicate {node : FilterPredicate} {readSet : List String}
    {path condition : String} (h : filterPredicate py node readSet path = .ok condition) :
    Refines py condition (.predicate node) := by
  unfold filterPredicate at h
  obtain ⟨column, hcolumn, h⟩ := bind_eq_ok.mp h
  obtain ⟨_, h⟩ := check_bind_eq_ok.mp h
  unfold readColumn at hcolumn
  obtain ⟨read, hread, hcolumn⟩ := bind_eq_ok.mp hcolumn
  obtain ⟨_, hcolumn⟩ := check_bind_eq_ok.mp hcolumn
  cases hcolumn
  have named := columnName_of_columnOf hread
  unfold filterTest at h
  cases test : nullTests node.op with
  | some method =>
      simp only [test] at h
      cases h
      exact refines_nullTest named test
  | none =>
      simp only [test] at h
      split at h
      · rename_i set
        exact refines_membership named set h
      · rename_i set
        exact refines_comparison named test set h

theorem combine_append (zero : Bool) (ts : List Truth) (t : Truth) :
    combine zero [combine zero ts, t] = combine zero (ts ++ [t]) := by
  have joined := combine_flatMap zero id [ts, [t]]
  simp only [List.flatMap_cons, List.flatMap_nil, List.map_cons, List.map_nil, id,
    List.append_nil, combine_singleton] at joined
  exact joined.symm

theorem condition_chain (row : SparkRow V) (op : Binary) {es : List Expr} {ts : List Truth}
    (values : es.mapM (row.condition py) = some ts) {e : Expr} {before : List Truth}
    (first : row.condition py e = some (combine (op = .either) before)) :
    row.condition py (es.foldl (.binary op) e) =
      some (combine (op = .either) (before ++ ts)) := by
  induction es generalizing e before ts with
  | nil =>
      rw [List.mapM_nil] at values
      cases values
      rw [List.append_nil]
      exact first
  | cons next es ih =>
      rw [List.mapM_cons] at values
      obtain ⟨t, hnext, values⟩ := Option.bind_eq_some_iff.mp values
      obtain ⟨rest, hrest, values⟩ := Option.bind_eq_some_iff.mp values
      cases values
      have joined : row.condition py (.binary op e next) =
          some (combine (op = .either) (before ++ [t])) := by
        rw [SparkRow.condition, first, hnext, ← combine_append]
        rfl
      rw [List.foldl_cons, ih hrest joined, List.append_assoc, List.singleton_append]

theorem condition_group (row : SparkRow V) (op : Binary) {e : Expr} {es : List Expr}
    {all : List Truth} (truths : (e :: es).mapM (row.condition py) = some all) :
    row.condition py (es.foldl (.binary op) e) = some (combine (op = .either) all) := by
  rw [List.mapM_cons] at truths
  obtain ⟨t, ht, truths⟩ := Option.bind_eq_some_iff.mp truths
  obtain ⟨ts, hts, truths⟩ := Option.bind_eq_some_iff.mp truths
  cases truths
  have first : row.condition py e = some (combine (op = .either) [t]) := by
    rw [ht, combine_singleton]
  exact condition_chain row op hts first

theorem operands {rendered : List String} {es : List Expr}
    (h : List.Forall₂ Rendered rendered es) :
    ∃ tss, List.Forall₂ Scans (rendered.map String.toList) tss ∧ List.Forall₂ Closed tss es := by
  induction h with
  | nil => exact ⟨[], .nil, .nil⟩
  | cons first _ ih =>
      obtain ⟨ts, scans, closed⟩ := first.closed
      obtain ⟨tss, allScans, allClosed⟩ := ih
      exact ⟨ts :: tss, .cons scans allScans, .cons closed allClosed⟩

theorem rendered_chain (op : Binary) {sep : String}
    (mark : Scans sep.toList [.mark (.binary op)]) {text : String} {rendered : List String}
    {e : Expr} {es : List Expr} (h : List.Forall₂ Rendered (text :: rendered) (e :: es)) :
    Rendered ("(" ++ String.intercalate sep (text :: rendered) ++ ")")
      (es.foldl (.binary op) e) := by
  obtain ⟨tss, scans, closed⟩ := operands h
  cases closed with
  | cons first rest =>
      have followed {cs : List Char} {ts : List Token} (hcs : Scans cs ts) :
          Scans (cs ++ sep.toList) (ts ++ [.mark (.binary op)]) := hcs.append mark
      have inner := spells_intercalate Scans.spells followed scans (by simp)
      refine .bracketed ?_ inner (Whole.chain op first rest)
      simp [String.toList_append, String.toList_intercalate]

theorem refines_children {readSet : List String} {children : List FilterNode}
    (each : ∀ child ∈ children, ∀ path condition,
      filterCondition py readSet path child = .ok condition → Refines py condition child)
    {path : String} {i : ℕ} {rendered : List String}
    (h : childConditions py readSet path i children = .ok rendered) :
    ∃ es, List.Forall₂ Rendered rendered es ∧ ∀ (V : Type) (row : SparkRow V),
      es.mapM (row.condition py) = some ((row.reading py).truths children) := by
  induction children generalizing i rendered with
  | nil =>
      cases h
      exact ⟨[], .nil, fun V row => rfl⟩
  | cons child children ih =>
      rw [childConditions] at h
      obtain ⟨condition, hcondition, h⟩ := bind_eq_ok.mp h
      obtain ⟨conditions, hconditions, h⟩ := bind_eq_ok.mp h
      cases h
      obtain ⟨e, text, truth⟩ := each child List.mem_cons_self _ _ hcondition
      obtain ⟨es, texts, truths⟩ :=
        ih (fun c hc => each c (List.mem_cons_of_mem _ hc)) hconditions
      refine ⟨e :: es, .cons text texts, fun V row => ?_⟩
      rw [List.mapM_cons, truth V row, truths V row]
      rfl

/-- `_filter_condition`, of any tree: by induction over the tree, each connective over the
    conditions of its children. -/
theorem refines_filterCondition (readSet : List String) (node : FilterNode) (path : String)
    (condition : String) (h : filterCondition py readSet path node = .ok condition) :
    Refines py condition node := by
  induction node generalizing path condition with
  | predicate node =>
      rw [filterCondition] at h
      exact refines_predicate h
  | bool op children ih =>
      rw [filterCondition] at h
      obtain ⟨nonempty, h⟩ := check_bind_eq_ok.mp h
      obtain ⟨rendered, hrendered, h⟩ := bind_eq_ok.mp h
      obtain ⟨es, texts, truths⟩ := refines_children ih hrendered
      cases texts with
      | nil =>
          cases children with
          | nil => cases nonempty
          | cons child children =>
              have none := truths Unit ⟨fun _ => none, fun _ => (), fun _ => (), fun _ => (),
                fun _ => (), fun _ => (), fun _ _ => none⟩
              cases none
      | @cons text e rendered es first rest =>
          have group (zero : Binary) (V : Type) (row : SparkRow V) :=
            condition_group row zero (truths V row)
          cases op with
          | and =>
              cases h
              have mark : Scans " & ".toList [.mark (.binary .both)] := fun _ => rfl
              exact ⟨_, rendered_chain .both mark (.cons first rest), group .both⟩
          | or =>
              cases h
              have mark : Scans " | ".toList [.mark (.binary .either)] := fun _ => rfl
              exact ⟨_, rendered_chain .either mark (.cons first rest), group .either⟩
          | not =>
              cases rest with
              | nil =>
                  cases h
                  refine ⟨_, first.invert, fun V row => ?_⟩
                  have one := group .both V row
                  rw [List.foldl_nil] at one
                  rw [SparkRow.condition, one]
                  rfl
              | cons second rest =>
                  rw [joinConditions] at h
                  · cases h
                  · simp

/-- A condition that the renderer writes for a tree is read, without its bracket pair where
    `_unwrapped` removes one, as an expression that is true in a row exactly if the tree is, and
    a pair it removes is one of partners. -/
theorem filter_rendering_preserves_meaning (py : LiteralPrimitives) (readSet : List String)
    (node : FilterNode) (path condition : String)
    (h : filterCondition py readSet path node = .ok condition) :
    (∃ e, Python.read (unwrapped condition).toList = some e ∧
      ∀ (V : Type) (row : SparkRow V),
        row.condition py e = some ((row.reading py).truth node)) ∧
    (unwrapped condition ≠ condition → Partners condition) := by
  obtain ⟨e, rendered, truth⟩ := refines_filterCondition readSet node path condition h
  obtain ⟨read, partners⟩ := rendered.read_unwrapped
  exact ⟨⟨e, read, truth⟩, partners⟩

/-- Plain characters, and integers of digits. -/
def plainLiterals : LiteralPrimitives where
  printable c := c.toNat < 127
  int s := if Text.digits s.toList then .ok (Text.natOf s.toList) else .error "invalid literal"
  decimal _ := .ok ()
  fromIsoFormat _ := .ok ()

/-- A name that holds brackets and both quotes, and an age. -/
def bracketedNames : FilterNode :=
  .bool .and
    [.predicate ⟨.equal, "core::public.people.name", some ⟨.string, ")(\"'"⟩, none, none⟩,
      .bool .not [.predicate ⟨.isIn, "core::public.people.age", none, none,
        some [⟨.integer, "7"⟩, ⟨.integer, "41"⟩]⟩]]

theorem filter_rendering_preserves_meaning_brackets :
    ∃ e, Python.read (unwrapped
        "((F.col('name') == ')(\"\\'') & (~F.col('age').isin([7, 41])))").toList = some e ∧
      ∀ (V : Type) (row : SparkRow V), row.condition plainLiterals e =
        some ((row.reading plainLiterals).truth bracketedNames) :=
  (filter_rendering_preserves_meaning plainLiterals ["age", "name"] bracketedNames "filter" _
    (by rfl)).1

end FeatureGen.Materialize
