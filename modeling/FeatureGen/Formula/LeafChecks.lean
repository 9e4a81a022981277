import FeatureGen.Formula.Built

/-! # What an accepted proposal says of its leaves

Version 2 builds the leaves of version 1 and makes some of version 1's checks of
them. `LeavesSound` is what all of version 1's checks would say of an accepted
proposal; `leavesSound_iff` says it is what the three checks version 2 leaves out
say: those of the parameters, of the decimal policy and of the time zones.
-/

namespace FeatureGen.Formula

open Checks Document Overlay

/-- The column stands in the table. -/
def InTable (ref tableRef : LogicalRef) : Prop :=
  ∃ column, column ≠ "" ∧ ref = tableRef ++ "." ++ column

theorem splitLogicalRef_ok {ref path source : String} {parts : List String}
    (h : splitLogicalRef ref path = .ok (source, parts)) :
    ref = source ++ "::" ++ String.ofList (['.'].intercalate (parts.map String.toList)) ∧
      "" ∉ parts := by
  unfold splitLogicalRef at h
  cases hcut : Text.partition "::" ref with
  | none => simp [hcut] at h
  | some cut =>
      obtain ⟨source', rest⟩ := cut
      simp only [hcut] at h
      split at h
      · cases h
      · split at h
        · cases h
        · rename_i hparts
          cases h
          have hrest := Text.eq_of_split (rfl : Text.split '.' rest = _)
          refine ⟨?_, fun hmem => hparts (Or.inr hmem)⟩
          rw [← hrest, String.ofList_toList]
          exact Text.eq_of_partition hcut

theorem requireColumnRef_ok {ref path table : String} (h : requireColumnRef ref path = .ok table) :
    InTable ref table := by
  obtain ⟨⟨source, parts⟩, hsplit, h⟩ := bind_eq_ok.mp h
  obtain ⟨href, hparts⟩ := splitLogicalRef_ok hsplit
  rcases parts with _ | ⟨schema, _ | ⟨table', _ | ⟨column, _ | ⟨_, _⟩⟩⟩⟩
  case cons.cons.cons.nil =>
    have htable : source ++ "::" ++ schema ++ "." ++ table' = table := Except.ok.inj h
    refine ⟨column, fun hempty => hparts (by simp [hempty]), ?_⟩
    rw [href, ← htable]
    apply String.toList_injective
    simp [List.intercalate]
  all_goals cases h

theorem requireContainedColumn_ok {ref path table : String}
    (h : requireContainedColumn ref path table = .ok ()) : InTable ref table := by
  obtain ⟨columnTable, hcolumn, h⟩ := bind_eq_ok.mp h
  rw [ensure_eq_ok] at h
  exact h ▸ requireColumnRef_ok hcolumn

theorem checkColumn_ok {expr : AggregateExpressionV2} {ref path : String}
    (h : checkColumn expr ref path = .ok ()) : InTable ref expr.sourceRelation.tableRef := by
  obtain ⟨_, _, h⟩ := bind_eq_ok.mp h
  exact requireContainedColumn_ok h

def Parses (type : LiteralType) (value : String) : Prop :=
  ∃ v path, parseTypedValue type value path = .ok v

theorem checkTypedLiteral_ok {lit : TypedLiteral} {path : String}
    (h : checkTypedLiteral lit path = .ok ()) : Parses lit.type lit.value := by
  obtain ⟨v, hv, _⟩ := map_eq_ok.mp h
  exact ⟨v, path, hv⟩

mutual

def FilterNode.predicates : FilterNode → List FilterPredicate
  | .predicate node => [node]
  | .bool _ children => predicatesOf children

def FilterNode.predicatesOf : List FilterNode → List FilterPredicate
  | [] => []
  | child :: children => child.predicates ++ predicatesOf children

end

theorem FilterNode.mem_predicatesOf {children : List FilterNode} {node : FilterPredicate} :
    node ∈ predicatesOf children ↔ ∃ child ∈ children, node ∈ child.predicates := by
  induction children with
  | nil => simp [predicatesOf]
  | cons child children ih => simp [predicatesOf, ih]

def FilterPredicate.literals (node : FilterPredicate) : List TypedLiteral :=
  node.rightLiteral.toList ++ node.rightSet.getD []

structure PredicateSound (tableRef : LogicalRef) (parameters : List ParameterDecl)
    (node : FilterPredicate) : Prop where
  contained : InTable node.left tableRef
  literals : ∀ lit ∈ node.literals, Parses lit.type lit.value
  ordered_literal : node.op ∈ orderedOps →
    ∀ lit ∈ node.rightLiteral, lit.type ∈ orderableTypes
  ordered_param : node.op ∈ orderedOps → ∀ param ∈ node.rightParam,
    ∀ decl ∈ parameters, decl.name = param.name → decl.type ∈ orderableTypes
  resolved : ∀ param ∈ node.rightParam, ∃! decl, decl ∈ parameters ∧ decl.name = param.name

theorem of_declared {parameters : List ParameterDecl} {name : String} {decl : ParameterDecl}
    (h : declared parameters name = some decl) : decl ∈ parameters ∧ decl.name = name :=
  ⟨List.mem_reverse.mp (List.mem_of_find?_eq_some h), by simpa using List.find?_some h⟩

theorem rightType_ok {node : FilterPredicate} {path : String}
    {params : String → Option ParameterDecl} {type : LiteralType}
    (h : rightType node path params = .ok type) :
    (∃ lit, node.rightLiteral = some lit ∧ node.rightParam = none ∧ Parses lit.type lit.value ∧
      lit.type = type) ∨
    (∃ param decl, node.rightLiteral = none ∧ node.rightParam = some param ∧
      params param.name = some decl ∧ decl.type = type) := by
  unfold rightType at h
  cases hlit : node.rightLiteral with
  | some lit =>
      cases hparam : node.rightParam with
      | some param => simp [hlit, hparam] at h
      | none =>
          simp only [hlit, hparam] at h
          obtain ⟨hcheck, h⟩ := check_bind_eq_ok.mp h
          exact Or.inl ⟨lit, rfl, rfl, checkTypedLiteral_ok hcheck, Except.ok.inj h⟩
  | none =>
      cases hparam : node.rightParam with
      | none => simp [hlit, hparam] at h
      | some param =>
          simp only [hlit, hparam] at h
          cases hdecl : params param.name with
          | none => simp [hdecl] at h
          | some decl =>
              simp only [hdecl] at h
              exact Or.inr ⟨param, decl, rfl, rfl, hdecl, Except.ok.inj h⟩

theorem predicateSound_of_set {tableRef : LogicalRef} {parameters : List ParameterDecl}
    {node : FilterPredicate} (contained : InTable node.left tableRef)
    (hlit : node.rightLiteral = none) (hparam : node.rightParam = none)
    (hset : ∀ lit ∈ node.rightSet.getD [], Parses lit.type lit.value) :
    PredicateSound tableRef parameters node where
  contained := contained
  literals := by simpa [FilterPredicate.literals, hlit] using hset
  ordered_literal := by simp [hlit]
  ordered_param := by simp [hparam]
  resolved := by simp [hparam]

theorem checkSet_ok {node : FilterPredicate} {path tableRef : String}
    {parameters : List ParameterDecl} (contained : InTable node.left tableRef)
    (h : checkSet node path = .ok ()) : PredicateSound tableRef parameters node := by
  simp only [checkSet, check_bind_eq_ok, ensure_eq_ok, each_eq_ok] at h
  obtain ⟨⟨hlit, hparam⟩, _, _, _, hset⟩ := h
  refine predicateSound_of_set contained hlit hparam fun lit hmem => ?_
  obtain ⟨i, hi⟩ := List.mem_iff_getElem?.mp hmem
  exact checkTypedLiteral_ok (hset i lit hi)

theorem checkComparison_ok {node : FilterPredicate} {path tableRef : String}
    {parameters : List ParameterDecl} (unique : (parameters.map (·.name)).Nodup)
    (contained : InTable node.left tableRef)
    (h : checkComparison node path (declared parameters) = .ok ()) :
    PredicateSound tableRef parameters node := by
  obtain ⟨hset, h⟩ := check_bind_eq_ok.mp h
  obtain ⟨type, htype, h⟩ := bind_eq_ok.mp h
  rw [ensure_eq_ok] at hset h
  rcases rightType_ok htype with ⟨lit, hlit, hparam, parses, rfl⟩ | ⟨param, decl, hlit, hparam,
    hdecl, rfl⟩
  · exact {
      contained
      literals := by simpa [FilterPredicate.literals, hlit, hset] using parses
      ordered_literal := by simpa [hlit] using h
      ordered_param := by simp [hparam]
      resolved := by simp [hparam] }
  · obtain ⟨hmem, hname⟩ := of_declared hdecl
    have only : ∀ decl' ∈ parameters, decl'.name = param.name → decl' = decl := by
      intro decl' hmem' hname'
      exact List.inj_on_of_nodup_map unique hmem' hmem (hname'.trans hname.symm)
    exact {
      contained
      literals := by simp [FilterPredicate.literals, hlit, hset]
      ordered_literal := by simp [hlit]
      ordered_param := by
        intro ordered param' hparam' decl' hmem' hname'
        rw [hparam, Option.mem_some_iff] at hparam'
        subst hparam'
        exact only decl' hmem' hname' ▸ h ordered
      resolved := by
        intro param' hparam'
        rw [hparam, Option.mem_some_iff] at hparam'
        subst hparam'
        exact ⟨decl, ⟨hmem, hname⟩, fun decl' h' => only decl' h'.1 h'.2⟩ }

theorem checkPredicate_ok {node : FilterPredicate} {path tableRef : String}
    {parameters : List ParameterDecl} (unique : (parameters.map (·.name)).Nodup)
    (contained : InTable node.left tableRef)
    (h : checkPredicate node path (declared parameters) = .ok ()) :
    PredicateSound tableRef parameters node := by
  unfold checkPredicate at h
  split at h
  case h_1 | h_2 =>
    rw [checkNoRight, ensure_eq_ok] at h
    exact predicateSound_of_set contained h.1 h.2.1 (by simp [h.2.2])
  case h_3 | h_4 => exact checkSet_ok contained h
  case h_5 => exact checkComparison_ok unique contained h

theorem checkFilterChildren_ok {path tableRef : String} {i depth n : ℕ}
    {params : String → Option ParameterDecl} {children : List FilterNode}
    (h : checkFilterChildren path i depth tableRef params children = .ok n) :
    ∀ child ∈ children, ∃ path' n', checkFilterNode path' depth tableRef params child = .ok n' := by
  induction children generalizing i n with
  | nil => simp
  | cons child children ih =>
      obtain ⟨count, hchild, h⟩ := bind_eq_ok.mp h
      obtain ⟨rest, hrest, _⟩ := bind_eq_ok.mp h
      intro other hother
      rcases List.mem_cons.mp hother with rfl | hother
      · exact ⟨_, count, hchild⟩
      · exact ih hrest other hother

theorem checkFilterNode_ok {tableRef : String} {parameters : List ParameterDecl}
    (unique : (parameters.map (·.name)).Nodup) {node : FilterNode} {path : String} {depth n : ℕ}
    (h : checkFilterNode path depth tableRef (declared parameters) node = .ok n) :
    ∀ pred ∈ node.predicates, PredicateSound tableRef parameters pred := by
  induction node generalizing path depth n with
  | predicate node =>
      rw [checkFilterNode] at h
      obtain ⟨_, h⟩ := check_bind_eq_ok.mp h
      obtain ⟨hcheck, h⟩ := check_bind_eq_ok.mp h
      obtain ⟨hcontained, _⟩ := check_bind_eq_ok.mp h
      intro pred hpred
      simp only [FilterNode.predicates, List.mem_singleton] at hpred
      subst hpred
      exact checkPredicate_ok unique (requireContainedColumn_ok hcontained) hcheck
  | bool op children ih =>
      rw [checkFilterNode] at h
      obtain ⟨_, h⟩ := check_bind_eq_ok.mp h
      obtain ⟨_, h⟩ := check_bind_eq_ok.mp h
      intro pred hpred
      obtain ⟨child, hchild, hpred⟩ := FilterNode.mem_predicatesOf.mp hpred
      obtain ⟨path', n', hcheck⟩ := checkFilterChildren_ok h child hchild
      exact ih child hchild hcheck pred hpred

/-- What version 1 asks of an expression's refs and of its filter. -/
structure ExpressionSound (parameters : List ParameterDecl) (expr : AggregateExpressionV2) :
    Prop where
  operand : ∀ ref ∈ expr.operand, InTable ref expr.sourceRelation.tableRef
  second_operand : ∀ ref ∈ expr.secondOperand, InTable ref expr.sourceRelation.tableRef
  event_time : InTable expr.window.eventTimeRef expr.sourceRelation.tableRef
  filter : ∀ filter ∈ expr.filter, ∀ pred ∈ filter.predicates,
    PredicateSound expr.sourceRelation.tableRef parameters pred

theorem checkOperand_ok {expr : AggregateExpressionV2} {path : String}
    (h : checkOperand expr path = .ok ()) :
    ∀ ref ∈ expr.operand, InTable ref expr.sourceRelation.tableRef := by
  intro ref href
  rw [Option.mem_def] at href
  rw [checkOperand, href] at h
  cases hrule : (operationRule expr.aggregation).operandRequired with
  | false => simp [hrule] at h
  | true => exact checkColumn_ok (by simpa [hrule] using h)

theorem checkSecondOperand_ok {expr : AggregateExpressionV2} {path : String}
    (h : checkSecondOperand expr path = .ok ()) :
    ∀ ref ∈ expr.secondOperand, InTable ref expr.sourceRelation.tableRef := by
  intro ref href
  rw [Option.mem_def] at href
  rw [checkSecondOperand, href] at h
  cases hrule : (operationRule expr.aggregation).secondOperand with
  | forbidden => simp [hrule] at h
  | required => exact checkColumn_ok (by simpa [hrule] using h)
  | optional => exact checkColumn_ok (by simpa [hrule] using h)

theorem checkExpressionV2_ok {expr : AggregateExpressionV2} {path : String}
    {parameters : List ParameterDecl} (unique : (parameters.map (·.name)).Nodup)
    (h : checkExpressionV2 expr path (declared parameters) = .ok ()) :
    ExpressionSound parameters expr := by
  obtain ⟨_, h⟩ := check_bind_eq_ok.mp h
  obtain ⟨_, h⟩ := check_bind_eq_ok.mp h
  obtain ⟨_, h⟩ := check_bind_eq_ok.mp h
  obtain ⟨operand, h⟩ := check_bind_eq_ok.mp h
  obtain ⟨second, h⟩ := check_bind_eq_ok.mp h
  obtain ⟨filter, event⟩ := check_bind_eq_ok.mp h
  refine ⟨checkOperand_ok operand, checkSecondOperand_ok second, checkColumn_ok event, ?_⟩
  intro node hnode
  rw [Option.mem_def] at hnode
  rw [checkFilter, hnode] at filter
  obtain ⟨count, hcount, _⟩ := bind_eq_ok.mp filter
  exact checkFilterNode_ok unique hcount

/-- An empty `allowed_set` put aside: only version 1 refuses it. -/
def ParameterDecl.dropEmptySet (decl : ParameterDecl) : ParameterDecl :=
  { decl with allowedSet := if decl.allowedSet = some [] then none else decl.allowedSet }

/-- `_check_window`'s test of the time zone. -/
def checkTimezone (knownZone : String → Bool) (timezone path : String) : Except SchemaError Unit := do
  ensure (timezone ≠ "") s!"{path}.timezone: a non-empty IANA timezone is required"
  ensure (knownZone timezone)
    s!"{path}.timezone: {Text.repr timezone} is not a known IANA timezone"

/-- Version 1's checks of the leaves, where version 2 makes none. -/
structure LeafChecksPass (knownZone : String → Bool) (p : TypedFormulaProposalV2) : Prop where
  parameters : checkParameters (p.parameters.map (·.dropEmptySet)) = .ok ()
  decimal : checkDecimal p.decimal = .ok ()
  timezones : ∀ expr ∈ p.body.expressions,
    checkTimezone knownZone expr.window.timezone "body" = .ok ()

/-- What version 1 asks of a declared parameter. -/
structure ParameterSound (decl : ParameterDecl) : Prop where
  name : paramNameRe decl.name
  entries : ∀ entry ∈ decl.allowedSet.getD [], Parses decl.type entry
  bounds : ∀ bound ∈ decl.allowedMin.toList ++ decl.allowedMax.toList, Parses decl.type bound
  ordered : ∀ min ∈ decl.allowedMin, ∀ max ∈ decl.allowedMax, ∀ lo hi path,
    parseTypedValue decl.type min path = .ok lo → parseTypedValue decl.type max path = .ok hi →
    ¬ lo.gt hi

/-- What version 1 asks of a proposal's leaves. -/
structure LeavesSound (knownZone : String → Bool) (p : TypedFormulaProposalV2) : Prop where
  names : (p.parameters.map (·.name)).Nodup
  parameters : ∀ decl ∈ p.parameters, ParameterSound decl
  decimal : 0 ≤ p.decimal.scale ∧ p.decimal.scale ≤ p.decimal.precision
  timezones : ∀ expr ∈ p.body.expressions, knownZone expr.window.timezone
  expressions : ∀ expr ∈ p.body.expressions, ExpressionSound p.parameters expr

theorem parseTypedValue_path {type : LiteralType} {value path : String} {v : TypedValue}
    (h : parseTypedValue type value path = .ok v) (path' : String) :
    parseTypedValue type value path' = .ok v := by
  cases type with
  | string => exact h
  | integer =>
      simp only [parseTypedValue, parseInteger] at h ⊢
      split_ifs at h ⊢ <;> exact h
  | decimal =>
      simp only [parseTypedValue, parseDecimal] at h ⊢
      split_ifs at h ⊢ <;> exact h
  | boolean =>
      simp only [parseTypedValue] at h ⊢
      split_ifs at h ⊢ <;> exact h
  | date =>
      simp only [parseTypedValue, parseDate] at h ⊢
      split at h
      · split_ifs at h ⊢
        exact h
      · cases h

theorem parses_iff {type : LiteralType} {value : String} (path : String) :
    Parses type value ↔ ∃ v, parseTypedValue type value path = .ok v := by
  constructor
  · rintro ⟨v, path', h⟩
    exact ⟨v, parseTypedValue_path h path⟩
  · rintro ⟨v, h⟩
    exact ⟨v, path, h⟩

theorem checkTypedLiteral_eq_ok {lit : TypedLiteral} {path : String} :
    checkTypedLiteral lit path = .ok () ↔ Parses lit.type lit.value := by
  rw [parses_iff path, checkTypedLiteral, map_eq_ok]
  simp

theorem checkBound_none {type : LiteralType} {path : String} :
    checkBound type none path = .ok none := rfl

theorem checkBound_some {type : LiteralType} {value path : String} {v : Option TypedValue} :
    checkBound type (some value) path = .ok v ↔
      ∃ x, parseTypedValue type value path = .ok x ∧ some x = v := map_eq_ok

theorem nodup_iff_take {α : Type} {as : List α} :
    as.Nodup ↔ ∀ i a, as[i]? = some a → a ∉ as.take i := by
  induction as with
  | nil => simp
  | cons a as ih =>
      rw [List.nodup_cons, ih]
      constructor
      · rintro ⟨hnot, rest⟩ i b hb
        cases i with
        | zero => simp
        | succ i =>
            have hmem : b ∈ as := List.mem_of_getElem? (by simpa using hb)
            rw [List.take_succ_cons, List.mem_cons, not_or]
            exact ⟨fun heq => hnot (heq ▸ hmem), rest i b (by simpa using hb)⟩
      · intro all
        constructor
        · intro hmem
          obtain ⟨i, hi⟩ := List.mem_iff_getElem?.mp hmem
          exact all (i + 1) a (by simpa using hi) (by simp)
        · intro i b hb hmem
          exact all (i + 1) b (by simpa using hb) (by simp [hmem])

theorem checkBounds_eq_ok {decl : ParameterDecl} {path : String} :
    checkBounds decl path = .ok () ↔
      (∀ bound ∈ decl.allowedMin.toList ++ decl.allowedMax.toList, Parses decl.type bound) ∧
        ∀ min ∈ decl.allowedMin, ∀ max ∈ decl.allowedMax, ∀ lo hi p,
          parseTypedValue decl.type min p = .ok lo → parseTypedValue decl.type max p = .ok hi →
            ¬ lo.gt hi := by
  simp only [checkBounds, bind_eq_ok, ensure_eq_ok]
  cases decl.allowedMin with
  | none =>
      cases decl.allowedMax with
      | none => simp [checkBound]
      | some max =>
          simp only [checkBound_some, checkBound_none, parses_iff s!"{path}.allowed_max"]
          simp
  | some min =>
      cases decl.allowedMax with
      | none =>
          simp only [checkBound_some, checkBound_none, parses_iff s!"{path}.allowed_min"]
          simp
      | some max =>
          simp only [checkBound_some]
          constructor
          · rintro ⟨_, ⟨lo, hlo, rfl⟩, _, ⟨hi, hhi, rfl⟩, hle⟩
            refine ⟨?_, ?_⟩
            · simp only [Option.toList_some, List.cons_append, List.nil_append, List.mem_cons,
                List.not_mem_nil, or_false, forall_eq_or_imp, forall_eq]
              exact ⟨⟨lo, _, hlo⟩, ⟨hi, _, hhi⟩⟩
            · rintro _ ⟨⟩ _ ⟨⟩ lo' hi' p hlo' hhi'
              cases hlo'.symm.trans (parseTypedValue_path hlo p)
              cases hhi'.symm.trans (parseTypedValue_path hhi p)
              simpa using hle
          · rintro ⟨parses, ordered⟩
            obtain ⟨lo, hlo⟩ := (parses_iff s!"{path}.allowed_min").mp (parses min (by simp))
            obtain ⟨hi, hhi⟩ := (parses_iff s!"{path}.allowed_max").mp (parses max (by simp))
            refine ⟨_, ⟨lo, hlo, rfl⟩, _, ⟨hi, hhi, rfl⟩, ?_⟩
            have hle := ordered min rfl max rfl lo hi _ hlo (parseTypedValue_path hhi _)
            simpa using hle

theorem checkParameter_eq_ok {declared : List String} {path : String} {decl : ParameterDecl} :
    checkParameter declared path decl = .ok () ↔
      decl.name ∉ declared ∧ ParameterSound decl ∧ decl.allowedSet ≠ some [] := by
  have entries : each (fun j entry =>
      checkTypedLiteral ⟨decl.type, entry⟩ s!"{path}.allowed_set[{j}]") (decl.allowedSet.getD []) =
        .ok () ↔ ∀ entry ∈ decl.allowedSet.getD [], Parses decl.type entry :=
    each_eq_ok_of_forall fun j entry =>
      @checkTypedLiteral_eq_ok ⟨decl.type, entry⟩ s!"{path}.allowed_set[{j}]"
  rw [checkParameter]
  simp only [check_bind_eq_ok, ensure_eq_ok, entries, checkBounds_eq_ok]
  constructor
  · rintro ⟨name, fresh, nonempty, set, bounds, ordered⟩
    exact ⟨fresh, ⟨name, set, bounds, ordered⟩, nonempty⟩
  · rintro ⟨fresh, ⟨name, set, bounds, ordered⟩, nonempty⟩
    exact ⟨name, fresh, nonempty, set, bounds, ordered⟩

theorem checkParameters_eq_ok {parameters : List ParameterDecl} :
    checkParameters parameters = .ok () ↔ (parameters.map (·.name)).Nodup ∧
      ∀ decl ∈ parameters, ParameterSound decl ∧ decl.allowedSet ≠ some [] := by
  simp only [checkParameters, each_eq_ok, checkParameter_eq_ok, nodup_iff_take, ← List.map_take]
  constructor
  · intro all
    refine ⟨fun i name hname => ?_, fun decl hdecl => ?_⟩
    · rw [List.getElem?_map, Option.map_eq_some_iff] at hname
      obtain ⟨decl, hdecl, rfl⟩ := hname
      exact (all i decl hdecl).1
    · obtain ⟨i, hi⟩ := List.mem_iff_getElem?.mp hdecl
      exact (all i decl hi).2
  · rintro ⟨fresh, sound⟩ i decl hdecl
    exact ⟨fresh i decl.name (by simp [hdecl]), sound decl (List.mem_of_getElem? hdecl)⟩

theorem parameterSound_dropEmptySet {decl : ParameterDecl} :
    ParameterSound decl.dropEmptySet ∧ decl.dropEmptySet.allowedSet ≠ some [] ↔
      ParameterSound decl := by
  have set : decl.dropEmptySet.allowedSet.getD [] = decl.allowedSet.getD [] := by
    unfold ParameterDecl.dropEmptySet
    split <;> simp [*]
  have nonempty : decl.dropEmptySet.allowedSet ≠ some [] := by
    unfold ParameterDecl.dropEmptySet
    split <;> simp [*]
  rw [and_iff_left nonempty]
  constructor
  · rintro ⟨name, entries, bounds, ordered⟩
    exact ⟨name, set ▸ entries, bounds, ordered⟩
  · rintro ⟨name, entries, bounds, ordered⟩
    exact ⟨name, set.symm ▸ entries, bounds, ordered⟩

theorem timezone_of_shape {e : ProposalDocument} {expr : AggregateExpressionV2}
    (shape : Shape.expressionV2 e) (built : buildExpressionV2 e = .ok expr) :
    expr.window.timezone ≠ "" := by
  obtain ⟨members, rfl⟩ := Document.Shape.exists_dict shape
  obtain ⟨_, _, h⟩ := bind_eq_ok.mp built
  obtain ⟨_, _, h⟩ := bind_eq_ok.mp h
  obtain ⟨_, _, h⟩ := bind_eq_ok.mp h
  obtain ⟨_, _, h⟩ := bind_eq_ok.mp h
  obtain ⟨window, hwindow, h⟩ := bind_eq_ok.mp h
  obtain ⟨_, _, h⟩ := bind_eq_ok.mp h
  obtain ⟨_, _, h⟩ := bind_eq_ok.mp h
  obtain ⟨_, _, h⟩ := bind_eq_ok.mp h
  cases h
  obtain ⟨value, hvalue, hwindow⟩ := read_of_shape shape rfl hwindow
  obtain ⟨windowMembers, rfl⟩ := Document.Shape.exists_dict hvalue
  obtain ⟨_, _, h⟩ := bind_eq_ok.mp hwindow
  obtain ⟨_, _, h⟩ := bind_eq_ok.mp h
  obtain ⟨_, _, h⟩ := bind_eq_ok.mp h
  obtain ⟨_, _, h⟩ := bind_eq_ok.mp h
  obtain ⟨_, _, h⟩ := bind_eq_ok.mp h
  obtain ⟨_, _, h⟩ := bind_eq_ok.mp h
  obtain ⟨timezone, htimezone, h⟩ := bind_eq_ok.mp h
  obtain ⟨_, _, h⟩ := bind_eq_ok.mp h
  obtain ⟨_, _, h⟩ := bind_eq_ok.mp h
  obtain ⟨_, _, h⟩ := bind_eq_ok.mp h
  cases h
  obtain ⟨zone, hzone, hread⟩ := read_of_shape hvalue rfl htimezone
  cases zone with
  | str s =>
      cases hread
      rintro rfl
      cases hzone
  | _ => cases hread

/-- Of an accepted proposal, version 1's claims about the leaves are its three other checks. -/
theorem leavesSound_iff {knownZone : String → Bool} {d : ProposalDocument}
    {p : TypedFormulaProposalV2} (accepted : parseProposalV2 d = .ok p) :
    LeavesSound knownZone p ↔ LeafChecksPass knownZone p := by
  obtain ⟨shape, built, valid⟩ := parseProposalV2_eq_ok.mp accepted
  obtain ⟨_, _, _, body, hbody, hbuilt⟩ := built_of_shape shape built
  have timezones : (∀ expr ∈ p.body.expressions,
      checkTimezone knownZone expr.window.timezone "body" = .ok ()) ↔
        ∀ expr ∈ p.body.expressions, knownZone expr.window.timezone := by
    refine forall₂_congr fun expr hexpr => ?_
    obtain ⟨e, inShape, he⟩ := expressions_of_shape hbody hbuilt expr hexpr
    rw [checkTimezone, check_bind_eq_ok, ensure_eq_ok, ensure_eq_ok]
    exact and_iff_right (timezone_of_shape inShape he)
  constructor
  · intro sound
    constructor
    · refine checkParameters_eq_ok.mpr ⟨?_, ?_⟩
      · rw [List.map_map]
        exact sound.names
      · simp only [List.mem_map]
        rintro _ ⟨decl, hdecl, rfl⟩
        exact parameterSound_dropEmptySet.mpr (sound.parameters decl hdecl)
    · simpa [checkDecimal, check_bind_eq_ok] using sound.decimal
    · exact timezones.mpr sound.timezones
  · intro pass
    obtain ⟨names, parameters⟩ := checkParameters_eq_ok.mp pass.parameters
    rw [List.map_map] at names
    constructor
    · exact names
    · intro decl hdecl
      exact parameterSound_dropEmptySet.mp (parameters _ (List.mem_map_of_mem hdecl))
    · simpa [checkDecimal, check_bind_eq_ok] using pass.decimal
    · exact timezones.mp pass.timezones
    · intro expr hexpr
      obtain ⟨i, hi⟩ := List.mem_iff_getElem?.mp hexpr
      simp only [validateSemanticsV2, check_bind_eq_ok, each_eq_ok] at valid
      exact checkExpressionV2_ok names (valid.2.2.2.2.2 i expr hi)

/-- The amounts of `bank::public.txn` over thirty days that a parameter's threshold lets through
    and whose status is one of two. -/
def thresholdDocument : ProposalDocument :=
  let window : ProposalDocument := .object
    [("event_time_ref", .str "bank::public.txn.booked_at"), ("basis", .str "trailing"),
      ("length", .num (.int 30)), ("unit", .str "day"), ("start_inclusive", .str "exclusive"),
      ("end_inclusive", .str "inclusive"), ("timezone", .str "UTC"),
      ("empty_window", .str "zero"), ("null_input", .str "ignore")]
  let atLeast : ProposalDocument := .object
    [("kind", .str "predicate"), ("op", .str "greater_or_equal"),
      ("left", .str "bank::public.txn.amount"),
      ("right_param", .object [("name", .str "min_amount")])]
  let status (value : String) : ProposalDocument :=
    .object [("type", .str "string"), ("value", .str value)]
  let posted : ProposalDocument := .object
    [("kind", .str "predicate"), ("op", .str "in"), ("left", .str "bank::public.txn.status"),
      ("right_set", .array [status "posted", status "settled"])]
  let expression : ProposalDocument := .object
    [("aggregation", .str "sum"), ("operand", .str "bank::public.txn.amount"),
      ("source_relation", .object [("table_ref", .str "bank::public.txn")]),
      ("filter", .object
        [("kind", .str "bool"), ("op", .str "and"), ("children", .array [atLeast, posted])]),
      ("window", window)]
  let minAmount : ProposalDocument := .object
    [("name", .str "min_amount"), ("type", .str "decimal"), ("param_class", .str "semantic"),
      ("classification", .str "threshold"), ("nullable", .bool false),
      ("allowed_min", .str "0.5"), ("allowed_max", .str "100")]
  let decimal : ProposalDocument := .object
    [("precision", .num (.int 18)), ("scale", .num (.int 2)), ("rounding", .str "half_up"),
      ("overflow", .str "error")]
  .object
    [("formula_schema_version", .num (.int 2)), ("operation_grammar_version", .num (.int 1)),
      ("canonicalization_version", .num (.int 1)),
      ("grain", .object
        [("entity", .str "account"), ("keys", .array [.str "bank::public.txn.account_id"])]),
      ("body", .object [("final_operation", .str "identity"), ("expr", expression)]),
      ("parameters", .array [minAmount]), ("decimal", decimal)]

theorem leavesSound_iff_threshold :
    ∃ p, parseProposalV2 thresholdDocument = .ok p ∧ p.parameters.length = 1 ∧
      p.body.expressions.flatMap (fun expr => expr.filter.toList.flatMap fun filter =>
        filter.predicates.map (·.op)) = [.greaterOrEqual, .isIn] ∧
      LeavesSound (fun zone => zone = "UTC") p := by
  let pass (p : TypedFormulaProposalV2) : Bool :=
    p.parameters.length = 1 &&
      p.body.expressions.flatMap (fun expr => expr.filter.toList.flatMap fun filter =>
        filter.predicates.map (·.op)) = [.greaterOrEqual, .isIn] &&
      (checkParameters (p.parameters.map (·.dropEmptySet))).toOption.isSome &&
      (checkDecimal p.decimal).toOption.isSome && p.body.expressions.all fun expr =>
        (checkTimezone (fun zone => zone = "UTC") expr.window.timezone "body").toOption.isSome
  have computed : (parseProposalV2 thresholdDocument).toOption.any pass = true := by
    decide +kernel
  obtain ⟨p, hp, hpass⟩ := (Option.any_eq_true _ _).mp computed
  have accepted := toOption_eq_some.mp hp
  simp only [pass, Bool.and_eq_true, List.all_eq_true, isSome_toOption, decide_eq_true_eq] at hpass
  obtain ⟨⟨⟨⟨declared, filtered⟩, ⟨_, parameters⟩⟩, ⟨_, decimal⟩⟩, timezones⟩ := hpass
  refine ⟨p, accepted, declared, filtered,
    (leavesSound_iff accepted).mpr ⟨parameters, decimal, fun expr hexpr => ?_⟩⟩
  obtain ⟨_, h⟩ := timezones expr hexpr
  exact h

/-- A parameter whose name is no parameter name. -/
def misnamed : ProposalDocument := .object
  [("name", .str "Not A Name"), ("type", .str "string"), ("param_class", .str "semantic"),
    ("classification", .str "threshold"), ("nullable", .bool false)]

theorem misnamed_accepted : ¬ ∀ knownZone d p, parseProposalV2 d = .ok p →
    LeavesSound knownZone p := by
  intro all
  have computed : (parseProposalV2 (countDocument 2 "UTC" "bank::public.txn.account_id"
      [misnamed])).toOption.any (fun p => p.parameters.any fun decl => !paramNameRe decl.name) =
        true := by decide +kernel
  obtain ⟨p, hp, h⟩ := (Option.any_eq_true _ _).mp computed
  obtain ⟨decl, hdecl, hname⟩ := List.any_eq_true.mp h
  have sound := all (fun _ => true) _ p (toOption_eq_some.mp hp)
  simp [(sound.parameters decl hdecl).name] at hname

end FeatureGen.Formula
