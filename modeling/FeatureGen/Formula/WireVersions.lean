import FeatureGen.Formula.Built

/-! # Wire version 3 beside wire version 2

A document of version 3 without row selections is a document of version 2 under
another pin. What the two parsers make of it is the same value, except that the
gate of version 3 looks at neither the grain's keys nor the terms of a signed sum.
-/

namespace FeatureGen.Formula

open Checks Document Overlay

/-- An expression without its `row_selections`. -/
def dropSelections : ProposalDocument → ProposalDocument
  | .dict members => .dict (members.erase "row_selections")
  | d => d

/-- The properties that hold an expression. -/
def expressionKeys : List String := ["expr", "numerator", "denominator", "minuend", "subtrahend"]

def repinTerm : ProposalDocument → ProposalDocument
  | .dict members => .dict (members.mapValues fun key value =>
      if key = "expr" then dropSelections value else value)
  | d => d

def repinTerms : ProposalDocument → ProposalDocument
  | .list items => .list (.ofList (items.toList.map repinTerm))
  | d => d

def repinMember (key : String) (value : ProposalDocument) : ProposalDocument :=
  if key ∈ expressionKeys then dropSelections value
  else if key = "terms" then repinTerms value
  else value

def repinBody : ProposalDocument → ProposalDocument
  | .dict members => .dict (members.mapValues repinMember)
  | d => d

def repinValue (key : String) (value : ProposalDocument) : ProposalDocument :=
  if key = "formula_schema_version" then .num (.int formulaSchemaVersionV2)
  else if key = "body" then repinBody value
  else value

/-- The document pinned to version 2, without the `row_selections` of its expressions. -/
def repin : ProposalDocument → ProposalDocument
  | .dict members => .dict (members.mapValues repinValue)
  | d => d

/-- No `row_selections`, or an empty array of them. -/
def selectionFree : ProposalDocument → Bool
  | .dict members =>
      match members.get? "row_selections" with
      | none | some (.list .nil) => true
      | _ => false
  | _ => true

def termSelectionFree : ProposalDocument → Bool
  | .dict members => members.all fun key value => key = "expr" → selectionFree value
  | _ => true

def termsSelectionFree : ProposalDocument → Bool
  | .list items => items.toList.all termSelectionFree
  | _ => true

def bodySelectionFree : ProposalDocument → Bool
  | .dict members => members.all fun key value =>
      if key ∈ expressionKeys then selectionFree value
      else if key = "terms" then termsSelectionFree value
      else true
  | _ => true

def documentSelectionFree : ProposalDocument → Bool
  | .dict members => members.all fun key value => key = "body" → bodySelectionFree value
  | _ => true

namespace Shape

theorem expressionV2_dropSelections {d : ProposalDocument} (h : expressionV3 d) :
    expressionV2 (dropSelections d) := by
  obtain ⟨members, rfl⟩ := Document.Shape.exists_dict h
  refine Document.Shape.object_erase (by decide) ?_ h
  intro key value hne hproperty
  obtain ⟨shape, hlookup, hvalue⟩ := Document.Shape.property_eq_true.mp hproperty
  refine Document.Shape.property_eq_true.mpr ⟨shape, ?_, hvalue⟩
  rw [List.lookup_append] at hlookup
  cases hold : expressionProperties.lookup key with
  | some shape' => simpa [hold] using hlookup
  | none =>
      have hkey : (key == "row_selections") = false := by simpa using hne
      simp [hold, List.lookup, hkey] at hlookup

theorem keeps_same {f : String → ProposalDocument → ProposalDocument} {key : String}
    {shape : Document.Shape Numeral} (same : ∀ value, f key value = value) :
    Document.Shape.Keeps f (key, shape) (key, shape) :=
  ⟨rfl, fun value h => (same value).symm ▸ h⟩

theorem term_repin {d : ProposalDocument} (h : term expressionV3 d) :
    term expressionV2 (repinTerm d) := by
  obtain ⟨members, rfl⟩ := Document.Shape.exists_dict h
  refine Document.Shape.object_mapValues ?_ h
  exact .cons (keeps_same fun _ => rfl) <| .cons (keeps_same fun _ => rfl) <|
    .cons ⟨rfl, fun _ => expressionV2_dropSelections⟩ .nil

theorem terms_repin {d : ProposalDocument} {n : ℕ}
    (h : Document.Shape.array (term expressionV3) n d) :
    Document.Shape.array (term expressionV2) n (repinTerms d) := by
  cases d with
  | list items =>
      obtain ⟨hlength, hall⟩ := Document.Shape.array_list.mp h
      refine Document.Shape.array_list.mpr ⟨by simpa using hlength, ?_⟩
      simp only [Items.toList_ofList, List.mem_map]
      rintro _ ⟨t, ht, rfl⟩
      exact term_repin (hall t ht)
  | _ => cases h

theorem formulaBody_repin {d : ProposalDocument} (h : formulaBody expressionV3 d) :
    formulaBody expressionV2 (repinBody d) := by
  rw [formulaBody_iff] at h ⊢
  have dropped : ∀ {f : String → ProposalDocument → ProposalDocument} {key : String},
      (∀ value, f key value = dropSelections value) →
      Document.Shape.Keeps f (key, expressionV3) (key, expressionV2) := fun hf =>
    ⟨rfl, fun value hvalue => (hf value).symm ▸ expressionV2_dropSelections hvalue⟩
  rcases h with h | h | h | h
  · obtain ⟨members, rfl⟩ := Document.Shape.exists_dict h
    refine Or.inl (Document.Shape.object_mapValues ?_ h)
    exact .cons (keeps_same fun _ => rfl) <| .cons (dropped fun _ => rfl) .nil
  · obtain ⟨members, rfl⟩ := Document.Shape.exists_dict h
    refine Or.inr (Or.inl (Document.Shape.object_mapValues ?_ h))
    exact .cons (keeps_same fun _ => rfl) <| .cons (dropped fun _ => rfl) <|
      .cons (dropped fun _ => rfl) <| .cons (keeps_same fun _ => rfl) .nil
  · obtain ⟨members, rfl⟩ := Document.Shape.exists_dict h
    refine Or.inr (Or.inr (Or.inl (Document.Shape.object_mapValues ?_ h)))
    exact .cons (keeps_same fun _ => rfl) <| .cons (dropped fun _ => rfl) <|
      .cons (dropped fun _ => rfl) .nil
  · obtain ⟨members, rfl⟩ := Document.Shape.exists_dict h
    refine Or.inr (Or.inr (Or.inr (Document.Shape.object_mapValues ?_ h)))
    exact .cons (keeps_same fun _ => rfl) <| .cons ⟨rfl, fun _ => terms_repin⟩ .nil

theorem proposalV2_repin {d : ProposalDocument} (h : proposalV3 d) : proposalV2 (repin d) := by
  obtain ⟨members, rfl⟩ := Document.Shape.exists_dict h
  refine Document.Shape.object_mapValues ?_ h
  exact .cons ⟨rfl, fun _ _ => rfl⟩ <| .cons (keeps_same fun _ => rfl) <|
    .cons (keeps_same fun _ => rfl) <| .cons (keeps_same fun _ => rfl) <|
    .cons (keeps_same fun _ => rfl) <| .cons ⟨rfl, fun _ => formulaBody_repin⟩ <|
    .cons (keeps_same fun _ => rfl) <| .cons (keeps_same fun _ => rfl) <|
    .cons (keeps_same fun _ => rfl) .nil

end Shape

def AggregateExpressionV2.atV3 (e : AggregateExpressionV2) : AggregateExpressionV3 :=
  { e with rowSelections := [] }

def SignedTerm.map {A B : Type} (f : A → B) (t : SignedTerm A) : SignedTerm B :=
  ⟨t.name, t.sign, f t.expr⟩

def FormulaBody.map {A B : Type} (f : A → B) : FormulaBody A → FormulaBody B
  | .unary expr => .unary (f expr)
  | .ratio numerator denominator zeroDenominator =>
      .ratio (f numerator) (f denominator) zeroDenominator
  | .diff minuend subtrahend => .diff (f minuend) (f subtrahend)
  | .composite terms => .composite (terms.map (·.map f))

def TypedFormulaProposal.atV3 (p : TypedFormulaProposalV2) : TypedFormulaProposalV3 :=
  { p with
    formulaSchemaVersion := formulaSchemaVersionV3
    body := p.body.map (·.atV3) }

theorem item_mapValues {α : Type} {f : String → ProposalDocument → ProposalDocument}
    {members : Document.Members Numeral} {key : String}
    {read : ProposalDocument → Except SchemaError α} :
    item (members.mapValues f) key read = item members key fun value => read (f key value) := by
  simp only [item, Members.get?_mapValues]
  cases members.get? key <;> rfl

theorem item_map {α β : Type} {g : α → β} {members : Document.Members Numeral} {key : String}
    {read : ProposalDocument → Except SchemaError α}
    {read' : ProposalDocument → Except SchemaError β}
    (h : ∀ value, members.get? key = some value → read' value = g <$> read value) :
    item members key read' = g <$> item members key read := by
  simp only [item]
  cases hget : members.get? key with
  | none => rfl
  | some value => exact h value hget

theorem expressionMembers_erase (members : Document.Members Numeral) :
    expressionMembers (members.erase "row_selections") = expressionMembers members := by
  simp only [expressionMembers, item, optional, Members.get?_erase, String.reduceEq, if_false]

theorem buildExpressionV3_eq {d : ProposalDocument} (free : selectionFree d) :
    buildExpressionV3 d = (·.atV3) <$> buildExpressionV2 (dropSelections d) := by
  cases d with
  | dict members =>
      have none_read : itemD members "row_selections" [] (readArray buildSelection) = .ok [] := by
        simp only [selectionFree] at free
        cases hget : members.get? "row_selections" with
        | none => simp [itemD, hget]
        | some value =>
            rw [hget] at free
            cases value with
            | list items =>
                cases items with
                | nil => simp [itemD, hget, readArray, Items.toList, pure, Except.pure]
                | cons _ _ => cases free
            | _ => cases free
      simp only [buildExpressionV3, buildExpressionV2, dropSelections, readObject,
        expressionMembers_erase, none_read]
      cases expressionMembers members <;> rfl
  | _ => rfl

theorem buildTerm_eq {d : ProposalDocument} (free : termSelectionFree d) :
    buildTerm buildExpressionV3 d =
      (·.map (·.atV3)) <$> buildTerm buildExpressionV2 (repinTerm d) := by
  cases d with
  | dict members =>
      have expr : item members "expr" buildExpressionV3 =
          (·.atV3) <$> item members "expr" fun value => buildExpressionV2 (dropSelections value) :=
        item_map fun value hget =>
          buildExpressionV3_eq (by simpa using Members.of_all free hget)
      simp only [buildTerm, repinTerm, readObject, item_mapValues, String.reduceEq, if_false,
        if_true, expr]
      cases item members "name" readString <;> cases item members "sign" readInteger <;>
        cases item members "expr" (fun value => buildExpressionV2 (dropSelections value)) <;> rfl
  | _ => rfl

theorem buildTerms_eq {d : ProposalDocument} (free : termsSelectionFree d) :
    readArray (buildTerm buildExpressionV3) d =
      (·.map (·.map (·.atV3))) <$> readArray (buildTerm buildExpressionV2) (repinTerms d) := by
  cases d with
  | list items =>
      simp only [termsSelectionFree, List.all_eq_true] at free
      simp only [readArray, repinTerms, Items.toList_ofList]
      generalize items.toList = ts at free
      induction ts with
      | nil => rfl
      | cons t ts ih =>
          rw [List.map_cons, List.mapM_cons, List.mapM_cons, buildTerm_eq (free t (by simp)),
            ih fun t' ht' => free t' (by simp [ht'])]
          cases buildTerm buildExpressionV2 (repinTerm t) <;>
            cases (ts.map repinTerm).mapM (buildTerm buildExpressionV2) <;> rfl
  | _ => rfl

theorem buildBody_eq {d : ProposalDocument} (free : bodySelectionFree d) :
    buildBody buildExpressionV3 d =
      (·.map (·.atV3)) <$> buildBody buildExpressionV2 (repinBody d) := by
  cases d with
  | dict members =>
      have expr : ∀ key ∈ expressionKeys, item members key buildExpressionV3 =
          (·.atV3) <$> item members key fun value => buildExpressionV2 (repinMember key value) := by
        intro key hkey
        refine item_map fun value hget => ?_
        rw [repinMember, if_pos hkey]
        exact buildExpressionV3_eq (by simpa [hkey] using Members.of_all free hget)
      have terms : item members "terms" (readArray (buildTerm buildExpressionV3)) =
          (·.map (·.map (·.atV3))) <$> item members "terms" fun value =>
            readArray (buildTerm buildExpressionV2) (repinMember "terms" value) :=
        item_map fun value hget => buildTerms_eq (by
          simpa [expressionKeys] using Members.of_all free hget)
      simp only [buildBody, repinBody, readObject, item_mapValues]
      change _ = _ <$> (item members "final_operation" (readEnum FinalOperationV2) >>= _)
      cases item members "final_operation" (readEnum FinalOperationV2) with
      | error e => rfl
      | ok finalOperation =>
          cases finalOperation with
          | signedSum =>
              simp only [bind, Except.bind, terms]
              cases item members "terms" fun value =>
                readArray (buildTerm buildExpressionV2) (repinMember "terms" value) <;> rfl
          | identity =>
              simp only [bind, Except.bind, expr "expr" (by decide)]
              cases item members "expr" fun value =>
                buildExpressionV2 (repinMember "expr" value) <;> rfl
          | ratio =>
              simp only [expr "numerator" (by decide), expr "denominator" (by decide)]
              change _ = _ <$> (item members "numerator" _ >>= fun _ =>
                item members "denominator" _ >>= fun _ =>
                  item members "zero_denominator" (readEnum ZeroDenominator) >>= _)
              cases item members "numerator" fun value =>
                  buildExpressionV2 (repinMember "numerator" value) <;>
                cases item members "denominator" fun value =>
                  buildExpressionV2 (repinMember "denominator" value) <;>
                cases item members "zero_denominator" (readEnum ZeroDenominator) <;> rfl
          | difference =>
              simp only [expr "minuend" (by decide), expr "subtrahend" (by decide)]
              cases item members "minuend" fun value =>
                  buildExpressionV2 (repinMember "minuend" value) <;>
                cases item members "subtrahend" fun value =>
                  buildExpressionV2 (repinMember "subtrahend" value) <;> rfl
  | _ => rfl

theorem buildProposal_eq {d : ProposalDocument} (shape : Shape.proposalV3 d)
    (free : documentSelectionFree d) :
    buildProposal buildExpressionV3 d = (·.atV3) <$> buildProposal buildExpressionV2 (repin d) := by
  obtain ⟨members, rfl⟩ := Document.Shape.exists_dict shape
  have body : item members "body" (buildBody buildExpressionV3) =
      (·.map (·.atV3)) <$> item members "body" fun value =>
        buildBody buildExpressionV2 (repinValue "body" value) :=
    item_map fun value hget => buildBody_eq (by simpa using Members.of_all free hget)
  have expected : optional (members.mapValues repinValue) "expected_output" buildExpectedOutput =
      optional members "expected_output" buildExpectedOutput := by
    simp only [optional, Members.get?_mapValues]
    cases members.get? "expected_output" <;> rfl
  have allocation : itemD (members.mapValues repinValue) "allocation_policy_ref" "" readString =
      itemD members "allocation_policy_ref" "" readString := by
    simp only [itemD, Members.get?_mapValues]
    cases members.get? "allocation_policy_ref" <;> rfl
  have pinned : (item members "formula_schema_version" fun value =>
      readInteger (repinValue "formula_schema_version" value)) = .ok 2 :=
    item_mapValues.symm.trans
      (pin_of_shape (Shape.proposalV2_repin shape) List.mem_cons_self rfl)
  have version : item members "formula_schema_version" readInteger = .ok 3 :=
    pin_of_shape shape List.mem_cons_self rfl
  simp only [buildProposal, repin, readObject, version, body, item_mapValues, pinned,
    expected, allocation]
  change _ = _ <$> (_ >>= fun _ => item members "operation_grammar_version" readInteger >>= fun _ =>
    item members "canonicalization_version" readInteger >>= fun _ =>
    item members "grain" buildGrain >>= fun _ => item members "body" _ >>= fun _ =>
    item members "parameters" (readArray buildParameter) >>= fun _ =>
    item members "decimal" buildDecimal >>= _)
  cases item members "operation_grammar_version" readInteger <;>
    cases item members "canonicalization_version" readInteger <;>
    cases item members "grain" buildGrain <;>
    cases item members "body" fun value =>
      buildBody buildExpressionV2 (repinValue "body" value) <;>
    cases item members "parameters" (readArray buildParameter) <;>
    cases item members "decimal" buildDecimal <;>
    cases optional members "expected_output" buildExpectedOutput <;>
    cases itemD members "allocation_policy_ref" "" readString <;> rfl

/-- What version 2's gate asks of the grain's keys and the terms' names. -/
structure KeysAndNamesPass {Expr : Type} (p : TypedFormulaProposal Expr) : Prop where
  keys : checkGrainKeys p.grain.keys = .ok ()
  unique : p.body.termNames.Nodup
  named : ∀ name ∈ p.body.termNames, strip name ≠ ""

/-- Every expression passes `_check_expression_v2`. -/
def ExpressionsPass (p : TypedFormulaProposalV3) : Prop :=
  ∀ (i : ℕ) (expr : AggregateExpressionV3), p.body.expressions[i]? = some expr →
    checkExpressionV2 expr.toAggregateExpressionV2 s!"body.expr[{i}]" (declared p.parameters) =
      .ok ()

theorem FormulaBody.expressions_map {A B : Type} (f : A → B) (body : FormulaBody A) :
    (body.map f).expressions = body.expressions.map f := by
  cases body <;> simp [map, expressions, SignedTerm.map, Function.comp_def]

theorem checkSelections_atV3 (e : AggregateExpressionV2) (path : String) :
    checkSelections e.atV3 path = .ok () := by
  simp [checkSelections, AggregateExpressionV2.atV3, each, eachFrom, check_bind_eq_ok]

theorem keysAndNamesPass_atV3 {p : TypedFormulaProposalV2} :
    KeysAndNamesPass p.atV3 ↔ KeysAndNamesPass p := by
  have names : p.atV3.body.termNames = p.body.termNames := by
    cases h : p.body <;>
      simp [TypedFormulaProposal.atV3, h, FormulaBody.map, FormulaBody.termNames, SignedTerm.map]
  constructor
  · rintro ⟨keys, unique, named⟩
    exact ⟨keys, names ▸ unique, names ▸ named⟩
  · rintro ⟨keys, unique, named⟩
    exact ⟨keys, names ▸ unique, names ▸ named⟩

theorem validateSemanticsV3_iff {p : TypedFormulaProposalV2} :
    validateSemanticsV3 p.atV3 = .ok () ↔
      p.operationGrammarVersion = operationGrammarVersionV2 ∧
        p.canonicalizationVersion = canonicalizationVersionV2 ∧ ExpressionsPass p.atV3 := by
  have expressions : (∀ (i : ℕ) (expr : AggregateExpressionV3),
      p.atV3.body.expressions[i]? = some expr →
      checkExpressionV2 expr.toAggregateExpressionV2 s!"body.expr[{i}]" (declared p.parameters) =
        .ok () ∧ checkSelections expr s!"body.expr[{i}]" = .ok ()) ↔ ExpressionsPass p.atV3 := by
    refine forall_congr' fun i => forall_congr' fun expr => imp_congr_right fun hexpr => ?_
    rw [TypedFormulaProposal.atV3, FormulaBody.expressions_map, List.getElem?_map,
      Option.map_eq_some_iff] at hexpr
    obtain ⟨e, _, rfl⟩ := hexpr
    exact and_iff_left (checkSelections_atV3 e _)
  simp only [validateSemanticsV3, check_bind_eq_ok, ensure_eq_ok, each_eq_ok]
  rw [← expressions]
  constructor
  · rintro ⟨_, grammar, canonical, pass⟩
    exact ⟨grammar, canonical, pass⟩
  · rintro ⟨grammar, canonical, pass⟩
    exact ⟨rfl, grammar, canonical, pass⟩

theorem validateSemanticsV2_iff {p : TypedFormulaProposalV2}
    (version : p.formulaSchemaVersion = 2)
    (terms : checkTerms p.body = .ok () ↔ p.body.termNames.Nodup ∧
      ∀ name ∈ p.body.termNames, strip name ≠ "") :
    validateSemanticsV2 p = .ok () ↔
      p.operationGrammarVersion = operationGrammarVersionV2 ∧
        p.canonicalizationVersion = canonicalizationVersionV2 ∧ KeysAndNamesPass p ∧
        ExpressionsPass p.atV3 := by
  have expressions : (∀ (i : ℕ) (expr : AggregateExpressionV2),
      p.body.expressions[i]? = some expr →
      checkExpressionV2 expr s!"body.expr[{i}]" (declared p.parameters) = .ok ()) ↔
        ExpressionsPass p.atV3 := by
    simp [ExpressionsPass, TypedFormulaProposal.atV3, FormulaBody.expressions_map,
      AggregateExpressionV2.atV3]
  simp only [validateSemanticsV2, check_bind_eq_ok, ensure_eq_ok, each_eq_ok, terms, version,
    formulaSchemaVersionV2, expressions]
  constructor
  · rintro ⟨_, grammar, canonical, keys, ⟨unique, named⟩, pass⟩
    exact ⟨grammar, canonical, ⟨keys, unique, named⟩, pass⟩
  · rintro ⟨grammar, canonical, ⟨keys, unique, named⟩, pass⟩
    exact ⟨trivial, grammar, canonical, keys, ⟨unique, named⟩, pass⟩

/-- The two parsers accept the document, the one as it is and the other re-pinned, or both
    refuse it, and the proposals they accept have the same fields. -/
structure VersionsAgree (d : ProposalDocument) : Prop where
  accept : (∃ p, parseProposalV3 d = .ok p) ↔ ∃ q, parseProposalV2 (repin d) = .ok q
  fields : ∀ p q, parseProposalV3 d = .ok p → parseProposalV2 (repin d) = .ok q → p = q.atV3

theorem parseProposalV3_eq_ok {d : ProposalDocument} (shape : Shape.proposalV3 d)
    (free : documentSelectionFree d) {p : TypedFormulaProposalV3} :
    parseProposalV3 d = .ok p ↔ ∃ q, buildProposal buildExpressionV2 (repin d) = .ok q ∧
      q.atV3 = p ∧ validateSemanticsV3 q.atV3 = .ok () := by
  rw [parseProposalV3, checked_eq_ok, buildProposal_eq shape free, map_eq_ok]
  constructor
  · rintro ⟨_, ⟨q, hq, rfl⟩, valid⟩
    exact ⟨q, hq, rfl, valid⟩
  · rintro ⟨q, hq, rfl, valid⟩
    exact ⟨shape, ⟨q, hq, rfl⟩, valid⟩

/-- A document of version 3 without selections is read as its version 2 is, unless version 3
    accepts keys or term names that version 2 refuses. -/
theorem versionsAgree_iff {d : ProposalDocument} (shape : Shape.proposalV3 d)
    (free : documentSelectionFree d) :
    VersionsAgree d ↔ ∀ p, buildProposal buildExpressionV3 d = .ok p →
      KeysAndNamesPass p ∨ ¬ ExpressionsPass p := by
  have shape₂ := Shape.proposalV2_repin shape
  have gates : ∀ q, buildProposal buildExpressionV2 (repin d) = .ok q →
      (validateSemanticsV3 q.atV3 = .ok () ↔ ExpressionsPass q.atV3) ∧
        (validateSemanticsV2 q = .ok () ↔ KeysAndNamesPass q.atV3 ∧ ExpressionsPass q.atV3) := by
    intro q built
    obtain ⟨version, grammar, canonical, body, hbody, hbuilt⟩ := built_of_shape shape₂ built
    rw [validateSemanticsV2_iff version (checkTerms_of_shape hbody hbuilt), validateSemanticsV3_iff,
      keysAndNamesPass_atV3]
    simp [grammar, canonical, operationGrammarVersionV2, canonicalizationVersionV2]
  constructor
  · intro agree p built
    rw [buildProposal_eq shape free] at built
    obtain ⟨q, hq, rfl⟩ := map_eq_ok.mp built
    by_cases pass : ExpressionsPass q.atV3
    · have accepted := agree.accept.mp ⟨q.atV3, (parseProposalV3_eq_ok shape free).mpr
        ⟨q, hq, rfl, (gates q hq).1.mpr pass⟩⟩
      obtain ⟨q', h'⟩ := accepted
      obtain ⟨_, hq', valid⟩ := parseProposalV2_eq_ok.mp h'
      cases hq.symm.trans hq'
      exact Or.inl ((gates q hq).2.mp valid).1
    · exact Or.inr pass
  · intro h
    constructor
    · constructor
      · rintro ⟨p, hp⟩
        obtain ⟨q, hq, _, valid⟩ := (parseProposalV3_eq_ok shape free).mp hp
        have pass := (gates q hq).1.mp valid
        have built : buildProposal buildExpressionV3 d = .ok q.atV3 := by
          rw [buildProposal_eq shape free, hq]
          rfl
        have names := (h q.atV3 built).resolve_right (not_not_intro pass)
        exact ⟨q, parseProposalV2_eq_ok.mpr ⟨shape₂, hq, (gates q hq).2.mpr ⟨names, pass⟩⟩⟩
      · rintro ⟨q, hq⟩
        obtain ⟨_, hq, valid⟩ := parseProposalV2_eq_ok.mp hq
        have pass := ((gates q hq).2.mp valid).2
        exact ⟨q.atV3, (parseProposalV3_eq_ok shape free).mpr
          ⟨q, hq, rfl, (gates q hq).1.mpr pass⟩⟩
    · intro p q hp hq
      obtain ⟨q', hq', rfl, _⟩ := (parseProposalV3_eq_ok shape free).mp hp
      obtain ⟨_, hq, _⟩ := parseProposalV2_eq_ok.mp hq
      cases hq'.symm.trans hq
      rfl

theorem versionsAgree_iff_count :
    VersionsAgree (countDocument 3 "UTC" "bank::public.txn.account_id" []) := by
  refine (versionsAgree_iff (by decide +kernel) (by decide +kernel)).mpr fun p built => Or.inl ?_
  have computed : (buildProposal buildExpressionV3
      (countDocument 3 "UTC" "bank::public.txn.account_id" [])).toOption.all (fun p =>
        (checkGrainKeys p.grain.keys).toOption.isSome && p.body.termNames = []) = true := by
    decide +kernel
  simp only [built, Except.toOption, Option.all_some, Bool.and_eq_true, decide_eq_true_eq] at computed
  obtain ⟨keys, names⟩ := computed
  obtain ⟨_, keys⟩ := isSome_toOption.mp keys
  exact ⟨keys, by simp [names], by simp [names]⟩

/-- A grain keyed by a table: version 3 accepts what version 2 refuses. -/
theorem table_key_accepted : ¬ ∀ d : ProposalDocument, Shape.proposalV3 d = true →
    documentSelectionFree d = true → VersionsAgree d := by
  intro all
  let d := countDocument 3 "UTC" "bank::public.txn" []
  have agree : VersionsAgree d := all d (by decide +kernel) (by decide +kernel)
  have accepted : (parseProposalV3 d).toOption.isSome = true := by decide +kernel
  have refused : ¬ (parseProposalV2 (repin d)).toOption.isSome = true := by decide +kernel
  exact refused (isSome_toOption.mpr (agree.accept.mp (isSome_toOption.mp accepted)))

end FeatureGen.Formula
