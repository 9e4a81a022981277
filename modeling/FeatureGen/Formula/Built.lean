import FeatureGen.Formula.Parse

/-! # What is built of a document in shape

The values the parsers build keep what the shape says of their documents: the pins,
the body of the document's final operation, and the documents its terms and
expressions are built of.
-/

namespace FeatureGen.Formula

open Checks Document Overlay

namespace Shape

/-- The document's `final_operation` is the given string. -/
def HasOperation (operation : String) (d : ProposalDocument) : Prop :=
  ∃ members, d = .dict members ∧ members.get? "final_operation" = some (.str operation)

theorem HasOperation.unique {a b : String} {d : ProposalDocument} (ha : HasOperation a d)
    (hb : HasOperation b d) : a = b := by
  obtain ⟨members, rfl, ha⟩ := ha
  obtain ⟨members', hd, hb⟩ := hb
  cases hd
  simpa [ha] using hb

theorem hasOperation {properties : List (String × Document.Shape Numeral)}
    {required : List String} {operation : String} {d : ProposalDocument}
    (h : Document.Shape.object (("final_operation", .enum [operation]) :: properties)
      ("final_operation" :: required) d) : HasOperation operation d := by
  obtain ⟨members, rfl⟩ := Document.Shape.exists_dict h
  obtain ⟨value, hget, hvalue⟩ :=
    Document.Shape.exists_of_required h List.mem_cons_self rfl
  cases value with
  | str s =>
      have hs : s = operation := by simpa [Document.Shape.enum] using hvalue
      exact ⟨members, rfl, hs ▸ hget⟩
  | _ => cases hvalue

theorem formulaBody_iff {expression : Document.Shape Numeral} {d : ProposalDocument} :
    formulaBody expression d = true ↔ unaryBody expression d = true ∨
      ratioBody expression d = true ∨ diffBody expression d = true ∨
      compositeBody expression d = true := by
  have apart : ∀ {a b : String} {P Q : Prop}, (P → HasOperation a d) → (Q → HasOperation b d) →
      a ≠ b → ¬ (P ∧ Q) := fun ha hb hne h => hne ((ha h.1).unique (hb h.2))
  have unary : unaryBody expression d → HasOperation "identity" d := hasOperation
  have ratio : ratioBody expression d → HasOperation "ratio" d := hasOperation
  have diff : diffBody expression d → HasOperation "difference" d := hasOperation
  have composite : compositeBody expression d → HasOperation "signed_sum" d := hasOperation
  rw [formulaBody, Document.Shape.oneOf_iff]
  · simp
  · simp only [List.pairwise_cons, List.mem_cons, List.not_mem_nil, or_false, forall_eq_or_imp,
      forall_eq, false_implies, implies_true, List.Pairwise.nil, and_true]
    exact ⟨⟨apart unary ratio (by decide), apart unary diff (by decide),
      apart unary composite (by decide)⟩, ⟨apart ratio diff (by decide),
      apart ratio composite (by decide)⟩, apart diff composite (by decide)⟩

end Shape

/-- The shape of the bodies with a final operation. -/
def Shape.bodyOf (expression : Document.Shape Numeral) :
    FinalOperationV2 → Document.Shape Numeral
  | .identity => unaryBody expression
  | .ratio => ratioBody expression
  | .difference => diffBody expression
  | .signedSum => compositeBody expression

theorem item_eq_ok {α : Type} {members : Document.Members Numeral} {key : String}
    {read : ProposalDocument → Except SchemaError α} {a : α} :
    item members key read = .ok a ↔ ∃ value, members.get? key = some value ∧ read value = .ok a := by
  unfold item
  cases members.get? key <;> simp

theorem read_of_shape {α : Type} {properties : List (String × Document.Shape Numeral)}
    {required : List String} {members : Document.Members Numeral}
    (shape : Document.Shape.object properties required (.dict members)) {key : String}
    {expression : Document.Shape Numeral} (hlookup : properties.lookup key = some expression)
    {read : ProposalDocument → Except SchemaError α} {a : α}
    (h : item members key read = .ok a) :
    ∃ value, expression value = true ∧ read value = .ok a := by
  obtain ⟨value, hget, hread⟩ := item_eq_ok.mp h
  exact ⟨value, Document.Shape.of_get? shape hget hlookup, hread⟩

theorem pin_of_shape {properties : List (String × Document.Shape Numeral)} {required : List String}
    {members : Document.Members Numeral} (shape : Document.Shape.object properties required
      (.dict members)) {key : String} {n : ℤ} (hkey : key ∈ required)
    (hlookup : properties.lookup key = some (Shape.const n)) :
    item members key readInteger = .ok n := by
  obtain ⟨value, hget, hvalue⟩ := Document.Shape.exists_of_required shape hkey hlookup
  cases value with
  | num m =>
      have hm : m.value = n := by simpa [Shape.const, Document.Shape.number] using hvalue
      simp [item, hget, readInteger, Numeral.integer?, hm]
  | _ => cases hvalue

theorem operation_of_built {Expr : Type} {build : ProposalDocument → Except SchemaError Expr}
    {members : Document.Members Numeral} {body : FormulaBody Expr}
    (built : buildBody build (.dict members) = .ok body) :
    item members "final_operation" (readEnum FinalOperationV2) = .ok body.finalOperation := by
  obtain ⟨operation, hoperation, h⟩ := bind_eq_ok.mp built
  rw [hoperation]
  cases operation with
  | signedSum =>
      obtain ⟨terms, _, rfl⟩ := map_eq_ok.mp h
      rfl
  | identity =>
      obtain ⟨expr, _, rfl⟩ := map_eq_ok.mp h
      rfl
  | ratio =>
      obtain ⟨numerator, _, h⟩ := bind_eq_ok.mp h
      obtain ⟨denominator, _, h⟩ := bind_eq_ok.mp h
      obtain ⟨zeroDenominator, _, h⟩ := bind_eq_ok.mp h
      cases h
      rfl
  | difference =>
      obtain ⟨minuend, _, h⟩ := bind_eq_ok.mp h
      obtain ⟨subtrahend, _, h⟩ := bind_eq_ok.mp h
      cases h
      rfl

theorem bodyOf_of_built {expression : Document.Shape Numeral} {Expr : Type}
    {build : ProposalDocument → Except SchemaError Expr} {d : ProposalDocument}
    {body : FormulaBody Expr} (shape : Shape.formulaBody expression d)
    (built : buildBody build d = .ok body) : Shape.bodyOf expression body.finalOperation d := by
  have same : ∀ op : FinalOperationV2, Shape.HasOperation (StrEnum.value op) d →
      op = body.finalOperation := by
    rintro op ⟨members, rfl, hget⟩
    obtain ⟨value, hvalue, hread⟩ := item_eq_ok.mp (operation_of_built built)
    cases hget.symm.trans hvalue
    rw [readEnum, StrEnum.ofValue?_eq_some.mpr rfl] at hread
    exact Except.ok.inj hread
  rcases Shape.formulaBody_iff.mp shape with h | h | h | h
  · exact same .identity (Shape.hasOperation h) ▸ h
  · exact same .ratio (Shape.hasOperation h) ▸ h
  · exact same .difference (Shape.hasOperation h) ▸ h
  · exact same .signedSum (Shape.hasOperation h) ▸ h

theorem terms_of_shape {expression : Document.Shape Numeral} {Expr : Type}
    {build : ProposalDocument → Except SchemaError Expr} {d : ProposalDocument}
    {terms : List (SignedTerm Expr)} (shape : Shape.formulaBody expression d)
    (built : buildBody build d = .ok (.composite terms)) :
    ∃ ds : List ProposalDocument, 2 ≤ ds.length ∧ (∀ t ∈ ds, Shape.term expression t) ∧
      List.Forall₂ (fun t term => buildTerm build t = .ok term) ds terms := by
  have composite : Shape.compositeBody expression d := bodyOf_of_built shape built
  obtain ⟨members, rfl⟩ := Document.Shape.exists_dict composite
  obtain ⟨operation, hoperation, h⟩ := bind_eq_ok.mp built
  cases (operation_of_built built).symm.trans hoperation
  obtain ⟨read, hread, hterms⟩ := map_eq_ok.mp h
  cases hterms
  obtain ⟨value, hvalue, hread⟩ := read_of_shape composite rfl hread
  cases value with
  | list items =>
      obtain ⟨hlength, hall⟩ := Document.Shape.array_list.mp hvalue
      exact ⟨items.toList, hlength, hall, mapM_eq_ok.mp hread⟩
  | _ => cases hvalue

theorem expressions_of_shape {expression : Document.Shape Numeral} {Expr : Type}
    {build : ProposalDocument → Except SchemaError Expr} {d : ProposalDocument}
    {body : FormulaBody Expr} (shape : Shape.formulaBody expression d)
    (built : buildBody build d = .ok body) :
    ∀ expr ∈ body.expressions, ∃ e, expression e = true ∧ build e = .ok expr := by
  have inShape := bodyOf_of_built shape built
  have isDict : ∃ members, d = .dict members := by
    cases body <;> exact Document.Shape.exists_dict inShape
  obtain ⟨members, rfl⟩ := isDict
  obtain ⟨operation, hoperation, h⟩ := bind_eq_ok.mp built
  cases (operation_of_built built).symm.trans hoperation
  intro expr hexpr
  cases body with
  | unary e =>
      obtain ⟨_, hread, heq⟩ := map_eq_ok.mp h
      cases heq
      rw [FormulaBody.expressions, List.mem_singleton] at hexpr
      exact hexpr ▸ read_of_shape inShape rfl hread
  | ratio numerator denominator zeroDenominator =>
      obtain ⟨_, hnumerator, h⟩ := bind_eq_ok.mp h
      obtain ⟨_, hdenominator, h⟩ := bind_eq_ok.mp h
      obtain ⟨_, _, h⟩ := bind_eq_ok.mp h
      cases h
      simp only [FormulaBody.expressions, List.mem_cons, List.not_mem_nil, or_false] at hexpr
      rcases hexpr with rfl | rfl
      · exact read_of_shape inShape rfl hnumerator
      · exact read_of_shape inShape rfl hdenominator
  | diff minuend subtrahend =>
      obtain ⟨_, hminuend, h⟩ := bind_eq_ok.mp h
      obtain ⟨_, hsubtrahend, h⟩ := bind_eq_ok.mp h
      cases h
      simp only [FormulaBody.expressions, List.mem_cons, List.not_mem_nil, or_false] at hexpr
      rcases hexpr with rfl | rfl
      · exact read_of_shape inShape rfl hminuend
      · exact read_of_shape inShape rfl hsubtrahend
  | composite terms =>
      obtain ⟨ds, _, hall, hterms⟩ := terms_of_shape shape built
      obtain ⟨term, hterm, rfl⟩ := List.mem_map.mp hexpr
      obtain ⟨t, ht, hbuilt⟩ := exists_of_mem_forall₂ hterms hterm
      have termShape := hall t ht
      obtain ⟨termMembers, rfl⟩ := Document.Shape.exists_dict termShape
      obtain ⟨_, _, h⟩ := bind_eq_ok.mp hbuilt
      obtain ⟨_, _, h⟩ := bind_eq_ok.mp h
      obtain ⟨_, hread, h⟩ := bind_eq_ok.mp h
      cases h
      exact read_of_shape termShape rfl hread

theorem sign_of_shape {expression : Document.Shape Numeral} {Expr : Type}
    {build : ProposalDocument → Except SchemaError Expr} {d : ProposalDocument}
    {term : SignedTerm Expr} (shape : Shape.term expression d)
    (built : buildTerm build d = .ok term) : term.sign = 1 ∨ term.sign = -1 := by
  obtain ⟨members, rfl⟩ := Document.Shape.exists_dict shape
  obtain ⟨value, hget, hvalue⟩ := Document.Shape.exists_of_required shape
    (List.mem_cons_of_mem _ List.mem_cons_self) rfl
  obtain ⟨name, _, h⟩ := bind_eq_ok.mp built
  obtain ⟨sign, hsign, h⟩ := bind_eq_ok.mp h
  obtain ⟨expr, _, h⟩ := bind_eq_ok.mp h
  cases h
  obtain ⟨value', hget', hread⟩ := item_eq_ok.mp hsign
  cases hget.symm.trans hget'
  cases value with
  | num n =>
      have hn : n.value = 1 ∨ n.value = -1 := by
        simpa [Document.Shape.number] using hvalue
      rcases hn with hn | hn
      · exact Or.inl (by simpa [readInteger, Numeral.integer?, hn] using hread.symm)
      · exact Or.inr (by simpa [readInteger, Numeral.integer?, hn] using hread.symm)
  | _ => cases hvalue

theorem checkTerms_of_shape {expression : Document.Shape Numeral} {Expr : Type}
    {build : ProposalDocument → Except SchemaError Expr} {d : ProposalDocument}
    {body : FormulaBody Expr} (shape : Shape.formulaBody expression d)
    (built : buildBody build d = .ok body) :
    checkTerms body = .ok () ↔ body.termNames.Nodup ∧ ∀ name ∈ body.termNames, strip name ≠ "" := by
  cases body with
  | composite terms =>
      obtain ⟨ds, hlength, hall, hterms⟩ := terms_of_shape shape built
      have two : 2 ≤ terms.length := hterms.length_eq ▸ hlength
      have signs : ∀ term ∈ terms, term.sign = 1 ∨ term.sign = -1 := by
        intro term hterm
        obtain ⟨t, ht, hbuilt⟩ := exists_of_mem_forall₂ hterms hterm
        exact sign_of_shape (hall t ht) hbuilt
      simp only [checkTerms, check_bind_eq_ok, ensure_eq_ok, FormulaBody.termNames]
      exact ⟨fun h => h.2.1, fun h => ⟨two, h, signs⟩⟩
  | _ => simp [checkTerms, FormulaBody.termNames]

theorem built_of_shape {version : ℤ} {expression : Document.Shape Numeral} {Expr : Type}
    {build : ProposalDocument → Except SchemaError Expr} {d : ProposalDocument}
    {p : TypedFormulaProposal Expr} (shape : Shape.proposal version expression d)
    (built : buildProposal build d = .ok p) :
    p.formulaSchemaVersion = version ∧ p.operationGrammarVersion = 1 ∧
      p.canonicalizationVersion = 1 ∧
        ∃ body, Shape.formulaBody expression body ∧ buildBody build body = .ok p.body := by
  obtain ⟨members, rfl⟩ := Document.Shape.exists_dict shape
  obtain ⟨schema, hschema, h⟩ := bind_eq_ok.mp built
  obtain ⟨grammar, hgrammar, h⟩ := bind_eq_ok.mp h
  obtain ⟨canonical, hcanonical, h⟩ := bind_eq_ok.mp h
  obtain ⟨grain, _, h⟩ := bind_eq_ok.mp h
  obtain ⟨body, hbody, h⟩ := bind_eq_ok.mp h
  obtain ⟨parameters, _, h⟩ := bind_eq_ok.mp h
  obtain ⟨decimal, _, h⟩ := bind_eq_ok.mp h
  obtain ⟨expected, _, h⟩ := bind_eq_ok.mp h
  obtain ⟨allocation, _, h⟩ := bind_eq_ok.mp h
  cases h
  obtain ⟨value, hget, hvalue⟩ := item_eq_ok.mp hbody
  have pins : schema = version ∧ grammar = 1 ∧ canonical = 1 :=
    ⟨Except.ok.inj (hschema.symm.trans (pin_of_shape shape (by decide) rfl)),
      Except.ok.inj (hgrammar.symm.trans (pin_of_shape shape (by decide) rfl)),
      Except.ok.inj (hcanonical.symm.trans (pin_of_shape shape (by decide) rfl))⟩
  exact ⟨pins.1, pins.2.1, pins.2.2, value, Document.Shape.of_get? shape hget rfl, hvalue⟩

theorem parseProposalV2_eq_ok {d : ProposalDocument} {q : TypedFormulaProposalV2} :
    parseProposalV2 d = .ok q ↔ Shape.proposalV2 d = true ∧
      buildProposal buildExpressionV2 d = .ok q ∧ validateSemanticsV2 q = .ok () := checked_eq_ok

end FeatureGen.Formula
