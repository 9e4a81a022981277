import FeatureGen.Formula.Canonical

/-! # Canonical texts identify proposals

Every plain tree determines the value it is the projection of: the fields of one
class by their names, the classes of a union by a field of their own. So does the
text of an accepted proposal, across the two versions.
-/

namespace FeatureGen.Formula

open Checks Document Overlay

section Leaves

theorem plainOption_str_inj {a b : Option String} :
    plainOption Document.str a = plainOption Document.str b ↔ a = b :=
  plainOption_inj (fun _ _ h => by simpa using h) (by simp)

theorem plainOption_num_inj {a b : Option ℚ} :
    plainOption Document.num a = plainOption Document.num b ↔ a = b :=
  plainOption_inj (fun _ _ h => by simpa using h) (by simp)

theorem plainList_str_inj {a b : List String} :
    plainList Document.str a = plainList Document.str b ↔ a = b :=
  plainList_inj fun _ _ h => by simpa using h

theorem object_cons_inj {key : String} {a b : Plain} {as bs : List (String × Plain)} :
    Document.object ((key, a) :: as) = Document.object ((key, b) :: bs) ↔
      a = b ∧ Document.object as = Document.object bs := by
  simp [Document.object, Members.ofList]

theorem TypedLiteral.plain_injective : Function.Injective TypedLiteral.plain := by
  intro a b h
  cases a
  cases b
  simpa [plain, object_cons_inj, plainEnum_inj] using h

theorem ParameterRef.plain_injective : Function.Injective ParameterRef.plain := by
  intro a b h
  cases a
  cases b
  simpa [plain, object_cons_inj] using h

theorem FilterPredicate.plain_injective : Function.Injective FilterPredicate.plain := by
  intro a b h
  have literal : ∀ {a b : Option TypedLiteral},
      plainOption TypedLiteral.plain a = plainOption TypedLiteral.plain b ↔ a = b :=
    plainOption_inj TypedLiteral.plain_injective fun _ => by simp [TypedLiteral.plain, object]
  have param : ∀ {a b : Option ParameterRef},
      plainOption ParameterRef.plain a = plainOption ParameterRef.plain b ↔ a = b :=
    plainOption_inj ParameterRef.plain_injective fun _ => by simp [ParameterRef.plain, object]
  have set : ∀ {a b : Option (List TypedLiteral)},
      plainOption (plainList TypedLiteral.plain) a = plainOption (plainList TypedLiteral.plain) b ↔
        a = b :=
    plainOption_inj (fun _ _ h => (plainList_inj TypedLiteral.plain_injective).mp h)
      fun _ => by simp [plainList, array]
  cases a
  cases b
  simp only [plain, object_cons_inj, plainEnum_inj, literal, param, set, Document.str.injEq] at h
  obtain ⟨_, rfl, rfl, rfl, rfl, rfl, _⟩ := h
  rfl

theorem FilterNode.plains_eq (children : List FilterNode) :
    plains children = Items.ofList (children.map plain) := by
  induction children with
  | nil => rfl
  | cons child children ih => simp [plains, Items.ofList, ih]

theorem eq_of_map_eq {α β : Type} {f : α → β} {as bs : List α}
    (inj : ∀ a ∈ as, ∀ b, f a = f b → a = b) (h : as.map f = bs.map f) : as = bs := by
  induction as generalizing bs with
  | nil => simpa [eq_comm] using h
  | cons a as ih =>
      cases bs with
      | nil => simp at h
      | cons b bs =>
          simp only [List.map_cons, List.cons.injEq] at h
          rw [inj a List.mem_cons_self b h.1,
            ih (fun a' ha' => inj a' (List.mem_cons_of_mem _ ha')) h.2]

theorem FilterNode.plain_injective : Function.Injective FilterNode.plain := by
  intro a
  induction a with
  | predicate node =>
      intro b h
      cases b with
      | predicate node' => exact congrArg _ (FilterPredicate.plain_injective h)
      | bool op children => simp [plain, FilterPredicate.plain, object, Members.ofList] at h
  | bool op children ih =>
      intro b h
      cases b with
      | predicate node => simp [plain, FilterPredicate.plain, object, Members.ofList] at h
      | bool op' children' =>
          simp only [plain, object_cons_inj, plainEnum_inj, plains_eq, Document.list.injEq,
            Items.ofList_injective.eq_iff, and_true, true_and] at h
          obtain ⟨hchildren, rfl⟩ := h
          rw [eq_of_map_eq (fun child hchild _ => @ih child hchild _) hchildren]

theorem FilterNode.plain_ne_null (node : FilterNode) : node.plain ≠ .null := by
  cases node <;> simp [plain, FilterPredicate.plain, object]

theorem WindowPolicyV2.plain_injective : Function.Injective WindowPolicyV2.plain := by
  intro a b h
  cases a
  cases b
  simp only [plain, object_cons_inj, plainEnum_inj, plainInt_inj, Document.str.injEq] at h
  obtain ⟨rfl, rfl, rfl, rfl, rfl, rfl, rfl, rfl, rfl, rfl, _⟩ := h
  rfl

theorem AuthorityRefsV2.plain_injective : Function.Injective AuthorityRefsV2.plain := by
  intro a b h
  cases a
  cases b
  simp only [plain, object_cons_inj, Document.str.injEq] at h
  obtain ⟨rfl, rfl, rfl, rfl, _⟩ := h
  rfl

theorem SourceRelation.plain_injective : Function.Injective SourceRelation.plain := by
  intro a b h
  cases a
  cases b
  simpa [plain, object_cons_inj] using h

theorem SemanticRowSelectionV1.plain_injective :
    Function.Injective SemanticRowSelectionV1.plain := by
  intro a b h
  cases a
  cases b
  simp only [plain, object_cons_inj, plainEnum_inj, Document.str.injEq] at h
  obtain ⟨rfl, rfl, rfl, _⟩ := h
  rfl

theorem Grain.plain_injective : Function.Injective Grain.plain := by
  intro a b h
  cases a
  cases b
  simp only [plain, object_cons_inj, plainList_str_inj, Document.str.injEq] at h
  obtain ⟨rfl, rfl, _⟩ := h
  rfl

theorem ParameterDecl.plain_injective : Function.Injective ParameterDecl.plain := by
  intro a b h
  have set : ∀ {a b : Option (List String)},
      plainOption (plainList Document.str) a = plainOption (plainList Document.str) b ↔ a = b :=
    plainOption_inj (fun _ _ h => plainList_str_inj.mp h) fun _ => by simp [plainList, array]
  cases a
  cases b
  simp only [plain, object_cons_inj, plainEnum_inj, plainOption_str_inj, set, Document.str.injEq,
    Document.bool.injEq] at h
  obtain ⟨rfl, rfl, rfl, rfl, rfl, rfl, rfl, rfl, _⟩ := h
  rfl

theorem DecimalPolicy.plain_injective : Function.Injective DecimalPolicy.plain := by
  intro a b h
  cases a
  cases b
  simp only [plain, object_cons_inj, plainEnum_inj, plainInt_inj] at h
  obtain ⟨rfl, rfl, rfl, rfl, _⟩ := h
  rfl

theorem ExpectedOutput.plain_injective : Function.Injective ExpectedOutput.plain := by
  intro a b h
  cases a
  cases b
  simp only [plain, object_cons_inj, plainOption_str_inj] at h
  obtain ⟨rfl, rfl, rfl, _⟩ := h
  rfl

end Leaves

theorem filter_inj {a b : Option FilterNode} :
    plainOption FilterNode.plain a = plainOption FilterNode.plain b ↔ a = b :=
  plainOption_inj FilterNode.plain_injective FilterNode.plain_ne_null

theorem authorityRefs_inj {a b : Option AuthorityRefsV2} :
    plainOption AuthorityRefsV2.plain a = plainOption AuthorityRefsV2.plain b ↔ a = b :=
  plainOption_inj AuthorityRefsV2.plain_injective fun _ => by simp [AuthorityRefsV2.plain, object]

theorem AggregateExpressionV2.plain_injective : Function.Injective AggregateExpressionV2.plain := by
  intro a b h
  cases a
  cases b
  simp only [plain, object_cons_inj, plainEnum_inj, plainOption_num_inj, plainOption_str_inj,
    filter_inj, authorityRefs_inj, SourceRelation.plain_injective.eq_iff,
    WindowPolicyV2.plain_injective.eq_iff] at h
  obtain ⟨rfl, rfl, rfl, rfl, rfl, rfl, rfl, rfl, _⟩ := h
  rfl

theorem AggregateExpressionV3.plain_injective : Function.Injective AggregateExpressionV3.plain := by
  rintro ⟨⟨_, _, _, _, _, _, _, _⟩, _⟩ ⟨⟨_, _, _, _, _, _, _, _⟩, _⟩ h
  simp only [plain, object_cons_inj, plainEnum_inj, plainOption_num_inj, plainOption_str_inj,
    filter_inj, authorityRefs_inj, plainList_inj SemanticRowSelectionV1.plain_injective,
    SourceRelation.plain_injective.eq_iff, WindowPolicyV2.plain_injective.eq_iff] at h
  obtain ⟨rfl, rfl, rfl, rfl, rfl, rfl, rfl, rfl, rfl, _⟩ := h
  rfl

section Bodies

variable {Expr : Type} {plainExpr : Expr → Plain} (inj : Function.Injective plainExpr)

include inj

theorem SignedTerm.plain_injective : Function.Injective (SignedTerm.plain plainExpr) := by
  intro a b h
  cases a
  cases b
  simp only [plain, object_cons_inj, plainInt_inj, inj.eq_iff, Document.str.injEq] at h
  obtain ⟨rfl, rfl, rfl, _⟩ := h
  rfl

theorem FormulaBody.plain_injective : Function.Injective (FormulaBody.plain plainExpr) := by
  intro a b h
  cases a with
  | unary expr =>
      cases b with
      | unary expr' =>
          simp only [plain, object_cons_inj, inj.eq_iff] at h
          rw [h.1]
      | _ => simp [plain, object, Members.ofList] at h
  | ratio numerator denominator zeroDenominator =>
      cases b with
      | ratio numerator' denominator' zeroDenominator' =>
          simp only [plain, object_cons_inj, inj.eq_iff, Document.str.injEq] at h
          obtain ⟨rfl, _, rfl, rfl, _⟩ := h
          rfl
      | _ => simp [plain, object, Members.ofList] at h
  | diff minuend subtrahend =>
      cases b with
      | diff minuend' subtrahend' =>
          simp only [plain, object_cons_inj, inj.eq_iff] at h
          obtain ⟨_, rfl, rfl, _⟩ := h
          rfl
      | _ => simp [plain, object, Members.ofList] at h
  | composite terms =>
      cases b with
      | composite terms' =>
          simp only [plain, object_cons_inj, plainList_inj (SignedTerm.plain_injective inj)] at h
          obtain ⟨_, rfl, _⟩ := h
          rfl
      | _ => simp [plain, object, Members.ofList] at h

theorem TypedFormulaProposal.plain_injective :
    Function.Injective (TypedFormulaProposal.plain plainExpr) := by
  intro a b h
  have expected : ∀ {a b : Option ExpectedOutput},
      plainOption ExpectedOutput.plain a = plainOption ExpectedOutput.plain b ↔ a = b :=
    plainOption_inj ExpectedOutput.plain_injective fun _ => by simp [ExpectedOutput.plain, object]
  cases a
  cases b
  simp only [plain, object_cons_inj, plainInt_inj, Document.str.injEq, expected,
    (FormulaBody.plain_injective inj).eq_iff, DecimalPolicy.plain_injective.eq_iff,
    Grain.plain_injective.eq_iff, plainList_inj ParameterDecl.plain_injective] at h
  obtain ⟨rfl, rfl, rfl, rfl, rfl, rfl, rfl, rfl, rfl, _⟩ := h
  rfl

end Bodies

def Proposal.version : Proposal → ℤ
  | .v2 p => p.formulaSchemaVersion
  | .v3 p => p.formulaSchemaVersion

theorem Proposal.version_of_accepted {p : Proposal} (h : p.Accepted) :
    (∃ q, p = .v2 q ∧ p.version = 2) ∨ ∃ q, p = .v3 q ∧ p.version = 3 := by
  cases p with
  | v2 q =>
      obtain ⟨d, hd⟩ := h
      obtain ⟨shape, built, _⟩ := parseProposalV2_eq_ok.mp hd
      exact Or.inl ⟨q, rfl, (built_of_shape shape built).1⟩
  | v3 q =>
      obtain ⟨d, hd⟩ := h
      obtain ⟨shape, built, _⟩ := checked_eq_ok.mp hd
      exact Or.inr ⟨q, rfl, (built_of_shape shape built).1⟩

theorem version_of_plain_eq {A B : Type} {plainA : A → Plain} {plainB : B → Plain}
    {p : TypedFormulaProposal A} {q : TypedFormulaProposal B}
    (h : p.plain plainA = q.plain plainB) :
    p.formulaSchemaVersion = q.formulaSchemaVersion := by
  simp only [TypedFormulaProposal.plain, object_cons_inj, plainInt_inj] at h
  exact h.2.2.2.2.2.1

theorem sorted_plainOption {α : Type} {plain : α → Plain} (h : ∀ a, (plain a).sorted = true)
    (a : Option α) : (plainOption plain a).sorted = true := by
  cases a with
  | none => rfl
  | some a => exact h a

theorem sorted_plainList {α : Type} {plain : α → Plain} (h : ∀ a, (plain a).sorted = true)
    (as : List α) : (plainList plain as).sorted = true := by
  rw [plainList, sorted_array]
  intro d hd
  obtain ⟨a, _, rfl⟩ := List.mem_map.mp hd
  exact h a

theorem TypedLiteral.sorted_plain (lit : TypedLiteral) : lit.plain.sorted = true :=
  sorted_object_of ["type", "value"] rfl (by decide) (by simp [plainEnum, sorted])

theorem ParameterRef.sorted_plain (ref : ParameterRef) : ref.plain.sorted = true :=
  sorted_object_of ["name"] rfl (by decide) (by simp [sorted])

theorem FilterPredicate.sorted_plain (node : FilterPredicate) : node.plain.sorted = true :=
  sorted_object_of
    ["kind", "left", "op", "right_literal", "right_param", "right_set"]
    rfl (by decide) (by
    simp [plainEnum, sorted, sorted_plainOption TypedLiteral.sorted_plain,
      sorted_plainOption ParameterRef.sorted_plain,
      sorted_plainOption (sorted_plainList TypedLiteral.sorted_plain)])

theorem FilterNode.sorted_plain (node : FilterNode) : node.plain.sorted = true := by
  induction node with
  | predicate node => exact node.sorted_plain
  | bool op children ih =>
      have hchildren : (plains children).sorted = true := by
        rw [plains_eq]
        refine Items.sorted_ofList.mpr fun d hd => ?_
        obtain ⟨child, hchild, rfl⟩ := List.mem_map.mp hd
        exact ih child hchild
      exact sorted_object_of ["children", "kind", "op"] rfl (by decide) (by
        simp [plainEnum, sorted, hchildren])

theorem WindowPolicyV2.sorted_plain (window : WindowPolicyV2) : window.plain.sorted = true :=
  sorted_object_of
    ["basis", "empty_window", "end_inclusive", "event_time_ref", "length", "null_input",
     "offset_periods", "start_inclusive", "timezone", "unit"]
    rfl (by decide) (by simp [plainEnum, plainInt, sorted])

theorem AuthorityRefsV2.sorted_plain (refs : AuthorityRefsV2) : refs.plain.sorted = true :=
  sorted_object_of
    ["currency_conversion_ref", "direction_policy_ref", "reversal_policy_ref",
     "status_policy_ref"]
    rfl (by decide) (by simp [sorted])

theorem SourceRelation.sorted_plain (relation : SourceRelation) : relation.plain.sorted = true :=
  sorted_object_of ["table_ref"] rfl (by decide) (by simp [sorted])

theorem sorted_str (s : String) : (Document.str s : Plain).sorted = true := rfl

theorem sorted_num (q : ℚ) : (Document.num q : Plain).sorted = true := rfl

theorem AggregateExpressionV2.sorted_plain (expr : AggregateExpressionV2) :
    expr.plain.sorted = true :=
  sorted_object_of
    ["aggregation", "aggregation_argument", "authority_refs", "filter", "operand",
     "second_operand", "source_relation", "window"]
    rfl (by decide) (by
    simp [plainEnum, sorted, sorted_plainOption sorted_num, sorted_plainOption sorted_str,
      sorted_plainOption AuthorityRefsV2.sorted_plain, sorted_plainOption FilterNode.sorted_plain,
      SourceRelation.sorted_plain, WindowPolicyV2.sorted_plain])

theorem SemanticRowSelectionV1.sorted_plain (selection : SemanticRowSelectionV1) :
    selection.plain.sorted = true :=
  sorted_object_of ["kind", "role", "semantic_value"] rfl (by decide) (by simp [plainEnum, sorted])

theorem AggregateExpressionV3.sorted_plain (expr : AggregateExpressionV3) :
    expr.plain.sorted = true :=
  sorted_object_of
    ["aggregation", "aggregation_argument", "authority_refs", "filter", "operand",
     "row_selections", "second_operand", "source_relation", "window"]
    rfl (by decide) (by
    simp [plainEnum, sorted, sorted_plainOption sorted_num, sorted_plainOption sorted_str,
      sorted_plainOption AuthorityRefsV2.sorted_plain, sorted_plainOption FilterNode.sorted_plain,
      sorted_plainList SemanticRowSelectionV1.sorted_plain, SourceRelation.sorted_plain,
      WindowPolicyV2.sorted_plain])

theorem Grain.sorted_plain (grain : Grain) : grain.plain.sorted = true :=
  sorted_object_of ["entity", "keys"] rfl (by decide) (by
    simp [sorted, sorted_plainList sorted_str])

theorem ParameterDecl.sorted_plain (decl : ParameterDecl) : decl.plain.sorted = true :=
  sorted_object_of
    ["allowed_max", "allowed_min", "allowed_set", "classification", "name", "nullable",
     "param_class", "type"]
    rfl (by decide) (by
    simp [plainEnum, sorted, sorted_plainOption sorted_str,
      sorted_plainOption (sorted_plainList sorted_str)])

theorem DecimalPolicy.sorted_plain (decimal : DecimalPolicy) : decimal.plain.sorted = true :=
  sorted_object_of ["overflow", "precision", "rounding", "scale"] rfl (by decide) (by
    simp [plainEnum, plainInt, sorted])

theorem ExpectedOutput.sorted_plain (output : ExpectedOutput) : output.plain.sorted = true :=
  sorted_object_of ["currency", "output_type", "unit"] rfl (by decide) (by
    simp [sorted_plainOption sorted_str])

theorem SignedTerm.sorted_plain {Expr : Type} {plainExpr : Expr → Plain}
    (h : ∀ e, (plainExpr e).sorted = true) (term : SignedTerm Expr) :
    (term.plain plainExpr).sorted = true :=
  sorted_object_of ["expr", "name", "sign"] rfl (by decide) (by simp [plainInt, sorted, h])

theorem FormulaBody.sorted_plain {Expr : Type} {plainExpr : Expr → Plain}
    (h : ∀ e, (plainExpr e).sorted = true) (body : FormulaBody Expr) :
    (body.plain plainExpr).sorted = true := by
  cases body with
  | unary expr =>
      exact sorted_object_of ["expr", "final_operation"] rfl (by decide) (by
        simp [plainEnum, sorted, h])
  | ratio numerator denominator zeroDenominator =>
      exact sorted_object_of ["denominator", "final_operation", "numerator", "zero_denominator"]
        rfl (by decide) (by simp [plainEnum, sorted, h])
  | diff minuend subtrahend =>
      exact sorted_object_of ["final_operation", "minuend", "subtrahend"] rfl (by decide) (by
        simp [plainEnum, sorted, h])
  | composite terms =>
      exact sorted_object_of ["final_operation", "terms"] rfl (by decide) (by
        simp [plainEnum, sorted, sorted_plainList (SignedTerm.sorted_plain h)])

theorem TypedFormulaProposal.sorted_plain {Expr : Type} {plainExpr : Expr → Plain}
    (h : ∀ e, (plainExpr e).sorted = true) (p : TypedFormulaProposal Expr) :
    (p.plain plainExpr).sorted = true :=
  sorted_object_of
    ["allocation_policy_ref", "body", "canonicalization_version", "decimal", "expected_output",
     "formula_schema_version", "grain", "operation_grammar_version", "parameters"]
    rfl (by decide) (by
    simp [plainInt, sorted, FormulaBody.sorted_plain h, DecimalPolicy.sorted_plain,
      Grain.sorted_plain, sorted_plainOption ExpectedOutput.sorted_plain,
      sorted_plainList ParameterDecl.sorted_plain])

theorem Proposal.sorted_plain (p : Proposal) : p.plain.sorted = true := by
  cases p with
  | v2 p => exact TypedFormulaProposal.sorted_plain AggregateExpressionV2.sorted_plain p
  | v3 p => exact TypedFormulaProposal.sorted_plain AggregateExpressionV3.sorted_plain p

/-- Accepted proposals have one canonical text exactly when they are one proposal of one
    version. -/
theorem canonicalJson_eq_iff {dumps : Plain → String} (faithful : Faithful dumps)
    {p q : Proposal} (hp : p.Accepted) (hq : q.Accepted) :
    canonicalJson dumps p = canonicalJson dumps q ↔ p = q := by
  constructor
  · intro h
    have plain : p.plain = q.plain := faithful _ _ p.sorted_plain q.sorted_plain h
    rcases Proposal.version_of_accepted hp with ⟨p, rfl, hp⟩ | ⟨p, rfl, hp⟩ <;>
      rcases Proposal.version_of_accepted hq with ⟨q, rfl, hq⟩ | ⟨q, rfl, hq⟩
    · rw [TypedFormulaProposal.plain_injective AggregateExpressionV2.plain_injective plain]
    · have same : Proposal.version (.v2 p) = Proposal.version (.v3 q) := version_of_plain_eq plain
      omega
    · have same : Proposal.version (.v3 p) = Proposal.version (.v2 q) := version_of_plain_eq plain
      omega
    · rw [TypedFormulaProposal.plain_injective AggregateExpressionV3.plain_injective plain]
  · rintro rfl
    rfl

theorem canonicalJson_eq_iff_count : ∃ p q,
    parseProposalV2 (countDocument 2 "UTC" "bank::public.txn.account_id" []) = .ok p ∧
      parseProposalV3 (countDocument 3 "UTC" "bank::public.txn.account_id" []) = .ok q ∧
        canonicalJson Document.text (.v2 p) ≠ canonicalJson Document.text (.v3 q) := by
  have accepted₂ : (parseProposalV2
      (countDocument 2 "UTC" "bank::public.txn.account_id" [])).toOption.isSome = true := by
    decide +kernel
  have accepted₃ : (parseProposalV3
      (countDocument 3 "UTC" "bank::public.txn.account_id" [])).toOption.isSome = true := by
    decide +kernel
  obtain ⟨p, hp⟩ := isSome_toOption.mp accepted₂
  obtain ⟨q, hq⟩ := isSome_toOption.mp accepted₃
  have hp' : (Proposal.v2 p).Accepted := ⟨_, hp⟩
  have hq' : (Proposal.v3 q).Accepted := ⟨_, hq⟩
  refine ⟨p, q, hp, hq, fun h => ?_⟩
  cases (canonicalJson_eq_iff Document.text_faithful hp' hq').mp h

end FeatureGen.Formula
