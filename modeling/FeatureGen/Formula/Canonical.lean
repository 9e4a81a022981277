import FeatureGen.Formula.Built

/-! # Canonical proposals

`formula/canonical_v2.py` and `canonical_v3.py`: the plain tree of a proposal, in
which a dataclass is the object of its fields by name and an enumeration its string,
and the text written of that tree. `dumps` is the JCS serializer.
-/

namespace FeatureGen.Formula

open Checks Document Overlay

/-- A tree of plain values. Its numbers are compared as numbers. -/
abbrev Plain := Document ℚ

def plainEnum {α : Type} [StrEnum α] (a : α) : Plain := .str (StrEnum.value a)

def plainOption {α : Type} (plain : α → Plain) : Option α → Plain
  | none => .null
  | some a => plain a

def plainList {α : Type} (plain : α → Plain) (as : List α) : Plain := .array (as.map plain)

def plainInt (n : ℤ) : Plain := .num n

theorem plainEnum_inj {α : Type} [StrEnum α] {a b : α} : plainEnum a = plainEnum b ↔ a = b := by
  simp [plainEnum, StrEnum.value_injective.eq_iff]

theorem plainOption_inj {α : Type} {plain : α → Plain} (inj : Function.Injective plain)
    (some_ne : ∀ a, plain a ≠ .null) {a b : Option α} :
    plainOption plain a = plainOption plain b ↔ a = b := by
  cases a with
  | none =>
      cases b with
      | none => simp
      | some b => simpa [plainOption] using (some_ne b).symm
  | some a =>
      cases b with
      | none => simpa [plainOption] using some_ne a
      | some b => simp [plainOption, inj.eq_iff]

theorem plainList_inj {α : Type} {plain : α → Plain} (inj : Function.Injective plain)
    {as bs : List α} : plainList plain as = plainList plain bs ↔ as = bs := by
  simp [plainList, array_injective.eq_iff, (List.map_injective_iff.mpr inj).eq_iff]

theorem plainInt_inj {m n : ℤ} : plainInt m = plainInt n ↔ m = n := by
  simp [plainInt]

def TypedLiteral.plain (lit : TypedLiteral) : Plain :=
  .object [("type", plainEnum lit.type), ("value", .str lit.value)]

def ParameterRef.plain (ref : ParameterRef) : Plain := .object [("name", .str ref.name)]

def FilterPredicate.plain (node : FilterPredicate) : Plain :=
  .object
    [("kind", .str "predicate"), ("left", .str node.left), ("op", plainEnum node.op),
      ("right_literal", plainOption TypedLiteral.plain node.rightLiteral),
      ("right_param", plainOption ParameterRef.plain node.rightParam),
      ("right_set", plainOption (plainList TypedLiteral.plain) node.rightSet)]

mutual

def FilterNode.plain : FilterNode → Plain
  | .predicate node => node.plain
  | .bool op children =>
      .object [("children", .list (plains children)), ("kind", .str "bool"), ("op", plainEnum op)]

def FilterNode.plains : List FilterNode → Document.Items ℚ
  | [] => .nil
  | child :: children => .cons child.plain (plains children)

end

def WindowPolicyV2.plain (window : WindowPolicyV2) : Plain :=
  .object
    [("basis", plainEnum window.basis), ("empty_window", plainEnum window.emptyWindow),
      ("end_inclusive", plainEnum window.endInclusive),
      ("event_time_ref", .str window.eventTimeRef), ("length", plainInt window.length),
      ("null_input", plainEnum window.nullInput),
      ("offset_periods", plainInt window.offsetPeriods),
      ("start_inclusive", plainEnum window.startInclusive), ("timezone", .str window.timezone),
      ("unit", plainEnum window.unit)]

def AuthorityRefsV2.plain (refs : AuthorityRefsV2) : Plain :=
  .object
    [("currency_conversion_ref", .str refs.currencyConversionRef),
      ("direction_policy_ref", .str refs.directionPolicyRef),
      ("reversal_policy_ref", .str refs.reversalPolicyRef),
      ("status_policy_ref", .str refs.statusPolicyRef)]

def SourceRelation.plain (relation : SourceRelation) : Plain :=
  .object [("table_ref", .str relation.tableRef)]

def AggregateExpressionV2.plain (expr : AggregateExpressionV2) : Plain :=
  .object
    [("aggregation", plainEnum expr.aggregation),
      ("aggregation_argument", plainOption Document.num expr.aggregationArgument),
      ("authority_refs", plainOption AuthorityRefsV2.plain expr.authorityRefs),
      ("filter", plainOption FilterNode.plain expr.filter),
      ("operand", plainOption Document.str expr.operand),
      ("second_operand", plainOption Document.str expr.secondOperand),
      ("source_relation", expr.sourceRelation.plain), ("window", expr.window.plain)]

def SemanticRowSelectionV1.plain (selection : SemanticRowSelectionV1) : Plain :=
  .object
    [("kind", plainEnum selection.kind), ("role", .str selection.role),
      ("semantic_value", .str selection.semanticValue)]

def AggregateExpressionV3.plain (expr : AggregateExpressionV3) : Plain :=
  .object
    [("aggregation", plainEnum expr.aggregation),
      ("aggregation_argument", plainOption Document.num expr.aggregationArgument),
      ("authority_refs", plainOption AuthorityRefsV2.plain expr.authorityRefs),
      ("filter", plainOption FilterNode.plain expr.filter),
      ("operand", plainOption Document.str expr.operand),
      ("row_selections", plainList SemanticRowSelectionV1.plain expr.rowSelections),
      ("second_operand", plainOption Document.str expr.secondOperand),
      ("source_relation", expr.sourceRelation.plain), ("window", expr.window.plain)]

def SignedTerm.plain {Expr : Type} (plainExpr : Expr → Plain) (term : SignedTerm Expr) : Plain :=
  .object
    [("expr", plainExpr term.expr), ("name", .str term.name), ("sign", plainInt term.sign)]

def FormulaBody.plain {Expr : Type} (plainExpr : Expr → Plain) (body : FormulaBody Expr) : Plain :=
  match body with
  | .unary expr =>
      .object [("expr", plainExpr expr), ("final_operation", plainEnum body.finalOperation)]
  | .ratio numerator denominator zeroDenominator =>
      .object
        [("denominator", plainExpr denominator),
          ("final_operation", plainEnum body.finalOperation),
          ("numerator", plainExpr numerator), ("zero_denominator", .str zeroDenominator)]
  | .diff minuend subtrahend =>
      .object
        [("final_operation", plainEnum body.finalOperation), ("minuend", plainExpr minuend),
          ("subtrahend", plainExpr subtrahend)]
  | .composite terms =>
      .object
        [("final_operation", plainEnum body.finalOperation),
          ("terms", plainList (SignedTerm.plain plainExpr) terms)]

def Grain.plain (grain : Grain) : Plain :=
  .object [("entity", .str grain.entity), ("keys", plainList Document.str grain.keys)]

def ParameterDecl.plain (decl : ParameterDecl) : Plain :=
  .object
    [("allowed_max", plainOption Document.str decl.allowedMax),
      ("allowed_min", plainOption Document.str decl.allowedMin),
      ("allowed_set", plainOption (plainList Document.str) decl.allowedSet),
      ("classification", .str decl.classification), ("name", .str decl.name),
      ("nullable", .bool decl.nullable), ("param_class", plainEnum decl.paramClass),
      ("type", plainEnum decl.type)]

def DecimalPolicy.plain (decimal : DecimalPolicy) : Plain :=
  .object
    [("overflow", plainEnum decimal.overflow), ("precision", plainInt decimal.precision),
      ("rounding", plainEnum decimal.rounding), ("scale", plainInt decimal.scale)]

def ExpectedOutput.plain (output : ExpectedOutput) : Plain :=
  .object
    [("currency", plainOption Document.str output.currency),
      ("output_type", plainOption Document.str output.outputType),
      ("unit", plainOption Document.str output.unit)]

def TypedFormulaProposal.plain {Expr : Type} (plainExpr : Expr → Plain)
    (p : TypedFormulaProposal Expr) : Plain :=
  .object
    [("allocation_policy_ref", .str p.allocationPolicyRef), ("body", p.body.plain plainExpr),
      ("canonicalization_version", plainInt p.canonicalizationVersion),
      ("decimal", p.decimal.plain),
      ("expected_output", plainOption ExpectedOutput.plain p.expectedOutput),
      ("formula_schema_version", plainInt p.formulaSchemaVersion), ("grain", p.grain.plain),
      ("operation_grammar_version", plainInt p.operationGrammarVersion),
      ("parameters", plainList ParameterDecl.plain p.parameters)]

/-- A proposal of either version. -/
inductive Proposal where
  | v2 (p : TypedFormulaProposalV2)
  | v3 (p : TypedFormulaProposalV3)

def Proposal.plain : Proposal → Plain
  | .v2 p => TypedFormulaProposal.plain AggregateExpressionV2.plain p
  | .v3 p => TypedFormulaProposal.plain AggregateExpressionV3.plain p

/-- `canonical_json_v2` and `canonical_json_v3`. -/
def canonicalJson (dumps : Plain → String) (p : Proposal) : String := dumps p.plain

def Proposal.Accepted : Proposal → Prop
  | .v2 p => ∃ d, parseProposalV2 d = .ok p
  | .v3 p => ∃ d, parseProposalV3 d = .ok p

end FeatureGen.Formula
