import FeatureGen.Formula.SchemaV2

/-! # The v2 language at wire version 3

`formula/schema_v3.py`: the semantic row selection, and the gate of the proposals
that carry it.
-/

namespace FeatureGen.Formula

open Checks Overlay

inductive SelectionKind where
  | transactionDirection
  | eligibility
  deriving DecidableEq

instance : StrEnum SelectionKind where
  members := [.transactionDirection, .eligibility]
  value
    | .transactionDirection => "transaction_direction"
    | .eligibility => "eligibility"
  complete a := by cases a <;> decide
  distinct := by decide

/-- `SELECTION_TOKENS`, each list sorted. -/
def selectionTokens : SelectionKind → List String
  | .transactionDirection => ["credit", "debit"]
  | .eligibility => ["eligible"]

/-- `_REQUIRED_POLICY_REF`: the field's name and its value. -/
def requiredPolicyRef : SelectionKind → String × (AuthorityRefsV2 → String)
  | .transactionDirection => ("direction_policy_ref", (·.directionPolicyRef))
  | .eligibility => ("status_policy_ref", (·.statusPolicyRef))

structure SemanticRowSelectionV1 where
  kind : SelectionKind
  role : String
  semanticValue : String

structure AggregateExpressionV3 extends AggregateExpressionV2 where
  rowSelections : List SemanticRowSelectionV1

abbrev FormulaBodyV3 := FormulaBody AggregateExpressionV3

abbrev TypedFormulaProposalV3 := TypedFormulaProposal AggregateExpressionV3

def formulaSchemaVersionV3 : ℤ := 3

def operationGrammarVersionV3 : ℤ := operationGrammarVersionV2

def canonicalizationVersionV3 : ℤ := 1

/-- One turn of `_check_selections`' loop, after the selections before it. -/
def checkSelection (expr : AggregateExpressionV3) (seen : List SemanticRowSelectionV1)
    (path : String) (sel : SemanticRowSelectionV1) : Except SchemaError Unit := do
  let tokens := selectionTokens sel.kind
  let kind := StrEnum.value sel.kind
  let (required, ref) := requiredPolicyRef sel.kind
  let listed := String.intercalate ", " (tokens.map Text.repr)
  ensure (sel.role ≠ "" ∧ sel.role = strip sel.role)
    s!"{path}: role must be non-empty and unpadded"
  ensure (sel.semanticValue ∈ tokens)
    (s!"{path}: semantic_value {Text.repr sel.semanticValue} is not one of " ++
      s!"[{listed}] — a selection carries a SEMANTIC " ++
      "token, never the source's physical literal (that belongs to the policy realization)")
  ensure (¬ seen.any fun prior => prior.kind = sel.kind ∧ prior.role = sel.role)
    (s!"{path}: duplicate selection for (kind={kind}, role={Text.repr sel.role}) — one role " ++
      "is governed once")
  ensure (expr.authorityRefs.any fun refs => strip (ref refs) ≠ "")
    (s!"{path}: a {kind} selection requires authority_refs.{required} — the selection " ++
      "declares intent and the policy reference is what resolves it")

def checkSelections (expr : AggregateExpressionV3) (path : String) : Except SchemaError Unit := do
  each (fun i sel => checkSelection expr (expr.rowSelections.take i)
    s!"{path}.row_selections[{i}]" sel) expr.rowSelections
  ensure (¬ (expr.rowSelections ≠ [] ∧ expr.filter.isSome))
    (s!"{path}: SELECTION_FILTER_CONFLICT — this expression carries both a row selection and " ++
      "a filter. The schema cannot prove WHICH column a filter touches, so a filter beside a " ++
      "selection is refused rather than risk applying direction twice or contradicting it")

/-- `validate_semantics_v3`. `toAggregateExpressionV2` is `_as_v2_expression`. -/
def validateSemanticsV3 (p : TypedFormulaProposalV3) : Except SchemaError Unit := do
  ensure (p.formulaSchemaVersion = formulaSchemaVersionV3)
    (s!"formula_schema_version: expected {formulaSchemaVersionV3}, " ++
      s!"got {p.formulaSchemaVersion}")
  ensure (p.operationGrammarVersion = operationGrammarVersionV3)
    (s!"operation_grammar_version: expected {operationGrammarVersionV3}, " ++
      s!"got {p.operationGrammarVersion}")
  ensure (p.canonicalizationVersion = canonicalizationVersionV3)
    (s!"canonicalization_version: expected {canonicalizationVersionV3}, " ++
      s!"got {p.canonicalizationVersion}")
  each (fun i expr => do
    checkExpressionV2 expr.toAggregateExpressionV2 s!"body.expr[{i}]" (declared p.parameters)
    checkSelections expr s!"body.expr[{i}]") p.body.expressions

end FeatureGen.Formula
