import FeatureGen.Formula.SchemaLeaves

/-! # The v2 language

`formula/operations_v2.py` and `formula/schema_v2.py`: the aggregates and their
rules, windows, expressions, bodies and proposals, and the semantic gate over them.
The four body shapes and the proposal are those of every expression type, since v3
lists them again over its own.
-/

namespace FeatureGen.Formula

open Checks Overlay

inductive AggregateFunctionV2 where
  | sum
  | countRows
  | countNonNull
  | countDistinct
  | min
  | max
  | avg
  | recency
  | stddev
  | percentile
  | median
  | lastKnown
  | firstKnown
  | zscore
  | dateDiffAvg
  | slope
  | streakPeriods
  | anyMatch
  | hhi
  | topShare
  | effectiveAtCutoff
  deriving DecidableEq

instance : StrEnum AggregateFunctionV2 where
  members := [.sum, .countRows, .countNonNull, .countDistinct, .min, .max, .avg, .recency,
    .stddev, .percentile, .median, .lastKnown, .firstKnown, .zscore, .dateDiffAvg, .slope,
    .streakPeriods, .anyMatch, .hhi, .topShare, .effectiveAtCutoff]
  value
    | .sum => "sum"
    | .countRows => "count_rows"
    | .countNonNull => "count_non_null"
    | .countDistinct => "count_distinct"
    | .min => "min"
    | .max => "max"
    | .avg => "avg"
    | .recency => "recency"
    | .stddev => "stddev"
    | .percentile => "percentile"
    | .median => "median"
    | .lastKnown => "last_known"
    | .firstKnown => "first_known"
    | .zscore => "zscore"
    | .dateDiffAvg => "date_diff_avg"
    | .slope => "slope"
    | .streakPeriods => "streak_periods"
    | .anyMatch => "any_match"
    | .hhi => "hhi"
    | .topShare => "top_share"
    | .effectiveAtCutoff => "effective_at_cutoff"
  complete a := by cases a <;> decide
  distinct := by decide +kernel

inductive ResultKind where
  | operandValued
  | count
  | duration
  | dimensionless
  | rate
  | flag

inductive Argument where
  | forbidden
  | percentile

inductive SecondOperand where
  | forbidden
  | required
  | optional

structure OperationRuleV1 where
  operandRequired : Bool
  argument : Argument
  additivity : AdditivityClass
  resultKind : ResultKind
  orderSensitive : Bool
  secondOperand : SecondOperand

/-- `operation_rule`: `OPERATION_RULES`, row by row. -/
def operationRule : AggregateFunctionV2 → OperationRuleV1
  | .sum => ⟨true, .forbidden, .additive, .operandValued, false, .forbidden⟩
  | .countRows => ⟨false, .forbidden, .additive, .count, false, .forbidden⟩
  | .countNonNull => ⟨true, .forbidden, .additive, .count, false, .forbidden⟩
  | .countDistinct => ⟨true, .forbidden, .nonAdditive, .count, false, .forbidden⟩
  | .min => ⟨true, .forbidden, .nonAdditive, .operandValued, false, .forbidden⟩
  | .max => ⟨true, .forbidden, .nonAdditive, .operandValued, false, .forbidden⟩
  | .avg => ⟨true, .forbidden, .nonAdditive, .operandValued, false, .forbidden⟩
  | .recency => ⟨true, .forbidden, .nonAdditive, .duration, true, .forbidden⟩
  | .stddev => ⟨true, .forbidden, .nonAdditive, .operandValued, false, .forbidden⟩
  | .percentile => ⟨true, .percentile, .nonAdditive, .operandValued, false, .forbidden⟩
  | .median => ⟨true, .forbidden, .nonAdditive, .operandValued, false, .forbidden⟩
  | .lastKnown => ⟨true, .forbidden, .semiAdditive, .operandValued, true, .forbidden⟩
  | .firstKnown => ⟨true, .forbidden, .semiAdditive, .operandValued, true, .forbidden⟩
  | .zscore => ⟨true, .forbidden, .nonAdditive, .dimensionless, true, .forbidden⟩
  | .dateDiffAvg => ⟨true, .forbidden, .nonAdditive, .duration, false, .required⟩
  | .slope => ⟨true, .forbidden, .nonAdditive, .rate, true, .forbidden⟩
  | .streakPeriods => ⟨false, .forbidden, .nonAdditive, .count, true, .forbidden⟩
  | .anyMatch => ⟨false, .forbidden, .nonAdditive, .flag, false, .forbidden⟩
  | .hhi => ⟨true, .forbidden, .nonAdditive, .dimensionless, false, .optional⟩
  | .topShare => ⟨true, .forbidden, .nonAdditive, .dimensionless, false, .optional⟩
  | .effectiveAtCutoff => ⟨true, .forbidden, .semiAdditive, .operandValued, true, .required⟩

def maxWindowOffsetPeriods : ℤ := 12

inductive WindowBasisV2 where
  | trailing
  | calendarPeriod
  | futureHorizon
  deriving DecidableEq

instance : StrEnum WindowBasisV2 where
  members := [.trailing, .calendarPeriod, .futureHorizon]
  value
    | .trailing => "trailing"
    | .calendarPeriod => "calendar_period"
    | .futureHorizon => "future_horizon"
  complete a := by cases a <;> decide
  distinct := by decide

/-- `WindowPolicyV2`, with what `__post_init__` refuses ruled out. -/
structure WindowPolicyV2 where
  eventTimeRef : LogicalRef
  basis : WindowBasisV2
  length : ℤ
  unit : WindowUnit
  startInclusive : Inclusivity
  endInclusive : Inclusivity
  timezone : String
  emptyWindow : EmptyWindowResult
  nullInput : NullInput
  offsetPeriods : ℤ
  offset_mem : 0 ≤ offsetPeriods ∧ offsetPeriods ≤ maxWindowOffsetPeriods

/-- `AuthorityRefsV2`, with what `__post_init__` refuses ruled out. -/
structure AuthorityRefsV2 where
  statusPolicyRef : String
  directionPolicyRef : String
  reversalPolicyRef : String
  currencyConversionRef : String
  some_ref : ∃ v ∈ [statusPolicyRef, directionPolicyRef, reversalPolicyRef,
    currencyConversionRef], strip v ≠ ""
  unpadded : ∀ v ∈ [statusPolicyRef, directionPolicyRef, reversalPolicyRef,
    currencyConversionRef], strip v = v

structure AggregateExpressionV2 where
  aggregation : AggregateFunctionV2
  operand : Option LogicalRef
  sourceRelation : SourceRelation
  filter : Option FilterNode
  window : WindowPolicyV2
  aggregationArgument : Option ℚ
  secondOperand : Option LogicalRef
  authorityRefs : Option AuthorityRefsV2

inductive FinalOperationV2 where
  | identity
  | ratio
  | difference
  | signedSum
  deriving DecidableEq

instance : StrEnum FinalOperationV2 where
  members := [.identity, .ratio, .difference, .signedSum]
  value
    | .identity => "identity"
    | .ratio => "ratio"
    | .difference => "difference"
    | .signedSum => "signed_sum"
  complete a := by cases a <;> decide
  distinct := by decide

structure SignedTerm (Expr : Type) where
  name : String
  sign : ℤ
  expr : Expr

/-- The four body shapes over the expressions of one wire version. -/
inductive FormulaBody (Expr : Type) where
  | unary (expr : Expr)
  | ratio (numerator denominator : Expr) (zeroDenominator : String)
  | diff (minuend subtrahend : Expr)
  | composite (terms : List (SignedTerm Expr))

abbrev FormulaBodyV2 := FormulaBody AggregateExpressionV2

def FormulaBody.finalOperation {Expr : Type} : FormulaBody Expr → FinalOperationV2
  | .unary _ => .identity
  | .ratio _ _ _ => .ratio
  | .diff _ _ => .difference
  | .composite _ => .signedSum

/-- `body_expressions_v2` and `body_expressions_v3`. -/
def FormulaBody.expressions {Expr : Type} : FormulaBody Expr → List Expr
  | .unary expr => [expr]
  | .ratio numerator denominator _ => [numerator, denominator]
  | .diff minuend subtrahend => [minuend, subtrahend]
  | .composite terms => terms.map (·.expr)

def FormulaBody.termNames {Expr : Type} : FormulaBody Expr → List String
  | .composite terms => terms.map (·.name)
  | _ => []

structure TypedFormulaProposal (Expr : Type) where
  formulaSchemaVersion : ℤ
  operationGrammarVersion : ℤ
  canonicalizationVersion : ℤ
  grain : Grain
  body : FormulaBody Expr
  parameters : List ParameterDecl
  decimal : DecimalPolicy
  expectedOutput : Option ExpectedOutput
  allocationPolicyRef : String

abbrev TypedFormulaProposalV2 := TypedFormulaProposal AggregateExpressionV2

def formulaSchemaVersionV2 : ℤ := 2

def operationGrammarVersionV2 : ℤ := 1

def canonicalizationVersionV2 : ℤ := 1

/-- `_check_expression_v2`, on the aggregate's argument. -/
def checkArgument (expr : AggregateExpressionV2) (path : String) : Except SchemaError Unit :=
  match (operationRule expr.aggregation).argument with
  | .percentile =>
      ensure (expr.aggregationArgument.any fun p => 0 < p ∧ p < 100)
        (s!"{path}.aggregation_argument: percentile requires p strictly between 0 and 100")
  | .forbidden =>
      ensure (expr.aggregationArgument = none)
        s!"{path}.aggregation_argument: {StrEnum.value expr.aggregation} takes no argument"

def checkColumn (expr : AggregateExpressionV2) (ref : LogicalRef) (path : String) :
    Except SchemaError Unit := do
  let _ ← requireColumnRef ref path
  requireContainedColumn ref path expr.sourceRelation.tableRef

/-- `_check_expression_v2`, on the operand. -/
def checkOperand (expr : AggregateExpressionV2) (path : String) : Except SchemaError Unit :=
  let aggregation := StrEnum.value expr.aggregation
  match (operationRule expr.aggregation).operandRequired, expr.operand with
  | false, none => .ok ()
  | false, some _ => .error s!"{path}.operand: {aggregation} carries no operand"
  | true, none => .error s!"{path}.operand: {aggregation} requires an operand"
  | true, some ref => checkColumn expr ref s!"{path}.operand"

/-- `_check_expression_v2`, on the second operand. -/
def checkSecondOperand (expr : AggregateExpressionV2) (path : String) :
    Except SchemaError Unit :=
  let aggregation := StrEnum.value expr.aggregation
  match (operationRule expr.aggregation).secondOperand, expr.secondOperand with
  | .required, none => .error s!"{path}.second_operand: {aggregation} requires its second column"
  | _, none => .ok ()
  | .forbidden, some _ => .error s!"{path}.second_operand: {aggregation} takes no second column"
  | _, some ref => checkColumn expr ref s!"{path}.second_operand"

/-- `_check_expression_v2`, on the filter. -/
def checkFilter (expr : AggregateExpressionV2) (path : String)
    (params : String → Option ParameterDecl) : Except SchemaError Unit :=
  match expr.filter with
  | none => .ok ()
  | some filter => do
      let count ← checkFilterNode s!"{path}.filter" 1 expr.sourceRelation.tableRef params filter
      ensure (count ≤ maxPredicates) s!"{path}.filter: too many predicates ({count})"

def checkExpressionV2 (expr : AggregateExpressionV2) (path : String)
    (params : String → Option ParameterDecl) : Except SchemaError Unit := do
  requireTableRef expr.sourceRelation.tableRef s!"{path}.source_relation.table_ref"
  checkArgument expr path
  ensure (¬ (expr.window.basis = .futureHorizon ∧ (operationRule expr.aggregation).orderSensitive))
    (s!"{path}: {StrEnum.value expr.aggregation} is order-sensitive — it reads OBSERVED " ++
      "history, and a future horizon has none. Future windows carry sums, counts, shares and " ++
      "flags over contractual rows; they cannot carry last-known state or trends.")
  checkOperand expr path
  checkSecondOperand expr path
  checkFilter expr path params
  checkColumn expr expr.window.eventTimeRef s!"{path}.window.event_time_ref"

/-- `validate_semantics_v2`, on the grain's keys. -/
def checkGrainKeys (keys : List LogicalRef) : Except SchemaError Unit :=
  each (fun _ key => (fun _ => ()) <$> requireColumnRef key "grain.keys") keys

/-- `validate_semantics_v2`, on a signed sum. -/
def checkTerms {Expr : Type} : FormulaBody Expr → Except SchemaError Unit
  | .composite terms => do
      ensure (2 ≤ terms.length) "a signed sum needs at least two terms — one term is identity"
      ensure ((terms.map (·.name)).Nodup ∧ ∀ name ∈ terms.map (·.name), strip name ≠ "")
        "signed-sum terms need unique, non-blank names"
      ensure (∀ term ∈ terms, term.sign = 1 ∨ term.sign = -1)
        "a signed-sum term's sign is +1 or -1 — weights are not a thing this combiner does"
  | _ => .ok ()

def validateSemanticsV2 (p : TypedFormulaProposalV2) : Except SchemaError Unit := do
  ensure (p.formulaSchemaVersion = formulaSchemaVersionV2)
    (s!"formula_schema_version: expected {formulaSchemaVersionV2}, " ++
      s!"got {p.formulaSchemaVersion}")
  ensure (p.operationGrammarVersion = operationGrammarVersionV2)
    "operation_grammar_version: not the v2 grammar"
  ensure (p.canonicalizationVersion = canonicalizationVersionV2)
    "canonicalization_version: not the v2 canonicalization"
  checkGrainKeys p.grain.keys
  checkTerms p.body
  each (fun i expr => checkExpressionV2 expr s!"body.expr[{i}]" (declared p.parameters))
    p.body.expressions

end FeatureGen.Formula
