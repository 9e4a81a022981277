import FeatureGen.Formula.ProposalSchema

/-! # The parsers

`formula/parse_leaves.py`, `parse_v2.py` and `parse_v3.py`: the shape of the
document, the values built from it, and the semantic gate, in that order. The
builders of the bodies and of the proposal take the builder of the expressions,
which is where the two versions differ.
-/

namespace FeatureGen.Formula

open Checks Document Overlay

/-- `data[key]`, read by `read`. -/
def item {α : Type} (members : Document.Members Numeral) (key : String)
    (read : ProposalDocument → Except SchemaError α) : Except SchemaError α :=
  match members.get? key with
  | some value => read value
  | none => .error s!"KeyError: '{key}'"

/-- `data.get(key)`, read by `read`; a null is no value. -/
def optional {α : Type} (members : Document.Members Numeral) (key : String)
    (read : ProposalDocument → Except SchemaError α) : Except SchemaError (Option α) :=
  match members.get? key with
  | none | some .null => .ok none
  | some value => some <$> read value

/-- `data.get(key, default)`, read by `read`. -/
def itemD {α : Type} (members : Document.Members Numeral) (key : String) (default : α)
    (read : ProposalDocument → Except SchemaError α) : Except SchemaError α :=
  match members.get? key with
  | none => .ok default
  | some value => read value

def readString : ProposalDocument → Except SchemaError String
  | .str s => .ok s
  | _ => .error "TypeError: expected a string"

def readBool : ProposalDocument → Except SchemaError Bool
  | .bool b => .ok b
  | _ => .error "TypeError: expected a bool"

def readNumber : ProposalDocument → Except SchemaError ℚ
  | .num n => .ok n.value
  | _ => .error "TypeError: expected a number"

/-- A number the shape has found to be an integer. -/
def readInteger : ProposalDocument → Except SchemaError ℤ
  | .num n =>
      match n.integer? with
      | some m => .ok m
      | none => .error "TypeError: expected an integer"
  | _ => .error "TypeError: expected an integer"

/-- The member of an enumeration a string names. -/
def readEnum (α : Type) [StrEnum α] : ProposalDocument → Except SchemaError α
  | .str s =>
      match StrEnum.ofValue? s with
      | some a => .ok a
      | none => .error s!"ValueError: {Text.repr s} is not a valid member"
  | _ => .error "TypeError: expected a string"

def readObject {α : Type} (build : Document.Members Numeral → Except SchemaError α) :
    ProposalDocument → Except SchemaError α
  | .dict members => build members
  | _ => .error "TypeError: expected an object"

def readArray {α : Type} (read : ProposalDocument → Except SchemaError α) :
    ProposalDocument → Except SchemaError (List α)
  | .list items => items.toList.mapM read
  | _ => .error "TypeError: expected an array"

def buildLiteral : ProposalDocument → Except SchemaError TypedLiteral :=
  readObject fun data => do
    let type ← item data "type" (readEnum LiteralType)
    let value ← item data "value" readString
    .ok ⟨type, value⟩

/-- `_build_filter`, of a predicate. -/
def buildPredicate (data : Document.Members Numeral) : Except SchemaError FilterPredicate := do
  let op ← item data "op" (readEnum FilterPredicateOp)
  let left ← item data "left" readString
  let rightLiteral ← optional data "right_literal" buildLiteral
  let rightParam ← optional data "right_param" <| readObject fun param =>
    ParameterRef.mk <$> item param "name" readString
  let rightSet ← optional data "right_set" (readArray buildLiteral)
  .ok { op, left, rightLiteral, rightParam, rightSet }

mutual

def buildFilter : ProposalDocument → Except SchemaError FilterNode
  | .dict data => do
      let kind ← item data "kind" readString
      if kind = "bool" then do
        let op ← item data "op" (readEnum FilterBoolOp)
        let children ← buildChildren data
        .ok (.bool op children)
      else .predicate <$> buildPredicate data
  | _ => .error "TypeError: expected an object"

/-- `data["children"]`, each built. -/
def buildChildren : Document.Members Numeral → Except SchemaError (List FilterNode)
  | .nil => .error "KeyError: 'children'"
  | .cons key value members => if key = "children" then buildNodes value else buildChildren members

def buildNodes : ProposalDocument → Except SchemaError (List FilterNode)
  | .list items => buildItems items
  | _ => .error "TypeError: expected an array"

def buildItems : Document.Items Numeral → Except SchemaError (List FilterNode)
  | .nil => .ok []
  | .cons item items => do
      let node ← buildFilter item
      let nodes ← buildItems items
      .ok (node :: nodes)

end

def buildParameter : ProposalDocument → Except SchemaError ParameterDecl :=
  readObject fun data => do
    let name ← item data "name" readString
    let type ← item data "type" (readEnum LiteralType)
    let paramClass ← item data "param_class" (readEnum ParamClass)
    let classification ← item data "classification" readString
    let nullable ← item data "nullable" readBool
    let allowedSet ← optional data "allowed_set" (readArray readString)
    let allowedMin ← optional data "allowed_min" readString
    let allowedMax ← optional data "allowed_max" readString
    .ok { name, type, paramClass, classification, nullable, allowedSet, allowedMin, allowedMax }

/-- `_build_expected_output`, of an object. -/
def buildExpectedOutput : ProposalDocument → Except SchemaError ExpectedOutput :=
  readObject fun data => do
    let outputType ← optional data "output_type" readString
    let unit ← optional data "unit" readString
    let currency ← optional data "currency" readString
    .ok { outputType, unit, currency }

def buildGrain : ProposalDocument → Except SchemaError Grain :=
  readObject fun data => do
    let entity ← item data "entity" readString
    let keys ← item data "keys" (readArray readString)
    .ok { entity, keys }

def buildDecimal : ProposalDocument → Except SchemaError DecimalPolicy :=
  readObject fun data => do
    let precision ← item data "precision" readInteger
    let scale ← item data "scale" readInteger
    let rounding ← item data "rounding" (readEnum RoundingMode)
    let overflow ← item data "overflow" (readEnum OverflowBehavior)
    .ok { precision, scale, rounding, overflow }

/-- How an error prints a number. The digits of a float are left out. -/
def Numeral.repr : Numeral → String
  | .int n => s!"{n}"
  | .float _ => "a float"

/-- An offset `WindowPolicyV2.__post_init__` accepts: an `int`, in range. -/
def readOffset : ProposalDocument →
    Except SchemaError {n : ℤ // 0 ≤ n ∧ n ≤ maxWindowOffsetPeriods}
  | .num (.int n) =>
      if h : 0 ≤ n ∧ n ≤ maxWindowOffsetPeriods then .ok ⟨n, h⟩
      else .error (s!"window.offset_periods must be an int in [0, {maxWindowOffsetPeriods}], " ++
        s!"got {n}")
  | .num n =>
      .error (s!"window.offset_periods must be an int in [0, {maxWindowOffsetPeriods}], " ++
        s!"got {n.repr}")
  | _ => .error s!"window.offset_periods must be an int in [0, {maxWindowOffsetPeriods}]"

def buildWindowV2 : ProposalDocument → Except SchemaError WindowPolicyV2 :=
  readObject fun data => do
    let eventTimeRef ← item data "event_time_ref" readString
    let basis ← item data "basis" (readEnum WindowBasisV2)
    let length ← item data "length" readInteger
    let unit ← item data "unit" (readEnum WindowUnit)
    let startInclusive ← item data "start_inclusive" (readEnum Inclusivity)
    let endInclusive ← item data "end_inclusive" (readEnum Inclusivity)
    let timezone ← item data "timezone" readString
    let emptyWindow ← item data "empty_window" (readEnum EmptyWindowResult)
    let nullInput ← item data "null_input" (readEnum NullInput)
    let offset ← itemD data "offset_periods" ⟨0, by decide⟩ readOffset
    .ok { eventTimeRef, basis, length, unit, startInclusive, endInclusive, timezone, emptyWindow,
          nullInput, offsetPeriods := offset.1, offset_mem := offset.2 }

/-- `_build_authority_refs`, of an object. -/
def buildAuthorityRefs : ProposalDocument → Except SchemaError AuthorityRefsV2 :=
  readObject fun data => do
    let status ← itemD data "status_policy_ref" "" readString
    let direction ← itemD data "direction_policy_ref" "" readString
    let reversal ← itemD data "reversal_policy_ref" "" readString
    let conversion ← itemD data "currency_conversion_ref" "" readString
    if someRef : ∃ v ∈ [status, direction, reversal, conversion], strip v ≠ "" then
      if unpadded : ∀ v ∈ [status, direction, reversal, conversion], strip v = v then
        .ok ⟨status, direction, reversal, conversion, someRef, unpadded⟩
      else .error "authority refs must not carry surrounding whitespace"
    else .error "authority_refs with every ref blank is a lie — omit the block instead"

/-- `_build_expression_v2`, and what `_build_expression_v3` builds in the same way. -/
def expressionMembers (data : Document.Members Numeral) :
    Except SchemaError AggregateExpressionV2 := do
  let aggregation ← item data "aggregation" (readEnum AggregateFunctionV2)
  let operand ← optional data "operand" readString
  let tableRef ← item data "source_relation" <| readObject fun relation =>
    item relation "table_ref" readString
  let filter ← optional data "filter" buildFilter
  let window ← item data "window" buildWindowV2
  let aggregationArgument ← optional data "aggregation_argument" readNumber
  let secondOperand ← optional data "second_operand" readString
  let authorityRefs ← optional data "authority_refs" buildAuthorityRefs
  .ok { aggregation, operand, sourceRelation := ⟨tableRef⟩, filter, window, aggregationArgument,
        secondOperand, authorityRefs }

def buildExpressionV2 : ProposalDocument → Except SchemaError AggregateExpressionV2 :=
  readObject expressionMembers

def buildSelection : ProposalDocument → Except SchemaError SemanticRowSelectionV1 :=
  readObject fun data => do
    let kind ← item data "kind" (readEnum SelectionKind)
    let role ← item data "role" readString
    let semanticValue ← item data "semantic_value" readString
    .ok { kind, role, semanticValue }

def buildExpressionV3 : ProposalDocument → Except SchemaError AggregateExpressionV3 :=
  readObject fun data => do
    let expr ← expressionMembers data
    let rowSelections ← itemD data "row_selections" [] (readArray buildSelection)
    .ok { expr with rowSelections }

section Bodies

variable {Expr : Type} (buildExpression : ProposalDocument → Except SchemaError Expr)

def buildTerm : ProposalDocument → Except SchemaError (SignedTerm Expr) :=
  readObject fun term => do
    let name ← item term "name" readString
    let sign ← item term "sign" readInteger
    let expr ← item term "expr" buildExpression
    .ok { name, sign, expr }

/-- `_build_body_v2` and `_build_body_v3`. -/
def buildBody : ProposalDocument → Except SchemaError (FormulaBody Expr) :=
  readObject fun data => do
    let finalOperation ← item data "final_operation" (readEnum FinalOperationV2)
    match finalOperation with
    | .signedSum => .composite <$> item data "terms" (readArray (buildTerm buildExpression))
    | .identity => .unary <$> item data "expr" buildExpression
    | .ratio => do
        let numerator ← item data "numerator" buildExpression
        let denominator ← item data "denominator" buildExpression
        let zeroDenominator ← item data "zero_denominator" (readEnum ZeroDenominator)
        .ok (.ratio numerator denominator (StrEnum.value zeroDenominator))
    | .difference => do
        let minuend ← item data "minuend" buildExpression
        let subtrahend ← item data "subtrahend" buildExpression
        .ok (.diff minuend subtrahend)

/-- The proposal both parsers construct. -/
def buildProposal : ProposalDocument → Except SchemaError (TypedFormulaProposal Expr) :=
  readObject fun data => do
    let formulaSchemaVersion ← item data "formula_schema_version" readInteger
    let operationGrammarVersion ← item data "operation_grammar_version" readInteger
    let canonicalizationVersion ← item data "canonicalization_version" readInteger
    let grain ← item data "grain" buildGrain
    let body ← item data "body" (buildBody buildExpression)
    let parameters ← item data "parameters" (readArray buildParameter)
    let decimal ← item data "decimal" buildDecimal
    let expectedOutput ← optional data "expected_output" buildExpectedOutput
    let allocationPolicyRef ← itemD data "allocation_policy_ref" "" readString
    .ok { formulaSchemaVersion, operationGrammarVersion, canonicalizationVersion, grain, body,
          parameters, decimal, expectedOutput, allocationPolicyRef }

end Bodies

/-- `parse_proposal_v2`. Where and how the shape fails is the validator's to say. -/
def parseProposalV2 (raw : ProposalDocument) : Except SchemaError TypedFormulaProposalV2 := do
  ensure (Shape.proposalV2 raw) "v2 proposal shape invalid"
  let proposal ← buildProposal buildExpressionV2 raw
  validateSemanticsV2 proposal
  .ok proposal

def parseProposalV3 (raw : ProposalDocument) : Except SchemaError TypedFormulaProposalV3 := do
  ensure (Shape.proposalV3 raw) "v3 proposal shape invalid"
  let proposal ← buildProposal buildExpressionV3 raw
  validateSemanticsV3 proposal
  .ok proposal

/-- The rows of `bank::public.txn` over thirty days, counted by the given keys. -/
def countDocument (version : ℤ) (timezone key : String) (parameters : List ProposalDocument) :
    ProposalDocument :=
  let window : ProposalDocument := .object
    [("event_time_ref", .str "bank::public.txn.booked_at"), ("basis", .str "trailing"),
      ("length", .num (.int 30)), ("unit", .str "day"), ("start_inclusive", .str "exclusive"),
      ("end_inclusive", .str "inclusive"), ("timezone", .str timezone),
      ("empty_window", .str "zero"), ("null_input", .str "ignore")]
  let expression : ProposalDocument := .object
    [("aggregation", .str "count_rows"),
      ("source_relation", .object [("table_ref", .str "bank::public.txn")]), ("window", window)]
  let decimal : ProposalDocument := .object
    [("precision", .num (.int 18)), ("scale", .num (.int 0)), ("rounding", .str "half_up"),
      ("overflow", .str "error")]
  .object
    [("formula_schema_version", .num (.int version)), ("operation_grammar_version", .num (.int 1)),
      ("canonicalization_version", .num (.int 1)),
      ("grain", .object [("entity", .str "account"), ("keys", .array [.str key])]),
      ("body", .object [("final_operation", .str "identity"), ("expr", expression)]),
      ("parameters", .array parameters), ("decimal", decimal)]

example : (parseProposalV2 (countDocument 2 "UTC" "bank::public.txn.account_id" [])).toOption.isSome :=
  by decide +kernel

end FeatureGen.Formula
