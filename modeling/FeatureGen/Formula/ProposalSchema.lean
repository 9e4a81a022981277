import FeatureGen.Formula.SchemaV3

/-! # The shape of a proposal document

`formula/proposal_v2.schema.json` and `proposal_v3.schema.json`. The two differ in
the version they pin and in `row_selections`, so one definition takes both as
arguments.
-/

namespace FeatureGen.Formula

open Document

/-- A number of a document: an `int`, or a finite `float`. -/
inductive Numeral where
  | int (n : ℤ)
  | float (q : ℚ)

/-- The number it is. -/
def Numeral.value : Numeral → ℚ
  | .int n => n
  | .float q => q

def Numeral.integer? (n : Numeral) : Option ℤ :=
  if n.value.den = 1 then some n.value.num else none

abbrev ProposalDocument := Document Numeral

namespace Shape

/-- `{"const": n}`: `2.0` is `2`. -/
def const (n : ℤ) : Document.Shape Numeral := .number fun m => m.value = n

/-- `{"type": "integer", "minimum": n}`. -/
def integer (minimum : ℤ) : Document.Shape Numeral :=
  .number fun m => m.integer?.any fun n => minimum ≤ n

/-- `{"type": "integer", "minimum": low, "maximum": high}`. -/
def integerIn (low high : ℤ) : Document.Shape Numeral :=
  .number fun m => m.integer?.any fun n => low ≤ n ∧ n ≤ high

/-- The strings of an enumeration. -/
def enumOf (α : Type) [StrEnum α] : Document.Shape Numeral := .enum (StrEnum.values α)

def logicalRef : Document.Shape Numeral := .string 1

def typedLiteral : Document.Shape Numeral :=
  .object [("type", enumOf LiteralType), ("value", .string 0)] ["type", "value"]

def parameterRef : Document.Shape Numeral := .object [("name", .string 1)] ["name"]

def filterPredicate : Document.Shape Numeral :=
  .object
    [("kind", .enum ["predicate"]), ("op", enumOf FilterPredicateOp), ("left", logicalRef),
      ("right_literal", .nullable typedLiteral), ("right_param", .nullable parameterRef),
      ("right_set", .nullable (.array typedLiteral 1))]
    ["kind", "op", "left"]

mutual

/-- `filterNode`: one of `filterBool` and `filterPredicate`. -/
def filterNode : ProposalDocument → Bool
  | .dict members =>
      xor (["kind", "op", "children"].all (fun key => (members.get? key).isSome) &&
          filterBoolMembers members)
        (filterPredicate (.dict members))
  | _ => false

/-- The properties of `filterBool`. -/
def filterBoolMembers : Document.Members Numeral → Bool
  | .nil => true
  | .cons key value members =>
      (if key = "kind" then Shape.enum ["bool"] value
        else if key = "op" then enumOf FilterBoolOp value
        else if key = "children" then filterChildren value
        else false) && filterBoolMembers members

def filterChildren : ProposalDocument → Bool
  | .list (.cons item items) => filterNode item && filterNodes items
  | _ => false

def filterNodes : Document.Items Numeral → Bool
  | .nil => true
  | .cons item items => filterNode item && filterNodes items

end

def sourceRelation : Document.Shape Numeral :=
  .object [("table_ref", logicalRef)] ["table_ref"]

def grain : Document.Shape Numeral :=
  .object [("entity", .string 1), ("keys", .array logicalRef 1)] ["entity", "keys"]

def windowPolicy : Document.Shape Numeral :=
  .object
    [("event_time_ref", logicalRef), ("basis", enumOf WindowBasisV2), ("length", integer 1),
      ("unit", enumOf WindowUnit), ("start_inclusive", enumOf Inclusivity),
      ("end_inclusive", enumOf Inclusivity), ("timezone", .string 1),
      ("empty_window", enumOf EmptyWindowResult), ("null_input", enumOf NullInput),
      ("offset_periods", integerIn 0 12)]
    ["event_time_ref", "basis", "length", "unit", "start_inclusive", "end_inclusive", "timezone",
      "empty_window", "null_input"]

def decimalPolicy : Document.Shape Numeral :=
  .object
    [("precision", integer 1), ("scale", integer 0), ("rounding", enumOf RoundingMode),
      ("overflow", enumOf OverflowBehavior)]
    ["precision", "scale", "rounding", "overflow"]

def authorityRefs : Document.Shape Numeral :=
  .object
    [("status_policy_ref", .string 0), ("direction_policy_ref", .string 0),
      ("reversal_policy_ref", .string 0), ("currency_conversion_ref", .string 0)] []

def semanticRowSelection : Document.Shape Numeral :=
  .object
    [("kind", enumOf SelectionKind), ("role", .string 1),
      ("semantic_value", .enum ["debit", "credit", "eligible"])]
    ["kind", "role", "semantic_value"]

/-- The properties `aggregateExpression` has in both versions. -/
def expressionProperties : List (String × Document.Shape Numeral) :=
  [("aggregation", enumOf AggregateFunctionV2),
    ("aggregation_argument", .nullable (.number fun _ => true)),
    ("second_operand", .nullable logicalRef), ("authority_refs", .nullable authorityRefs),
    ("operand", .nullable logicalRef), ("source_relation", sourceRelation),
    ("filter", .nullable filterNode), ("window", windowPolicy)]

def expressionV2 : Document.Shape Numeral :=
  .object expressionProperties ["aggregation", "source_relation", "window"]

def expressionV3 : Document.Shape Numeral :=
  .object (expressionProperties ++ [("row_selections", .array semanticRowSelection 0)])
    ["aggregation", "source_relation", "window"]

section Bodies

variable (expression : Document.Shape Numeral)

def term : Document.Shape Numeral :=
  .object
    [("name", .string 1), ("sign", .number fun m => m.value = 1 ∨ m.value = -1),
      ("expr", expression)]
    ["name", "sign", "expr"]

def compositeBody : Document.Shape Numeral :=
  .object [("final_operation", .enum ["signed_sum"]), ("terms", .array (term expression) 2)]
    ["final_operation", "terms"]

def unaryBody : Document.Shape Numeral :=
  .object [("final_operation", .enum ["identity"]), ("expr", expression)]
    ["final_operation", "expr"]

def ratioBody : Document.Shape Numeral :=
  .object
    [("final_operation", .enum ["ratio"]), ("numerator", expression), ("denominator", expression),
      ("zero_denominator", enumOf ZeroDenominator)]
    ["final_operation", "numerator", "denominator", "zero_denominator"]

def diffBody : Document.Shape Numeral :=
  .object
    [("final_operation", .enum ["difference"]), ("minuend", expression),
      ("subtrahend", expression)]
    ["final_operation", "minuend", "subtrahend"]

def formulaBody : Document.Shape Numeral :=
  .oneOf [unaryBody expression, ratioBody expression, diffBody expression,
    compositeBody expression]

end Bodies

def parameterDecl : Document.Shape Numeral :=
  .object
    [("name", .string 1), ("type", enumOf LiteralType), ("param_class", enumOf ParamClass),
      ("classification", .string 0), ("nullable", .boolean),
      ("allowed_set", .nullable (.array (.string 0) 0)), ("allowed_min", .nullable (.string 0)),
      ("allowed_max", .nullable (.string 0))]
    ["name", "type", "param_class", "classification", "nullable"]

def expectedOutput : Document.Shape Numeral :=
  .object
    [("output_type", .nullable (.string 0)), ("unit", .nullable (.string 0)),
      ("currency", .nullable (.string 0))] []

def proposal (version : ℤ) (expression : Document.Shape Numeral) : Document.Shape Numeral :=
  .object
    [("formula_schema_version", const version), ("allocation_policy_ref", .string 0),
      ("operation_grammar_version", const 1), ("canonicalization_version", const 1),
      ("grain", grain), ("body", formulaBody expression), ("parameters", .array parameterDecl 0),
      ("decimal", decimalPolicy), ("expected_output", .nullable expectedOutput)]
    ["formula_schema_version", "operation_grammar_version", "canonicalization_version", "grain",
      "body", "parameters", "decimal"]

def proposalV2 : Document.Shape Numeral := proposal 2 expressionV2

def proposalV3 : Document.Shape Numeral := proposal 3 expressionV3

end Shape

end FeatureGen.Formula
