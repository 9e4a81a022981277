import FeatureGen.Materialize.FeatureIR

/-! # Compiling a feature of version 2

`materialize/compile_ir_v2.py`, the planned IR and the token of `boundary_v2.py`, and
the gate of `gate2_v2.py`. Policies are resolved by a given function; what the catalog
says of the read scope is given as well.
-/

namespace FeatureGen.Materialize

open FeatureGen.Overlay FeatureGen.Formula Checks

/-- `KnowledgeTimeBasisV2`. -/
inductive KnowledgeTimeBasis where
  | asOfCutoff
  | eventTime
  | latestAvailable

/-- The executable content of a policy: the columns that it reads, and when they are read. -/
inductive PolicyPayload where
  | eligibleStatus (statusColumnRef : String) (readBasis : KnowledgeTimeBasis)
  | direction (directionColumnRef : String) (readBasis : KnowledgeTimeBasis)
  | reversal (linkColumnRef : String) (readBasis : KnowledgeTimeBasis)
  | currencyConversion (rateColumnRef asOfColumnRef : String) (rateKeyRefs : List String)
      (readBasis : KnowledgeTimeBasis)

namespace PolicyPayload

def readBasis : PolicyPayload → KnowledgeTimeBasis
  | eligibleStatus _ basis => basis
  | direction _ basis => basis
  | reversal _ basis => basis
  | currencyConversion _ _ _ basis => basis

/-- `type(payload).__name__`. -/
def className : PolicyPayload → String
  | eligibleStatus .. => "EligibleStatusPayloadV1"
  | direction .. => "DirectionPayloadV1"
  | reversal .. => "ReversalPayloadV1"
  | currencyConversion .. => "CurrencyConversionPayloadV1"

/-- `_SHAPE_FOR_ROLE`. -/
def answers : PolicyPayload → String → Bool
  | eligibleStatus .., role => role = "status"
  | direction .., role => role = "direction"
  | reversal .., role => role = "reversal"
  | currencyConversion .., role => role = "currency_conversion"

def columnsOf (role : String) : PolicyPayload → List (String × String)
  | eligibleStatus column _ => [(role, column)]
  | direction column _ => [(role, column)]
  | reversal column _ => [(role, column)]
  | currencyConversion rate asOf keys _ =>
      (role ++ ":rate", rate) :: (role ++ ":as_of", asOf) ::
        keys.map fun key => (role ++ ":key", key)

end PolicyPayload

/-- `DeclaredPoliciesV2`. -/
structure DeclaredPolicies where
  exprPath : String
  refs : AuthorityRefsV2

def DeclaredPolicies.declaredRefs (p : DeclaredPolicies) : List (String × String) :=
  [("status", p.refs.statusPolicyRef), ("direction", p.refs.directionPolicyRef),
    ("reversal", p.refs.reversalPolicyRef),
    ("currency_conversion", p.refs.currencyConversionRef)].filter fun d => strip d.2 ≠ ""

/-- `PolicyReadV2`; its declared promise is none here. -/
structure PolicyRead where
  policyRef : String
  role : String
  logicalRef : String
  basis : KnowledgeTimeBasis

/-- `SelectedRowsV2`. -/
structure SelectedRows where
  exprPath : String
  selections : List SemanticRowSelectionV1

/-- `AdmittedFeatureV2`: what of it is compiled. -/
structure AdmittedFeatureV2 where
  featureName : String
  proposalContentHash : String
  grain : Grain
  body : FormulaBody AggregateExpressionV3
  authoringRunId : String

structure FormulaExecutionIRV2 where
  featureName : String
  formulaContentHash : String
  finalOperation : FinalOperationV2
  zeroDenominator : Option String
  grainEntity : String
  grainKeys : List String
  expressions : List ExpressionExecutionIR
  rowSelections : List SelectedRows
  policies : List DeclaredPolicies
  spine : SpineSpec
  outputPolicy : OutputPolicy
  authoringRunId : String

structure PlannedFormulaExecutionIRV2 where
  ir : FormulaExecutionIRV2
  policyReads : List PolicyRead
  readSet : List String

structure AuthorizedCompilationV2 where
  planned : List PlannedFormulaExecutionIRV2
  spine : SpineSpec
  authorizedRefs : List String
  rolesUsed : List String

/-- `declared_policy_refs`, unsorted. -/
def FormulaExecutionIRV2.declaredPolicyRefs (ir : FormulaExecutionIRV2) :
    List (String × String × String) :=
  ir.policies.flatMap fun p => p.declaredRefs.map fun d => (p.exprPath, d.1, d.2)

/-- `FormulaExecutionIRV2.__post_init__`. -/
def checkIrV2 (ir : FormulaExecutionIRV2) : Except String Unit := do
  let paths := ir.expressions.map (·.exprPath)
  let listed := String.intercalate ", " (KeySort.sortBy id paths)
  ensure (ir.expressions.length ≠ 0) (ir.featureName ++ " compiles to no expressions: a " ++
    "feature that computes nothing is not a feature, and an IR for it would hash the same as " ++
    "every other empty one")
  ensure paths.Nodup (ir.featureName ++ " carries two expressions at the same body path: " ++
    "identity orders expressions BY PATH, so a duplicate makes the ordering ambiguous")
  each (fun i (selected : SelectedRows) => do
    ensure (paths.contains selected.exprPath = true) (ir.featureName ++ " carries a row " ++
      "selection for " ++ Text.repr selected.exprPath ++ ", which is not one of its expressions " ++
      "(" ++ listed ++ "): a selection that names no expression selects nothing, and carrying " ++
      "it would let a feature LOOK filtered while executing unfiltered")
    ensure (¬ ((ir.rowSelections.take i).map (·.exprPath)).contains selected.exprPath = true)
      (ir.featureName ++ " carries two row-selection entries for " ++
        Text.repr selected.exprPath ++ ": which one applies is then a tuple-order accident"))
    ir.rowSelections
  each (fun i (p : DeclaredPolicies) => do
    ensure (paths.contains p.exprPath = true) (ir.featureName ++ " declares policies for " ++
      Text.repr p.exprPath ++ ", which is not one of its expressions (" ++ listed ++ "): a " ++
      "policy attached to no expression is one the read-set union would demand a read for and " ++
      "the renderer would never apply")
    ensure (¬ ((ir.policies.take i).map (·.exprPath)).contains p.exprPath = true)
      (ir.featureName ++ " carries two policy declarations for " ++ Text.repr p.exprPath ++
        ": which set governs is then a tuple-order accident"))
    ir.policies

section Planning

variable (lower : String → String)

def deriveReadSet (ir : FormulaExecutionIRV2) (policyReads : List PolicyRead) :
    Except String (List String) := do
  let structural ← physicalReadSetOf lower [(ir.featureName, ir.expressions)] ir.spine
  .ok (sortedSet (structural ++ policyReads.map (·.logicalRef)))

def checkPolicyCoverage (ir : FormulaExecutionIRV2) (policyReads : List PolicyRead) :
    Except String Unit := do
  let declared := ir.declaredPolicyRefs.map (·.2.2)
  let readFor := policyReads.map (·.policyRef)
  let uncovered := sortedSet (declared.filter fun ref => !readFor.contains ref)
  let undeclared := sortedSet (readFor.filter fun ref => !declared.contains ref)
  ensure (uncovered = []) (ir.featureName ++ " declares " ++ reprTexts uncovered ++ " and plans " ++
    "no read for them: a governed policy is applied by reading its columns, so a declared " ++
    "policy with no policy read would be applied on data Gate 2 never authorized")
  ensure (undeclared = []) (ir.featureName ++ " plans policy reads for " ++ reprTexts undeclared ++
    ", which it never declared: a read attributed to a policy the formula does not use has no " ++
    "reason to be in the union, and widening a read set is exactly what the union prevents")

/-- `PlannedFormulaExecutionIRV2.plan`. -/
def planIr (ir : FormulaExecutionIRV2) (policyReads : List PolicyRead) :
    Except String PlannedFormulaExecutionIRV2 := do
  let readSet ← deriveReadSet lower ir policyReads
  checkPolicyCoverage ir policyReads
  .ok ⟨ir, policyReads, readSet⟩

/-- `AuthorizedCompilationV2.__post_init__`. -/
def checkToken (token : AuthorizedCompilationV2) : Except String Unit := do
  ensure (token.planned.length ≠ 0) ("an authorized compilation names no feature: an empty " ++
    "group compiles nothing, and a token for it would authorize every empty group equally")
  let own ← physicalReadSetOf lower [] token.spine
  let required := token.planned.flatMap (·.readSet) ++ own
  let unauthorized := sortedSet (required.filter fun ref => !token.authorizedRefs.contains ref)
  ensure (unauthorized = []) ("the group reads " ++ reprTexts unauthorized ++ " which the token " ++
    "does not authorize: a token that names fewer refs than the compilation reads is the exact " ++
    "shape of an authorization bypass, so it is refused at construction rather than trusted")

/-- `SpineSpec.identity_payload`: the declaration, without its reason. -/
def SpineSpec.identityPayload (spine : SpineSpec) : SpineSourceDeclaration :=
  { spine.declaration with declarationReason := "" }

/-- `authorize_compilation_v2`, with `decide_read_scope`'s refusal as `refusal`. -/
def authorizeCompilationV2 {Refusal : Type} (refusal : List ReadElement → Option Refusal)
    (planned : List PlannedFormulaExecutionIRV2) (spine : SpineSpec) (roles : List String) :
    Except (String ⊕ Refusal) AuthorizedCompilationV2 := do
  ensure (planned.length ≠ 0) (.inl ("authorize_compilation_v2 was called with no features: an " ++
    "authorization token over an empty group is a permit for nothing, and the next stage cannot " ++
    "tell it apart from a group that was genuinely authorized"))
  let mismatched := planned.filter fun member =>
    member.ir.spine.identityPayload ≠ spine.identityPayload
  let names := String.intercalate ", " (KeySort.sortBy id (mismatched.map (·.ir.featureName)))
  ensure (mismatched.length = 0) (.inl (s!"{mismatched.length} of {planned.length} planned IRs " ++
    s!"were compiled against a different spine declaration than the one supplied ({names}): §4 " ++
    "declares the population once per materialization contract, and authorizing one population " ++
    "while the features read another authorizes reads nobody performs"))
  let elements ← (unionElements lower
    (planned.map fun member => (member.ir.featureName, member.ir.expressions)) spine
    (planned.flatMap fun member => member.policyReads.map (·.logicalRef))).mapError .inl
  (refusal elements).elim (.ok ()) fun r => .error (.inr r)
  let token : AuthorizedCompilationV2 := {
    planned := planned
    spine := spine
    authorizedRefs := sortedRefs elements
    rolesUsed := roles }
  (checkToken lower token).mapError .inl
  .ok token

end Planning

section Compilation

variable (py : Primitives) {R : Type} (ctx : CompileContext R)

/-- `_row_selections`. -/
def rowSelectionsOf (slots : List (String × AggregateExpressionV3)) : List SelectedRows :=
  (slots.filter fun slot => !slot.2.rowSelections.isEmpty).map fun slot =>
    ⟨slot.1, slot.2.rowSelections⟩

/-- `_declared_policies`. -/
def declaredPoliciesOf (slots : List (String × AggregateExpressionV3)) : List DeclaredPolicies :=
  slots.filterMap fun slot => slot.2.authorityRefs.map fun refs => ⟨slot.1, refs⟩

def checkPolicyRead (read : PolicyRead) : Except String Unit :=
  each (fun _ (field : String × String) => ensure (strip field.1 ≠ "")
    ("a policy read with a blank " ++ field.2 ++ " cannot be attributed to anything, and an " ++
      "unattributed ref in Gate 2's union is exactly the separate list C-C4 removes"))
    [(read.policyRef, "policy_ref"), (read.role, "role"), (read.logicalRef, "logical_ref")]

def readsOfPolicy (resolve : String → Except String PolicyPayload)
    (realizationId : String → Option String) (declared : String × String × String) :
    Except (FeatureStop R) (List PolicyRead) := do
  let (path, role, ref) := declared
  let id ← ((realizationId ref).filter (· ≠ "")).elim (.error (.refused
    ⟨.policyReferenceUnresolvable, path ++ " declares " ++ role ++ " policy " ++ Text.repr ref ++
      " and nothing says which realization decides it: the feature claims a governed rule that " ++
      "has not been bound to a decision"⟩)) .ok
  let payload ← (resolve id).mapError fun e => .refused ⟨.formulaSchemaUnsupported,
    "policy " ++ Text.repr ref ++ " cannot be rendered: " ++ e⟩
  ensure (payload.answers role = true) (.refused ⟨.policyReferenceUnresolvable, path ++
    " declares " ++ Text.repr ref ++ " as its " ++ role ++ " policy and that realization holds " ++
    payload.className ++ ": applying it would read a column that answers a different question, " ++
    "and produce a filter nobody wrote"⟩)
  let reads := (payload.columnsOf role).map fun column =>
    ⟨ref, column.1, column.2, payload.readBasis⟩
  (each (fun _ read => checkPolicyRead read) reads).mapError .raised
  .ok reads

/-- `_policy_reads`: each read once, under its policy, its role and its ref. -/
def policyReadsOf (resolve : String → Except String PolicyPayload)
    (realizationId : String → Option String) (declared : List (String × String × String)) :
    Except (FeatureStop R) (List PolicyRead) := do
  let reads ← (KeySort.sortBy (fun d => [d.1, d.2.1, d.2.2]) declared).mapM
    (readsOfPolicy resolve realizationId)
  .ok (reads.flatten.foldl (fun seen read =>
    if seen.any fun r => (r.policyRef, r.role, r.logicalRef) =
      (read.policyRef, read.role, read.logicalRef) then seen else seen ++ [read]) [])

def compileIrV2 (admitted : AdmittedFeatureV2) (spine : SpineSpec)
    (outputPolicy : Option OutputPolicy) (roles : List String)
    (resolve : String → Except String PolicyPayload) (realizationId : String → Option String) :
    Except (FeatureStop R) PlannedFormulaExecutionIRV2 := do
  let slots ← (bodySlots admitted.body).elim (.error (.refused ⟨.formulaSchemaUnsupported,
    StrEnum.value admitted.body.finalOperation ++ " has no body-path spelling in this build: " ++
      "its terms have nowhere to be staged, so there is nothing for the renderer to read. " ++
      "Supporting it is a vocabulary change, not a compilation one"⟩)) .ok
  ensure (admitted.grain.keys.length ≠ 0) (.refused ⟨.grainNotResolved, "feature " ++
    Text.repr admitted.featureName ++ " declares no grain keys, so what it is computed PER is " ++
    "unknown. Compiling it would land rows on a population nobody chose"⟩)
  let declared := declaredPoliciesOf slots
  let policyReads ← policyReadsOf resolve realizationId
    (declared.flatMap fun p => p.declaredRefs.map fun d => (p.exprPath, d.1, d.2))
  let expressions ← compileSlots py ctx admitted.grain roles slots
  let output ← outputPolicy.elim (.error (.refused ⟨.outputTypeNotGoverned, "feature " ++
    Text.repr admitted.featureName ++ " has no resolved output policy: without one the " ++
    "published column has no established unit, currency or additivity, and a consumer would " ++
    "have to guess what the number means"⟩)) .ok
  let ir : FormulaExecutionIRV2 := {
    featureName := admitted.featureName
    formulaContentHash := admitted.proposalContentHash
    finalOperation := admitted.body.finalOperation
    zeroDenominator := zeroDenominatorOf admitted.body
    grainEntity := admitted.grain.entity
    grainKeys := admitted.grain.keys.map (fold py.lower)
    expressions := expressions
    rowSelections := rowSelectionsOf slots
    policies := declared
    spine := spine
    outputPolicy := output
    authoringRunId := admitted.authoringRunId }
  (checkIrV2 ir).mapError .raised
  (planIr py.lower ir policyReads).mapError .raised

end Compilation

/-- `_grain_key_columns`: the grain columns of a feature, read by each expression and named as the
    plan's landing keys are. -/
def grainKeyColumns (grainKeys : List String) (entityKeyColumns : List String)
    (readSets : List (String × List String)) : Except String (List String) := do
  let grain ← grainKeys.mapM fun ref => columnOf ref "a grain key"
  each (fun _ (slot : String × List String) =>
    let outside := sortedSet (grain.filter fun column => !slot.2.contains column)
    ensure (outside = []) ("grain key column(s) " ++ reprTexts outside ++ " are not in " ++
      slot.1 ++ "'s authorized read set " ++ reprTexts slot.2 ++ ": the aggregate groups by " ++
      "them and the projection selects only the read set, so the node would fail on the cluster " ++
      "reading a column Gate 2 never granted")) readSets
  let sorted := KeySort.sortBy id grain
  let landing := KeySort.sortBy id entityKeyColumns
  ensure (sorted = landing) ("the feature's grain columns " ++ reprTexts sorted ++ " are not " ++
    "the plan's landing key columns " ++ reprTexts landing ++ ": the two are separate " ++
    "declarations and nothing states how one spelling maps onto the other, so joining them " ++
    "would be a guess — and a wrong one lands every entity's value under another entity's key " ++
    "with nothing to report it")
  .ok entityKeyColumns

end FeatureGen.Materialize
