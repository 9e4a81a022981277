import FeatureGen.Lib.Grouping
import FeatureGen.Materialize.ExpressionIR
import FeatureGen.Materialize.SpineDeclaration
import FeatureGen.Materialize.SpineNode

/-! # The read set of a group

`materialize/ir.py`: the union of everything that the expressions of some features,
their policies and their spine read, one element for each node of the catalog.

`materialize/ir.py`, for a formula of version 1: `compile_ir`, and the comparison of
what was compiled with the plan that was shown.
-/

namespace FeatureGen.Materialize

open FeatureGen.Overlay Checks

inductive ReadElementKind where
  | expressionRead
  | joinEndpoint
  | joinPredicate
  | availability
  | spineSource
  | spineKey
  | spineRead
  | policyRead
  deriving DecidableEq

/-- `_ReadElement`: the catalog source and the object ref of its node, the ref it was first read
    under, and the kinds of its reads. -/
abbrev ReadElement := Grouping.Group (String × String) String ReadElementKind

abbrev FeatureReads := String × List ExpressionExecutionIR

/-- The entries of one expression, in the order they are added. The key refs of a step are already
    qualified with the catalog that planned it. -/
def expressionEntries (featureName : String) (e : ExpressionExecutionIR) :
    List (Except String (String × ReadElementKind)) :=
  let unknown := s!"{featureName}/{e.exprPath} carries {e.steps.length} join step(s) and an " ++
    "EMPTY physical read set, so the catalog its endpoints belong to is unknowable: the IR was " ++
    "assembled wrongly, and guessing a catalog would authorize nodes in one and read them in " ++
    "another"
  e.physicalReadSet.map (fun ref => .ok (ref.logicalRef, .expressionRead)) ++
    (if e.steps ≠ [] ∧ e.physicalReadSet = [] then [.error unknown] else []) ++
    e.steps.flatMap (fun step => step.keyRefs.map (fun ref => .ok (ref, .joinEndpoint)) ++
      step.predicateRefs.map fun ref => .ok (ref, .joinPredicate)) ++
    [.ok (e.pit.availabilityRef, .availability)]

def spineEntries (spine : SpineSpec) : List (Except String (String × ReadElementKind)) :=
  .ok (spine.declaration.sourceTableRef, .spineSource) ::
    (spine.declaration.orderedKeyRefs.map (fun ref => .ok (ref, .spineKey)) ++
      spine.readSet.map (fun ref => .ok (ref, .spineRead)) ++
      spine.declaration.availabilityRef.toList.map fun ref => .ok (ref, .availability))

/-- Every entry of a union. -/
def unionEntries (features : List FeatureReads) (spine : SpineSpec) (policyReads : List String) :
    List (Except String (String × ReadElementKind)) :=
  policyReads.map (fun ref => .ok (ref, .policyRead)) ++
    features.flatMap (fun f => f.2.flatMap (expressionEntries f.1)) ++ spineEntries spine

section Union

variable (lower : String → String)

/-- The key of `_Union.add`: the node that a ref addresses. -/
def nodeKey (ref : String) : Except String (String × String) := do
  let parts ← parseRef ref
  .ok (fold lower parts.source, fold lower
    (String.intercalate "." ([parts.schema, parts.table] ++ (parts.column.filter (· ≠ "")).toList)))

def keyedEntry (entry : Except String (String × ReadElementKind)) :
    Except String ((String × String) × String × ReadElementKind) := do
  let read ← entry
  let key ← nodeKey lower read.1
  .ok (key, read.1, read.2)

def unionElements (features : List FeatureReads) (spine : SpineSpec) (policyReads : List String) :
    Except String (List ReadElement) := do
  let entries ← (unionEntries features spine policyReads).mapM (keyedEntry lower)
  .ok (Grouping.collect entries)

def sortedRefs (elements : List ReadElement) : List String := sortedSet (elements.map (·.first))

def physicalReadSetOf (features : List FeatureReads) (spine : SpineSpec) :
    Except String (List String) := do
  let elements ← unionElements lower features spine []
  .ok (sortedRefs elements)

end Union

def unionReads (features : List FeatureReads) (spine : SpineSpec) (policyReads : List String) :
    List (String × ReadElementKind) :=
  (unionEntries features spine policyReads).filterMap Except.toOption

section Elements

variable {lower : String → String} {features : List FeatureReads} {spine : SpineSpec}
  {policyReads : List String} {elements : List ReadElement}

theorem keyedEntry_eq_ok {entry : Except String (String × ReadElementKind)}
    {key : String × String} {ref : String} {kind : ReadElementKind} :
    keyedEntry lower entry = .ok (key, ref, kind) ↔
      entry = .ok (ref, kind) ∧ nodeKey lower ref = .ok key := by
  simp only [keyedEntry, bind_eq_ok, Except.ok.injEq, Prod.mk.injEq]
  constructor
  · intro h
    obtain ⟨read, hread, key', hkey, rfl, rfl, rfl⟩ := h
    exact ⟨hread, hkey⟩
  · intro h
    exact ⟨(ref, kind), h.1, key, h.2, rfl, rfl, rfl⟩

theorem mem_unionReads {ref : String} {kind : ReadElementKind} :
    (ref, kind) ∈ unionReads features spine policyReads ↔
      .ok (ref, kind) ∈ unionEntries features spine policyReads := by
  simp [unionReads, List.mem_filterMap, toOption_eq_some]

structure IsUnion (lower : String → String) (reads : List (String × ReadElementKind))
    (elements : List ReadElement) : Prop where
  nodup : (elements.map (·.key)).Nodup
  covered : ∀ read ∈ reads, ∃ e ∈ elements, nodeKey lower read.1 = .ok e.key
  named : ∀ e ∈ elements, nodeKey lower e.first = .ok e.key ∧ ∃ kind, (e.first, kind) ∈ reads
  kinds : ∀ e ∈ elements, ∀ kind, kind ∈ e.tags ↔
    ∃ ref, nodeKey lower ref = .ok e.key ∧ (ref, kind) ∈ reads

theorem unionElements_isUnion (h : unionElements lower features spine policyReads = .ok elements) :
    IsUnion lower (unionReads features spine policyReads) elements := by
  obtain ⟨entries, hentries, hcollect⟩ := bind_eq_ok.mp h
  obtain rfl := Except.ok.inj hcollect
  have keyed : ∀ key ref kind, (key, ref, kind) ∈ entries ↔
      nodeKey lower ref = .ok key ∧ (ref, kind) ∈ unionReads features spine policyReads := by
    intro key ref kind
    rw [mem_of_mapM hentries, mem_unionReads]
    constructor
    · intro h
      obtain ⟨entry, hentry, hkeyed⟩ := h
      obtain ⟨rfl, hkey⟩ := keyedEntry_eq_ok.mp hkeyed
      exact ⟨hkey, hentry⟩
    · intro h
      exact ⟨_, h.2, keyedEntry_eq_ok.mpr ⟨rfl, h.1⟩⟩
  have groups := Grouping.collected entries
  refine ⟨groups.nodup, ?_, ?_, ?_⟩
  · intro read hread
    obtain ⟨entry, hentry, hkeyed⟩ :=
      exists_mem_of_mapM hentries (mem_unionReads.mp hread)
    obtain ⟨e, he, hkey⟩ := groups.covered entry hentry
    obtain ⟨same, hnode⟩ := keyedEntry_eq_ok.mp hkeyed
    have ref : read.1 = entry.2.1 := congrArg Prod.fst (Except.ok.inj same)
    exact ⟨e, he, by rw [ref, hkey, hnode]⟩
  · intro e he
    obtain ⟨kind, hfirst⟩ := groups.first e he
    obtain ⟨hkey, hread⟩ := (keyed _ _ _).mp hfirst
    exact ⟨hkey, kind, hread⟩
  · intro e he kind
    simp only [groups.tags e he, keyed]

theorem mem_sortedRefs {ref : String} :
    ref ∈ sortedRefs elements ↔ ∃ e ∈ elements, e.first = ref := by
  simp [sortedRefs, sortedSet]

theorem exists_mem_sortedRefs {reads : List (String × ReadElementKind)}
    (h : IsUnion lower reads elements) {read : String × ReadElementKind} (hread : read ∈ reads) :
    ∃ ref ∈ sortedRefs elements, (∃ kind, (ref, kind) ∈ reads) ∧
      ∃ key, nodeKey lower ref = .ok key ∧ nodeKey lower read.1 = .ok key := by
  obtain ⟨e, he, hkey⟩ := h.covered read hread
  obtain ⟨hfirst, hnamed⟩ := h.named e he
  exact ⟨e.first, mem_sortedRefs.mpr ⟨e, he, rfl⟩, hnamed, e.key, hfirst, hkey⟩

end Elements

end FeatureGen.Materialize

namespace FeatureGen.Materialize

open FeatureGen.Overlay FeatureGen.Formula Checks

inductive FeatureRefusalCode where
  | grainPathNotGoverned
  | grainNotResolved
  | planEnvelopeDivergence
  | formulaSchemaUnsupported
  | policyReferenceUnresolvable
  | outputTypeNotGoverned

structure FeatureRefused where
  code : FeatureRefusalCode
  detail : String

/-- How the compilation of a feature ends without a plan. -/
inductive FeatureStop (R : Type) where
  | raised (error : String)
  | spine (refusal : SpineRefused)
  | expression (stop : CompileStop R)
  | refused (refusal : FeatureRefused)

/-- `FormulaOutputPolicyV1`. -/
structure OutputPolicy where
  outputType : String
  unit : Option String
  currency : Option String
  outputAdditivity : String
  externalTypeRequired : Bool

/-- `AdmittedFeature`: what of it is compiled. -/
structure AdmittedFeature where
  featureName : String
  formulaContentHash : String
  grain : Grain
  body : FormulaBody AggregateExpressionV3
  output : OutputPolicy
  authoringRunId : String

structure FormulaExecutionIRV1 where
  featureName : String
  formulaContentHash : String
  finalOperation : FinalOperationV2
  zeroDenominator : Option String
  grainEntity : String
  grainKeys : List String
  expressions : List ExpressionExecutionIR
  spine : SpineSpec
  outputPolicy : OutputPolicy
  authoringRunId : String

/-- The expressions of a body with their paths; a signed sum has none. -/
def bodySlots {Expr : Type} : FormulaBody Expr → Option (List (String × Expr))
  | .unary expr => some [("body.expr", expr)]
  | .ratio numerator denominator _ =>
      some [("body.numerator", numerator), ("body.denominator", denominator)]
  | .diff minuend subtrahend => some [("body.minuend", minuend), ("body.subtrahend", subtrahend)]
  | .composite _ => none

def zeroDenominatorOf {Expr : Type} : FormulaBody Expr → Option String
  | .ratio _ _ policy => some policy
  | _ => none

/-- The fields of a frozen plan that compilation compares. A blank text asserts nothing, and
    neither does a window that is no integer. -/
structure PlanEnvelope where
  catalogSource : String
  readSet : List String
  populationRef : String
  window : Option ℤ
  pit : String

/-- One column or relation, folded. -/
structure FoldedRef where
  source : String
  schema : String
  table : String
  column : String
  deriving DecidableEq

section Envelope

variable (lower : String → String)

def foldedPath (source : String) (segments : List String) : FoldedRef :=
  match segments.reverse with
  | column :: table :: schema :: _ => ⟨source, schema, table, column⟩
  | [table, schema] => ⟨source, schema, table, ""⟩
  | [table] => ⟨source, "", table, ""⟩
  | [] => ⟨source, "", "", ""⟩

def envelopeRef (catalogSource ref : String) : FoldedRef :=
  let address := (Text.partition "::" ref).getD (catalogSource, ref)
  foldedPath (fold lower address.1) ((Text.split '.' address.2).map (fold lower))

/-- The refs that compilation may read and no plan names: the spine's, the availability column of
    each expression, and its source relation. -/
def additionalRefs (ir : FormulaExecutionIRV1) : List String :=
  let d := ir.spine.declaration
  d.sourceTableRef :: (d.orderedKeyRefs ++ ir.spine.readSet ++ d.availabilityRef.toList ++
    ir.expressions.flatMap fun e => e.pit.availabilityRef ::
      (e.physicalReadSet.filter fun ref => ref.roles.contains .sourceTable).map (·.logicalRef))

def allowedAdditions (ir : FormulaExecutionIRV1) (catalogSource : String) : List FoldedRef :=
  (additionalRefs ir).map (envelopeRef lower catalogSource)

def FoldedRef.text (ref : FoldedRef) : String :=
  String.intercalate "." ([ref.source, ref.schema, ref.table, ref.column].filter (· ≠ ""))

def diverges (detail : String) : FeatureRefused := ⟨.planEnvelopeDivergence, detail⟩

/-- `_validate_plan_envelope`, on the read set. -/
def checkReadSet (ir : FormulaExecutionIRV1) (envelope : PlanEnvelope) (compiled : List String) :
    Except FeatureRefused Unit :=
  let frozen := envelope.readSet.map (envelopeRef lower envelope.catalogSource)
  let allowed := allowedAdditions lower ir envelope.catalogSource
  let unexplained := (compiled.map (envelopeRef lower envelope.catalogSource)).filter fun ref =>
    !frozen.contains ref && !allowed.contains ref
  ensure (unexplained = [] ∨ envelope.readSet = []) (diverges (ir.featureName ++
    " compiles to read " ++ reprTexts (KeySort.sortBy id (unexplained.dedup.map FoldedRef.text)) ++
      ", which " ++
      "the frozen plan's read set does not name and which is neither a spine column nor an " ++
      "availability gate: the human approved reading " ++
      reprTexts (KeySort.sortBy id envelope.readSet) ++ " in catalog " ++
      Text.repr envelope.catalogSource))

/-- `_validate_plan_envelope`, on the population. -/
def checkPopulation (ir : FormulaExecutionIRV1) (envelope : PlanEnvelope) :
    Except FeatureRefused Unit :=
  let table := (envelopeRef lower envelope.catalogSource ir.spine.declaration.sourceTableRef).table
  let declared := fold lower envelope.populationRef
  ensure (declared = "" ∨ table = declared) (diverges (ir.featureName ++
    " lands on the population " ++ Text.repr ir.spine.declaration.sourceTableRef ++ ", but the " ++
      "frozen plan the option was served with declares population_ref=" ++
      Text.repr envelope.populationRef))

/-- `_validate_plan_envelope`, on the window of one expression. -/
def checkWindowLength (ir : FormulaExecutionIRV1) (envelope : PlanEnvelope)
    (e : ExpressionExecutionIR) : Except FeatureRefused Unit :=
  let declared := envelope.window.getD e.pit.windowLength
  ensure (e.pit.windowLength = declared) (diverges (
    s!"{ir.featureName}/{e.exprPath} compiles a window of {e.pit.windowLength} " ++
      s!"{e.pit.windowUnit}, but the frozen plan the option was served with declares " ++
      s!"window={declared} (" ++ Text.repr envelope.pit ++ ")"))

def checkEnvelope (ir : FormulaExecutionIRV1) (envelope : PlanEnvelope) (compiled : List String) :
    Except FeatureRefused Unit := do
  checkReadSet lower ir envelope compiled
  checkPopulation lower ir envelope
  each (fun _ e => checkWindowLength ir envelope e) ir.expressions

/-- `_validate_plan_envelope`. The read set is only derived where the plan names one. -/
def validatePlanEnvelope {R : Type} (ir : FormulaExecutionIRV1) :
    Option PlanEnvelope → Except (FeatureStop R) Unit
  | none => .ok ()
  | some envelope => do
      let compiled ← (if envelope.readSet = [] then .ok []
        else physicalReadSetOf lower [(ir.featureName, ir.expressions)] ir.spine).mapError .raised
      (checkEnvelope lower ir envelope compiled).mapError .refused

end Envelope

section Compilation

variable (isoDate : String → Bool) (py : Primitives) {R : Type} (ctx : CompileContext R)

def checkGrainEntity (grain : Grain) (spine : SpineSpec) : Except FeatureRefused Unit :=
  let entity := spine.declaration.entity
  ensure (fold py.lower grain.entity = fold py.lower entity) ⟨.grainPathNotGoverned,
    "the feature is computed at " ++ Text.repr grain.entity ++ " grain while the declared " ++
      "population is " ++ Text.repr entity ++ " (" ++ spine.declaration.sourceTableRef ++ "): " ++
      "the rows would be keyed by something the spine does not contain, so there is no governed " ++
      "path from this feature's grain to that population"⟩

/-- What `body_expressions` raises. -/
def unsupportedBody : String :=
  "body must be UnaryBody | RatioBody | DiffBody, got CompositeBodyV2"

/-- Each expression of a body, compiled at its path. -/
def compileSlots (grain : Grain) (roles : List String)
    (slots : List (String × AggregateExpressionV3)) :
    Except (FeatureStop R) (List ExpressionExecutionIR) :=
  slots.mapM fun slot =>
    (compileExpression py ctx slot.1 slot.2 grain.keys roles).mapError .expression

def compileIr (admitted : AdmittedFeature) (roles : List String)
    (spineDecl : Option SpineSourceDeclaration) (planEnvelope : Option PlanEnvelope) :
    Except (FeatureStop R) FormulaExecutionIRV1 := do
  let spine ← (validateSpineDeclaration py.lower isoDate ctx.catalog spineDecl roles).mapError
    .spine
  (checkGrainEntity py admitted.grain spine).mapError .refused
  let slots ← (bodySlots admitted.body).elim (.error (.raised unsupportedBody)) .ok
  let expressions ← compileSlots py ctx admitted.grain roles slots
  let ir : FormulaExecutionIRV1 := {
    featureName := admitted.featureName
    formulaContentHash := admitted.formulaContentHash
    finalOperation := admitted.body.finalOperation
    zeroDenominator := zeroDenominatorOf admitted.body
    grainEntity := admitted.grain.entity
    grainKeys := admitted.grain.keys.map (fold py.lower)
    expressions := expressions
    spine := spine
    outputPolicy := admitted.output
    authoringRunId := admitted.authoringRunId }
  validatePlanEnvelope py.lower ir planEnvelope
  .ok ir

end Compilation

end FeatureGen.Materialize
