import FeatureGen.Formula.CanonicalLeaves
import FeatureGen.Formula.SchemaV3
import FeatureGen.Materialize.Availability
import FeatureGen.Materialize.Joins

/-! # Compiling an expression

`materialize/expression_ir.py`: the walk over every text of an expression, and
`compile_expression`. What derives a table's physical requirement and what plans
the traversal to the grain are given, as answers to the questions they are asked;
an expression of version 2 is one of version 3 without selections.
-/

namespace FeatureGen.Materialize

open FeatureGen.Overlay FeatureGen.Formula Checks

/-- Where in the grammar a text stands. -/
inductive Slot where
  | operand
  | tableRef
  | filterLeft
  | literalValue
  | parameterName
  | eventTime
  | timezone
  | secondOperand
  | authorityRef
  | selectionText
  deriving DecidableEq

structure PlacedText where
  location : String
  slot : Slot
  text : String

def isRefShaped (value : String) : Bool := (parseRef value).toOption.isSome

def literalTexts (path : String) (literal : TypedLiteral) : List PlacedText :=
  [⟨path ++ ".value", .literalValue, literal.value⟩]

def predicateTexts (path : String) (node : FilterPredicate) : List PlacedText :=
  ⟨path ++ ".left", .filterLeft, node.left⟩ ::
    (node.rightLiteral.toList.flatMap (literalTexts (path ++ ".right_literal")) ++
      node.rightParam.toList.map (fun p => ⟨path ++ ".right_param.name", .parameterName, p.name⟩) ++
      ((node.rightSet.getD []).mapIdx fun i literal =>
        literalTexts s!"{path}.right_set[{i}]" literal).flatten)

mutual

def filterTexts (path : String) : FilterNode → List PlacedText
  | .predicate node => predicateTexts path node
  | .bool _ children => childTexts path 0 children

def childTexts (path : String) (i : ℕ) : List FilterNode → List PlacedText
  | [] => []
  | child :: children =>
      filterTexts s!"{path}.children[{i}]" child ++ childTexts path (i + 1) children

end

def authorityTexts (path : String) (refs : AuthorityRefsV2) : List PlacedText :=
  [⟨path ++ ".status_policy_ref", .authorityRef, refs.statusPolicyRef⟩,
    ⟨path ++ ".direction_policy_ref", .authorityRef, refs.directionPolicyRef⟩,
    ⟨path ++ ".reversal_policy_ref", .authorityRef, refs.reversalPolicyRef⟩,
    ⟨path ++ ".currency_conversion_ref", .authorityRef, refs.currencyConversionRef⟩]

def selectionTexts (path : String) (selection : SemanticRowSelectionV1) : List PlacedText :=
  [⟨path ++ ".role", .selectionText, selection.role⟩,
    ⟨path ++ ".semantic_value", .selectionText, selection.semanticValue⟩]

/-- The texts that `_walk` reaches, in the order of the fields. A member of a closed vocabulary is
    no text. -/
def expressionTexts (path : String) (expr : AggregateExpressionV3) : List PlacedText :=
  expr.operand.toList.map (fun ref => ⟨path ++ ".operand", .operand, ref⟩) ++
    ⟨path ++ ".source_relation.table_ref", .tableRef, expr.sourceRelation.tableRef⟩ ::
    (expr.filter.toList.flatMap (filterTexts (path ++ ".filter")) ++
      [⟨path ++ ".window.event_time_ref", .eventTime, expr.window.eventTimeRef⟩,
        ⟨path ++ ".window.timezone", .timezone, expr.window.timezone⟩] ++
      expr.secondOperand.toList.map (fun ref => ⟨path ++ ".second_operand", .secondOperand, ref⟩) ++
      expr.authorityRefs.toList.flatMap (authorityTexts (path ++ ".authority_refs")) ++
      (expr.rowSelections.mapIdx fun i selection =>
        selectionTexts s!"{path}.row_selections[{i}]" selection).flatten)

def logicalRefsIn (path : String) (expr : AggregateExpressionV3) : List PlacedText :=
  (expressionTexts path expr).filter fun t => isRefShaped t.text

inductive NonPhysicalReason where
  | comparisonLiteral
  | runParameter

/-- `_NON_PHYSICAL_SLOTS`. -/
def Slot.nonPhysical : Slot → Option NonPhysicalReason
  | literalValue => some .comparisonLiteral
  | parameterName => some .runParameter
  | _ => none

structure NonPhysicalRef where
  location : String
  reason : NonPhysicalReason

def classifyNonPhysical (path : String) (expr : AggregateExpressionV3) : List NonPhysicalRef :=
  (logicalRefsIn path expr).filterMap fun t => t.slot.nonPhysical.map (⟨t.location, ·⟩)

inductive RefRole where
  | sourceTable
  | operand
  | filterLeft
  | eventTime
  | availability
  | grainKey
  | joinKey
  deriving DecidableEq

structure PhysicalRef where
  logicalRef : String
  identity : PhysicalIdentity
  column : Option String
  roles : List RefRole
  deriving DecidableEq

abbrev ReadSet := List PhysicalRef

def PhysicalRef.read (entry : PhysicalRef) (role : RefRole) (identity : PhysicalIdentity)
    (column : Option String) : PhysicalRef where
  logicalRef := entry.logicalRef
  identity := identity
  column := column
  roles := if entry.roles.contains role then entry.roles else entry.roles ++ [role]

def ReadSet.add (s : ReadSet) (ref : String) (role : RefRole) (identity : PhysicalIdentity)
    (column : Option String) : ReadSet :=
  if s.any (·.logicalRef = ref) then
    s.map fun entry => if entry.logicalRef = ref then entry.read role identity column else entry
  else s ++ [⟨ref, identity, column, [role]⟩]

structure PitSpec where
  eventTimeRef : String
  availabilityRef : String
  availabilityBasis : Basis
  availabilityLagHours : Option String
  windowBasis : String
  windowLength : ℤ
  windowUnit : String
  windowStartInclusive : String
  windowEndInclusive : String
  windowTimezone : String
  deriving DecidableEq

inductive OperandTypeStatus where
  | governed
  | ungoverned
  | unavailable
  | noOperand

structure OperandTypeEvidence where
  operandRef : Option String
  status : OperandTypeStatus
  logicalType : Option String
  readStatus : Option String

/-- `PhysicalInputRequirement`: the identity it resolved, and its identity payload. -/
structure InputRequirement where
  identity : PhysicalIdentity
  payload : Json

/-- A step of the planned traversal: the column refs it joins on and filters on, and its identity
    payload. -/
structure PlannedStep where
  keyRefs : List String
  predicateRefs : List String
  payload : Json

structure ExpressionExecutionIR where
  exprPath : String
  physicalReadSet : ReadSet
  steps : List PlannedStep
  pit : PitSpec
  inputRequirements : List InputRequirement
  aggregation : AggregateFunctionV2
  filterTree : Option Plain
  nonPhysicalRefs : List NonPhysicalRef
  operandType : OperandTypeEvidence

/-- The identity payload of a compiled expression: an object, with the value under each key. -/
structure ExpressionPayload where
  exprPath : String
  physicalReadSet : ReadSet
  joinSteps : List Json
  pit : PitSpec
  inputRequirements : List Json
  aggregation : AggregateFunctionV2
  filterTree : Option Plain

def ExpressionExecutionIR.identityPayload (ir : ExpressionExecutionIR) : ExpressionPayload where
  exprPath := ir.exprPath
  physicalReadSet := ir.physicalReadSet
  joinSteps := ir.steps.map (·.payload)
  pit := ir.pit
  inputRequirements := ir.inputRequirements.map (·.payload)
  aggregation := ir.aggregation
  filterTree := ir.filterTree

section Compilation

variable (py : Primitives)

def tableRefOf (columnRef : String) : Except String String := do
  let parts ← parseRef columnRef
  .ok (normalizeRef py.lower parts.source (some parts.schema) parts.table none)

def canonicalRef (ref : String) : String :=
  match parseRef ref with
  | .error _ => ref
  | .ok parts => normalizeRef py.lower parts.source (some parts.schema) parts.table parts.column

mutual

def normalizedFilter : FilterNode → FilterNode
  | .predicate node => .predicate { node with left := canonicalRef py node.left }
  | .bool op children => .bool op (normalizedFilters children)

def normalizedFilters : List FilterNode → List FilterNode
  | [] => []
  | child :: children => normalizedFilter child :: normalizedFilters children

end

def normalizedExpression (expr : AggregateExpressionV3) : AggregateExpressionV3 where
  aggregation := expr.aggregation
  operand := expr.operand.map (canonicalRef py)
  sourceRelation := ⟨canonicalRef py expr.sourceRelation.tableRef⟩
  filter := expr.filter.map (normalizedFilter py)
  window := { expr.window with eventTimeRef := canonicalRef py expr.window.eventTimeRef }
  aggregationArgument := expr.aggregationArgument
  secondOperand := expr.secondOperand
  authorityRefs := expr.authorityRefs
  rowSelections := expr.rowSelections

/-- `_column_of`, of a text that parses. -/
def columnName (columnRef : String) : Option String :=
  (parseRef columnRef).toOption.bind (·.column)

def ownReads (path : String) (expr : AggregateExpressionV3) : List (String × RefRole × String) :=
  expr.operand.toList.map (fun ref => (path ++ ".operand", .operand, ref)) ++
    (path ++ ".window.event_time_ref", .eventTime, expr.window.eventTimeRef) ::
    ((expr.filter.toList.flatMap (filterTexts (path ++ ".filter"))).filter fun t =>
      t.slot = .filterLeft ∧ isRefShaped t.text).map fun t => (t.location, .filterLeft, t.text)

def ownReadSet (path : String) (expr : AggregateExpressionV3) (identity : PhysicalIdentity) :
    ReadSet :=
  (ownReads path expr).foldl
    (fun s (_, role, ref) => s.add ref role identity (columnName ref))
    (ReadSet.add [] expr.sourceRelation.tableRef .sourceTable identity none)

def filterTreeOf (path : String) (expr : AggregateExpressionV3) :
    Except SchemaError (Option Plain) :=
  expr.filter.mapM (filterPlain py (path ++ ".filter"))

/-- How a compilation ends without a plan: an exception, a refusal of its own, or one it passes
    on. -/
inductive CompileStop (R : Type) where
  | raised (error : String)
  | refused (refusal : ExpressionRefused)
  | passed (refusal : R)

/-- What a traversal is planned between. -/
structure TraversalQuery where
  sourceTableRef : String
  sourceCatalog : String
  sourceIdentity : PhysicalIdentity
  targetTableRef : Option String
  targetIdentity : PhysicalIdentity
  roles : List String

/-- The catalog with its answers: `derive_requirement` of a table, and the planned traversal
    (`plan_join`, `plan_cross_catalog_join` or `plan_crosswalk_join`). -/
structure CompileContext (R : Type) where
  catalog : Catalog
  numberText : Json.Number → String
  schemaMessage : FactType → FactValue → String
  deriveRequirement : String → Except (CompileStop R) InputRequirement
  planTraversal : TraversalQuery → Except (CompileStop R) (List PlannedStep)

variable {R : Type} (ctx : CompileContext R)

/-- A `ValueError` of a parse. -/
def raising {α : Type} (x : Except String α) : Except (CompileStop R) α := x.mapError .raised

def isSourceRelation (tableRef : String) (identity : PhysicalIdentity) :
    Except (CompileStop R) Bool := do
  let parts ← raising (parseRef tableRef)
  .ok (norm py.lower parts.source = norm py.lower identity.catalogSource &&
    norm py.lower parts.table = norm py.lower identity.table)

/-- One read of `_plan_to_grain`: the read set and the tables read, in order. -/
def readOne (state : ReadSet × List String) (read : String × RefRole) :
    Except (CompileStop R) (ReadSet × List String) := do
  let (ref, role) := read
  let table ← raising (tableRefOf py ref)
  let requirement ← ctx.deriveRequirement table
  .ok (state.1.add ref role requirement.identity (columnName ref),
    if state.2.contains table then state.2 else state.2 ++ [table])

def impliedReads (steps : List PlannedStep) (grain : List String) : List (String × RefRole) :=
  steps.flatMap (fun step => step.keyRefs.map (·, .joinKey) ++
    step.predicateRefs.map (·, .filterLeft)) ++ grain.map (·, .grainKey)

/-- The identity the traversal ends at. -/
def targetIdentityOf (sourceIdentity : PhysicalIdentity) :
    Option String → Except (CompileStop R) PhysicalIdentity
  | none => .ok sourceIdentity
  | some table => (·.identity) <$> ctx.deriveRequirement table

def planToGrain (readSet : ReadSet) (sourceIdentity : PhysicalIdentity)
    (sourceTableRef sourceCatalog : String) (grain roles : List String) :
    Except (CompileStop R) (List PlannedStep × ReadSet × List String) := do
  let tables ← raising (grain.mapM (tableRefOf py))
  let offSource ← tables.reverse.dedup.reverse.filterM fun table =>
    not <$> isSourceRelation (R := R) py table sourceIdentity
  let count := offSource.length + 1
  ensure (offSource.length ≤ 1) (.refused ⟨.grainPathNotGoverned,
    s!"the grain keys sit on {count} different tables: this slice governs ONE traversal per " ++
      "expression, and a grain assembled from two independent joins would need two — each with " ++
      "its own fan-out verdict, which no single plan can state"⟩)
  let targetIdentity ← targetIdentityOf ctx sourceIdentity offSource.head?
  let steps ← ctx.planTraversal
    ⟨sourceTableRef, sourceCatalog, sourceIdentity, offSource.head?, targetIdentity, roles⟩
  let (reads, order) ← (impliedReads steps grain).foldlM (readOne py ctx) (readSet, [])
  .ok (steps, reads, order)

/-- `_refuse_unaccounted`: what is neither a ref that was read nor a location that is classified. -/
def unaccounted (path : String) (expr : AggregateExpressionV3) (grain : List String)
    (readSet : ReadSet) : List String :=
  let classified := (classifyNonPhysical path expr).map (·.location)
  let placed := (logicalRefsIn path expr).map (fun t => (t.location, t.text)) ++
    grain.mapIdx fun i key => (s!"grain.keys[{i}]", key)
  (placed.filter fun (location, ref) =>
    ¬ readSet.any (·.logicalRef = ref) ∧ ¬ classified.contains location).map (·.1)

def operandTypeEvidence (catalog : Catalog) (operand : Option String) : OperandTypeEvidence :=
  match operand with
  | none => ⟨none, .noOperand, none, none⟩
  | some ref =>
      let read := catalog.operationalValue ref "logical_representation"
      if ["fork", "hash_mismatch", "projection_unavailable"].contains read.status then
        ⟨ref, .unavailable, none, read.status⟩
      else if read.status = "resolved" ∧ read.value.isSome then
        ⟨ref, .governed, read.value, read.status⟩
      else ⟨ref, .ungoverned, none, read.status⟩

def bodyPaths : List String :=
  ["body.expr", "body.numerator", "body.denominator", "body.minuend", "body.subtrahend"]

def pitOf (window : WindowPolicyV2) (availabilityRef : String) (availability : Availability) :
    PitSpec where
  eventTimeRef := window.eventTimeRef
  availabilityRef := availabilityRef
  availabilityBasis := availability.basis
  availabilityLagHours := availability.lagHours
  windowBasis := StrEnum.value window.basis
  windowLength := window.length
  windowUnit := StrEnum.value window.unit
  windowStartInclusive := StrEnum.value window.startInclusive
  windowEndInclusive := StrEnum.value window.endInclusive
  windowTimezone := window.timezone

/-- `compile_expression` from the normalized expression and grain on. -/
def compileNormalized (path : String) (expr : AggregateExpressionV3) (grain roles : List String) :
    Except (CompileStop R) ExpressionExecutionIR := do
  let source := expr.sourceRelation.tableRef
  let requirement ← ctx.deriveRequirement source
  let identity := requirement.identity
  let off ← (ownReads path expr).filterM fun (_, _, ref) => do
    let table ← raising (tableRefOf py ref)
    not <$> isSourceRelation py table identity
  let offNames := String.intercalate ", " (KeySort.sortBy id (off.map (·.1)))
  ensure (off = []) (.refused ⟨.unaccountedLogicalRef,
    s!"{off.length} reference(s) name a column of a relation this expression does not read: " ++
      s!"{offNames}. Child-1 requires the operand, the event-time ref and every filter `left` " ++
      "to be contained in the expression's own source_relation, so a ref outside it has no " ++
      "table to be resolved against and nothing joins toward it"⟩)
  let parts ← raising (parseRef source)
  let availability ← (governedAvailability py.lower ctx.numberText ctx.schemaMessage ctx.catalog
    parts.source parts.schema parts.table source).mapError .refused
  let availabilityRef := normalizeRef py.lower parts.source (some parts.schema) parts.table
    (some availability.column)
  let gated := (ownReadSet path expr identity).add availabilityRef .availability identity
    (some availability.column)
  let (steps, reads, joined) ← planToGrain py ctx gated identity source parts.source grain roles
  let left := unaccounted path expr grain reads
  let leftNames := String.intercalate ", " (KeySort.sortBy id left)
  ensure (left = []) (.refused ⟨.unaccountedLogicalRef,
    s!"{left.length} reference(s) reachable from {path} were neither compiled into the " ++
      s!"physical read set nor classified as non-physical: {leftNames}. A reference nothing " ++
      "consumed is a reference nothing authorized, nothing resolved onto the cluster and " ++
      "nothing will read — so the compiled plan would be quietly incomplete"⟩)
  let tree ← raising (filterTreeOf py path expr)
  .ok {
    exprPath := path
    physicalReadSet := reads
    steps := steps
    pit := pitOf expr.window availabilityRef availability
    inputRequirements := (source :: joined).reverse.dedup.reverse.filterMap fun table =>
      (ctx.deriveRequirement table).toOption
    aggregation := expr.aggregation
    filterTree := tree
    nonPhysicalRefs := classifyNonPhysical path expr
    operandType := operandTypeEvidence ctx.catalog expr.operand }

def compileExpression (path : String) (expr : AggregateExpressionV3)
    (grainKeys roles : List String) : Except (CompileStop R) ExpressionExecutionIR := do
  let paths := String.intercalate ", " (KeySort.sortBy id bodyPaths)
  ensure (bodyPaths.contains path = true) (.raised
    (s!"expr_path {Text.repr path} is not one of Child-1's body paths ({paths}): the path names " ++
      "the staging output this expression produces, and one this compiler invented would not be " ++
      "the one anything else reads"))
  ensure (grainKeys ≠ []) (.raised
    ("grain_keys is empty: an aggregate with no grain has no key to reduce onto, and the spine " ++
      "it must land on is defined by those keys"))
  compileNormalized py ctx path (normalizedExpression py expr) (grainKeys.map (canonicalRef py))
    roles

end Compilation

end FeatureGen.Materialize
