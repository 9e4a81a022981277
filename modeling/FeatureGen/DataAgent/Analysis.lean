import FeatureGen.DataAgent.Physical
import FeatureGen.DataAgent.Relationship
import FeatureGen.DataAgent.Snapshots
import FeatureGen.Lib.Sql

/-! # Which transactions count

`data_agent/eligibility.py`: the policy on a transaction's status and reversal.

`data_agent/analysis.py`: the plan of a period-over-period count, its two identities
and the statement it compiles to. Where the source asserts what `__post_init__` has
checked, the model returns none. `digest` is the first half of a hexadecimal sha256,
`lower` is `str.lower`.
-/

namespace FeatureGen.DataAgent

open Sql Checks

inductive ReversalMode where
  | booleanOrCodeColumn
  | compensatingRow
  | linkedReversalId
  | statusHistory
  | negativeEntry
  deriving DecidableEq

def ReversalMode.value : ReversalMode → String
  | .booleanOrCodeColumn => "boolean_or_code_column"
  | .compensatingRow => "compensating_row"
  | .linkedReversalId => "linked_reversal_id"
  | .statusHistory => "status_history"
  | .negativeEntry => "negative_entry"

/-- `repr` of a mode. -/
def ReversalMode.repr : ReversalMode → String
  | .booleanOrCodeColumn => "<ReversalMode.BOOLEAN_OR_CODE_COLUMN: 'boolean_or_code_column'>"
  | .compensatingRow => "<ReversalMode.COMPENSATING_ROW: 'compensating_row'>"
  | .linkedReversalId => "<ReversalMode.LINKED_REVERSAL_ID: 'linked_reversal_id'>"
  | .statusHistory => "<ReversalMode.STATUS_HISTORY: 'status_history'>"
  | .negativeEntry => "<ReversalMode.NEGATIVE_ENTRY: 'negative_entry'>"

inductive NullBehavior where
  | exclude
  | include
  deriving DecidableEq

def NullBehavior.value : NullBehavior → String
  | .exclude => "exclude"
  | .include => "include"

structure TransactionEligibilityPolicyV1 where
  statusColumn : String
  includedStatusValues : List String
  reversalMode : ReversalMode
  reversalColumn : String
  nonReversedValues : List String
  nullBehavior : NullBehavior

namespace TransactionEligibilityPolicyV1

variable (policy : TransactionEligibilityPolicyV1)

/-- `__post_init__`. -/
def check : Except CodedError Unit := do
  ensure (policy.reversalMode = .booleanOrCodeColumn)
    ⟨"ELIGIBILITY_UNSUPPORTED_REVERSAL_MODE",
      "reversal mode " ++ policy.reversalMode.repr ++
      " is not implemented. Treating it as a flag would silently count both a transaction " ++
      "and its reversal"⟩
  requireIdentifier policy.statusColumn "status column"
  requireIdentifier policy.reversalColumn "reversal column"
  ensure (policy.includedStatusValues ≠ [])
    ⟨"ELIGIBILITY_NO_STATUS_VALUES",
      "no status counts as eligible; an empty list excludes every transaction"⟩
  ensure (policy.nonReversedValues ≠ [])
    ⟨"ELIGIBILITY_NO_NON_REVERSED_VALUES",
      "no reversal value counts as non-reversed; an empty list excludes everything"⟩

def predicates : List Condition :=
  let status := Condition.isIn policy.statusColumn policy.includedStatusValues
  let nonReversed := Condition.isIn policy.reversalColumn policy.nonReversedValues
  match policy.nullBehavior with
  | .exclude => [status, nonReversed]
  | .include =>
      [.either (.isNull policy.statusColumn) status,
        .either (.isNull policy.reversalColumn) nonReversed]

end TransactionEligibilityPolicyV1

end FeatureGen.DataAgent

namespace FeatureGen.DataAgent

open Sql Checks FeatureGen.Overlay

inductive Comparison where
  | decreased
  | increased
  | changed
  deriving DecidableEq

def Comparison.value : Comparison → String
  | .decreased => "decreased"
  | .increased => "increased"
  | .changed => "changed"

structure Period where
  label : String
  values : List String

structure PopulationSpine where
  binding : PhysicalDatasetBindingV1
  keyColumn : String

structure Dimension where
  column : String

structure AnalysisExecutionIRV1 where
  question : String
  spine : PopulationSpine
  eventBinding : PhysicalDatasetBindingV1
  eventKeyColumn : String
  periodColumn : String
  current : Period
  previous : Period
  measure : String
  comparison : Comparison
  dimensions : List Dimension
  eligibility : Option TransactionEligibilityPolicyV1
  dimensionBinding : Option PhysicalDatasetBindingV1
  attribution : Option DimensionAttributionPolicyV1
  snapshotSelection : Option LatestSnapshotPolicyV1
  joinEvidence : Option RelationshipEvidence
  bridgeRealizationDependencies : List (String × String)

namespace AnalysisExecutionIRV1

variable (ir : AnalysisExecutionIRV1)

def checkPeriod (period : Period) : Except CodedError Unit :=
  ensure (period.values ≠ [])
    ⟨"ANALYSIS_EMPTY_PERIOD",
      "period " ++ Text.repr period.label ++ " selects no values; an empty period is either a " ++
      "mistake or an unbounded scan awaiting a fallback"⟩

/-- `__post_init__`. -/
def check : Except CodedError Unit := do
  requireIdentifier ir.spine.keyColumn "spine key"
  requireIdentifier ir.eventKeyColumn "event key"
  requireIdentifier ir.periodColumn "period column"
  each (fun _ d => requireIdentifier d.column "dimension") ir.dimensions
  ensure (ir.measure = "count")
    ⟨"ANALYSIS_UNSUPPORTED_MEASURE",
      "measure " ++ Text.repr ir.measure ++ " is not supported in this slice"⟩
  ensure (ir.eligibility ≠ none)
    ⟨"ANALYSIS_NO_ELIGIBILITY_POLICY",
      "no transaction eligibility policy: without one, pending, failed and REVERSED " ++
      "transactions count as activity"⟩
  ensure (ir.attribution = none ∨ ir.snapshotSelection = none)
    ⟨"ANALYSIS_TWO_ROW_RULES",
      "the dimension source carries BOTH an attribution policy and a latest-snapshot " ++
      "selection. They are two different row rules over one table and they disagree on " ++
      "any table that has both an interval and a snapshot column; one of them has to be " ++
      "the declared one"⟩
  ensure (ir.dimensions = [] ∨
      (ir.dimensionBinding ≠ none ∧ (ir.attribution ≠ none ∨ ir.snapshotSelection ≠ none)))
    ⟨"ANALYSIS_NO_ATTRIBUTION_POLICY",
      "dimensions were requested with no attribution policy: the renderer must not choose " ++
      "between today's segment, the segment at the cutoff, and the segment per period"⟩
  ensure (ir.dimensions = [] ∨ ∀ policy ∈ ir.snapshotSelection, policy.scope ≠ .perTable)
    ⟨"ANALYSIS_SNAPSHOT_SCOPE_UNJOINABLE",
      "a per-TABLE latest-snapshot selection has no entity key, so it cannot be joined to " ++
      "the population spine — it describes a reference dataset republished whole, not a " ++
      "per-customer dimension. Declare the entity key and the per-entity scope"⟩
  checkPeriod ir.current
  checkPeriod ir.previous

/-- A plan whose constructors have all returned. -/
structure Valid (lower : String → String) : Prop where
  spine : ir.spine.binding.Built lower
  event : ir.eventBinding.Built lower
  dimension : ∀ binding ∈ ir.dimensionBinding, binding.Built lower
  eligibility : ∀ policy ∈ ir.eligibility, policy.check = .ok ()
  attribution : ∀ policy ∈ ir.attribution, policy.check = .ok ()
  snapshot : ∀ policy ∈ ir.snapshotSelection, policy.check = .ok ()
  plan : ir.check = .ok ()

variable {ir} in
theorem Valid.exists_eligibility {lower : String → String} (valid : ir.Valid lower) :
    ∃ policy, ir.eligibility = some policy := by
  have passed := valid.plan
  simp only [check, check_bind_eq_ok, ensure_eq_ok] at passed
  exact Option.ne_none_iff_exists'.mp passed.2.2.2.2.2.1

structure EligibilityPayload where
  statusColumn : String
  includedStatusValues : List String
  reversalMode : String
  reversalColumn : String
  nonReversedValues : List String
  nullBehavior : String

structure AttributionPayload where
  attributionBasis : String
  reportCutoff : String
  effectiveFromColumn : String
  effectiveToColumn : String
  missingValueBehavior : String
  currentFlagColumn : String

structure SnapshotPayload where
  snapshotColumn : String
  cutoff : String
  scope : String
  keyColumn : String
  tieBreakColumns : List String
  missingValueBehavior : String

/-- The dictionary of `identity_payload`; its keys are fixed. -/
structure IdentityPayload where
  spineTableId : String
  spineKeyColumn : String
  eventTableId : String
  eventKeyColumn : String
  eventPeriodColumn : String
  currentPeriod : List String
  previousPeriod : List String
  measure : String
  comparison : String
  dimensions : List String
  dimensionTableId : Option String
  eligibility : EligibilityPayload
  bridgeRealizationDependencies : List (String × String)
  attribution : Option AttributionPayload
  snapshotSelection : Option SnapshotPayload

def attributionPayload (policy : DimensionAttributionPolicyV1) : AttributionPayload where
  attributionBasis := policy.attributionBasis.value
  reportCutoff := policy.reportCutoff
  effectiveFromColumn := policy.effectiveFromColumn
  effectiveToColumn := policy.effectiveToColumn
  missingValueBehavior := policy.missingValueBehavior.value
  currentFlagColumn := policy.currentFlagColumn

def snapshotPayload (policy : LatestSnapshotPolicyV1) : SnapshotPayload where
  snapshotColumn := policy.snapshotColumn
  cutoff := policy.cutoff
  scope := policy.scope.value
  keyColumn := policy.keyColumn
  tieBreakColumns := policy.tieBreakColumns
  missingValueBehavior := policy.missingValueBehavior.value

def eligibilityPayload (policy : TransactionEligibilityPolicyV1) : EligibilityPayload where
  statusColumn := policy.statusColumn
  includedStatusValues := policy.includedStatusValues
  reversalMode := policy.reversalMode.value
  reversalColumn := policy.reversalColumn
  nonReversedValues := policy.nonReversedValues
  nullBehavior := policy.nullBehavior.value

def identityPayload (lower : String → String) : Option IdentityPayload :=
  ir.eligibility.map fun e =>
    { spineTableId := ir.spine.binding.identity.tableId lower
      spineKeyColumn := ir.spine.keyColumn
      eventTableId := ir.eventBinding.identity.tableId lower
      eventKeyColumn := ir.eventKeyColumn
      eventPeriodColumn := ir.periodColumn
      currentPeriod := ir.current.values
      previousPeriod := ir.previous.values
      measure := ir.measure
      comparison := ir.comparison.value
      dimensions := ir.dimensions.map Dimension.column
      dimensionTableId := ir.dimensionBinding.map fun b => b.identity.tableId lower
      eligibility := eligibilityPayload e
      bridgeRealizationDependencies := ir.bridgeRealizationDependencies
      attribution := ir.attribution.map attributionPayload
      snapshotSelection := ir.snapshotSelection.map snapshotPayload }

/-- One field of the joined text: members joined by ',', of parts joined by ':'. -/
abbrev HashField := List (List String)

def single (text : String) : HashField := [[text]]

def several (texts : List String) : HashField := texts.map fun text => [text]

def HashField.text (field : HashField) : String := Joined.join ',' (field.map (Joined.join ':'))

def dimensionTableText (lower : String → String) : String :=
  (ir.dimensionBinding.map fun b => b.identity.tableId lower).getD ""

def attributionFields (lower : String → String) : List HashField :=
  match ir.attribution with
  | none => []
  | some policy =>
      [single policy.attributionBasis.value, single policy.reportCutoff,
        single policy.effectiveFromColumn, single policy.effectiveToColumn,
        single policy.missingValueBehavior.value, single (ir.dimensionTableText lower)]

def currentFlagFields : List HashField :=
  match ir.attribution with
  | none => []
  | some policy =>
      if policy.currentFlagColumn = "" then [] else [single policy.currentFlagColumn]

def snapshotFields (lower : String → String) : List HashField :=
  match ir.snapshotSelection with
  | none => []
  | some policy =>
      [single policy.snapshotColumn, single policy.cutoff, single policy.scope.value,
        single policy.keyColumn, several policy.tieBreakColumns,
        single policy.missingValueBehavior.value, single (ir.dimensionTableText lower)]

/-- The fields that every plan has. -/
def baseFields (lower : String → String) (e : TransactionEligibilityPolicyV1) : List HashField :=
  [single (ir.spine.binding.identity.tableId lower), single ir.spine.keyColumn,
    single (ir.eventBinding.identity.tableId lower), single ir.eventKeyColumn,
    single ir.periodColumn, several ir.current.values, several ir.previous.values,
    single ir.measure, single ir.comparison.value,
    several (ir.dimensions.map Dimension.column), single e.statusColumn,
    several e.includedStatusValues, single e.reversalMode.value, single e.reversalColumn,
    several e.nonReversedValues, single e.nullBehavior.value,
    ir.bridgeRealizationDependencies.map fun d => [d.1, d.2]]

/-- What `plan_hash` joins. -/
def hashFields (lower : String → String) : Option (List HashField) :=
  ir.eligibility.map fun e => ir.baseFields lower e ++ ir.attributionFields lower ++
    ir.currentFlagFields ++ ir.snapshotFields lower

def material (fields : List HashField) : String := Joined.join '|' (fields.map HashField.text)

def planHash (lower digest : String → String) : Option String :=
  (ir.hashFields lower).map fun fields => digest (material fields)

end AnalysisExecutionIRV1

/-- The addresses of the tables of a plan, as a dialect writes them. -/
structure TableRefs where
  spine : String
  event : String
  dimension : String

/-- `ident` and `table_ref` of a dialect. -/
structure Dialect where
  ident : String → String
  tableRef : PhysicalDatasetBindingV1 → String

namespace AnalysisExecutionIRV1

variable (ir : AnalysisExecutionIRV1) (ident : String → String)

/-- What an event has to satisfy to count in a period. -/
def periodConditions (e : TransactionEligibilityPolicyV1) (values : List String) :
    List Condition :=
  .isIn ir.periodColumn values :: .isNotNull ir.eventKeyColumn :: e.predicates

def periodCte (eventRef : String) (e : TransactionEligibilityPolicyV1) (name : String)
    (values : List String) : String :=
  let eventKey := ident ir.eventKeyColumn
  name ++ " AS (SELECT " ++ eventKey ++ " AS k, COUNT(*) AS n FROM " ++ eventRef ++ " " ++
    "WHERE " ++ conjunctionText ident (ir.periodConditions e values) ++ " " ++
    "GROUP BY " ++ eventKey ++ ")"

/-- The common table expression of the dimensions, and what becomes of a missing one. -/
def dimensionCte (dimRef : String) : Option (String × MissingValueBehavior) :=
  let columns := ir.dimensions.map Dimension.column
  match ir.snapshotSelection, ir.attribution with
  | some snapshot, _ =>
      some ("dim AS (" ++ snapshot.rankedSelection ident dimRef columns ++ ")",
        snapshot.missingValueBehavior)
  | none, some attribution =>
      some ("dim AS (SELECT " ++ ident ir.spine.keyColumn ++ " AS k, " ++
        String.intercalate ", " (columns.map ident) ++ " " ++ "FROM " ++ dimRef ++ " WHERE " ++
        attribution.validityPredicate.render ident ++ ")", attribution.missingValueBehavior)
  | none, none => none

/-- The columns of the dimensions in the outer query. -/
def dimensionSelect (missing : MissingValueBehavior) : String :=
  String.join (ir.dimensions.map fun d =>
    if missing = .unknownBucket then
      ", COALESCE(dim." ++ ident d.column ++ ", '" ++ unknownLabel ++ "') AS " ++ ident d.column
    else ", dim." ++ ident d.column)

def statementText (refs : TableRefs) (ctes : List String) (dimensionSelect dimensionJoin : String) :
    String :=
  let key := ident ir.spine.keyColumn
  "WITH " ++ String.intercalate ",\n     " ctes ++ "\n" ++
  "SELECT s." ++ key ++ " AS entity_key,\n" ++
  "       COALESCE(prev.n, 0) AS previous_count,\n" ++
  "       COALESCE(curr.n, 0) AS current_count" ++ dimensionSelect ++ "\n" ++
  "FROM " ++ refs.spine ++ " s\n" ++
  "LEFT JOIN prev ON prev.k = s." ++ key ++ "\n" ++
  "LEFT JOIN curr ON curr.k = s." ++ key ++ "\n" ++ dimensionJoin ++ "ORDER BY s." ++ key

/-- `compile_analysis`, at the addresses of the tables. -/
def compileAt (refs : TableRefs) : Option String := do
  let e ← ir.eligibility
  let periods := [ir.periodCte ident refs.event e "prev" ir.previous.values,
    ir.periodCte ident refs.event e "curr" ir.current.values]
  if ir.dimensions = [] then some (ir.statementText ident refs periods "" "")
  else
    let (cte, missing) ← ir.dimensionCte ident refs.dimension
    some (ir.statementText ident refs (periods ++ [cte]) (ir.dimensionSelect ident missing)
      ("LEFT JOIN dim ON dim.k = s." ++ ident ir.spine.keyColumn ++ "\n"))

def tableRefs (dialect : Dialect) : TableRefs where
  spine := dialect.tableRef ir.spine.binding
  event := dialect.tableRef ir.eventBinding
  dimension := (ir.dimensionBinding.map dialect.tableRef).getD ""

def compileAnalysis (dialect : Dialect) : Option String :=
  ir.compileAt dialect.ident (ir.tableRefs dialect)

end AnalysisExecutionIRV1

end FeatureGen.DataAgent
