import FeatureGen.DataAgent.Analysis
import FeatureGen.Lib.KeySort

/-! # Running a plan

`run_analysis` of `data_agent/analysis.py`: the gates on the state of the data, and
what the statement of `compile_analysis` answers, by the meaning of its clauses. A
warehouse gives each table reference its rows in their physical order; a column is
read under the name the plan has for it.
-/

namespace FeatureGen.DataAgent

open Sql Checks FeatureGen.Overlay

structure AnalysisRow (V : Type) where
  key : Option V
  previousCount : ℕ
  currentCount : ℕ
  dimensions : List (String × Option V)

/-- What a run raises: a coded error and its `subjects`. -/
structure RunError where
  code : String
  message : String
  subjects : List String

abbrev Warehouse (V : Type) := String → Table V

namespace AnalysisExecutionIRV1

section Gates

variable {V : Type} [LinearOrder V] (r : Reading V) (lower : String → String) (dialect : Dialect)
variable (warehouse : Warehouse V) (ir : AnalysisExecutionIRV1)

def spineRows : Table V := warehouse (ir.tableRefs dialect).spine

def eventRows : Table V := warehouse (ir.tableRefs dialect).event

def sourceRows : Table V := warehouse (ir.tableRefs dialect).dimension

def spineKey (row : Row V) : Option V := row ir.spine.keyColumn

def assertJoinIsVerified : Except RunError Unit :=
  let spineId := ir.spine.binding.identity.tableId lower
  let eventId := ir.eventBinding.identity.tableId lower
  match joinRefusal ir.joinEvidence eventId ir.eventKeyColumn spineId ir.spine.keyColumn with
  | none => .ok ()
  | some refusal => .error ⟨refusal.code, refusal.message,
      [spineId ++ "." ++ ir.spine.keyColumn, eventId ++ "." ++ ir.eventKeyColumn]⟩

def assertSpineIsUnique : Except RunError Unit := do
  let spineId := ir.spine.binding.identity.tableId lower
  let rows := (ir.spineRows dialect warehouse).length
  let keyed := countKeyed ir.spineKey (ir.spineRows dialect warehouse)
  let distinct := countDistinct ir.spineKey (ir.spineRows dialect warehouse)
  ensure (¬ keyed < rows)
    ⟨"POPULATION_SPINE_NOT_UNIQUE",
      "the population " ++ Text.repr spineId ++ " has " ++ toString (rows - keyed) ++
      " row(s) with no " ++ Text.repr ir.spine.keyColumn ++
      ": a member with no identity can never match an event, so it contributes a permanent " ++
      "zero to the answer while still counting as a member",
      [spineId ++ "." ++ ir.spine.keyColumn]⟩
  ensure (¬ distinct < keyed)
    ⟨"POPULATION_SPINE_NOT_UNIQUE",
      "the population " ++ Text.repr spineId ++ " has " ++ toString rows ++ " rows for " ++
      toString distinct ++ " distinct " ++ Text.repr ir.spine.keyColumn ++
      " values, so it is not one row per member. Every count in this answer would be multiplied " ++
      "by the number of rows each member happens to have — the answer would not fail, it would " ++
      "be plausible and wrong. Use a current-only population, or declare the row rule that " ++
      "reduces this table to one row per member",
      [spineId ++ "." ++ ir.spine.keyColumn]⟩

def validRows (policy : DimensionAttributionPolicyV1) : Table V :=
  (ir.sourceRows dialect warehouse).filter fun row => policy.validityPredicate.holds r row

def assertNoDimensionOverlap : Except RunError Unit :=
  if ir.dimensions = [] then .ok ()
  else
    match ir.attribution with
    | none => .ok ()
    | some policy =>
        let overlapping := repeatedGroups ir.spineKey (ir.validRows r dialect warehouse policy)
        ensure (overlapping = 0)
          ⟨"ATTRIBUTION_OVERLAPPING_RECORDS",
            toString overlapping ++ " entity(ies) have more than one dimension record valid at " ++
            Text.repr policy.reportCutoff ++ "; choosing one would hide a dimension-table defect",
            []⟩

def assertNoSnapshotTie (policy : LatestSnapshotPolicyV1) : Except RunError Unit :=
  let ranked := policy.rankedFirst r (ir.sourceRows dialect warehouse)
  match policy.scope with
  | .perTable =>
      ensure (ranked.length ≤ 1)
        ⟨"TEMPORAL_SNAPSHOT_TIE",
          toString ranked.length ++ " rows share the greatest snapshot at or before " ++
          Text.repr policy.cutoff ++ " and nothing declared separates them, so which one answers " ++
          "the question is read order. Declare a tie-break column on the dataset's temporal policy",
          [policy.snapshotColumn]⟩
  | .perEntity =>
      let tied := repeatedGroups policy.part ranked
      ensure (tied = 0)
        ⟨"TEMPORAL_SNAPSHOT_TIE",
          toString tied ++ " entit(ies) have more than one row at the greatest snapshot on or " ++
          "before " ++ Text.repr policy.cutoff ++ ", and the declared tie-breakers (" ++
          (if policy.tieBreakColumns = [] then "none"
            else String.intercalate ", " policy.tieBreakColumns) ++
          ") do not separate them. Choosing one would make the answer depend on read order",
          [policy.keyColumn, policy.snapshotColumn]⟩

def assertSnapshotSelectionIsUnique : Except RunError Unit :=
  if ir.dimensions = [] then .ok ()
  else
    match ir.snapshotSelection with
    | none => .ok ()
    | some policy => ir.assertNoSnapshotTie r dialect warehouse policy

end Gates

section Answer

variable {V : Type} [LinearOrder V] (r : Reading V) (dialect : Dialect)
variable (warehouse : Warehouse V) (ir : AnalysisExecutionIRV1)

def periodEvents (e : TransactionEligibilityPolicyV1) (values : List String) : Table V :=
  (ir.eventRows dialect warehouse).filter fun row =>
    ∀ c ∈ ir.periodConditions e values, c.holds r row

def eventKey (row : Row V) : Option V := row ir.eventKeyColumn

/-- The rows of the common table expression of a period. -/
def periodGroups (e : TransactionEligibilityPolicyV1) (values : List String) :
    List (Option V × ℕ) :=
  countBy ir.eventKey (ir.periodEvents r dialect warehouse e values)

/-- The rows of the common table expression of the dimensions, under their keys. -/
def dimensionGroups : List (Option V × Row V) :=
  match ir.snapshotSelection, ir.attribution with
  | some policy, _ =>
      (policy.latestRows r (ir.sourceRows dialect warehouse)).map fun row =>
        (row policy.keyColumn, row)
  | none, some policy =>
      (ir.validRows r dialect warehouse policy).map fun row => (ir.spineKey row, row)
  | none, none => []

/-- What becomes of a missing classification. -/
def missingValue : MissingValueBehavior :=
  match ir.snapshotSelection, ir.attribution with
  | some policy, _ => policy.missingValueBehavior
  | none, some policy => policy.missingValueBehavior
  | none, none => .unknownBucket

def selectDimension (column : String) (joined : Option (Row V)) : Option V :=
  let value := joined.bind fun row => row column
  if ir.missingValue = .unknownBucket then
    some (value.getD (r.literal column unknownLabel))
  else value

def outerRow (member : Row V) (prev curr : Option (Option V × ℕ))
    (dim : Option (Option V × Row V)) : AnalysisRow V where
  key := ir.spineKey member
  previousCount := (prev.map Prod.snd).getD 0
  currentCount := (curr.map Prod.snd).getD 0
  dimensions := ir.dimensions.map fun d =>
    (d.column, ir.selectDimension r d.column (dim.map Prod.snd))

def joinedPeriods (e : TransactionEligibilityPolicyV1) :
    List ((Row V × Option (Option V × ℕ)) × Option (Option V × ℕ)) :=
  leftJoin (fun pair => ir.spineKey pair.1) Prod.fst
    (leftJoin ir.spineKey Prod.fst (ir.spineRows dialect warehouse)
      (ir.periodGroups r dialect warehouse e ir.previous.values))
    (ir.periodGroups r dialect warehouse e ir.current.values)

/-- The rows of the statement, before they are ordered. -/
def outerRows (e : TransactionEligibilityPolicyV1) : List (AnalysisRow V) :=
  let periods := ir.joinedPeriods r dialect warehouse e
  if ir.dimensions = [] then
    periods.map fun p => ir.outerRow r p.1.1 p.1.2 p.2 none
  else
    (leftJoin (fun p => ir.spineKey p.1.1) Prod.fst periods
      (ir.dimensionGroups r dialect warehouse)).map fun p =>
        ir.outerRow r p.1.1.1 p.1.1.2 p.1.2 p.2

/-- What the statement returns, ordered by the key. -/
def fetchAll : Except RunError (List (AnalysisRow V)) :=
  match ir.eligibility with
  | none => .error ⟨"AssertionError", "validated analysis IR has no eligibility policy", []⟩
  | some e => do
      ensure (ir.compileAnalysis dialect ≠ none)
        ⟨"AssertionError", "validated dimensional analysis has no attribution policy", []⟩
      .ok (KeySort.sortBy (fun row => nullsLast row.key) (ir.outerRows r dialect warehouse e))

def runAnalysis (lower : String → String) : Except RunError (List (AnalysisRow V)) := do
  ir.assertJoinIsVerified lower
  ir.assertSpineIsUnique lower dialect warehouse
  ir.assertNoDimensionOverlap r dialect warehouse
  ir.assertSnapshotSelectionIsUnique r dialect warehouse
  ir.fetchAll r dialect warehouse

end Answer

end AnalysisExecutionIRV1

end FeatureGen.DataAgent
