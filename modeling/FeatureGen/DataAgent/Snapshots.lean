import FeatureGen.DataAgent.Physical
import FeatureGen.Lib.Sql

/-! # Dimension attribution

`data_agent/dimensions.py`: which row of an interval table classifies a member.

`data_agent/snapshots.py`: the row of a snapshot table that is the latest at a
cutoff, and the probe for ties.
-/

namespace FeatureGen.DataAgent

open Sql Checks FeatureGen.Overlay

inductive AttributionBasis where
  | reportCutoff
  | periodEndPerPeriod
  | transactionEventTime
  | currentValue
  deriving DecidableEq

def AttributionBasis.value : AttributionBasis → String
  | .reportCutoff => "report_cutoff"
  | .periodEndPerPeriod => "period_end_per_period"
  | .transactionEventTime => "transaction_event_time"
  | .currentValue => "current_value"

/-- `repr` of a basis. -/
def AttributionBasis.repr : AttributionBasis → String
  | .reportCutoff => "<AttributionBasis.REPORT_CUTOFF: 'report_cutoff'>"
  | .periodEndPerPeriod => "<AttributionBasis.PERIOD_END_PER_PERIOD: 'period_end_per_period'>"
  | .transactionEventTime => "<AttributionBasis.TRANSACTION_EVENT_TIME: 'transaction_event_time'>"
  | .currentValue => "<AttributionBasis.CURRENT_VALUE: 'current_value'>"

inductive MissingValueBehavior where
  | unknownBucket
  | retainNull
  | refuse
  deriving DecidableEq

def MissingValueBehavior.value : MissingValueBehavior → String
  | .unknownBucket => "unknown_bucket"
  | .retainNull => "retain_null"
  | .refuse => "refuse"

/-- `UNKNOWN`. -/
def unknownLabel : String := "Unknown"

/-- `DIMENSION_ATTRIBUTION_AS_OF_UNRESOLVED`. -/
def attributionUnresolved : String :=
  "the attribution basis is a BUSINESS decision and is unconfirmed for the real source: " ++
  "report_cutoff | period_end_per_period | transaction_event_time | current_value all give " ++
  "different answers for the same question"

/-- `overlap_behavior` has one value, `refuse`, and is left out. -/
structure DimensionAttributionPolicyV1 where
  attributionBasis : AttributionBasis
  effectiveFromColumn : String
  effectiveToColumn : String
  reportCutoff : String
  intervalSemantics : String
  missingValueBehavior : MissingValueBehavior
  currentFlagColumn : String

namespace DimensionAttributionPolicyV1

variable (policy : DimensionAttributionPolicyV1)

/-- The column that says which row is current. -/
def declaredCurrent : String :=
  if policy.currentFlagColumn = "" then policy.effectiveToColumn else policy.currentFlagColumn

def validateCurrentValue : Except CodedError Unit := do
  ensure (strip policy.reportCutoff = "")
    ⟨"ATTRIBUTION_CUTOFF_ON_CURRENT_VALUE",
      "current_value attribution carries report_cutoff " ++ Text.repr policy.reportCutoff ++
      ". 'Whatever the customer is today' and 'the classification valid at a cutoff' are " ++
      "two different questions with two different answers; a cutoff here would be " ++
      "silently ignored, and the report would claim a point-in-time it never applied"⟩
  ensure (strip policy.declaredCurrent ≠ "")
    ⟨"ATTRIBUTION_NO_CURRENT_RULE",
      "current_value attribution needs the source's own declaration of which row is " ++
      "current — a current flag, or the open-ended-row convention's effective_to column. " ++
      "Without one, 'the current row' is whichever row the engine reads first, and on a " ++
      "table carrying a future-dated row that is not today's value at all"⟩
  requireIdentifier policy.declaredCurrent "current-record column"

/-- `__post_init__`. -/
def check : Except CodedError Unit := do
  ensure (policy.attributionBasis = .reportCutoff ∨ policy.attributionBasis = .currentValue)
    ⟨"ATTRIBUTION_UNSUPPORTED_BASIS",
      "attribution basis " ++ policy.attributionBasis.repr ++ " is not implemented. It is a " ++
      "business decision with a different answer per basis — " ++ attributionUnresolved⟩
  ensure (policy.intervalSemantics = "start_inclusive_end_exclusive")
    ⟨"ATTRIBUTION_UNSUPPORTED_INTERVAL",
      "only half-open [from, to) intervals are implemented; any other convention makes " ++
      "adjacent history rows either both match or both miss"⟩
  if policy.attributionBasis = .currentValue then policy.validateCurrentValue
  else
    ensure (strip policy.currentFlagColumn = "")
      ⟨"ATTRIBUTION_CURRENT_FLAG_ON_CUTOFF",
        "current_flag_column " ++ Text.repr policy.currentFlagColumn ++ " is declared on a " ++
        Text.repr policy.attributionBasis.value ++
        " policy, where nothing reads it: 'the row the source flags as current' is the OTHER " ++
        "basis. Declare current_value, or drop the " ++
        "flag — a silently ignored declaration reads as applied"⟩
    ensure (strip policy.reportCutoff ≠ "")
      ⟨"ATTRIBUTION_NO_CUTOFF",
        "report_cutoff attribution needs the instant to classify at; defaulting to 'today' " ++
        "would silently reattribute a historical report"⟩
    requireIdentifier policy.effectiveFromColumn "effective_from column"
    requireIdentifier policy.effectiveToColumn "effective_to column"

/-- `_cutoff_predicate`: the half-open interval at the cutoff. -/
def cutoffPredicate : Condition :=
  .both (.atMost policy.effectiveFromColumn policy.reportCutoff)
    (.either (.after policy.effectiveToColumn policy.reportCutoff)
      (.isNull policy.effectiveToColumn))

/-- `_current_predicate`: the flag first, the open-ended row otherwise. -/
def currentPredicate : Condition :=
  if policy.currentFlagColumn ≠ "" then .isTrue policy.currentFlagColumn
  else .isNull policy.effectiveToColumn

def validityPredicate : Condition :=
  if policy.attributionBasis = .currentValue then policy.currentPredicate
  else policy.cutoffPredicate

end DimensionAttributionPolicyV1

end FeatureGen.DataAgent

namespace FeatureGen.DataAgent

open Sql Checks FeatureGen.Overlay

inductive SnapshotScope where
  | perEntity
  | perTable
  deriving DecidableEq

def SnapshotScope.value : SnapshotScope → String
  | .perEntity => "per_entity"
  | .perTable => "per_table"

structure LatestSnapshotPolicyV1 where
  snapshotColumn : String
  cutoff : String
  scope : SnapshotScope
  keyColumn : String
  tieBreakColumns : List String
  missingValueBehavior : MissingValueBehavior

namespace LatestSnapshotPolicyV1

variable (policy : LatestSnapshotPolicyV1)

/-- `__post_init__`. -/
def check : Except CodedError Unit := do
  requireIdentifier policy.snapshotColumn "snapshot column"
  if policy.scope = .perEntity then requireIdentifier policy.keyColumn "snapshot key column"
  each (fun _ column => requireIdentifier column "tie-break column") policy.tieBreakColumns
  ensure (strip policy.cutoff ≠ "")
    ⟨"SNAPSHOT_NO_CUTOFF",
      "latest-snapshot selection needs the instant to read as of; defaulting to 'now' " ++
      "would answer a historical question with today's snapshot"⟩
  ensure (policy.scope = .perTable → policy.keyColumn = "")
    ⟨"SNAPSHOT_SCOPE_CONTRADICTION",
      "a per-table snapshot selection names no entity key: declaring one says the latest " ++
      "snapshot is per entity, which is the other scope"⟩
  ensure policy.tieBreakColumns.Nodup
    ⟨"SNAPSHOT_TIE_BREAK_REPEATED",
      "tie-break columns must be distinct; a repeated column adds no ordering"⟩

def cutoffPredicate : Condition := .atMost policy.snapshotColumn policy.cutoff

/-- The columns of `_ordering`, each descending with its nulls last. -/
def orderingColumns : List String := policy.snapshotColumn :: policy.tieBreakColumns

variable (quote : String → String)

def ordering : String :=
  String.intercalate ", " (policy.orderingColumns.map fun c => quote c ++ " DESC NULLS LAST")

def partition : String :=
  match policy.scope with
  | .perTable => ""
  | .perEntity => "PARTITION BY " ++ quote policy.keyColumn ++ " "

/-- `ranked_selection`, under the alias `k`. -/
def rankedSelection (tableRef : String) (columns : List String) : String :=
  let projected := String.intercalate ", " (columns.map quote)
  let keySelect := match policy.scope with
    | .perEntity => quote policy.keyColumn ++ " AS " ++ quote "k" ++ ", "
    | .perTable => ""
  let innerKey := match policy.scope with
    | .perEntity => quote "k" ++ ", "
    | .perTable => ""
  "SELECT " ++ innerKey ++ projected ++ " FROM (" ++
    "SELECT " ++ keySelect ++ projected ++ ", " ++
    "ROW_NUMBER() OVER (" ++ policy.partition quote ++ "ORDER BY " ++ policy.ordering quote ++
    ") AS rn " ++ "FROM " ++ tableRef ++ " WHERE " ++ policy.cutoffPredicate.render quote ++
    ") ranked WHERE rn = 1"

section Rows

variable {V : Type} [LinearOrder V] (r : Reading V) (t : Table V)

def part (row : Row V) : Option V :=
  match policy.scope with
  | .perEntity => row policy.keyColumn
  | .perTable => none

def published : Table V := t.filter fun row => policy.cutoffPredicate.holds r row

/-- The rows that `tie_probe` ranks first. -/
def rankedFirst : Table V := topRows policy.part policy.orderingColumns (policy.published r t)

/-- The rows of `ranked_selection`. -/
def latestRows : Table V := firstRows policy.part policy.orderingColumns (policy.published r t)

variable {policy r t}

omit [LinearOrder V] in
theorem part_perEntity (scope : policy.scope = .perEntity) :
    policy.part = fun row : Row V => row policy.keyColumn := by
  funext row
  rw [part, scope]

theorem filter_latestRows {k : Option V}
    (single : ((policy.rankedFirst r t).filter fun row => policy.part row = k).length ≤ 1) :
    ((policy.latestRows r t).filter fun row => policy.part row = k) =
      (policy.rankedFirst r t).filter fun row => policy.part row = k :=
  filter_firstRows single

theorem rankedFirst_perm {t' : Table V} (perm : t'.Perm t) :
    (policy.rankedFirst r t').Perm (policy.rankedFirst r t) :=
  topRows_perm (perm.filter _)

end Rows

end LatestSnapshotPolicyV1

end FeatureGen.DataAgent
