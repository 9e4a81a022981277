import FeatureGen.Lib.Calendar
import FeatureGen.Materialize.ExpressionIR
import FeatureGen.Materialize.SpineNode

/-! # Windows, rendered and resolved

The window of a compiled expression twice: as `render/nodes_compute.py` writes it into
a node, with what Spark makes of the written functions, and as `materialize/runprep.py`
computes it to say which partitions a run reads. Instants are microseconds since 1970.
-/

namespace FeatureGen.Materialize

open FeatureGen.Overlay Calendar Checks

def daysPerUnit : String → Option ℕ
  | "day" => some 1
  | "week" => some 7
  | _ => none

def monthsPerUnit : String → Option ℕ
  | "month" => some 1
  | "quarter" => some 3
  | "year" => some 12
  | _ => none

/-- `Inclusivity`'s members. -/
def inclusivities : List String := ["inclusive", "exclusive"]

/-- `WindowBasis`'s members. -/
def windowBases : List String := ["trailing", "calendar_period"]

/-- What both sides demand of a window before any arithmetic. -/
def checkWindow (pit : PitSpec) : Except String Unit := do
  ensure (1 ≤ pit.windowLength) (s!"the declared window length is {pit.windowLength}: a window " ++
    "of no units spans no time")
  ensure (inclusivities.contains pit.windowStartInclusive = true ∧
      inclusivities.contains pit.windowEndInclusive = true)
    ("the window's boundaries are declared " ++ Text.repr pit.windowStartInclusive ++ " / " ++
      Text.repr pit.windowEndInclusive ++ ": Inclusivity is CLOSED")
  ensure (windowBases.contains pit.windowBasis = true)
    ("the window's basis is " ++ Text.repr pit.windowBasis ++ ": WindowBasis is CLOSED")

/-- `_period_end`, as it is written. -/
inductive PeriodEnd where
  | anchor
  | truncated (period : String)

/-- `_period_start`, as it is written. -/
inductive PeriodStart where
  | dateSub (days : ℤ)
  | addMonths (months : ℤ)

/-- What `_window_boundaries` writes. -/
structure RenderedWindow where
  periodEnd : PeriodEnd
  periodStart : PeriodStart
  timezone : String
  /-- The comparison with the start is `>=`, and not `>`. -/
  fromStart : Bool
  /-- The comparison with the end is `<=`, and not `<`. -/
  toEnd : Bool

/-- `_PERIOD_START`. -/
def truncFormats : List String := ["week", "month", "quarter", "year"]

def renderPeriodEnd (pit : PitSpec) : Except String PeriodEnd :=
  if pit.windowBasis = "trailing" then .ok .anchor
  else if truncFormats.contains pit.windowUnit then .ok (.truncated pit.windowUnit)
  else if pit.windowUnit = "day" then .ok .anchor
  else .error ("the window's unit is " ++ Text.repr pit.windowUnit ++ ": WindowUnit is CLOSED, " ++
    "and a calendar period this renderer cannot truncate to has no first day")

def renderPeriodStart (pit : PitSpec) : Except String PeriodStart :=
  match daysPerUnit pit.windowUnit, monthsPerUnit pit.windowUnit with
  | some days, _ => .ok (.dateSub (pit.windowLength * days))
  | none, some months => .ok (.addMonths (-pit.windowLength * months))
  | none, none => .error ("the window's unit is " ++ Text.repr pit.windowUnit ++ ", which this " ++
      "renderer has no calendar arithmetic for")

/-- `_window_boundaries`. -/
def renderWindow (pit : PitSpec) : Except String RenderedWindow := do
  checkWindow pit
  let periodEnd ← renderPeriodEnd pit
  let periodStart ← renderPeriodStart pit
  .ok ⟨periodEnd, periodStart, pit.windowTimezone, pit.windowStartInclusive = "inclusive",
    pit.windowEndInclusive = "inclusive"⟩

/-- The functions a rendered window calls; none is NULL, or a date out of the calendar. -/
structure Spark where
  trunc : Date → String → Option Date
  dateSub : Date → ℤ → Option Date
  addMonths : Date → ℤ → Option Date
  /-- `to_utc_timestamp`, of a date's midnight in a session that is in UTC. -/
  toUtcTimestamp : Date → String → ℤ

def FirstOf (d e : Date) : String → Prop
  | "week" => e.weekday = 0 ∧ e.ordinal ≤ d.ordinal ∧ d.ordinal < e.ordinal + 7
  | "month" => e.year = d.year ∧ e.month = d.month ∧ e.day = 1
  | "quarter" => e.year = d.year ∧ e.month % 3 = 1 ∧ e.month ≤ d.month ∧ d.month < e.month + 3 ∧
      e.day = 1
  | "year" => e.year = d.year ∧ e.month = 1 ∧ e.day = 1
  | _ => False

structure Spark.Documented (spark : Spark) : Prop where
  trunc : ∀ d e period, spark.trunc d period = some e ↔ FirstOf d e period
  dateSub : ∀ d e n, spark.dateSub d n = some e ↔ (e.ordinal : ℤ) + n = d.ordinal
  addMonths : ∀ d e n, spark.addMonths d n = some e ↔ d.MonthsAfter n e

namespace RenderedWindow

variable (window : RenderedWindow) (spark : Spark) (anchor : Date)

def windowEnd : Option Date :=
  match window.periodEnd with
  | .anchor => some anchor
  | .truncated period => spark.trunc anchor period

def windowStart : Option Date :=
  (window.windowEnd spark anchor).bind fun d =>
    match window.periodStart with
    | .dateSub days => spark.dateSub d days
    | .addMonths months => spark.addMonths d months

def startsAt : Option ℤ :=
  (window.windowStart spark anchor).map fun d => spark.toUtcTimestamp d window.timezone

def endsAt : Option ℤ :=
  (window.windowEnd spark anchor).map fun d => spark.toUtcTimestamp d window.timezone

/-- The two filters keep a row of this event time. -/
def admits (event : ℤ) : Bool :=
  (window.startsAt spark anchor).any (fun t => if window.fromStart then t ≤ event else t < event) &&
    (window.endsAt spark anchor).any fun t => if window.toEnd then event ≤ t else event < t

end RenderedWindow

def inCalendar (result : Option Date) : Except String Date :=
  result.elim (.error "date value out of range") .ok

def periodStarts : String → Option (Date → Option Date)
  | "week" => some fun day => day.addDays (-day.weekday)
  | "month" => some fun day => Date.of? day.year day.month 1
  | "quarter" => some fun day => Date.of? day.year (3 * ((day.month - 1) / 3) + 1) 1
  | "year" => some fun day => Date.of? day.year 1 1
  | _ => none

def periodEndDate (pit : PitSpec) (anchor : Date) : Except String Date :=
  if pit.windowBasis = "trailing" ∨ pit.windowUnit = "day" then .ok anchor
  else
    match periodStarts pit.windowUnit with
    | some period => inCalendar (period anchor)
    | none => .error ("the window's unit is " ++ Text.repr pit.windowUnit ++ ": WindowUnit is " ++
        "CLOSED, and a calendar period this module cannot truncate to has no first day")

def periodStartDate (pit : PitSpec) (finish : Date) : Except String Date :=
  match daysPerUnit pit.windowUnit, monthsPerUnit pit.windowUnit with
  | some days, _ => inCalendar (finish.addDays (-(pit.windowLength * days)))
  | none, some months => inCalendar (finish.addMonths (-pit.windowLength * months))
  | none, none => .error ("the window's unit is " ++ Text.repr pit.windowUnit ++ ", which this " ++
      "module has no calendar arithmetic for")

def lastDay (pit : PitSpec) (finish : Date) : Except String Date :=
  if pit.windowEndInclusive = "inclusive" then .ok finish else inCalendar finish.previous

def windowDays (pit : PitSpec) (anchor : Date) : Except String (Date × Date) := do
  checkWindow pit
  let finish ← periodEndDate pit anchor
  let start ← periodStartDate pit finish
  let last ← lastDay pit finish
  ensure (start.ordinal ≤ last.ordinal) ("the declared window spans no day: it starts at " ++
    start.isoformat ++ " and ends at " ++ last.isoformat ++ ", so the read would select nothing")
  .ok (start, last)

/-- `EventTimePartition`, and `AvailabilityPartition` with its `late_arrival_days`. -/
structure TimePartition where
  timeRef : String
  partitionColumn : String
  transform : PartitionTransform
  timezone : String
  lateArrivalDays : Option ℤ

/-- `PARTITION_VALUE_FORMS`. -/
def PartitionTransform.form : PartitionTransform → Date → String
  | dateIso => Date.isoformat
  | dateCompact => Date.compact

/-- `PartitionSpec`: the columns with their values. -/
abbrev PartitionSpec := List (String × String)

section Partitions

variable (lower : String → String)

def readDays (pit : Option PitSpec) (anchor : Date) : Except String (Date × Date) :=
  pit.elim (.ok (anchor, anchor)) fun pit => windowDays pit anchor

def withLateArrivals (late : Option ℤ) (last : Date) : Except String Date :=
  match late with
  | none => .ok last
  | some days =>
      if days < 0 then .error (s!"the availability mapping declares late_arrival_days={days}: " ++
        "it is BY HOW MUCH the partition set widens")
      else inCalendar (last.addDays days)

def widensZone (mapping : TimePartition) (pit : Option PitSpec) : Bool :=
  pit.any fun pit => norm lower mapping.timezone ≠ norm lower pit.windowTimezone

def widened (differ : Bool) (first last : Date) : Except String (Date × Date) :=
  if differ then do
    let first ← inCalendar first.previous
    let last ← inCalendar last.next
    .ok (first, last)
  else .ok (first, last)

def timePartitionSpecs (mapping : TimePartition) (pit : Option PitSpec) (anchor : Date) :
    Except String (List PartitionSpec) := do
  let days ← readDays pit anchor
  let last ← withLateArrivals mapping.lateArrivalDays days.2
  let days ← widened (widensZone lower mapping pit) days.1 last
  .ok ((Date.upTo days.1 days.2).map fun day =>
    [(mapping.partitionColumn, mapping.transform.form day)])

end Partitions

end FeatureGen.Materialize
