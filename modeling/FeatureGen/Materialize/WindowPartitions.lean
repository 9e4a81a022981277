import Mathlib
import FeatureGen.Materialize.RunWindow

/-! # The partitions of a window

The two computations of a window agree on its dates; and the resolved partitions have
every row of the window exactly where the mapping's clock, read against the offsets
the two boundaries were converted with, stays within the days that were added.
-/

namespace FeatureGen.Materialize

open FeatureGen.Overlay Calendar Checks

theorem inCalendar_eq_ok {result : Option Date} {d : Date} :
    inCalendar result = .ok d ↔ result = some d := by
  cases result <;> simp [inCalendar]

theorem firstOf_of_periodStarts {unit : String} {period : Date → Option Date} {d e : Date}
    (h : periodStarts unit = some period) (he : period d = some e) : FirstOf d e unit := by
  have month := d.month_mem
  unfold periodStarts at h
  split at h
  · obtain rfl := Option.some.inj h
    have ordinal := Date.ordinal_addDays he
    simp only [FirstOf, Date.weekday] at *
    omega
  · obtain rfl := Option.some.inj h
    exact Date.of?_eq_some.mp he
  · obtain rfl := Option.some.inj h
    obtain ⟨hy, hm, hd⟩ := Date.of?_eq_some.mp he
    exact ⟨hy, by omega, by omega, by omega, hd⟩
  · obtain rfl := Option.some.inj h
    exact Date.of?_eq_some.mp he
  · simp at h

section Boundaries

variable {spark : Spark} {pit : PitSpec} {anchor finish start : Date} {window : RenderedWindow}

theorem renderWindow_ok (h : renderWindow pit = .ok window) :
    renderPeriodEnd pit = .ok window.periodEnd ∧ renderPeriodStart pit = .ok window.periodStart ∧
      window.timezone = pit.windowTimezone ∧
        window.fromStart = decide (pit.windowStartInclusive = "inclusive") ∧
          window.toEnd = decide (pit.windowEndInclusive = "inclusive") := by
  simp only [renderWindow, bind_eq_ok] at h
  obtain ⟨_, _, periodEnd, hend, periodStart, hstart, hwindow⟩ := h
  obtain rfl := Except.ok.inj hwindow
  exact ⟨hend, hstart, rfl, rfl, rfl⟩

theorem windowDays_ok {last : Date} (h : windowDays pit anchor = .ok (start, last)) :
    ∃ finish, periodEndDate pit anchor = .ok finish ∧ periodStartDate pit finish = .ok start ∧
      lastDay pit finish = .ok last := by
  simp only [windowDays, bind_eq_ok, Except.ok.injEq, Prod.mk.injEq] at h
  obtain ⟨_, _, finish, hfinish, first, hfirst, last', hend, _, _, rfl, rfl⟩ := h
  exact ⟨finish, hfinish, hfirst, hend⟩

theorem windowEnd_eq (documented : spark.Documented) (rendered : renderWindow pit = .ok window)
    (h : periodEndDate pit anchor = .ok finish) : window.windowEnd spark anchor = some finish := by
  have written := (renderWindow_ok rendered).1
  unfold renderPeriodEnd at written
  unfold periodEndDate at h
  unfold RenderedWindow.windowEnd
  by_cases trailing : pit.windowBasis = "trailing"
  · rw [if_pos trailing] at written
    rw [if_pos (Or.inl trailing)] at h
    rw [← Except.ok.inj written, Except.ok.inj h]
  · rw [if_neg trailing] at written
    by_cases daily : pit.windowUnit = "day"
    · rw [if_pos (Or.inr daily)] at h
      rw [if_neg (by rw [daily]; decide), if_pos daily] at written
      rw [← Except.ok.inj written, Except.ok.inj h]
    · rw [if_neg (by tauto)] at h
      rw [if_neg daily] at written
      cases hperiod : periodStarts pit.windowUnit with
      | none => simp [hperiod] at h
      | some period =>
          simp only [hperiod, inCalendar_eq_ok] at h
          have first := firstOf_of_periodStarts hperiod h
          split at written
          · rw [← Except.ok.inj written]
            exact (documented.trunc _ _ _).mpr first
          · simp at written

theorem windowStart_eq (documented : spark.Documented) (rendered : renderWindow pit = .ok window)
    (hend : periodEndDate pit anchor = .ok finish) (h : periodStartDate pit finish = .ok start) :
    window.windowStart spark anchor = some start := by
  have written := (renderWindow_ok rendered).2.1
  rw [RenderedWindow.windowStart, windowEnd_eq documented rendered hend, Option.bind_some]
  unfold renderPeriodStart at written
  unfold periodStartDate at h
  cases hdays : daysPerUnit pit.windowUnit with
  | some days =>
      simp only [hdays, inCalendar_eq_ok, Except.ok.injEq] at written h
      rw [← written]
      have ordinal := Date.ordinal_addDays h
      exact (documented.dateSub _ _ _).mpr (by omega)
  | none =>
      cases hmonths : monthsPerUnit pit.windowUnit with
      | none => simp [hdays, hmonths] at h
      | some months =>
          simp only [hdays, hmonths, inCalendar_eq_ok, Except.ok.injEq] at written h
          rw [← written]
          exact (documented.addMonths _ _ _).mpr (Date.addMonths_eq_some.mp h)

theorem ordinal_lastDay {last : Date} (h : lastDay pit finish = .ok last) :
    (last.ordinal : ℤ) =
      finish.ordinal - if pit.windowEndInclusive = "inclusive" then 0 else 1 := by
  unfold lastDay at h
  split at h
  · obtain rfl := Except.ok.inj h
    simp [*]
  · have step := Date.ordinal_previous (inCalendar_eq_ok.mp h)
    simp only [*, if_false]
    omega

end Boundaries

section Partitions

variable {lower : String → String} {mapping : TimePartition} {pit : PitSpec} {anchor : Date}

def TimePartition.late (mapping : TimePartition) : ℤ := mapping.lateArrivalDays.getD 0

def zoneDays (lower : String → String) (mapping : TimePartition) (pit : PitSpec) : ℤ :=
  if widensZone lower mapping (some pit) then 1 else 0

theorem ordinal_withLateArrivals {last last' : Date}
    (h : withLateArrivals mapping.lateArrivalDays last = .ok last') :
    (last'.ordinal : ℤ) = last.ordinal + mapping.late ∧ 0 ≤ mapping.late := by
  unfold withLateArrivals at h
  unfold TimePartition.late
  cases hlate : mapping.lateArrivalDays with
  | none =>
      simp only [hlate, Except.ok.injEq] at h
      simp [h]
  | some days =>
      simp only [hlate] at h
      split at h
      · simp at h
      · next natural =>
        have ordinal := Date.ordinal_addDays (inCalendar_eq_ok.mp h)
        simp only [Option.getD_some]
        omega

theorem ordinal_widened {differ : Bool} {first last first' last' : Date}
    (h : widened differ first last = .ok (first', last')) :
    (first'.ordinal : ℤ) = first.ordinal - (if differ then 1 else 0) ∧
      (last'.ordinal : ℤ) = last.ordinal + (if differ then 1 else 0) := by
  unfold widened at h
  cases differ with
  | false =>
      simp only [Bool.false_eq_true, if_false, Except.ok.injEq, Prod.mk.injEq] at h
      simp [h]
  | true =>
      simp only [if_true, bind_eq_ok, inCalendar_eq_ok, Except.ok.injEq, Prod.mk.injEq] at h
      obtain ⟨_, hprevious, _, hnext, rfl, rfl⟩ := h
      have before := Date.ordinal_previous hprevious
      have after := Date.ordinal_next hnext
      simp only [if_true]
      omega

theorem form_injective (transform : PartitionTransform) : Function.Injective transform.form := by
  cases transform with
  | dateIso => exact Date.isoformat_injective
  | dateCompact => exact Date.compact_injective

def TimePartition.partitionOf (mapping : TimePartition) (day : Date) : PartitionSpec :=
  [(mapping.partitionColumn, mapping.transform.form day)]

theorem mem_timePartitionSpecs {specs : List PartitionSpec}
    (h : timePartitionSpecs lower mapping (some pit) anchor = .ok specs) :
    0 ≤ mapping.late ∧ ∃ first last, windowDays pit anchor = .ok (first, last) ∧
      ∀ day : Date, mapping.partitionOf day ∈ specs ↔
        (first.ordinal : ℤ) - zoneDays lower mapping pit ≤ day.ordinal ∧
          (day.ordinal : ℤ) ≤ last.ordinal + mapping.late + zoneDays lower mapping pit := by
  simp only [timePartitionSpecs, bind_eq_ok, Except.ok.injEq] at h
  obtain ⟨⟨first, last⟩, hdays, last', hlate, ⟨first', last''⟩, hwide, rfl⟩ := h
  obtain ⟨late, natural⟩ := ordinal_withLateArrivals hlate
  obtain ⟨before, after⟩ := ordinal_widened hwide
  simp only at late before after
  refine ⟨natural, first, last, hdays, fun day => ?_⟩
  simp only [List.mem_map, TimePartition.partitionOf, List.cons.injEq, Prod.mk.injEq, true_and,
    and_true, (form_injective _).eq_iff, exists_eq_right, Date.mem_upTo, zoneDays]
  omega

end Partitions

def dayMicros : ℤ := 86400000000

/-- The ordinal of 1970-01-01. -/
def epochOrdinal : ℤ := 719163

section Clocks

-- `offset` is each zone's offset from UTC, by name, at each instant.
variable (offset : String → ℤ → ℤ)

def localOrdinal (zone : String) (event : ℤ) : ℤ :=
  (event + offset zone event) / dayMicros + epochOrdinal

/-- A row of a mapped table: its event time, the date of it on the mapping's clock, and the date
    its partition is of. -/
structure MappedRow (mapping : TimePartition) where
  event : ℤ
  day : Date
  partitionDay : Date
  onDay : (day.ordinal : ℤ) = localOrdinal offset mapping.timezone event
  arrives : day.ordinal ≤ partitionDay.ordinal ∧
    (partitionDay.ordinal : ℤ) ≤ day.ordinal + mapping.late

variable {offset} (spark : Spark)

/-- The microseconds from the event's date to its partition's. -/
def MappedRow.delay {mapping : TimePartition} (row : MappedRow offset mapping) : ℤ :=
  (row.partitionDay.ordinal - row.day.ordinal) * dayMicros

def boundaryOffset (zone : String) (d : Date) : ℤ :=
  (d.ordinal - epochOrdinal) * dayMicros - spark.toUtcTimestamp d zone

/-- The mapping's clock at a row's arrival is behind the one the start was converted with by no
    more than the added day and the time since the start; and ahead of the one the end was converted
    with by less than the added days, the end's own if it is in the window, and the time left. -/
def InStep (lower : String → String) (mapping : TimePartition) (pit : PitSpec)
    (start finish : Date) (row : MappedRow offset mapping) : Prop :=
  let zone := pit.windowTimezone
  let clock := offset mapping.timezone row.event + row.delay
  boundaryOffset spark zone start ≤ clock + zoneDays lower mapping pit * dayMicros +
      (row.event - spark.toUtcTimestamp start zone) ∧
    clock < boundaryOffset spark zone finish + (zoneDays lower mapping pit + mapping.late +
      (if pit.windowEndInclusive = "inclusive" then 1 else 0)) * dayMicros +
        (spark.toUtcTimestamp finish zone - row.event)

end Clocks

theorem within_iff_inStep {offset : String → ℤ → ℤ} {spark : Spark} {lower : String → String}
    {mapping : TimePartition} {pit : PitSpec} {start finish last : Date}
    (hlast : (last.ordinal : ℤ) =
      finish.ordinal - if pit.windowEndInclusive = "inclusive" then 0 else 1)
    (row : MappedRow offset mapping) :
    ((start.ordinal : ℤ) - zoneDays lower mapping pit ≤ row.partitionDay.ordinal ∧
      (row.partitionDay.ordinal : ℤ) ≤
        last.ordinal + mapping.late + zoneDays lower mapping pit) ↔
      InStep spark lower mapping pit start finish row := by
  have onDay := row.onDay
  unfold localOrdinal at onDay
  have size : (0 : ℤ) < dayMicros := by decide
  simp only [InStep, MappedRow.delay, boundaryOffset]
  refine and_congr ?_ ?_
  · calc _ ↔ (start.ordinal : ℤ) - zoneDays lower mapping pit -
            (row.partitionDay.ordinal - row.day.ordinal) - epochOrdinal ≤
          (row.event + offset mapping.timezone row.event) / dayMicros := by omega
      _ ↔ _ := Int.le_ediv_iff_mul_le size
      _ ↔ _ := by constructor <;> intro h <;> linarith
  · calc _ ↔ (row.event + offset mapping.timezone row.event) / dayMicros <
          last.ordinal + mapping.late + zoneDays lower mapping pit + 1 -
            (row.partitionDay.ordinal - row.day.ordinal) - epochOrdinal := by omega
      _ ↔ _ := Int.ediv_lt_iff_lt_mul size
      _ ↔ _ := by
        rw [hlast]
        split <;> constructor <;> intro h <;> linarith

def calendarSpark (zoneOffset : String → ℤ) : Spark where
  trunc d period := (periodStarts period).bind fun start => start d
  dateSub d n := d.addDays (-n)
  addMonths := Date.addMonths
  toUtcTimestamp d zone := (d.ordinal - epochOrdinal) * dayMicros - zoneOffset zone

theorem periodStarts_of_firstOf {d e : Date} {period : String} (h : FirstOf d e period) :
    (periodStarts period).bind (fun start => start d) = some e := by
  have month := d.month_mem
  unfold FirstOf at h
  split at h
  · simp only [Date.weekday] at h
    refine Date.addDays_eq_some.mpr ?_
    simp only [Date.weekday]
    omega
  · exact Date.of?_eq_some.mpr h
  · exact Date.of?_eq_some.mpr ⟨h.1, by omega, h.2.2.2.2⟩
  · exact Date.of?_eq_some.mpr h
  · exact h.elim

theorem calendarSpark_documented (zoneOffset : String → ℤ) :
    (calendarSpark zoneOffset).Documented where
  trunc d e period := by
    constructor
    · intro h
      obtain ⟨start, hperiod, hstart⟩ := Option.bind_eq_some_iff.mp h
      exact firstOf_of_periodStarts hperiod hstart
    · exact periodStarts_of_firstOf
  dateSub d e n := by
    have days := @Date.addDays_eq_some d e (-n)
    exact days.trans (by omega)
  addMonths _ _ _ := Date.addMonths_eq_some

def hourMicros : ℤ := 3600000000

/-- Two zones at the two ends, and UTC. -/
def zoneOffset (zone : String) : ℤ :=
  if zone = "Pacific/Kiritimati" then 14 * hourMicros
  else if zone = "Etc/GMT+12" then -12 * hourMicros
  else 0

/-- The same offset at every instant. -/
def fixedOffset (zone : String) (_ : ℤ) : ℤ := zoneOffset zone

def lastDays (length : ℤ) (zone : String) : PitSpec where
  eventTimeRef := "bank::public.txn.txn_ts"
  availabilityRef := "bank::public.txn.ingested_at"
  availabilityBasis := .ingestedAt
  availabilityLagHours := none
  windowBasis := "trailing"
  windowLength := length
  windowUnit := "day"
  windowStartInclusive := "inclusive"
  windowEndInclusive := "exclusive"
  windowTimezone := zone

def eventPartition (zone : String) : TimePartition where
  timeRef := "bank::public.txn.txn_ts"
  partitionColumn := "dt"
  transform := .dateIso
  timezone := zone
  lateArrivalDays := none

theorem inCalendarYears : 1 ≤ 2026 ∧ 2026 ≤ 9999 := by decide

theorem inYear : 1 ≤ 7 ∧ 7 ≤ 12 := by decide

theorem inJuly : ∀ day ∈ [6, 7], 1 ≤ day ∧ day ≤ daysInMonth 2026 7 := by decide

def businessDate : Date := ⟨2026, 7, 6, inCalendarYears, inYear, inJuly 6 (by simp)⟩

def nextDate : Date := ⟨2026, 7, 7, inCalendarYears, inYear, inJuly 7 (by simp)⟩

def lastDaysWindow (length : ℤ) (zone : String) : RenderedWindow where
  periodEnd := .anchor
  periodStart := .dateSub length
  timezone := zone
  fromStart := true
  toEnd := false

def lastHour : ℤ := (businessDate.ordinal - epochOrdinal) * dayMicros + 11 * hourMicros

theorem lastHour_onDay :
    (nextDate.ordinal : ℤ) = localOrdinal fixedOffset "Pacific/Kiritimati" lastHour := by
  decide

theorem nextDate_arrives (late : ℤ) (h : 0 ≤ late) :
    nextDate.ordinal ≤ nextDate.ordinal ∧ (nextDate.ordinal : ℤ) ≤ nextDate.ordinal + late :=
  ⟨le_rfl, by omega⟩

/-- A row of that hour, in the table of the zone that is ahead. -/
def lastRow : MappedRow fixedOffset (eventPartition "Pacific/Kiritimati") where
  event := lastHour
  day := nextDate
  partitionDay := nextDate
  onDay := lastHour_onDay
  arrives := nextDate_arrives _ le_rfl

/-- The partitions of the two days before a date in July, and of that date. -/
def threeDays : List PartitionSpec :=
  [[("dt", "2026-07-04")], [("dt", "2026-07-05")], [("dt", "2026-07-06")]]

theorem fixedOffset_near (zone : String) (t : ℤ) :
    -12 * hourMicros ≤ fixedOffset zone t ∧ fixedOffset zone t ≤ 14 * hourMicros := by
  unfold fixedOffset zoneOffset hourMicros
  split
  · omega
  · split <;> omega

theorem boundaryOffset_calendarSpark (zone : String) (d : Date) :
    boundaryOffset (calendarSpark zoneOffset) zone d = zoneOffset zone := by
  simp [boundaryOffset, calendarSpark]

end FeatureGen.Materialize
