import Mathlib

/-! # Calendar dates

The proleptic Gregorian calendar of the years 1 to 9999, as Python's `datetime.date`
has it: the ordinal of a date, days counted forward and back, whole months, and the
texts of a date.
-/

namespace Calendar

def isLeap (year : ℕ) : Bool := year % 4 = 0 && (year % 100 ≠ 0 || year % 400 = 0)

def yearLength (year : ℕ) : ℕ := if isLeap year then 366 else 365

def daysInMonth (year : ℕ) : ℕ → ℕ
  | 2 => if isLeap year then 29 else 28
  | 4 | 6 | 9 | 11 => 30
  | _ => 31

def daysBeforeYear (year : ℕ) : ℕ :=
  365 * (year - 1) + (year - 1) / 4 - (year - 1) / 100 + (year - 1) / 400

def daysBeforeMonth (year : ℕ) : ℕ → ℕ
  | 0 | 1 => 0
  | month + 2 => daysBeforeMonth year (month + 1) + daysInMonth year (month + 1)

theorem daysBeforeYear_succ {year : ℕ} (h : 1 ≤ year) :
    daysBeforeYear (year + 1) = daysBeforeYear year + yearLength year := by
  obtain ⟨y, rfl⟩ := Nat.exists_eq_add_of_le' h
  have four : y / 100 ≤ y / 4 := Nat.div_le_div_left (by decide) (by decide)
  have century : 100 ∣ y + 1 → 4 ∣ y + 1 := (by decide : 4 ∣ 100).trans
  have fourth : 400 ∣ y + 1 → 100 ∣ y + 1 := (by decide : 100 ∣ 400).trans
  simp only [daysBeforeYear, yearLength, isLeap, Nat.add_sub_cancel, Nat.succ_div, Bool.and_eq_true,
    Bool.or_eq_true, decide_eq_true_eq, ne_eq, ← Nat.dvd_iff_mod_eq_zero]
  by_cases h₄ : 4 ∣ y + 1 <;> by_cases h₁₀₀ : 100 ∣ y + 1 <;> by_cases h₄₀₀ : 400 ∣ y + 1 <;>
    simp only [h₄, h₁₀₀, h₄₀₀, if_true, if_false, true_and, false_and, or_true, or_false,
      not_true, not_false_iff] <;> omega

theorem daysBeforeYear_mono {a b : ℕ} (ha : 1 ≤ a) (h : a ≤ b) :
    daysBeforeYear a ≤ daysBeforeYear b := by
  induction b, h using Nat.le_induction with
  | base => exact le_rfl
  | succ b hab ih =>
      have step := daysBeforeYear_succ (ha.trans hab)
      omega

theorem daysBeforeMonth_succ {year month : ℕ} (h : 1 ≤ month) :
    daysBeforeMonth year (month + 1) = daysBeforeMonth year month + daysInMonth year month := by
  obtain ⟨m, rfl⟩ := Nat.exists_eq_add_of_le' h
  rfl

theorem daysBeforeMonth_mono {year a b : ℕ} (ha : 1 ≤ a) (h : a ≤ b) :
    daysBeforeMonth year a ≤ daysBeforeMonth year b := by
  induction b, h using Nat.le_induction with
  | base => exact le_rfl
  | succ b hab ih =>
      have step := @daysBeforeMonth_succ year b (ha.trans hab)
      omega

theorem daysBeforeMonth_end (year : ℕ) : daysBeforeMonth year 13 = yearLength year := by
  simp only [daysBeforeMonth, daysInMonth, yearLength]
  split <;> rfl

theorem one_le_daysInMonth (year month : ℕ) : 1 ≤ daysInMonth year month := by
  unfold daysInMonth
  split
  · split <;> omega
  all_goals omega

theorem daysInMonth_le (year month : ℕ) : daysInMonth year month ≤ 31 := by
  unfold daysInMonth
  split
  · split <;> omega
  all_goals omega

structure Date where
  year : ℕ
  month : ℕ
  day : ℕ
  year_mem : 1 ≤ year ∧ year ≤ 9999
  month_mem : 1 ≤ month ∧ month ≤ 12
  day_mem : 1 ≤ day ∧ day ≤ daysInMonth year month

namespace Date

def of? (year month day : ℕ) : Option Date :=
  if h : (1 ≤ year ∧ year ≤ 9999) ∧ (1 ≤ month ∧ month ≤ 12) ∧
      1 ≤ day ∧ day ≤ daysInMonth year month then
    some ⟨year, month, day, h.1, h.2.1, h.2.2⟩
  else none

theorem of?_eq_some {year month day : ℕ} {d : Date} :
    of? year month day = some d ↔ d.year = year ∧ d.month = month ∧ d.day = day := by
  unfold of?
  constructor
  · intro h
    split at h
    · obtain rfl := Option.some.inj h
      exact ⟨rfl, rfl, rfl⟩
    · simp at h
  · rintro ⟨rfl, rfl, rfl⟩
    simp [d.year_mem, d.month_mem, d.day_mem]

/-- `toordinal`: the first day of the year 1 has ordinal 1. -/
def ordinal (d : Date) : ℕ :=
  daysBeforeYear d.year + daysBeforeMonth d.year d.month + d.day

/-- `weekday`: Monday is 0. -/
def weekday (d : Date) : ℕ := (d.ordinal + 6) % 7

section Order

variable {a b : Date}

theorem ordinal_lt_of_year (h : a.year < b.year) : a.ordinal < b.ordinal := by
  have within : daysBeforeMonth a.year a.month + a.day ≤ yearLength a.year := by
    have month := a.month_mem
    have last := @daysBeforeMonth_mono a.year (a.month + 1) 13 (by omega) (by omega)
    rw [daysBeforeMonth_succ month.1, daysBeforeMonth_end] at last
    have day := a.day_mem.2
    omega
  have next := daysBeforeYear_succ a.year_mem.1
  have later := daysBeforeYear_mono (Nat.succ_pos a.year) (Nat.succ_le_of_lt h)
  have day := b.day_mem.1
  simp only [ordinal, Nat.succ_eq_add_one] at *
  omega

theorem ordinal_lt_of_month (hy : a.year = b.year) (h : a.month < b.month) :
    a.ordinal < b.ordinal := by
  have next := @daysBeforeMonth_succ a.year a.month a.month_mem.1
  have later := @daysBeforeMonth_mono a.year (a.month + 1) b.month (by omega) h
  have last := a.day_mem.2
  have first := b.day_mem.1
  simp only [ordinal, ← hy]
  omega

theorem ordinal_injective : Function.Injective ordinal := by
  intro a b h
  have hy : a.year = b.year := by
    rcases lt_trichotomy a.year b.year with lt | eq | gt
    · exact absurd h (ordinal_lt_of_year lt).ne
    · exact eq
    · exact absurd h (ordinal_lt_of_year gt).ne'
  have hm : a.month = b.month := by
    rcases lt_trichotomy a.month b.month with lt | eq | gt
    · exact absurd h (ordinal_lt_of_month hy lt).ne
    · exact eq
    · exact absurd h (ordinal_lt_of_month hy.symm gt).ne'
  have hd : a.day = b.day := by
    simp only [ordinal, hy, hm] at h
    omega
  obtain ⟨_, _, _, _, _, _⟩ := a
  obtain ⟨_, _, _, _, _, _⟩ := b
  simp_all

end Order

def next (d : Date) : Option Date :=
  if d.day < daysInMonth d.year d.month then of? d.year d.month (d.day + 1)
  else if d.month < 12 then of? d.year (d.month + 1) 1
  else of? (d.year + 1) 1 1

def previous (d : Date) : Option Date :=
  if 1 < d.day then of? d.year d.month (d.day - 1)
  else if 1 < d.month then of? d.year (d.month - 1) (daysInMonth d.year (d.month - 1))
  else of? (d.year - 1) 12 31

def forward : ℕ → Date → Option Date
  | 0, d => some d
  | n + 1, d => d.next.bind (forward n)

def back : ℕ → Date → Option Date
  | 0, d => some d
  | n + 1, d => d.previous.bind (back n)

/-- `d + timedelta(days=n)`: none where it is out of the calendar. -/
def addDays (d : Date) : ℤ → Option Date
  | .ofNat n => forward n d
  | .negSucc n => back (n + 1) d

section Days

variable {d e : Date}

theorem ordinal_next (h : d.next = some e) : e.ordinal = d.ordinal + 1 := by
  unfold next at h
  split at h
  · obtain ⟨hy, hm, hd⟩ := of?_eq_some.mp h
    simp only [ordinal, hy, hm, hd]
    omega
  · next full =>
    have last : d.day = daysInMonth d.year d.month := le_antisymm d.day_mem.2 (by omega)
    have month := @daysBeforeMonth_succ d.year d.month d.month_mem.1
    split at h
    · obtain ⟨hy, hm, hd⟩ := of?_eq_some.mp h
      simp only [ordinal, hy, hm, hd]
      omega
    · next december =>
      obtain ⟨hy, hm, hd⟩ := of?_eq_some.mp h
      have twelve : d.month = 12 := le_antisymm d.month_mem.2 (by omega)
      have year := daysBeforeYear_succ d.year_mem.1
      have january : daysBeforeMonth (d.year + 1) 1 = 0 := rfl
      rw [twelve, daysBeforeMonth_end] at month
      simp only [ordinal, hy, hm, hd, january, last, twelve]
      omega

theorem ordinal_previous (h : d.previous = some e) : e.ordinal + 1 = d.ordinal := by
  unfold previous at h
  split at h
  · obtain ⟨hy, hm, hd⟩ := of?_eq_some.mp h
    simp only [ordinal, hy, hm, hd]
    omega
  · next one =>
    have first : d.day = 1 := le_antisymm (by omega) d.day_mem.1
    split at h
    · next later =>
      obtain ⟨hy, hm, hd⟩ := of?_eq_some.mp h
      have month := @daysBeforeMonth_succ d.year (d.month - 1) (by omega)
      rw [Nat.sub_add_cancel (by omega)] at month
      simp only [ordinal, hy, hm, hd]
      omega
    · next january =>
      obtain ⟨hy, hm, hd⟩ := of?_eq_some.mp h
      have january : d.month = 1 := le_antisymm (by omega) d.month_mem.1
      have valid := e.year_mem.1
      have year := @daysBeforeYear_succ (d.year - 1) (by omega)
      have month := daysBeforeMonth_end (d.year - 1)
      have december : daysInMonth (d.year - 1) 12 = 31 := rfl
      have none : daysBeforeMonth d.year 1 = 0 := rfl
      rw [daysBeforeMonth_succ (by omega), december] at month
      rw [Nat.sub_add_cancel (by omega)] at year
      simp only [ordinal, hy, hm, hd, january, first, none]
      omega

theorem ordinal_forward {n : ℕ} (h : forward n d = some e) : e.ordinal = d.ordinal + n := by
  induction n generalizing d with
  | zero =>
      obtain rfl : d = e := by simpa [forward] using h
      rfl
  | succ n ih =>
      obtain ⟨d', hnext, h⟩ := Option.bind_eq_some_iff.mp h
      have step := ordinal_next hnext
      have rest := ih h
      omega

theorem ordinal_back {n : ℕ} (h : back n d = some e) : e.ordinal + n = d.ordinal := by
  induction n generalizing d with
  | zero =>
      obtain rfl : d = e := by simpa [back] using h
      rfl
  | succ n ih =>
      obtain ⟨d', hprevious, h⟩ := Option.bind_eq_some_iff.mp h
      have step := ordinal_previous hprevious
      have rest := ih h
      omega

theorem ordinal_addDays {n : ℤ} (h : d.addDays n = some e) :
    (e.ordinal : ℤ) = d.ordinal + n := by
  cases n with
  | ofNat n =>
      have forward := ordinal_forward h
      simp only [Int.ofNat_eq_natCast]
      omega
  | negSucc n =>
      have back := ordinal_back h
      omega

theorem exists_next (h : d.ordinal < e.ordinal) : ∃ d', d.next = some d' := by
  have month := d.month_mem
  have year := d.year_mem
  unfold next
  split
  · next room =>
    exact ⟨⟨d.year, d.month, d.day + 1, year, month, by omega⟩, of?_eq_some.mpr ⟨rfl, rfl, rfl⟩⟩
  · next full =>
    split
    · next early =>
      have first := one_le_daysInMonth d.year (d.month + 1)
      exact ⟨⟨d.year, d.month + 1, 1, year, by omega, by omega⟩,
        of?_eq_some.mpr ⟨rfl, rfl, rfl⟩⟩
    · next december =>
      by_cases last : d.year < 9999
      · exact ⟨⟨d.year + 1, 1, 1, by omega, by omega, le_rfl, one_le_daysInMonth _ _⟩,
          of?_eq_some.mpr ⟨rfl, rfl, rfl⟩⟩
      · -- nothing is later than the last day of the last year
        exfalso
        have hy : d.year = 9999 := by omega
        have hm : d.month = 12 := by omega
        have hd : d.day = daysInMonth d.year d.month := le_antisymm d.day_mem.2 (by omega)
        rcases Nat.lt_or_ge e.year d.year with earlier | same
        · exact absurd h (ordinal_lt_of_year earlier).not_gt
        have hy' : e.year = d.year := le_antisymm (by have := e.year_mem; omega) same
        rcases Nat.lt_or_ge e.month d.month with earlier | same
        · exact absurd h (ordinal_lt_of_month hy' earlier).not_gt
        have hm' : e.month = d.month := le_antisymm (by have := e.month_mem; omega) same
        have bound := e.day_mem.2
        simp only [ordinal, hy', hm'] at h bound
        omega

theorem exists_forward {n : ℕ} (h : d.ordinal + n ≤ e.ordinal) :
    ∃ d', forward n d = some d' := by
  induction n generalizing d with
  | zero => exact ⟨d, rfl⟩
  | succ n ih =>
      obtain ⟨d', hnext⟩ := @exists_next d e (by omega)
      have step := ordinal_next hnext
      obtain ⟨d'', hrest⟩ := @ih d' (by omega)
      exact ⟨d'', by simp [forward, hnext, hrest]⟩

theorem exists_previous (h : e.ordinal < d.ordinal) : ∃ d', d.previous = some d' := by
  have month := d.month_mem
  have year := d.year_mem
  have day := d.day_mem
  unfold previous
  split
  · exact ⟨⟨d.year, d.month, d.day - 1, year, month, by omega⟩, of?_eq_some.mpr ⟨rfl, rfl, rfl⟩⟩
  split
  · have last := one_le_daysInMonth d.year (d.month - 1)
    exact ⟨⟨d.year, d.month - 1, _, year, by omega, last, le_rfl⟩,
      of?_eq_some.mpr ⟨rfl, rfl, rfl⟩⟩
  · by_cases later : 1 < d.year
    · exact ⟨⟨d.year - 1, 12, 31, by omega, by omega, by omega, le_rfl⟩,
        of?_eq_some.mpr ⟨rfl, rfl, rfl⟩⟩
    · -- nothing is earlier than the first day of the first year
      exfalso
      have hy : d.year = 1 := by omega
      have hm : d.month = 1 := by omega
      have hd : d.day = 1 := by omega
      have first : d.ordinal = 1 := by simp [ordinal, hy, hm, hd, daysBeforeYear, daysBeforeMonth]
      have positive := e.day_mem.1
      simp only [ordinal] at h first positive
      omega

theorem exists_back {n : ℕ} (h : e.ordinal + n ≤ d.ordinal) : ∃ d', back n d = some d' := by
  induction n generalizing d with
  | zero => exact ⟨d, rfl⟩
  | succ n ih =>
      obtain ⟨d', hprevious⟩ := @exists_previous d e (by omega)
      have step := ordinal_previous hprevious
      obtain ⟨d'', hrest⟩ := @ih d' (by omega)
      exact ⟨d'', by simp [back, hprevious, hrest]⟩

theorem addDays_eq_some {n : ℤ} :
    d.addDays n = some e ↔ (e.ordinal : ℤ) = d.ordinal + n := by
  refine ⟨ordinal_addDays, fun h => ?_⟩
  obtain ⟨d', hd'⟩ : ∃ d', d.addDays n = some d' := by
    cases n with
    | ofNat n => exact @exists_forward d e n (by simp only [Int.ofNat_eq_natCast] at h; omega)
    | negSucc n => exact @exists_back d e (n + 1) (by omega)
  have found := ordinal_addDays hd'
  rw [hd', @ordinal_injective d' e (by omega)]

end Days

/-- The days from one to another, both included. -/
def upTo (first last : Date) : List Date :=
  (List.range (last.ordinal + 1 - first.ordinal)).filterMap fun n => forward n first

theorem mem_upTo {first last d : Date} :
    d ∈ upTo first last ↔ first.ordinal ≤ d.ordinal ∧ d.ordinal ≤ last.ordinal := by
  simp only [upTo, List.mem_filterMap, List.mem_range]
  constructor
  · rintro ⟨n, hn, h⟩
    have step := ordinal_forward h
    omega
  · rintro ⟨since, before⟩
    obtain ⟨d', hd'⟩ := @exists_forward first d (d.ordinal - first.ordinal) (by omega)
    have step := ordinal_forward hd'
    obtain rfl : d' = d := ordinal_injective (by omega)
    exact ⟨_, by omega, hd'⟩

/-- Whole months on, on the same day of the month, or on its last. -/
def addMonths (d : Date) (months : ℤ) : Option Date :=
  let total : ℤ := 12 * d.year + (d.month - 1) + months
  let year := (total / 12).toNat
  let month := (total % 12).toNat + 1
  of? year month (min d.day (daysInMonth year month))

structure MonthsAfter (d : Date) (months : ℤ) (e : Date) : Prop where
  month : 12 * (e.year : ℤ) + e.month = 12 * d.year + d.month + months
  day : e.day = min d.day (daysInMonth e.year e.month)

theorem addMonths_eq_some {d e : Date} {months : ℤ} :
    d.addMonths months = some e ↔ MonthsAfter d months e := by
  have month := d.month_mem
  constructor
  · intro h
    obtain ⟨hy, hm, hd⟩ := of?_eq_some.mp h
    have year := e.year_mem
    exact ⟨by omega, by rw [hd, hy, hm]⟩
  · intro h
    have total := h.month
    have emonth := e.month_mem
    have hy : ((12 * (d.year : ℤ) + (d.month - 1) + months) / 12).toNat = e.year := by omega
    have hm : ((12 * (d.year : ℤ) + (d.month - 1) + months) % 12).toNat + 1 = e.month := by omega
    simp only [addMonths, hy, hm]
    exact of?_eq_some.mpr ⟨rfl, rfl, h.day⟩

end Date

/-- The last `width` decimal digits of a number. -/
def padded : ℕ → ℕ → List Char
  | 0, _ => []
  | width + 1, n => padded width (n / 10) ++ [Nat.digitChar (n % 10)]

@[simp] theorem length_padded (width n : ℕ) : (padded width n).length = width := by
  induction width generalizing n with
  | zero => rfl
  | succ width ih => simp [padded, ih]

theorem digitChar_injective {a b : ℕ} (ha : a < 10) (hb : b < 10)
    (h : Nat.digitChar a = Nat.digitChar b) : a = b := by
  have all : ∀ a < 10, ∀ b < 10, Nat.digitChar a = Nat.digitChar b → a = b := by decide
  exact all a ha b hb h

theorem padded_injective {width a b : ℕ} (ha : a < 10 ^ width) (hb : b < 10 ^ width)
    (h : padded width a = padded width b) : a = b := by
  induction width generalizing a b with
  | zero => omega
  | succ width ih =>
      obtain ⟨high, low⟩ := List.append_inj h (by simp)
      have last : a % 10 = b % 10 :=
        digitChar_injective (Nat.mod_lt _ (by omega)) (Nat.mod_lt _ (by omega)) (by simpa using low)
      have first : a / 10 = b / 10 := by
        rw [pow_succ] at ha hb
        exact ih (by omega) (by omega) high
      omega

namespace Date

def isoformat (d : Date) : String :=
  String.ofList (padded 4 d.year ++ '-' :: (padded 2 d.month ++ '-' :: padded 2 d.day))

/-- `strftime("%Y%m%d")`. -/
def compact (d : Date) : String :=
  String.ofList (padded 4 d.year ++ (padded 2 d.month ++ padded 2 d.day))

theorem eq_of_padded {a b : Date} (year : padded 4 a.year = padded 4 b.year)
    (month : padded 2 a.month = padded 2 b.month) (day : padded 2 a.day = padded 2 b.day) :
    a = b := by
  have ya := a.year_mem
  have yb := b.year_mem
  have ma := a.month_mem
  have mb := b.month_mem
  have da := a.day_mem.2.trans (daysInMonth_le _ _)
  have db := b.day_mem.2.trans (daysInMonth_le _ _)
  have hy := padded_injective (by omega) (by omega) year
  have hm := padded_injective (by omega) (by omega) month
  have hd := padded_injective (by omega) (by omega) day
  obtain ⟨_, _, _, _, _, _⟩ := a
  obtain ⟨_, _, _, _, _, _⟩ := b
  simp_all

theorem isoformat_injective : Function.Injective isoformat := by
  intro a b h
  obtain ⟨year, rest⟩ := List.append_inj (String.ofList_injective h) (by simp)
  obtain ⟨month, day⟩ := List.append_inj (List.cons.inj rest).2 (by simp)
  exact eq_of_padded year month (List.cons.inj day).2

theorem compact_injective : Function.Injective compact := by
  intro a b h
  obtain ⟨year, rest⟩ := List.append_inj (String.ofList_injective h) (by simp)
  obtain ⟨month, day⟩ := List.append_inj rest (by simp)
  exact eq_of_padded year month day

end Date

end Calendar
