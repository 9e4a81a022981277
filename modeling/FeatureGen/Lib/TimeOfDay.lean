import FeatureGen.Lib.Calendar
import FeatureGen.Lib.Text

/-! # Times of day

A time of day to the microsecond, its text, and the texts that it is read from, as
Python's `datetime.time` has them.
-/

namespace Calendar

structure TimeOfDay where
  hour : ℕ
  minute : ℕ
  second : ℕ
  microsecond : ℕ
  hour_lt : hour < 24
  minute_lt : minute < 60
  second_lt : second < 60
  microsecond_lt : microsecond < 1000000

namespace TimeOfDay

/-- The time of these parts, if they are one. -/
def of? (hour minute second microsecond : ℕ) : Option TimeOfDay :=
  if h : hour < 24 ∧ minute < 60 ∧ second < 60 ∧ microsecond < 1000000 then
    some ⟨hour, minute, second, microsecond, h.1, h.2.1, h.2.2.1, h.2.2.2⟩
  else none

theorem of?_self (t : TimeOfDay) : of? t.hour t.minute t.second t.microsecond = some t := by
  rw [of?, dif_pos ⟨t.hour_lt, t.minute_lt, t.second_lt, t.microsecond_lt⟩]

/-- What follows the seconds. -/
def fraction (microsecond : ℕ) : List Char :=
  if microsecond = 0 then [] else '.' :: padded 6 microsecond

def isoformat (t : TimeOfDay) : String :=
  String.ofList (padded 2 t.hour ++ ':' :: (padded 2 t.minute ++ ':' ::
    (padded 2 t.second ++ fraction t.microsecond)))

def twoDigits : List Char → Option (ℕ × List Char)
  | a :: b :: rest => if a.isDigit ∧ b.isDigit then some (Text.natOf [a, b], rest) else none
  | _ => none

/-- The digits of a fraction, those after the sixth dropped. -/
def microseconds (cs : List Char) : Option ℕ :=
  if Text.digits cs then some (Text.natOf (cs.take 6) * 10 ^ (6 - cs.length)) else none

def readSeconds (hour minute : ℕ) (cs : List Char) : Option TimeOfDay :=
  (twoDigits cs).bind fun seconds =>
    match seconds.2 with
    | [] => of? hour minute seconds.1 0
    | mark :: digits =>
        if mark = '.' ∨ mark = ',' then (microseconds digits).bind (of? hour minute seconds.1)
        else none

def readMinutes (separated : Bool) (hour : ℕ) (cs : List Char) : Option TimeOfDay :=
  (twoDigits cs).bind fun minutes =>
    match minutes.2 with
    | [] => of? hour minutes.1 0 0
    | c :: rest =>
        if separated then if c = ':' then readSeconds hour minutes.1 rest else none
        else readSeconds hour minutes.1 (c :: rest)

/-- HH, HH:MM, HH:MM:SS or HH:MM:SS.ffffff, also without the colons. -/
def readClock (cs : List Char) : Option TimeOfDay :=
  (twoDigits cs).bind fun hours =>
    match hours.2 with
    | [] => of? hours.1 0 0 0
    | c :: rest =>
        if c = ':' then readMinutes true hours.1 rest else readMinutes false hours.1 (c :: rest)

def startsZone (c : Char) : Bool := c = '-' || c = '+' || c = 'Z'

/-- An offset from UTC. -/
def isZone : List Char → Bool
  | [] => false
  | c :: rest => if c = 'Z' then rest = [] else (readClock rest).isSome

/-- `time.fromisoformat`: the time, and whether the text carries an offset of its own. -/
def fromisoformat (text : String) : Option (TimeOfDay × Bool) :=
  let cs := if text.toList.head? = some 'T' then text.toList.tail else text.toList
  let clock := cs.takeWhile fun c => !startsZone c
  let zone := cs.drop clock.length
  (readClock clock).bind fun time =>
    if zone = [] then some (time, false) else if isZone zone then some (time, true) else none

theorem isDigit_digitChar {d : ℕ} (h : d < 10) : (Nat.digitChar d).isDigit = true := by
  have all : ∀ d < 10, (Nat.digitChar d).isDigit = true := by decide
  exact all d h

theorem toNat_digitChar {d : ℕ} (h : d < 10) : (Nat.digitChar d).toNat - '0'.toNat = d := by
  have all : ∀ d < 10, (Nat.digitChar d).toNat - '0'.toNat = d := by decide
  exact all d h

theorem natOf_append (cs : List Char) (c : Char) :
    Text.natOf (cs ++ [c]) = 10 * Text.natOf cs + (c.toNat - '0'.toNat) := by
  simp [Text.natOf]

theorem natOf_padded {width n : ℕ} (h : n < 10 ^ width) : Text.natOf (padded width n) = n := by
  induction width generalizing n with
  | zero =>
      rw [pow_zero] at h
      obtain rfl : n = 0 := by omega
      rfl
  | succ width ih =>
      rw [pow_succ] at h
      rw [padded, natOf_append, ih (by omega), toNat_digitChar (Nat.mod_lt _ (by omega))]
      omega

theorem isDigit_of_mem_padded {width n : ℕ} {c : Char} (h : c ∈ padded width n) :
    c.isDigit = true := by
  induction width generalizing n with
  | zero => simp [padded] at h
  | succ width ih =>
      rw [padded, List.mem_append, List.mem_singleton] at h
      cases h with
      | inl before => exact ih before
      | inr last => exact last ▸ isDigit_digitChar (Nat.mod_lt _ (by omega))

theorem twoDigits_padded {n : ℕ} (h : n < 100) (rest : List Char) :
    twoDigits (padded 2 n ++ rest) = some (n, rest) := by
  have value : Text.natOf (padded 2 n) = n := natOf_padded h
  have digits : ∀ c ∈ padded 2 n, c.isDigit = true := fun c hc => isDigit_of_mem_padded hc
  simp only [padded, List.nil_append, List.cons_append] at value digits ⊢
  rw [twoDigits, value, if_pos ⟨digits _ (by simp), digits _ (by simp)⟩]

theorem microseconds_padded {n : ℕ} (h : n < 1000000) : microseconds (padded 6 n) = some n := by
  have digits : Text.digits (padded 6 n) = true := by
    rw [Text.digits, decide_eq_true_iff]
    constructor
    · intro empty
      have len := length_padded 6 n
      rw [empty] at len
      cases len
    · exact List.all_eq_true.mpr fun c hc => isDigit_of_mem_padded hc
  rw [microseconds, if_pos digits, List.take_of_length_le (by simp), natOf_padded h]
  simp

theorem readSeconds_padded (t : TimeOfDay) :
    readSeconds t.hour t.minute (padded 2 t.second ++ fraction t.microsecond) = some t := by
  have bound := t.second_lt
  rw [readSeconds, twoDigits_padded (by omega), Option.bind_some, fraction]
  by_cases whole : t.microsecond = 0
  · rw [if_pos whole]
    exact whole ▸ of?_self t
  · rw [if_neg whole]
    simp only [true_or, if_true, microseconds_padded t.microsecond_lt, Option.bind_some]
    exact of?_self t

theorem readClock_isoformat (t : TimeOfDay) : readClock t.isoformat.toList = some t := by
  have hours := t.hour_lt
  have minutes := t.minute_lt
  rw [isoformat, String.toList_ofList, readClock, twoDigits_padded (by omega), Option.bind_some]
  simp only [if_true]
  rw [readMinutes, twoDigits_padded (by omega), Option.bind_some]
  simp only [if_true]
  exact readSeconds_padded t

theorem not_startsZone {t : TimeOfDay} {c : Char} (h : c ∈ t.isoformat.toList) :
    startsZone c = false ∧ c ≠ 'T' := by
  have clean : c.isDigit = true ∨ c = ':' ∨ c = '.' := by
    rw [isoformat, String.toList_ofList, fraction] at h
    simp only [List.mem_append, List.mem_cons] at h
    split at h
    · rcases h with h | h | h | h | h | h
      · exact .inl (isDigit_of_mem_padded h)
      · exact .inr (.inl h)
      · exact .inl (isDigit_of_mem_padded h)
      · exact .inr (.inl h)
      · exact .inl (isDigit_of_mem_padded h)
      · cases h
    · rcases h with h | h | h | h | h | h
      · exact .inl (isDigit_of_mem_padded h)
      · exact .inr (.inl h)
      · exact .inl (isDigit_of_mem_padded h)
      · exact .inr (.inl h)
      · exact .inl (isDigit_of_mem_padded h)
      · cases List.mem_cons.mp h with
        | inl mark => exact .inr (.inr mark)
        | inr digit => exact .inl (isDigit_of_mem_padded digit)
  rcases clean with digit | rfl | rfl
  · constructor
    · rw [startsZone]
      by_contra starts
      simp only [Bool.not_eq_false, Bool.or_eq_true, decide_eq_true_eq] at starts
      rcases starts with (rfl | rfl) | rfl <;> cases digit
    · rintro rfl
      cases digit
  · decide
  · decide

theorem fromisoformat_isoformat (t : TimeOfDay) : fromisoformat t.isoformat = some (t, false) := by
  have first : t.isoformat.toList.head? ≠ some 'T' := by
    intro h
    exact (not_startsZone (List.mem_of_mem_head? h)).2 rfl
  have all : t.isoformat.toList.takeWhile (fun c => !startsZone c) = t.isoformat.toList := by
    rw [List.takeWhile_eq_self_iff]
    intro c hc
    simp [(not_startsZone hc).1]
  simp only [fromisoformat, if_neg first, all, readClock_isoformat, Option.bind_some,
    List.drop_length, if_true]

end TimeOfDay

end Calendar
