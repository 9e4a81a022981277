import Mathlib

/-! # Data frames

Rows of nullable cells, and what a data-frame program asks of them: a comparison
with a null keeps no row, and a grouping counts two nulls as one value. A window
ranks the rows of a partition, latest first, and gives equal rows one rank.
-/

namespace Frames

variable {C V : Type}

/-- One row: the cell of each column, or null. -/
abbrev Row (C V : Type) := C → Option V

/-- The cells of some columns. -/
def tuple (cs : List C) (r : Row C V) : List (Option V) := cs.map r

theorem tuple_eq_iff {cs : List C} {r s : Row C V} :
    tuple cs r = tuple cs s ↔ ∀ c ∈ cs, r c = s c := by
  simp [tuple]

section Order

variable [LinearOrder V]

/-- `F.col(c) <= bound`. -/
def upTo (c : C) (bound : Option V) (r : Row C V) : Bool := (r c).any fun v => bound.any (v ≤ ·)

/-- `F.col(c).isin(values)`. -/
def among (c : C) (values : List V) (r : Row C V) : Bool := (r c).any values.contains

theorem eq_of_among_single {c : C} {v : V} {r : Row C V} (h : among c [v] r = true) :
    r c = some v := by
  cases hr : r c with
  | none => simp [among, hr] at h
  | some u => simpa [among, hr] using h

/-- A cell that comes before another in a descending order, nulls last. -/
def above : Option V → Option V → Bool
  | some a, some b => b < a
  | some _, none => true
  | none, _ => false

theorem above_or_above {a b : Option V} (h : a ≠ b) : above a b = true ∨ above b a = true := by
  cases a with
  | none =>
      cases b with
      | none => exact absurd rfl h
      | some b => exact Or.inr rfl
  | some a =>
      cases b with
      | none => exact Or.inl rfl
      | some b =>
          have hne : a ≠ b := fun heq => h (congrArg _ heq)
          rcases lt_or_gt_of_ne hne with hlt | hlt
          · exact Or.inr (by simpa [above] using hlt)
          · exact Or.inl (by simpa [above] using hlt)

/-- `r` comes before `s` when the columns are ordered one after the other, each descending. -/
def before (cs : List C) (r s : Row C V) : Bool :=
  match cs with
  | [] => false
  | c :: cs => if r c = s c then before cs r s else above (r c) (s c)

theorem tuple_eq_of_not_before {cs : List C} {r s : Row C V} (hr : before cs r s = false)
    (hs : before cs s r = false) : tuple cs r = tuple cs s := by
  induction cs with
  | nil => rfl
  | cons c cs ih =>
      by_cases heq : r c = s c
      · have rest : tuple cs r = tuple cs s :=
          ih (by simpa [before, heq] using hr) (by simpa [before, heq] using hs)
        simp only [tuple, List.map_cons, heq] at rest ⊢
        rw [rest]
      · have below : above (r c) (s c) = false := by simpa [before, heq] using hr
        have higher : above (s c) (r c) = false := by simpa [before, Ne.symm heq] using hs
        rcases above_or_above heq with h | h
        · simp [h] at below
        · simp [h] at higher

/-- The rows of rank 1 in a window partitioned by `keys` and ordered by `order`. -/
def first (keys order : List C) (rows : List (Row C V)) : List (Row C V) :=
  rows.filter fun r => !rows.any fun s => tuple keys s = tuple keys r && before order s r

theorem first_agree {keys order : List C} {rows : List (Row C V)} {r s : Row C V}
    (hr : r ∈ first keys order rows) (hs : s ∈ first keys order rows)
    (h : tuple keys r = tuple keys s) : tuple order r = tuple order s := by
  simp only [first, List.mem_filter, Bool.not_eq_true', List.any_eq_false, Bool.and_eq_true,
    decide_eq_true_eq, not_and, Bool.not_eq_true] at hr hs
  exact tuple_eq_of_not_before (hs.2 r hr.1 h) (hr.2 s hs.1 h.symm)

/-- `groupBy(keys).count().where(F.col('count') > 1)` finds a group. -/
def repeated (keys : List C) (rows : List (Row C V)) : Bool := !decide (rows.map (tuple keys)).Nodup

end Order

/-- No two rows have the same cells in `cs`. -/
def Identify (cs : List C) (rows : List (Row C V)) : Prop := (rows.map (tuple cs)).Nodup

theorem repeated_eq_false [LinearOrder V] {keys : List C} {rows : List (Row C V)} :
    repeated keys rows = false ↔ Identify keys rows := by
  simp [repeated, Identify]

theorem Identify.filter {cs : List C} {rows : List (Row C V)} (h : Identify cs rows)
    (p : Row C V → Bool) : Identify cs (rows.filter p) :=
  List.Nodup.sublist (List.filter_sublist.map _) h

theorem Identify.of_determined {keys cs : List C} {rows : List (Row C V)} (h : Identify cs rows)
    (determined : ∀ r ∈ rows, ∀ s ∈ rows, tuple keys r = tuple keys s → tuple cs r = tuple cs s) :
    Identify keys rows := by
  unfold Identify List.Nodup at h ⊢
  rw [List.pairwise_map] at h ⊢
  exact h.imp_of_mem fun hr hs hne heq => hne (determined _ hr _ hs heq)

theorem Identify.of_covered {keys collapsed cs : List C} {rows : List (Row C V)}
    (h : Identify cs rows) (covered : ∀ c ∈ cs, c ∈ keys ∨ c ∈ collapsed)
    (collapses : ∀ r ∈ rows, ∀ s ∈ rows, tuple keys r = tuple keys s →
      ∀ c ∈ cs, c ∈ collapsed → r c = s c) : Identify keys rows := by
  refine h.of_determined fun r hr s hs heq => tuple_eq_iff.mpr fun c hc => ?_
  rcases covered c hc with hkey | hcollapsed
  · exact tuple_eq_iff.mp heq c hkey
  · exact collapses r hr s hs heq c hc hcollapsed

theorem Identify.first [LinearOrder V] {keys order cs : List C} {rows : List (Row C V)}
    (h : Identify cs rows) (covered : ∀ c ∈ cs, c ∈ keys ∨ c ∈ order) :
    Identify keys (first keys order rows) :=
  (h.filter _).of_covered covered fun _ hr _ hs heq c _ hc =>
    tuple_eq_iff.mp (first_agree hr hs heq) c hc

end Frames
