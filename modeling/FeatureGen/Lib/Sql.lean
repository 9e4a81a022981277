import Mathlib

/-! # Selections over tables

Conditions on rows whose columns may be null, in three-valued logic; groups, left
joins and the first row of an ordering, as SQL has them. A table is the list of its
rows in their physical order.

When the join of texts by a separator tells the texts: two lists whose members carry
the separator equally often, place by place, and that are joined to one text are one
list.
-/

namespace Sql

/-- The values of the columns, none where a column is null. -/
abbrev Row (V : Type) := String → Option V

abbrev Table (V : Type) := List (Row V)

/-- What the literals of a statement stand for, beside a column of each type. -/
structure Reading (V : Type) where
  literal (column text : String) : V
  truth : V

inductive Condition where
  | isIn (column : String) (values : List String)
  | atMost (column literal : String)
  | after (column literal : String)
  | atLeast (column literal : String)
  | before (column literal : String)
  | isNull (column : String)
  | isNotNull (column : String)
  | isTrue (column : String)
  | both (left right : Condition)
  | either (left right : Condition)

def quoted (text : String) : String :=
  "'" ++ String.ofList (text.toList.flatMap fun c => if c = '\'' then [c, c] else [c]) ++ "'"

def literals (texts : List String) : String := String.intercalate ", " (texts.map quoted)

/-- The text of a condition, in a dialect that quotes identifiers so. -/
def Condition.render (ident : String → String) : Condition → String
  | isIn column values =>
      ident column ++ " IN (" ++ literals values ++ ")"
  | atMost column literal => ident column ++ " <= " ++ quoted literal
  | after column literal => ident column ++ " > " ++ quoted literal
  | atLeast column literal => ident column ++ " >= " ++ quoted literal
  | before column literal => ident column ++ " < " ++ quoted literal
  | isNull column => ident column ++ " IS NULL"
  | isNotNull column => ident column ++ " IS NOT NULL"
  | isTrue column => ident column ++ " = TRUE"
  | both left right => left.render ident ++ " AND " ++ right.render ident
  | either left right => "(" ++ left.render ident ++ " OR " ++ right.render ident ++ ")"

def conjunctionText (ident : String → String) (conditions : List Condition) : String :=
  String.intercalate " AND " (conditions.map (Condition.render ident))

/-- AND, with none for unknown. -/
def and3 : Option Bool → Option Bool → Option Bool
  | some true, b => b
  | some false, _ => some false
  | none, some false => some false
  | none, _ => none

/-- OR, with none for unknown. -/
def or3 : Option Bool → Option Bool → Option Bool
  | some false, b => b
  | some true, _ => some true
  | none, some true => some true
  | none, _ => none

theorem and3_eq_true {a b : Option Bool} :
    and3 a b = some true ↔ a = some true ∧ b = some true := by
  cases a with
  | none =>
      cases b with
      | none => simp [and3]
      | some b => cases b <;> simp [and3]
  | some a => cases a <;> simp [and3]

theorem or3_eq_true {a b : Option Bool} :
    or3 a b = some true ↔ a = some true ∨ b = some true := by
  cases a with
  | none =>
      cases b with
      | none => simp [or3]
      | some b => cases b <;> simp [or3]
  | some a => cases a <;> simp [or3]

section Conditions

variable {V : Type} [LinearOrder V] (r : Reading V)

def Condition.eval (row : Row V) : Condition → Option Bool
  | isIn column values => (row column).map fun v => values.any fun t => v = r.literal column t
  | atMost column literal => (row column).map fun v => v ≤ r.literal column literal
  | after column literal => (row column).map fun v => r.literal column literal < v
  | atLeast column literal => (row column).map fun v => r.literal column literal ≤ v
  | before column literal => (row column).map fun v => v < r.literal column literal
  | isNull column => some (row column).isNone
  | isNotNull column => some (row column).isSome
  | isTrue column => (row column).map fun v => v = r.truth
  | both left right => and3 (left.eval row) (right.eval row)
  | either left right => or3 (left.eval row) (right.eval row)

def Condition.holds (row : Row V) (c : Condition) : Prop := c.eval r row = some true

instance (row : Row V) (c : Condition) : Decidable (c.holds r row) :=
  inferInstanceAs (Decidable (_ = _))

variable {r} {row : Row V}

@[simp]
theorem holds_isIn {column : String} {values : List String} :
    (Condition.isIn column values).holds r row ↔
      ∃ v, row column = some v ∧ ∃ t ∈ values, v = r.literal column t := by
  simp [Condition.holds, Condition.eval]

@[simp]
theorem holds_atMost {column literal : String} : (Condition.atMost column literal).holds r row ↔
    ∃ v, row column = some v ∧ v ≤ r.literal column literal := by
  simp [Condition.holds, Condition.eval]

@[simp]
theorem holds_after {column literal : String} : (Condition.after column literal).holds r row ↔
    ∃ v, row column = some v ∧ r.literal column literal < v := by
  simp [Condition.holds, Condition.eval]

@[simp]
theorem holds_isNull {column : String} :
    (Condition.isNull column).holds r row ↔ row column = none := by
  simp [Condition.holds, Condition.eval]

@[simp]
theorem holds_isNotNull {column : String} :
    (Condition.isNotNull column).holds r row ↔ row column ≠ none := by
  simp [Condition.holds, Condition.eval, Option.isSome_iff_ne_none]

@[simp]
theorem holds_both {a b : Condition} :
    (Condition.both a b).holds r row ↔ a.holds r row ∧ b.holds r row :=
  and3_eq_true

@[simp]
theorem holds_either {a b : Condition} :
    (Condition.either a b).holds r row ↔ a.holds r row ∨ b.holds r row :=
  or3_eq_true

end Conditions

theorem filter_perm_filter {α : Type} {p q : α → Prop} [DecidablePred p] [DecidablePred q]
    {t : List α} : (t.filter fun a => p a).Perm (t.filter fun a => q a) ↔ ∀ a ∈ t, p a ↔ q a := by
  constructor
  · intro perm a ha
    have same := perm.mem_iff (a := a)
    simpa [List.mem_filter, ha] using same
  · intro agree
    rw [List.filter_congr fun a ha => decide_eq_decide.mpr (agree a ha)]

section Joins

variable {α β K : Type} [DecidableEq K] (kl : α → Option K) (kr : β → Option K)

/-- The members with the key of `a`; a null key has none. -/
def matchesOf (right : List β) (a : α) : List β :=
  right.filter fun b => kl a ≠ none ∧ kr b = kl a

/-- LEFT JOIN on the keys: a member with each of its matches, or with none. -/
def leftJoin (left : List α) (right : List β) : List (α × Option β) :=
  left.flatMap fun a =>
    match matchesOf kl kr right a with
    | [] => [(a, none)]
    | found => found.map fun b => (a, some b)

variable {kl kr}

theorem leftJoin_eq_map {left : List α} {right : List β}
    (single : ∀ a ∈ left, (matchesOf kl kr right a).length ≤ 1) :
    leftJoin kl kr left right = left.map fun a => (a, (matchesOf kl kr right a).head?) := by
  induction left with
  | nil => rfl
  | cons a left ih =>
      have head := single a List.mem_cons_self
      rw [leftJoin, List.flatMap_cons, List.map_cons, ← leftJoin,
        ih fun b hb => single b (List.mem_cons_of_mem _ hb)]
      cases hm : matchesOf kl kr right a with
      | nil => rfl
      | cons b rest =>
          rw [hm] at head
          cases rest with
          | nil => rfl
          | cons c rest => simp at head

theorem matchesOf_keyed {part : β → Option K} {members : List β} {a : α} (keyed : kl a ≠ none) :
    (matchesOf kl Prod.fst (members.map fun b => (part b, b)) a).map Prod.snd =
      members.filter fun b => part b = kl a := by
  rw [matchesOf, List.filter_map, List.map_map]
  rw [show (Prod.snd ∘ fun b => (part b, b)) = id from rfl, List.map_id]
  refine List.filter_congr fun b _ => ?_
  simp [keyed]

end Joins

section Groups

variable {α K : Type} (key : α → Option K)

def countKeyed (rows : List α) : ℕ := rows.countP fun row => (key row).isSome

theorem countKeyed_eq_length {rows : List α} :
    countKeyed key rows = rows.length ↔ ∀ row ∈ rows, key row ≠ none := by
  rw [countKeyed, List.countP_eq_length]
  simp [Option.isSome_iff_ne_none]

theorem countKeyed_le (rows : List α) : countKeyed key rows ≤ rows.length :=
  List.countP_le_length

theorem length_filterMap_key (rows : List α) :
    (rows.filterMap key).length = countKeyed key rows :=
  List.length_filterMap_eq_countP

theorem nodup_map_key {rows : List α} (keyed : ∀ row ∈ rows, key row ≠ none) :
    (rows.filterMap key).Nodup ↔ (rows.map key).Nodup := by
  have some : rows.map key = (rows.filterMap key).map some := by
    induction rows with
    | nil => rfl
    | cons row rows ih =>
        obtain ⟨k, hk⟩ := Option.ne_none_iff_exists'.mp (keyed row List.mem_cons_self)
        rw [List.map_cons, List.filterMap_cons_some hk, List.map_cons, hk,
          ih fun other hother => keyed other (List.mem_cons_of_mem _ hother)]
  rw [some, List.nodup_map_iff (Option.some_injective K)]

variable [DecidableEq K]

/-- SELECT key, COUNT(*) … GROUP BY key; the nulls are one group. -/
def countBy (rows : List α) : List (Option K × ℕ) :=
  (rows.map key).dedup.map fun k => (k, rows.countP fun row => key row = k)

def repeatedGroups (rows : List α) : ℕ := (countBy key rows).countP fun group => 1 < group.2

def countDistinct (rows : List α) : ℕ := (rows.filterMap key).dedup.length

variable {key} {rows : List α}

theorem countP_key (k : Option K) :
    (rows.countP fun row => key row = k) = (rows.map key).count k := by
  rw [List.count, List.countP_map]
  refine List.countP_congr fun row _ => ?_
  simp

theorem repeatedGroups_eq_zero : repeatedGroups key rows = 0 ↔ (rows.map key).Nodup := by
  rw [repeatedGroups, List.countP_eq_zero, List.nodup_iff_count_le_one]
  constructor
  · intro h k
    by_cases hk : k ∈ rows.map key
    · have few := h (k, rows.countP fun row => key row = k)
        (List.mem_map.mpr ⟨k, List.mem_dedup.mpr hk, rfl⟩)
      rw [← countP_key]
      simpa using few
    · rw [List.count_eq_zero_of_not_mem hk]
      omega
  · intro h group hgroup
    obtain ⟨k, _, rfl⟩ := List.mem_map.mp hgroup
    have few := h k
    rw [← countP_key] at few
    simpa using few

theorem countDistinct_le : countDistinct key rows ≤ countKeyed key rows := by
  rw [countDistinct, ← length_filterMap_key]
  exact (List.dedup_sublist _).length_le

theorem nodup_of_countDistinct (h : countDistinct key rows = countKeyed key rows) :
    (rows.filterMap key).Nodup := by
  rw [countDistinct, ← length_filterMap_key] at h
  rw [← (List.dedup_sublist (rows.filterMap key)).eq_of_length h]
  exact List.nodup_dedup _

theorem countDistinct_eq_countKeyed :
    countDistinct key rows = countKeyed key rows ↔ (rows.filterMap key).Nodup := by
  constructor
  · exact nodup_of_countDistinct
  · intro nodup
    rw [countDistinct, ← length_filterMap_key, nodup.dedup]

theorem nodup_map_iff :
    (rows.map key).Nodup ↔ ∀ k, (rows.filter fun row => key row = k).length ≤ 1 := by
  rw [List.nodup_iff_count_le_one]
  simp only [← countP_key, List.countP_eq_length_filter]

section Order

variable {rows' : List α} (perm : rows'.Perm rows)

include perm

theorem repeatedGroups_perm : repeatedGroups key rows' = repeatedGroups key rows := by
  rw [repeatedGroups, repeatedGroups, countBy, countBy, List.countP_map, List.countP_map]
  rw [((perm.map key).dedup).countP_eq]
  refine List.countP_congr fun k _ => ?_
  simp [perm.countP_eq]

theorem countDistinct_perm : countDistinct key rows' = countDistinct key rows :=
  ((perm.filterMap key).dedup).length_eq

end Order

theorem matchesOf_countBy {β : Type} {kl : β → Option K} (b : β) :
    matchesOf kl Prod.fst (countBy key rows) b =
      if kl b ≠ none ∧ kl b ∈ rows.map key then
        [(kl b, rows.countP fun row => key row = kl b)] else [] := by
  rw [matchesOf, countBy, List.filter_map]
  by_cases null : kl b = none
  · simp [null]
  · have same : (fun group : Option K × ℕ => decide (kl b ≠ none ∧ group.1 = kl b)) ∘
        (fun k => (k, rows.countP fun row => key row = k)) = fun k => decide (k = kl b) := by
      funext k
      simp [null]
    rw [same, List.filter_eq]
    by_cases present : kl b ∈ rows.map key
    · rw [List.count_eq_one_of_mem (List.nodup_dedup _) (List.mem_dedup.mpr present),
        if_pos ⟨null, present⟩]
      rfl
    · rw [List.count_eq_zero_of_not_mem fun h => present (List.mem_dedup.mp h),
        if_neg fun h => present h.2]
      rfl

theorem length_matchesOf_countBy {β : Type} {kl : β → Option K} (b : β) :
    (matchesOf kl Prod.fst (countBy key rows) b).length ≤ 1 := by
  rw [matchesOf_countBy]
  split <;> simp

theorem countOf_head {β : Type} {kl : β → Option K} (b : β) :
    ((matchesOf kl Prod.fst (countBy key rows) b).head?.map Prod.snd).getD 0 =
      rows.countP fun row => kl b ≠ none ∧ key row = kl b := by
  rw [matchesOf_countBy]
  by_cases null : kl b = none
  · simp [null]
  · by_cases present : kl b ∈ rows.map key
    · simp [null, present]
    · have none : (rows.countP fun row => kl b ≠ none ∧ key row = kl b) = 0 := by
        rw [List.countP_eq_zero]
        intro row hrow
        simp only [decide_eq_true_eq, not_and]
        intro _ same
        exact present (same ▸ List.mem_map_of_mem hrow)
      rw [none]
      simp [present]

end Groups

section Orderings

variable {V : Type} [LinearOrder V]

/-- A null after every value. -/
def nullsLast : Option V → WithBot V
  | none => ⊥
  | some v => v

omit [LinearOrder V] in
theorem nullsLast_injective : Function.Injective (nullsLast : Option V → WithBot V) := by
  intro a b h
  cases a with
  | none =>
      cases b with
      | none => rfl
      | some w => exact absurd h (WithBot.bot_ne_coe)
  | some v =>
      cases b with
      | none => exact absurd h (WithBot.coe_ne_bot)
      | some w => exact congrArg some (WithBot.coe_inj.mp h)

/-- What ORDER BY column DESC NULLS LAST, … compares, greatest first. -/
def rankKey (columns : List String) (row : Row V) : List (WithBot V) :=
  columns.map fun c => nullsLast (row c)

def greatest {α κ : Type} [LinearOrder κ] (f : α → κ) (members : List α) : Option α :=
  members.argmax f

section Greatest

variable {α κ : Type} [LinearOrder κ] {f : α → κ} {members : List α} {a m : α}

theorem mem_of_greatest (h : greatest f members = some m) : m ∈ members := List.argmax_mem h

theorem le_of_greatest (h : greatest f members = some m) (ha : a ∈ members) : f a ≤ f m :=
  List.le_of_mem_argmax ha h

theorem greatest_eq_none : greatest f members = none ↔ members = [] := List.argmax_eq_none

end Greatest

variable (part : Row V → Option V) (columns : List String)

/-- The rows with RANK() = 1. -/
def topRows (t : Table V) : Table V :=
  t.filter fun row => ∀ other ∈ t, part other = part row →
    rankKey columns other ≤ rankKey columns row

/-- The rows with ROW_NUMBER() = 1, ties in their physical order. -/
def firstRows (t : Table V) : Table V :=
  (t.map part).dedup.filterMap fun k =>
    greatest (rankKey columns) (t.filter fun row => part row = k)

variable {part columns} {t : Table V}

theorem filter_filterMap_key {κ α : Type} [DecidableEq κ] {part : α → κ} {f : κ → Option α}
    {ks : List κ} (hf : ∀ k ∈ ks, ∀ a ∈ f k, part a = k) (nodup : ks.Nodup) (k : κ) :
    (ks.filterMap f).filter (fun a => part a = k) = if k ∈ ks then (f k).toList else [] := by
  induction ks with
  | nil => simp
  | cons x ks ih =>
      obtain ⟨fresh, nodup⟩ := List.nodup_cons.mp nodup
      have tail := ih (fun k hk => hf k (List.mem_cons_of_mem _ hk)) nodup
      have head := hf x List.mem_cons_self
      cases hx : f x with
      | none =>
          rw [List.filterMap_cons_none hx, tail]
          by_cases same : k = x
          · rw [same, if_neg fresh, if_pos List.mem_cons_self, hx]
            rfl
          · simp [same]
      | some a =>
          have hpart := head a hx
          rw [List.filterMap_cons_some hx, List.filter_cons, tail]
          by_cases same : k = x
          · subst same
            simp [hpart, fresh, hx]
          · have other : part a ≠ k := fun h => same (h.symm.trans hpart)
            simp [other, same]

theorem topRows_perm {t' : Table V} (perm : t'.Perm t) :
    (topRows part columns t').Perm (topRows part columns t) := by
  have same : ∀ row, (∀ other ∈ t', part other = part row →
      rankKey columns other ≤ rankKey columns row) ↔ ∀ other ∈ t, part other = part row →
        rankKey columns other ≤ rankKey columns row := by
    intro row
    simp only [perm.mem_iff]
  rw [topRows, topRows]
  simp only [same]
  exact perm.filter _

theorem filter_firstRows {k : Option V}
    (single : ((topRows part columns t).filter fun row => part row = k).length ≤ 1) :
    ((firstRows part columns t).filter fun row => part row = k) =
      (topRows part columns t).filter fun row => part row = k := by
  have members : ∀ k ∈ (t.map part).dedup,
      ∀ row ∈ greatest (rankKey columns) (t.filter fun row => part row = k), part row = k := by
    intro k _ row hrow
    simpa using (List.mem_filter.mp (mem_of_greatest hrow)).2
  rw [firstRows, filter_filterMap_key members (List.nodup_dedup _)]
  by_cases present : k ∈ t.map part
  · rw [if_pos (List.mem_dedup.mpr present)]
    obtain ⟨m, hm⟩ :
        ∃ m, greatest (rankKey columns) (t.filter fun row => part row = k) = some m := by
      refine Option.ne_none_iff_exists'.mp fun h => ?_
      rw [greatest_eq_none] at h
      obtain ⟨row, hrow, rfl⟩ := List.mem_map.mp present
      exact List.filter_eq_nil_iff.mp h row hrow (by simp)
    have inPart := List.mem_filter.mp (mem_of_greatest hm)
    have hpart : part m = k := by simpa using inPart.2
    have top : m ∈ (topRows part columns t).filter fun row => part row = k := by
      refine List.mem_filter.mpr ⟨List.mem_filter.mpr ⟨inPart.1, ?_⟩, by simpa using hpart⟩
      refine decide_eq_true fun other hother same => ?_
      have peer : other ∈ t.filter fun row => part row = k :=
        List.mem_filter.mpr ⟨hother, by simp [same, hpart]⟩
      exact le_of_greatest hm peer
    rw [hm]
    obtain ⟨x, hx⟩ := List.length_eq_one_iff.mp
      (le_antisymm single (List.length_pos_of_mem top))
    rw [hx] at top ⊢
    rw [List.mem_singleton.mp top]
    rfl
  · rw [if_neg fun h => present (List.mem_dedup.mp h)]
    refine (List.filter_eq_nil_iff.mpr fun row hrow same => present ?_).symm
    exact List.mem_map.mpr ⟨row, (List.mem_filter.mp hrow).1, by simpa using same⟩

theorem firstRows_perm_topRows
    (single : ∀ k, ((topRows part columns t).filter fun row => part row = k).length ≤ 1) :
    (firstRows part columns t).Perm (topRows part columns t) := by
  classical
  refine List.perm_iff_count.mpr fun row => ?_
  have inPart : ∀ rows : Table V, rows.count row =
      (rows.filter fun other => part other = part row).count row := fun rows =>
    (List.count_filter (by simp)).symm
  rw [inPart, inPart (topRows part columns t), filter_firstRows (single _)]

end Orderings

end Sql

namespace Joined

/-- Two texts carry a character equally often. -/
def SameCount (c : Char) (s t : String) : Prop := s.toList.count c = t.toList.count c

def join (c : Char) (texts : List String) : String := (String.singleton c).intercalate texts

theorem eq_of_map_eq {α β : Type} {f : α → β} {R : α → α → Prop} {xs ys : List α}
    (related : List.Forall₂ R xs ys) (inj : ∀ x y, R x y → f x = f y → x = y)
    (h : xs.map f = ys.map f) : xs = ys := by
  induction related with
  | nil => rfl
  | cons hxy _ ih =>
      rw [List.map_cons, List.map_cons] at h
      obtain ⟨hhead, htail⟩ := List.cons.inj h
      rw [inj _ _ hxy hhead, ih htail]

section Lists

variable {α : Type} [DecidableEq α] {c : α}

theorem append_cons_inj {xs ys rest rest' : List α} (same : xs.count c = ys.count c)
    (h : xs ++ c :: rest = ys ++ c :: rest') : xs = ys ∧ rest = rest' := by
  induction xs generalizing ys with
  | nil =>
      cases ys with
      | nil => exact ⟨rfl, (List.cons.inj h).2⟩
      | cons y ys =>
          obtain ⟨rfl, _⟩ := List.cons.inj h
          simp at same
  | cons x xs ih =>
      cases ys with
      | nil =>
          obtain ⟨rfl, _⟩ := List.cons.inj h
          simp at same
      | cons y ys =>
          obtain ⟨rfl, htail⟩ := List.cons.inj h
          have same' : xs.count c = ys.count c := by
            simp only [List.count_cons] at same
            omega
          obtain ⟨rfl, rfl⟩ := ih same' htail
          exact ⟨rfl, rfl⟩

theorem intercalate_inj {xs ys : List (List α)}
    (same : List.Forall₂ (fun x y => x.count c = y.count c) xs ys)
    (h : [c].intercalate xs = [c].intercalate ys) : xs = ys := by
  induction same with
  | nil => rfl
  | @cons x y xs ys hxy hrest ih =>
      cases hrest with
      | nil =>
          rw [List.intercalate_singleton, List.intercalate_singleton] at h
          rw [h]
      | cons hxy' hrest' =>
          rw [List.intercalate_cons_cons, List.intercalate_cons_cons, List.append_assoc,
            List.append_assoc] at h
          obtain ⟨rfl, htail⟩ := append_cons_inj hxy h
          rw [ih htail]

theorem count_intercalate_congr {sep : List α} {xs ys : List (List α)}
    (same : List.Forall₂ (fun x y => x.count c = y.count c) xs ys) :
    (sep.intercalate xs).count c = (sep.intercalate ys).count c := by
  induction same with
  | nil => rfl
  | @cons x y xs ys hxy hrest ih =>
      cases hrest with
      | nil => rw [List.intercalate_singleton, List.intercalate_singleton, hxy]
      | cons hxy' hrest' =>
          rw [List.intercalate_cons_cons, List.intercalate_cons_cons, List.count_append,
            List.count_append, List.count_append, List.count_append, hxy, ih]

end Lists

section Texts

variable {c : Char} {s t : String} {xs ys : List String}

@[simp]
theorem SameCount.refl (c : Char) (s : String) : SameCount c s s := rfl

theorem toList_join (c : Char) (texts : List String) :
    (join c texts).toList = [c].intercalate (texts.map String.toList) := by
  rw [join, String.toList_intercalate, String.toList_singleton]

theorem forall₂_toList (same : List.Forall₂ (SameCount c) xs ys) :
    List.Forall₂ (fun x y : List Char => x.count c = y.count c) (xs.map String.toList)
      (ys.map String.toList) := by
  rw [List.forall₂_map_left_iff, List.forall₂_map_right_iff]
  exact same

theorem join_inj (same : List.Forall₂ (SameCount c) xs ys) (h : join c xs = join c ys) :
    xs = ys := by
  have lists := congrArg String.toList h
  rw [toList_join, toList_join] at lists
  exact List.map_injective_iff.mpr (fun _ _ same => String.toList_injective same)
    (intercalate_inj (forall₂_toList same) lists)

theorem SameCount.join {sep : Char} (same : List.Forall₂ (SameCount c) xs ys) :
    SameCount c (join sep xs) (join sep ys) := by
  rw [SameCount, toList_join, toList_join]
  exact count_intercalate_congr (forall₂_toList same)

end Texts

end Joined
