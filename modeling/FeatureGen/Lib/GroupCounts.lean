import FeatureGen.Lib.Sql

/-! # Groups and their sizes

Tuples of columns compared in three-valued logic, the groups of a bag of values with
their sizes, joins of such groups, and what aggregates over them count.
-/

namespace Sql

def all3 (conditions : List (Option Bool)) : Option Bool := conditions.foldr and3 (some true)

theorem all3_eq_true {conditions : List (Option Bool)} :
    all3 conditions = some true ↔ ∀ c ∈ conditions, c = some true := by
  induction conditions with
  | nil => simp [all3]
  | cons c cs ih =>
      rw [all3, List.foldr_cons, ← all3, and3_eq_true, ih]
      simp

section Cells

variable {V : Type}

def notNull3 (cells : List (Option V)) : Option Bool := all3 (cells.map fun c => some c.isSome)

/-- The values of the cells, none where one of them is null. -/
def known : List (Option V) → Option (List V)
  | [] => some []
  | c :: cs => c.bind fun v => (known cs).map (v :: ·)

theorem known_eq_some {cells : List (Option V)} {vs : List V} :
    known cells = some vs ↔ cells = vs.map some := by
  induction cells generalizing vs with
  | nil =>
      cases vs <;> simp [known]
  | cons c cs ih =>
      cases vs with
      | nil => simp [known, Option.bind_eq_some_iff]
      | cons v vs =>
          simp only [known, Option.bind_eq_some_iff, Option.map_eq_some_iff, List.cons.injEq,
            List.map_cons]
          constructor
          · intro h
            obtain ⟨w, rfl, ws, hws, rfl, rfl⟩ := h
            exact ⟨rfl, ih.mp hws⟩
          · intro h
            exact ⟨v, h.1, vs, ih.mpr h.2, rfl, rfl⟩

theorem notNull3_eq_true {cells : List (Option V)} :
    notNull3 cells = some true ↔ known cells ≠ none := by
  rw [notNull3, all3_eq_true]
  simp only [List.forall_mem_map, Option.some.injEq]
  induction cells with
  | nil => simp [known]
  | cons c cs ih =>
      rw [List.forall_mem_cons, ih]
      cases c with
      | none => simp [known]
      | some v => simp [known]

theorem filter_notNull3 (rows : List (List (Option V))) :
    (rows.filter fun cells => notNull3 cells = some true) =
      (rows.filterMap known).map (List.map some) := by
  induction rows with
  | nil => rfl
  | cons cells rows ih =>
      cases hk : known cells with
      | none =>
          have null : ¬notNull3 cells = some true := fun h => notNull3_eq_true.mp h hk
          rw [List.filterMap_cons_none hk, List.filter_cons_of_neg (by simpa using null), ih]
      | some vs =>
          have full : notNull3 cells = some true := notNull3_eq_true.mpr (by simp [hk])
          rw [List.filterMap_cons_some hk, List.filter_cons_of_pos (by simpa using full), ih,
            List.map_cons, ← known_eq_some.mp hk]

variable [DecidableEq V]

/-- Equality of two cells, none where one is null. -/
def equal3 : Option V → Option V → Option Bool
  | some v, some w => some (v = w)
  | _, _ => none

/-- Equality of the cells at each place, joined by AND. -/
def sameCells3 (left right : List (Option V)) : Option Bool :=
  all3 (List.zipWith equal3 left right)

theorem sameCells3_map_some {vs ws : List V} (width : vs.length = ws.length) :
    sameCells3 (vs.map some) (ws.map some) = some true ↔ vs = ws := by
  rw [sameCells3, all3_eq_true]
  induction vs generalizing ws with
  | nil =>
      cases ws with
      | nil => simp
      | cons w ws => simp at width
  | cons v vs ih =>
      cases ws with
      | nil => simp at width
      | cons w ws =>
          have width : vs.length = ws.length := by simpa using width
          simp only [List.map_cons, List.zipWith_cons_cons, List.forall_mem_cons, ih width,
            List.cons.injEq]
          simp [equal3]

end Cells

/-- SUM, null over no rows. -/
def sumOf : List ℕ → Option ℕ
  | [] => none
  | x :: xs => some (x :: xs).sum

/-- MAX, null over no rows. -/
def maxOf (xs : List ℕ) : Option ℕ := xs.max?

theorem getD_sumOf (xs : List ℕ) : (sumOf xs).getD 0 = xs.sum := by
  cases xs <;> rfl

theorem getD_maxOf (xs : List ℕ) : (maxOf xs).getD 0 = xs.toFinset.sup id := by
  cases hm : maxOf xs with
  | none =>
      obtain rfl : xs = [] := List.max?_eq_none_iff.mp hm
      rfl
  | some m =>
      obtain ⟨mem, bound⟩ := List.max?_eq_some_iff.mp hm
      apply le_antisymm
      · exact Finset.le_sup (f := id) (List.mem_toFinset.mpr mem)
      · exact Finset.sup_le fun x hx => bound x (List.mem_toFinset.mp hx)

theorem sum_map_ite {α : Type} (p : α → Prop) [DecidablePred p] (xs : List α) :
    (xs.map fun x => if p x then 1 else 0).sum = xs.countP fun x => p x := by
  induction xs with
  | nil => rfl
  | cons x xs ih =>
      rw [List.map_cons, List.sum_cons, List.countP_cons, ih]
      simp [Nat.add_comm]

section Groups

variable {κ : Type} [DecidableEq κ]

def groupCounts (keys : List κ) : List (κ × ℕ) := keys.dedup.map fun k => (k, keys.count k)

theorem groupCounts_map {κ' : Type} [DecidableEq κ'] {f : κ → κ'} (inj : Function.Injective f)
    (keys : List κ) :
    groupCounts (keys.map f) = keys.dedup.map fun k => (f k, keys.count k) := by
  rw [groupCounts, List.dedup_map_of_injective inj, List.map_map]
  refine List.map_congr_left fun k _ => ?_
  simp [List.count_map_of_injective keys f inj]

variable (keys left right : List κ)

def distinctCount : ℕ := keys.toFinset.card

/-- How many keys there are more than once. -/
def repeatedCount : ℕ := (keys.toFinset.filter fun k => 1 < keys.count k).card

/-- How many members there are beyond the first of each key. -/
def surplusCount : ℕ := keys.length - keys.toFinset.card

/-- How often the most frequent key is there. -/
def maxCount : ℕ := keys.toFinset.sup fun k => keys.count k

/-- How many keys are on both sides. -/
def matchedCount : ℕ := (left.toFinset ∩ right.toFinset).card

/-- How many members have a key that the other side has not. -/
def unmatchedMembers : ℕ := left.countP fun k => k ∉ right

/-- How many pairs have equal keys. -/
def joinSize : ℕ := (left ×ˢ right).countP fun pair => pair.1 = pair.2

/-- The most members of the other side that a member finds. -/
def maxMatches : ℕ := left.toFinset.sup fun k => right.count k

theorem toFinset_dedup : keys.dedup.toFinset = keys.toFinset :=
  List.toFinset.ext fun _ => List.mem_dedup

theorem length_dedup : keys.dedup.length = distinctCount keys := (List.card_toFinset keys).symm

theorem sum_dedup (f : κ → ℕ) : (keys.dedup.map f).sum = ∑ k ∈ keys.toFinset, f k := by
  rw [← List.sum_toFinset f (List.nodup_dedup keys), toFinset_dedup]

theorem sum_dedup_filter (p : κ → Prop) [DecidablePred p] (f : κ → ℕ) :
    ((keys.dedup.filter fun k => p k).map f).sum = ∑ k ∈ keys.toFinset with p k, f k := by
  rw [← List.sum_toFinset f ((List.nodup_dedup keys).filter _)]
  congr 1
  ext k
  simp

theorem sum_count : ∑ k ∈ keys.toFinset, keys.count k = keys.length := by
  rw [← sum_dedup, List.sum_map_count_dedup_eq_length]

theorem countP_dedup_repeated :
    (keys.dedup.countP fun k => 1 < keys.count k) = repeatedCount keys := by
  rw [List.countP_eq_length_filter, repeatedCount,
    ← List.toFinset_card_of_nodup ((List.nodup_dedup keys).filter _)]
  congr 1
  ext k
  simp

theorem sum_surplus : (keys.dedup.map fun k => keys.count k - 1).sum = surplusCount keys := by
  have positive : ∀ k ∈ keys.toFinset, 1 ≤ keys.count k := fun k hk =>
    List.count_pos_iff.mpr (List.mem_toFinset.mp hk)
  rw [sum_dedup, Finset.sum_tsub_distrib _ positive, sum_count, surplusCount]
  simp

theorem sup_dedup (f : κ → ℕ) : (keys.dedup.map f).toFinset.sup id = keys.toFinset.sup f := by
  rw [← toFinset_dedup keys]
  induction keys.dedup with
  | nil => rfl
  | cons k ks ih =>
      rw [List.map_cons, List.toFinset_cons, List.toFinset_cons, Finset.sup_insert,
        Finset.sup_insert, ih]
      rfl

theorem length_matched : (left.dedup.filter fun k => k ∈ right.dedup).length =
    matchedCount left right := by
  rw [matchedCount, ← List.toFinset_card_of_nodup ((List.nodup_dedup left).filter _)]
  congr 1
  ext k
  simp

theorem sum_unmatched :
    ((left.dedup.filter fun k => k ∉ right.dedup).map fun k => left.count k).sum =
      unmatchedMembers left right := by
  rw [unmatchedMembers, ← List.sum_map_count_dedup_filter_eq_countP]
  congr 2
  refine List.filter_congr fun k _ => ?_
  simp

theorem joinSize_eq_sum : joinSize left right = (left.map fun k => right.count k).sum := by
  rw [joinSize]
  induction left with
  | nil => rfl
  | cons k left ih =>
      have row : ((right.map fun k' => (k, k')).countP fun pair => pair.1 = pair.2) =
          right.count k := by
        rw [List.countP_map, List.count]
        refine List.countP_congr fun k' _ => ?_
        simp only [Function.comp_apply, decide_eq_true_eq, beq_iff_eq]
        exact eq_comm
      rw [List.product_cons, List.countP_append, row, List.map_cons, List.sum_cons]
      exact congrArg _ ih

theorem sum_joined :
    ((left.dedup.filter fun k => k ∈ right.dedup).map fun k => left.count k * right.count k).sum =
      joinSize left right := by
  rw [joinSize_eq_sum, Finset.sum_list_map_count left, sum_dedup_filter]
  refine Finset.sum_subset (Finset.filter_subset _ _) fun k hk unmatched => ?_
  have absent : k ∉ right := by
    intro mem
    exact unmatched (Finset.mem_filter.mpr ⟨hk, by simpa using mem⟩)
  rw [List.count_eq_zero_of_not_mem absent, mul_zero]

theorem sup_matched :
    ((left.dedup.filter fun k => k ∈ right.dedup).map fun k => right.count k).toFinset.sup id =
      maxMatches left right := by
  apply le_antisymm
  · refine Finset.sup_le fun n hn => ?_
    obtain ⟨k, hk, rfl⟩ := List.mem_map.mp (List.mem_toFinset.mp hn)
    have mem := List.mem_dedup.mp (List.mem_filter.mp hk).1
    exact Finset.le_sup (f := fun k => right.count k) (List.mem_toFinset.mpr mem)
  · refine Finset.sup_le fun k hk => ?_
    by_cases mem : k ∈ right
    · refine Finset.le_sup (f := id) (List.mem_toFinset.mpr (List.mem_map.mpr ⟨k, ?_, rfl⟩))
      exact List.mem_filter.mpr
        ⟨List.mem_dedup.mpr (List.mem_toFinset.mp hk), by simpa using mem⟩
    · rw [List.count_eq_zero_of_not_mem mem]
      exact Nat.zero_le _

theorem sup_matched_left :
    ((left.dedup.filter fun k => k ∈ right.dedup).map fun k => left.count k).toFinset.sup id =
      maxMatches right left := by
  rw [← sup_matched]
  congr 1
  ext n
  simp only [List.mem_toFinset, List.mem_map, List.mem_filter, List.mem_dedup, decide_eq_true_eq]
  constructor
  · intro h
    obtain ⟨k, both, rfl⟩ := h
    exact ⟨k, both.symm, rfl⟩
  · intro h
    obtain ⟨k, both, rfl⟩ := h
    exact ⟨k, both.symm, rfl⟩

variable {keys left right}

theorem matchedCount_comm : matchedCount left right = matchedCount right left := by
  rw [matchedCount, matchedCount, Finset.inter_comm]

theorem matchedCount_le : matchedCount left right ≤ distinctCount left :=
  Finset.card_le_card Finset.inter_subset_left

theorem distinctCount_eq_length : distinctCount keys = keys.length ↔ keys.Nodup := by
  rw [← length_dedup]
  constructor
  · intro same
    rw [← (List.dedup_sublist keys).eq_of_length same]
    exact List.nodup_dedup keys
  · intro nodup
    rw [nodup.dedup]

theorem maxCount_le_one : maxCount keys ≤ 1 ↔ keys.Nodup := by
  rw [maxCount, Finset.sup_le_iff, List.nodup_iff_count_le_one]
  constructor
  · intro h k
    by_cases mem : k ∈ keys
    · exact h k (List.mem_toFinset.mpr mem)
    · rw [List.count_eq_zero_of_not_mem mem]
      exact Nat.zero_le 1
  · intro h k _
    exact h k

end Groups

section Joins

variable {α β κ : Type} [DecidableEq κ] (on : α → β → Option Bool)

def joinOn (left : List α) (right : List β) : List (α × β) :=
  left.flatMap fun a => (right.filter fun b => on a b = some true).map fun b => (a, b)

def leftJoinOn (left : List α) (right : List β) : List (α × Option β) :=
  left.flatMap fun a =>
    match right.filter fun b => on a b = some true with
    | [] => [(a, none)]
    | found => found.map fun b => (a, some b)

variable {f : κ → α} {g : κ → β} {left right : List κ}

theorem filter_on_map (nodup : right.Nodup) {k : κ}
    (same : ∀ k' ∈ right, on (f k) (g k') = some true ↔ k = k') :
    ((right.map g).filter fun b => on (f k) b = some true) = if k ∈ right then [g k] else [] := by
  have agree : (right.filter fun k' => on (f k) (g k') = some true) =
      right.filter fun k' => k' = k := by
    refine List.filter_congr fun k' hk' => decide_eq_decide.mpr ?_
    rw [same k' hk', eq_comm]
  rw [List.filter_map]
  change ((right.filter fun k' => on (f k) (g k') = some true)).map g = _
  rw [agree, List.filter_eq]
  by_cases mem : k ∈ right
  · rw [List.count_eq_one_of_mem nodup mem, if_pos mem]
    rfl
  · rw [List.count_eq_zero_of_not_mem mem, if_neg mem]
    rfl

theorem joinOn_map (nodup : right.Nodup)
    (same : ∀ k ∈ left, ∀ k' ∈ right, on (f k) (g k') = some true ↔ k = k') :
    joinOn on (left.map f) (right.map g) =
      (left.filter fun k => k ∈ right).map fun k => (f k, g k) := by
  induction left with
  | nil => rfl
  | cons k left ih =>
      have tail := ih fun k hk => same k (List.mem_cons_of_mem _ hk)
      rw [joinOn, List.map_cons, List.flatMap_cons, ← joinOn, tail,
        filter_on_map on nodup (same k List.mem_cons_self), List.filter_cons]
      by_cases mem : k ∈ right <;> simp [mem]

theorem leftJoinOn_map (nodup : right.Nodup)
    (same : ∀ k ∈ left, ∀ k' ∈ right, on (f k) (g k') = some true ↔ k = k') :
    leftJoinOn on (left.map f) (right.map g) =
      left.map fun k => (f k, if k ∈ right then some (g k) else none) := by
  induction left with
  | nil => rfl
  | cons k left ih =>
      have tail := ih fun k hk => same k (List.mem_cons_of_mem _ hk)
      rw [leftJoinOn, List.map_cons, List.flatMap_cons, ← leftJoinOn, tail,
        filter_on_map on nodup (same k List.mem_cons_self), List.map_cons]
      by_cases mem : k ∈ right <;> simp [mem]

end Joins

end Sql
