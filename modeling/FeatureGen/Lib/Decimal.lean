import Mathlib

/-! # Decimal arithmetic with a fixed number of digits

The exact result of an operation is a rational; what a decimal context returns
is that rational rounded to `prec` significant digits, ties to the even last
digit. Exponents are unbounded: no value here overflows or underflows.
-/

namespace Decimal

/-- Nearest integer, ties to the even one. -/
def roundHalfEven (q : ℚ) : ℤ :=
  if q - ⌊q⌋ < 1 / 2 then ⌊q⌋
  else if 1 / 2 < q - ⌊q⌋ then ⌊q⌋ + 1
  else if ⌊q⌋ % 2 = 0 then ⌊q⌋ else ⌊q⌋ + 1

/-- Weight of the last kept digit of `q`. -/
def quantum (prec : ℕ) (q : ℚ) : ℚ := (10 : ℚ) ^ (Int.log 10 |q| + 1 - prec)

/-- `q` to `prec` significant digits. -/
def round (prec : ℕ) (q : ℚ) : ℚ := roundHalfEven (q / quantum prec q) * quantum prec q

theorem abs_roundHalfEven_sub_le (q : ℚ) : |(roundHalfEven q : ℚ) - q| ≤ 1 / 2 := by
  have hlow : (⌊q⌋ : ℚ) ≤ q := Int.floor_le q
  have hhigh : q < ⌊q⌋ + 1 := Int.lt_floor_add_one q
  rw [abs_le]
  unfold roundHalfEven
  split_ifs <;> push_cast <;> constructor <;> linarith

@[simp] theorem roundHalfEven_intCast (n : ℤ) : roundHalfEven (n : ℚ) = n := by
  simp [roundHalfEven]

theorem roundHalfEven_neg {q : ℚ} (h : q ≤ 0) : roundHalfEven q ≤ 0 := by
  by_contra hpos
  have hone : (1 : ℚ) ≤ roundHalfEven q := by exact_mod_cast Int.not_le.mp hpos
  have herr := (abs_le.mp (abs_roundHalfEven_sub_le q)).2
  linarith

theorem quantum_pos (prec : ℕ) (q : ℚ) : 0 < quantum prec q :=
  zpow_pos (by norm_num) _

theorem abs_round_sub_le_quantum (prec : ℕ) (q : ℚ) :
    |round prec q - q| ≤ quantum prec q / 2 := by
  have hpos := quantum_pos prec q
  have hsplit : round prec q - q =
      (roundHalfEven (q / quantum prec q) - q / quantum prec q) * quantum prec q := by
    rw [round, sub_mul, div_mul_cancel₀ _ hpos.ne']
  rw [hsplit, abs_mul, abs_of_pos hpos]
  calc |(roundHalfEven (q / quantum prec q) : ℚ) - q / quantum prec q| * quantum prec q
      ≤ 1 / 2 * quantum prec q :=
        mul_le_mul_of_nonneg_right (abs_roundHalfEven_sub_le _) hpos.le
    _ = quantum prec q / 2 := by ring

theorem quantum_le {prec : ℕ} {q : ℚ} (h : q ≠ 0) :
    quantum prec q ≤ |q| * (10 : ℚ) ^ (1 - prec : ℤ) := by
  have hlead : (10 : ℚ) ^ Int.log 10 |q| ≤ |q| := by
    have hlog := Int.zpow_log_le_self (b := 10) (by norm_num) (abs_pos.mpr h)
    exact_mod_cast hlog
  have hsplit : quantum prec q = (10 : ℚ) ^ Int.log 10 |q| * (10 : ℚ) ^ (1 - prec : ℤ) := by
    rw [quantum, ← zpow_add₀ (by norm_num)]
    congr 1
    ring
  rw [hsplit]
  exact mul_le_mul_of_nonneg_right hlead (zpow_pos (by norm_num) _).le

/-- The largest part of a value its rounding to `prec` digits can add or lose. -/
def epsilon (prec : ℕ) : ℚ := (10 : ℚ) ^ (1 - prec : ℤ) / 2

theorem epsilon_pos (prec : ℕ) : 0 < epsilon prec :=
  half_pos (zpow_pos (by norm_num) _)

@[simp] theorem round_zero (prec : ℕ) : round prec 0 = 0 := by
  simp [round, roundHalfEven]

theorem abs_round_sub_le (prec : ℕ) (q : ℚ) : |round prec q - q| ≤ |q| * epsilon prec := by
  by_cases h : q = 0
  · simp [h]
  · calc |round prec q - q| ≤ quantum prec q / 2 := abs_round_sub_le_quantum prec q
      _ ≤ |q| * (10 : ℚ) ^ (1 - prec : ℤ) / 2 :=
        div_le_div_of_nonneg_right (quantum_le h) (by norm_num)
      _ = |q| * epsilon prec := by rw [epsilon]; ring

theorem round_nonpos {prec : ℕ} {q : ℚ} (h : q ≤ 0) : round prec q ≤ 0 := by
  have hpos := quantum_pos prec q
  refine mul_nonpos_of_nonpos_of_nonneg ?_ hpos.le
  exact_mod_cast roundHalfEven_neg (div_nonpos_of_nonpos_of_nonneg h hpos.le)

theorem floor_le_roundHalfEven (q : ℚ) : ⌊q⌋ ≤ roundHalfEven q ∧ roundHalfEven q ≤ ⌊q⌋ + 1 := by
  unfold roundHalfEven
  split_ifs <;> omega

theorem roundHalfEven_mono {p q : ℚ} (h : p ≤ q) : roundHalfEven p ≤ roundHalfEven q := by
  rcases (Int.floor_le_floor h).lt_or_eq with below | same
  · have left := (floor_le_roundHalfEven p).2
    have right := (floor_le_roundHalfEven q).1
    omega
  · unfold roundHalfEven
    rw [same]
    split_ifs <;> first | omega | linarith

theorem round_mem_decade {prec : ℕ} {q : ℚ} (hprec : 0 < prec) (h : 0 < q) :
    (10 : ℚ) ^ Int.log 10 q ≤ round prec q ∧ round prec q ≤ (10 : ℚ) ^ (Int.log 10 q + 1) := by
  have hpos := quantum_pos prec q
  have hquantum : quantum prec q = (10 : ℚ) ^ (Int.log 10 q + 1 - prec) := by
    rw [quantum, abs_of_pos h]
  have hlow : (10 : ℚ) ^ Int.log 10 q ≤ q := by
    have hlog := Int.zpow_log_le_self (b := 10) (by norm_num) h
    exact_mod_cast hlog
  have hhigh : q < (10 : ℚ) ^ (Int.log 10 q + 1) := by
    have hlog := Int.lt_zpow_succ_log_self (b := 10) (by norm_num) q
    exact_mod_cast hlog
  have lowUnits : (10 : ℚ) ^ Int.log 10 q = ((10 ^ (prec - 1) : ℕ) : ℤ) * quantum prec q := by
    rw [hquantum]
    push_cast
    rw [← zpow_natCast, ← zpow_add₀ (by norm_num)]
    congr 1
    omega
  have highUnits : (10 : ℚ) ^ (Int.log 10 q + 1) = ((10 ^ prec : ℕ) : ℤ) * quantum prec q := by
    rw [hquantum]
    push_cast
    rw [← zpow_natCast, ← zpow_add₀ (by norm_num)]
    congr 1
    omega
  constructor
  · rw [lowUnits, round]
    refine mul_le_mul_of_nonneg_right ?_ hpos.le
    have units : (((10 ^ (prec - 1) : ℕ) : ℤ) : ℚ) ≤ q / quantum prec q := by
      rw [le_div_iff₀ hpos, ← lowUnits]
      exact hlow
    have rounded := roundHalfEven_mono units
    rw [roundHalfEven_intCast] at rounded
    exact_mod_cast rounded
  · rw [highUnits, round]
    refine mul_le_mul_of_nonneg_right ?_ hpos.le
    have units : q / quantum prec q ≤ (((10 ^ prec : ℕ) : ℤ) : ℚ) := by
      rw [div_le_iff₀ hpos, ← highUnits]
      exact hhigh.le
    have rounded := roundHalfEven_mono units
    rw [roundHalfEven_intCast] at rounded
    exact_mod_cast rounded

theorem round_pos {prec : ℕ} {q : ℚ} (hprec : 0 < prec) (h : 0 < q) : 0 < round prec q :=
  (zpow_pos (by norm_num) _).trans_le (round_mem_decade hprec h).1

theorem round_mono {prec : ℕ} {p q : ℚ} (hprec : 0 < prec) (hp : 0 < p) (h : p ≤ q) :
    round prec p ≤ round prec q := by
  have hq : 0 < q := hp.trans_le h
  rcases (Int.log_mono_right (b := 10) hp h).lt_or_eq with below | same
  · calc round prec p ≤ (10 : ℚ) ^ (Int.log 10 p + 1) := (round_mem_decade hprec hp).2
      _ ≤ (10 : ℚ) ^ Int.log 10 q := zpow_le_zpow_right₀ (by norm_num) (by omega)
      _ ≤ round prec q := (round_mem_decade hprec hq).1
  · have hquantum : quantum prec p = quantum prec q := by
      rw [quantum, quantum, abs_of_pos hp, abs_of_pos hq, same]
    rw [round, round, hquantum]
    have hpos := quantum_pos prec q
    refine mul_le_mul_of_nonneg_right ?_ hpos.le
    exact_mod_cast roundHalfEven_mono (div_le_div_of_nonneg_right h hpos.le)

theorem add_le_of_le_round_sub {prec : ℕ} {used amount ceiling : ℚ} (hused : 0 ≤ used)
    (hamount : 0 ≤ amount) (h : amount ≤ round prec (ceiling - used)) :
    used + amount ≤ max used (ceiling * (1 + epsilon prec)) := by
  by_cases hroom : ceiling - used ≤ 0
  · have hnone : amount = 0 := le_antisymm (h.trans (round_nonpos hroom)) hamount
    simp [hnone]
  · have hε := (epsilon_pos prec).le
    have herr := (abs_le.mp (abs_round_sub_le prec (ceiling - used))).2
    rw [abs_of_pos (not_le.mp hroom)] at herr
    have hscale : (ceiling - used) * epsilon prec ≤ ceiling * epsilon prec :=
      mul_le_mul_of_nonneg_right (by linarith) hε
    exact le_max_of_le_right (by linarith)

/-- `q` is a whole number of units of `10 ^ k`. -/
def OnGrid (k : ℤ) (q : ℚ) : Prop := ∃ n : ℤ, q = n * (10 : ℚ) ^ k

theorem OnGrid.add {k : ℤ} {p q : ℚ} (hp : OnGrid k p) (hq : OnGrid k q) : OnGrid k (p + q) := by
  obtain ⟨m, rfl⟩ := hp
  obtain ⟨n, rfl⟩ := hq
  exact ⟨m + n, by push_cast; ring⟩

theorem OnGrid.sub {k : ℤ} {p q : ℚ} (hp : OnGrid k p) (hq : OnGrid k q) : OnGrid k (p - q) := by
  obtain ⟨m, rfl⟩ := hp
  obtain ⟨n, rfl⟩ := hq
  exact ⟨m - n, by push_cast; ring⟩

theorem OnGrid.zero (k : ℤ) : OnGrid k 0 := ⟨0, by simp⟩

theorem OnGrid.refine {j k : ℤ} {q : ℚ} (hjk : j ≤ k) (h : OnGrid k q) : OnGrid j q := by
  obtain ⟨n, rfl⟩ := h
  obtain ⟨d, hd⟩ := Int.le.dest hjk
  refine ⟨n * 10 ^ d, ?_⟩
  rw [← hd, zpow_add₀ (by norm_num), zpow_natCast]
  push_cast
  ring

theorem round_eq_self {prec : ℕ} {k : ℤ} {q : ℚ} (hgrid : OnGrid k q)
    (hdigits : |q| < (10 : ℚ) ^ (k + prec)) : round prec q = q := by
  by_cases h : q = 0
  · simp [h]
  have hlog : Int.log 10 |q| < k + prec := by
    rw [← Int.lt_zpow_iff_log_lt (by norm_num) (abs_pos.mpr h)]
    exact_mod_cast hdigits
  obtain ⟨n, hn⟩ := hgrid.refine (show Int.log 10 |q| + 1 - prec ≤ k by omega)
  have hpos := quantum_pos prec q
  have hwhole : q / quantum prec q = n := by
    rw [div_eq_iff hpos.ne']
    exact hn
  rw [round, hwhole, roundHalfEven_intCast]
  exact hn.symm

theorem round_eq_self_of_le {prec : ℕ} {k : ℤ} {q : ℚ} (hprec : 0 < prec) (hgrid : OnGrid k q)
    (hdigits : |q| ≤ (10 : ℚ) ^ (k + prec)) : round prec q = q := by
  cases lt_or_eq_of_le hdigits with
  | inl within => exact round_eq_self hgrid within
  | inr boundary =>
      have hcoarse : OnGrid (k + prec) q := by
        cases abs_eq (zpow_pos (by norm_num) _).le |>.mp boundary with
        | inl pos => exact ⟨1, by simpa using pos⟩
        | inr neg => exact ⟨-1, by simpa using neg⟩
      refine round_eq_self hcoarse ?_
      rw [boundary]
      exact zpow_lt_zpow_right₀ (by norm_num) (by omega)

theorem add_le_of_le_round_sub_onGrid {prec : ℕ} {k : ℤ} {used amount ceiling : ℚ}
    (hprec : 0 < prec) (hused : 0 ≤ used) (hamount : 0 ≤ amount) (hgridUsed : OnGrid k used)
    (hgridCeiling : OnGrid k ceiling) (hdigits : ceiling ≤ (10 : ℚ) ^ (k + prec))
    (h : amount ≤ round prec (ceiling - used)) : used + amount ≤ max used ceiling := by
  by_cases hroom : ceiling - used ≤ 0
  · have hnone : amount = 0 := le_antisymm (h.trans (round_nonpos hroom)) hamount
    simp [hnone]
  · have habs : |ceiling - used| ≤ (10 : ℚ) ^ (k + prec) := by
      rw [abs_of_pos (not_le.mp hroom)]
      linarith
    rw [round_eq_self_of_le hprec (hgridCeiling.sub hgridUsed) habs] at h
    exact le_max_of_le_right (by linarith)

theorem OnGrid.sum {k : ℤ} {l : List ℚ} (h : ∀ q ∈ l, OnGrid k q) : OnGrid k l.sum := by
  induction l with
  | nil => exact OnGrid.zero k
  | cons q l ih =>
      rw [List.sum_cons]
      exact (h q List.mem_cons_self).add (ih fun p hp => h p (List.mem_cons_of_mem q hp))

end Decimal
