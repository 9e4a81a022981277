import Mathlib

/-! # Rows under locks

One table as transactions at READ COMMITTED see it. Whoever writes a row holds
it until it commits or rolls back; the others read the committed version, and
wait before they write their own. To lock a row is to write it as it is.
-/

namespace RowLocks

variable {κ ρ : Type*}

/-- A row version that is not committed. -/
structure Draft (ρ : Type*) where
  holder : ℕ
  /-- None where the row is deleted. -/
  row : Option ρ

structure Rows (κ ρ : Type*) where
  /-- The keys that may have a row, oldest first. -/
  keys : List κ
  committed : κ → Option ρ
  drafts : κ → Option (Draft ρ)

/-- What one statement, or the end of a transaction, does to the rows of a table. -/
inductive Change (κ ρ : Type*) where
  | write (txn : ℕ) (k : κ) (row : Option ρ)
  | commit (txn : ℕ)
  | rollback (txn : ℕ)

namespace Rows

/-- No other transaction holds the row. -/
def free (rows : Rows κ ρ) (txn : ℕ) (k : κ) : Bool :=
  (rows.drafts k).all fun d => d.holder = txn

/-- The row a transaction reads. -/
def visible (rows : Rows κ ρ) (txn : ℕ) (k : κ) : Option ρ :=
  match rows.drafts k with
  | none => rows.committed k
  | some d => if d.holder = txn then d.row else rows.committed k

/-- The keys of the rows a transaction reads that satisfy a condition. -/
def scan (rows : Rows κ ρ) (txn : ℕ) (p : ρ → Bool) : List κ :=
  rows.keys.filter fun k => (rows.visible txn k).any p

def write [DecidableEq κ] (rows : Rows κ ρ) (txn : ℕ) (k : κ) (row : Option ρ) : Rows κ ρ where
  keys := if k ∈ rows.keys then rows.keys else rows.keys ++ [k]
  committed := rows.committed
  drafts := Function.update rows.drafts k (some ⟨txn, row⟩)

def othersDrafts (rows : Rows κ ρ) (txn : ℕ) (k : κ) : Option (Draft ρ) :=
  (rows.drafts k).filter fun d => d.holder ≠ txn

def commit (rows : Rows κ ρ) (txn : ℕ) : Rows κ ρ where
  keys := rows.keys
  committed := rows.visible txn
  drafts := rows.othersDrafts txn

def rollback (rows : Rows κ ρ) (txn : ℕ) : Rows κ ρ where
  keys := rows.keys
  committed := rows.committed
  drafts := rows.othersDrafts txn

section Lemmas

variable {rows : Rows κ ρ} {txn txn' : ℕ} {k k' : κ} {row : Option ρ} {d : Draft ρ}

theorem visible_of_none (h : rows.drafts k = none) : rows.visible txn k = rows.committed k := by
  rw [visible, h]

theorem visible_of_holder (h : rows.drafts k = some ⟨txn, row⟩) : rows.visible txn k = row := by
  simp [visible, h]

theorem holder_of_free (h : rows.drafts k = some d) (free : rows.free txn k = true) :
    d.holder = txn := by
  simpa [Rows.free, h] using free

theorem drafts_of_free (free : rows.free txn k = true) :
    rows.drafts k = none ∨ rows.drafts k = some ⟨txn, rows.visible txn k⟩ := by
  cases h : rows.drafts k with
  | none => exact Or.inl rfl
  | some d =>
      obtain ⟨holder, row⟩ := d
      obtain rfl := holder_of_free h free
      exact Or.inr (by rw [visible_of_holder h])

theorem othersDrafts_eq_some : rows.othersDrafts txn k = some d ↔
    rows.drafts k = some d ∧ d.holder ≠ txn := by
  simp [othersDrafts, Option.filter_eq_some_iff]

section Writes

variable [DecidableEq κ]

theorem drafts_write_self : (rows.write txn k row).drafts k = some ⟨txn, row⟩ :=
  Function.update_self ..

theorem drafts_write_ne (h : k' ≠ k) : (rows.write txn k row).drafts k' = rows.drafts k' :=
  Function.update_of_ne h ..

end Writes

/-- Every row version satisfies a condition. -/
structure All (P : κ → ρ → Prop) (rows : Rows κ ρ) : Prop where
  committed : ∀ k r, rows.committed k = some r → P k r
  drafts : ∀ k d r, rows.drafts k = some d → d.row = some r → P k r

theorem All.visible {P : κ → ρ → Prop} (h : rows.All P) {r : ρ}
    (hr : rows.visible txn k = some r) : P k r := by
  unfold Rows.visible at hr
  split at hr
  · exact h.committed k r hr
  · next d hd =>
      split at hr
      · exact h.drafts k d r hd hr
      · exact h.committed k r hr

/-- Every draft is one of what the committed row can become. -/
def Follow (R : Option ρ → Option ρ → Prop) (rows : Rows κ ρ) : Prop :=
  ∀ k d, rows.drafts k = some d → R (rows.committed k) d.row

theorem Follow.visible {R : Option ρ → Option ρ → Prop} (refl : ∀ a, R a a)
    (h : rows.Follow R) : R (rows.committed k) (rows.visible txn k) := by
  unfold Rows.visible
  split
  · exact refl _
  · next d hd =>
      split
      · exact h k d hd
      · exact refl _

end Lemmas

end Rows

section Keys

variable {rows : Rows κ ρ} {txn : ℕ} {k : κ} {row : Option ρ}

/-- Every row version is under one of the keys, and each key is listed once. -/
structure Rows.Listed (rows : Rows κ ρ) : Prop where
  nodup : rows.keys.Nodup
  committed : ∀ k, rows.committed k ≠ none → k ∈ rows.keys
  drafts : ∀ k, rows.drafts k ≠ none → k ∈ rows.keys

theorem Rows.Listed.visible (h : rows.Listed) (seen : rows.visible txn k ≠ none) :
    k ∈ rows.keys := by
  cases hd : rows.drafts k with
  | none => exact h.committed k (by rwa [Rows.visible_of_none hd] at seen)
  | some d => exact h.drafts k (by simp [hd])

theorem Rows.Listed.mem_scan (h : rows.Listed) {p : ρ → Bool} :
    k ∈ rows.scan txn p ↔ ∃ r, rows.visible txn k = some r ∧ p r = true := by
  simp only [Rows.scan, List.mem_filter, Option.any_eq_true, and_iff_right_iff_imp]
  rintro ⟨r, hr, _⟩
  have seen : rows.visible txn k ≠ none := by simp [hr]
  exact h.visible seen

theorem Rows.Listed.commit (h : rows.Listed) : (rows.commit txn).Listed where
  nodup := h.nodup
  committed _ hk := h.visible hk
  drafts k hk := by
    obtain ⟨d, hd⟩ := Option.ne_none_iff_exists'.mp hk
    exact h.drafts k (by simp [(Rows.othersDrafts_eq_some.mp hd).1])

theorem Rows.Listed.rollback (h : rows.Listed) : (rows.rollback txn).Listed where
  nodup := h.nodup
  committed := h.committed
  drafts k hk := by
    obtain ⟨d, hd⟩ := Option.ne_none_iff_exists'.mp hk
    exact h.drafts k (by simp [(Rows.othersDrafts_eq_some.mp hd).1])

theorem Rows.Listed.write [DecidableEq κ] (h : rows.Listed) :
    (rows.write txn k row).Listed where
  nodup := by
    simp only [Rows.write]
    split
    · exact h.nodup
    · next fresh => exact h.nodup.append (List.nodup_singleton k) (by simpa using fresh)
  committed k' hk' := by
    have old := h.committed k' hk'
    simp only [Rows.write]
    split
    · exact old
    · exact List.mem_append_left _ old
  drafts k' hk' := by
    by_cases hkk : k' = k
    · subst hkk
      simp only [Rows.write]
      split
      · assumption
      · simp
    · have old := h.drafts k' (by rwa [Rows.drafts_write_ne hkk] at hk')
      simp only [Rows.write]
      split
      · exact old
      · exact List.mem_append_left _ old

end Keys

section Index

variable {ι : Type*} (index : ρ → Option ι)

/-- However the transactions under way end, no entry of the index has two rows. -/
structure Rows.Unique (rows : Rows κ ρ) : Prop where
  committed : ∀ k k' i, k ≠ k' → (rows.committed k).bind index = some i →
    (rows.committed k').bind index ≠ some i
  drafts : ∀ k k' d d' i, k ≠ k' → rows.drafts k = some d → rows.drafts k' = some d' →
    d.row.bind index = some i → d'.row.bind index ≠ some i
  /-- A draft under the entry of a committed row is by who replaces that row. -/
  replaced : ∀ k k' d i, k ≠ k' → rows.drafts k = some d → d.row.bind index = some i →
    (rows.committed k').bind index = some i → ∃ row, rows.drafts k' = some ⟨d.holder, row⟩

section Writes

variable [DecidableEq κ] [DecidableEq ι]

/-- Another transaction holds a row that is under the entry, or was: who writes the entry
    waits for it. -/
def Rows.contended (rows : Rows κ ρ) (txn : ℕ) (k : κ) (i : ι) : Bool :=
  rows.keys.any fun k' => k' ≠ k ∧ ¬ rows.free txn k' ∧
    ((rows.committed k').bind index = some i ∨
      ((rows.drafts k').bind (·.row)).bind index = some i)

/-- Another row is under the entry. -/
def Rows.taken (rows : Rows κ ρ) (txn : ℕ) (k : κ) (i : ι) : Bool :=
  rows.keys.any fun k' => k' ≠ k ∧ (rows.visible txn k').bind index = some i

/-- The index does not make the write wait. -/
def Rows.clear (rows : Rows κ ρ) (txn : ℕ) (k : κ) (row : Option ρ) : Bool :=
  (row.bind index).all fun i => ¬ rows.contended index txn k i

/-- The write violates the index. -/
def Rows.violates (rows : Rows κ ρ) (txn : ℕ) (k : κ) (row : Option ρ) : Bool :=
  (row.bind index).any fun i => rows.taken index txn k i

end Writes

variable {index} {rows : Rows κ ρ} {txn : ℕ} {k : κ} {row : Option ρ}

theorem Rows.Unique.rollback (h : rows.Unique index) : (rows.rollback txn).Unique index where
  committed := h.committed
  drafts k k' d d' i hne hd hd' :=
    h.drafts k k' d d' i hne (Rows.othersDrafts_eq_some.mp hd).1
      (Rows.othersDrafts_eq_some.mp hd').1
  replaced k k' d i hne hd hi hi' := by
    obtain ⟨hd, other⟩ := Rows.othersDrafts_eq_some.mp hd
    obtain ⟨row, hrow⟩ := h.replaced k k' d i hne hd hi hi'
    exact ⟨row, Rows.othersDrafts_eq_some.mpr ⟨hrow, other⟩⟩

theorem Rows.visible_cases (rows : Rows κ ρ) (txn : ℕ) (k : κ) :
    (∃ row, rows.drafts k = some ⟨txn, row⟩ ∧ rows.visible txn k = row) ∨
      ((∀ d, rows.drafts k = some d → d.holder ≠ txn) ∧
        rows.visible txn k = rows.committed k) := by
  cases hd : rows.drafts k with
  | none => exact Or.inr ⟨by simp, Rows.visible_of_none hd⟩
  | some d =>
      obtain ⟨holder, row⟩ := d
      by_cases own : holder = txn
      · subst own
        exact Or.inl ⟨row, rfl, Rows.visible_of_holder hd⟩
      · exact Or.inr ⟨by simpa using own, by simp [Rows.visible, hd, own]⟩

theorem Rows.Unique.commit (h : rows.Unique index) : (rows.commit txn).Unique index where
  committed k k' i hne hi hi' := by
    have hi : (rows.visible txn k).bind index = some i := hi
    have hi' : (rows.visible txn k').bind index = some i := hi'
    rcases rows.visible_cases txn k with ⟨row, hd, hv⟩ | ⟨hd, hv⟩ <;>
      rcases rows.visible_cases txn k' with ⟨row', hd', hv'⟩ | ⟨hd', hv'⟩ <;>
      rw [hv] at hi <;> rw [hv'] at hi'
    · exact h.drafts k k' _ _ i hne hd hd' hi hi'
    · obtain ⟨row', held⟩ := h.replaced k k' _ i hne hd hi hi'
      exact hd' _ held rfl
    · obtain ⟨row, held⟩ := h.replaced k' k _ i hne.symm hd' hi' hi
      exact hd _ held rfl
    · exact h.committed k k' i hne hi hi'
  drafts k k' d d' i hne hd hd' :=
    h.drafts k k' d d' i hne (Rows.othersDrafts_eq_some.mp hd).1
      (Rows.othersDrafts_eq_some.mp hd').1
  replaced k k' d i hne hd hi hi' := by
    obtain ⟨hd, other⟩ := Rows.othersDrafts_eq_some.mp hd
    have hi' : (rows.visible txn k').bind index = some i := hi'
    rcases rows.visible_cases txn k' with ⟨row', hd', hv'⟩ | ⟨_, hv'⟩ <;> rw [hv'] at hi'
    · exact absurd hi' (h.drafts k k' _ _ i hne hd hd' hi)
    · obtain ⟨row, hrow⟩ := h.replaced k k' d i hne hd hi hi'
      exact ⟨row, Rows.othersDrafts_eq_some.mpr ⟨hrow, other⟩⟩

section Writes

variable [DecidableEq κ] [DecidableEq ι]

theorem Rows.contended_eq_false {i : ι} (listed : rows.Listed)
    (h : rows.contended index txn k i = false) {k' : κ} (hne : k' ≠ k) {d : Draft ρ}
    (hd : rows.drafts k' = some d) (other : d.holder ≠ txn) :
    (rows.committed k').bind index ≠ some i ∧ d.row.bind index ≠ some i := by
  have hmem := listed.drafts k' (by simp [hd])
  have held : rows.free txn k' = false := by simpa [Rows.free, hd] using other
  have hall := List.any_eq_false.mp h k' hmem
  simpa [hne, held, hd] using hall

theorem Rows.taken_eq_false {i : ι} (listed : rows.Listed)
    (h : rows.taken index txn k i = false) {k' : κ} (hne : k' ≠ k) :
    (rows.visible txn k').bind index ≠ some i := by
  intro hi
  have seen : rows.visible txn k' ≠ none := by
    intro hnone
    simp [hnone] at hi
  have hall := List.any_eq_false.mp h k' (listed.visible seen)
  simp [hne, hi] at hall

theorem Rows.Unique.write (h : rows.Unique index) (listed : rows.Listed)
    (free : rows.free txn k = true) (clear : rows.clear index txn k row = true)
    (kept : rows.violates index txn k row = false) : (rows.write txn k row).Unique index := by
  have others {i : ι} (hi : row.bind index = some i) {k' : κ} (hne : k' ≠ k) {d : Draft ρ}
      (hd : rows.drafts k' = some d) (other : d.holder ≠ txn) :
      (rows.committed k').bind index ≠ some i ∧ d.row.bind index ≠ some i := by
    refine Rows.contended_eq_false listed ?_ hne hd other
    simpa [Rows.clear, hi] using clear
  have own {i : ι} (hi : row.bind index = some i) {k' : κ} (hne : k' ≠ k) :
      (rows.visible txn k').bind index ≠ some i := by
    refine Rows.taken_eq_false listed ?_ hne
    simpa [Rows.violates, hi] using kept
  have apart {i : ι} (hi : row.bind index = some i) {k' : κ} (hne : k' ≠ k) {d : Draft ρ}
      (hd : rows.drafts k' = some d) : d.row.bind index ≠ some i := by
    by_cases holder : d.holder = txn
    · obtain ⟨_, row'⟩ := d
      subst holder
      rw [← Rows.visible_of_holder hd]
      exact own hi hne
    · exact (others hi hne hd holder).2
  refine ⟨h.committed, fun k₁ k₂ d₁ d₂ i hne hd₁ hd₂ hi₁ hi₂ => ?_,
    fun k₁ k₂ d i hne hd hi hi' => ?_⟩
  · by_cases hk₁ : k₁ = k
    · subst hk₁
      obtain rfl := Option.some.inj (Rows.drafts_write_self.symm.trans hd₁)
      exact apart hi₁ hne.symm ((Rows.drafts_write_ne hne.symm).symm.trans hd₂) hi₂
    · have old₁ := (Rows.drafts_write_ne hk₁).symm.trans hd₁
      by_cases hk₂ : k₂ = k
      · subst hk₂
        obtain rfl := Option.some.inj (Rows.drafts_write_self.symm.trans hd₂)
        exact apart hi₂ hne old₁ hi₁
      · exact h.drafts k₁ k₂ d₁ d₂ i hne old₁ ((Rows.drafts_write_ne hk₂).symm.trans hd₂) hi₁ hi₂
  · by_cases hk₁ : k₁ = k
    · subst hk₁
      obtain rfl := Option.some.inj (Rows.drafts_write_self.symm.trans hd)
      rw [Rows.drafts_write_ne hne.symm]
      rcases rows.visible_cases txn k₂ with ⟨row₂, hd₂, _⟩ | ⟨_, hv₂⟩
      · exact ⟨row₂, hd₂⟩
      · exact absurd (hv₂ ▸ hi') (own hi hne.symm)
    · have hd := (Rows.drafts_write_ne hk₁).symm.trans hd
      obtain ⟨row₂, hd₂⟩ := h.replaced k₁ k₂ d i hne hd hi hi'
      by_cases hk₂ : k₂ = k
      · subst hk₂
        have holder := Rows.holder_of_free hd₂ free
        exact ⟨row, by rw [Rows.drafts_write_self, ← holder]⟩
      · exact ⟨row₂, by rw [Rows.drafts_write_ne hk₂, hd₂]⟩

theorem Rows.Unique.alone (h : rows.Unique index) (free : rows.free txn k = true) {i : ι}
    (hi : (rows.visible txn k).bind index = some i) :
    rows.contended index txn k i = false ∧ rows.taken index txn k i = false := by
  have own := Rows.drafts_of_free free
  have apart {k' : κ} (hne : k' ≠ k) (held : rows.free txn k' = false) :
      (rows.committed k').bind index ≠ some i ∧
        ((rows.drafts k').bind (·.row)).bind index ≠ some i := by
    obtain ⟨d, hd⟩ : ∃ d, rows.drafts k' = some d := by
      cases hd : rows.drafts k' with
      | none => simp [Rows.free, hd] at held
      | some d => exact ⟨d, rfl⟩
    have other : d.holder ≠ txn := by simpa [Rows.free, hd] using held
    rcases own with none | draft
    · rw [Rows.visible_of_none none] at hi
      refine ⟨fun hi' => h.committed k k' i hne.symm hi hi', fun hi' => ?_⟩
      obtain ⟨row, hrow⟩ := h.replaced k' k d i hne hd (by simpa [hd] using hi') hi
      simp [none] at hrow
    · refine ⟨fun hi' => ?_, fun hi' => ?_⟩
      · obtain ⟨row, hrow⟩ := h.replaced k k' _ i hne.symm draft hi hi'
        rw [hd, Option.some.injEq] at hrow
        exact other (by rw [hrow])
      · exact h.drafts k k' _ d i hne.symm draft hd hi (by simpa [hd] using hi')
  constructor
  · refine List.any_eq_false.mpr fun k' _ hk' => ?_
    simp only [ne_eq, Bool.not_eq_true, decide_eq_true_eq] at hk'
    obtain ⟨hne, held, hi'⟩ := hk'
    exact hi'.elim (apart hne held).1 (apart hne held).2
  · have committed : (rows.commit txn).Unique index := h.commit
    refine List.any_eq_false.mpr fun k' _ hk' => ?_
    simp only [ne_eq, decide_eq_true_eq] at hk'
    exact committed.committed k k' i (Ne.symm hk'.1) hi hk'.2

theorem Rows.Unique.rewrite (h : rows.Unique index) (listed : rows.Listed)
    (free : rows.free txn k = true)
    (entry : ∀ i, row.bind index = some i → (rows.visible txn k).bind index = some i) :
    (rows.write txn k row).Unique index := by
  cases hi : row.bind index with
  | none => exact h.write listed free (by simp [Rows.clear, hi]) (by simp [Rows.violates, hi])
  | some i =>
      obtain ⟨clear, kept⟩ := h.alone free (entry i hi)
      exact h.write listed free (by simp [Rows.clear, hi, clear]) (by simp [Rows.violates, hi, kept])

end Writes

end Index

section Inserts

/-- What an insert comes to, under the primary key and one more unique index. -/
inductive Inserted (κ ρ : Type*) where
  | waits
  | violation
  | rows (rows : Rows κ ρ)

def Rows.insert {ι : Type*} [DecidableEq κ] [DecidableEq ι] (index : ρ → Option ι)
    (rows : Rows κ ρ) (txn : ℕ) (k : κ) (r : ρ) : Inserted κ ρ :=
  if ¬ rows.free txn k then .waits
  else if (rows.visible txn k).isSome then .violation
  else if ¬ rows.clear index txn k (some r) then .waits
  else if rows.violates index txn k (some r) then .violation
  else .rows (rows.write txn k (some r))

def Rows.Fresh (rows : Rows κ ρ) : Prop := ∀ k d, rows.drafts k = some d → rows.committed k = none

/-- The transaction reads the row. -/
def Rows.Sees (rows : Rows κ ρ) (txn : ℕ) (r : ρ) : Prop := ∃ k, rows.visible txn k = some r

/-- The transaction has written the row and not ended. -/
def Rows.Drafted (rows : Rows κ ρ) (txn : ℕ) (r : ρ) : Prop :=
  ∃ k, rows.drafts k = some ⟨txn, some r⟩

variable {rows : Rows κ ρ} {txn txn' : ℕ} {k : κ} {r r' : ρ}

theorem Rows.sees_of_drafted (h : rows.Drafted txn r) : rows.Sees txn r := by
  obtain ⟨k, hk⟩ := h
  exact ⟨k, Rows.visible_of_holder hk⟩

theorem Rows.sees_of_committed (fresh : rows.Fresh) (h : rows.committed k = some r) :
    rows.Sees txn r := by
  refine ⟨k, ?_⟩
  cases hd : rows.drafts k with
  | none => rw [Rows.visible_of_none hd, h]
  | some d => simp [fresh k d hd] at h

theorem Rows.Sees.cases (h : rows.Sees txn r) :
    rows.Drafted txn r ∨ ∃ k, rows.committed k = some r := by
  obtain ⟨k, hk⟩ := h
  rcases rows.visible_cases txn k with ⟨row, hd, hv⟩ | ⟨_, hv⟩
  · exact Or.inl ⟨k, by rw [hd, ← hv, hk]⟩
  · exact Or.inr ⟨k, by rw [← hv, hk]⟩

theorem Rows.Fresh.commit (fresh : rows.Fresh) : (rows.commit txn).Fresh := by
  intro k d hd
  obtain ⟨hd, other⟩ := Rows.othersDrafts_eq_some.mp hd
  have unseen : rows.visible txn k = rows.committed k := by simp [Rows.visible, hd, other]
  exact unseen.trans (fresh k d hd)

theorem Rows.Fresh.rollback (fresh : rows.Fresh) : (rows.rollback txn).Fresh :=
  fun k d hd => fresh k d (Rows.othersDrafts_eq_some.mp hd).1

theorem Rows.Drafted.of_commit (h : (rows.commit txn').Drafted txn r) :
    rows.Drafted txn r ∧ txn ≠ txn' := by
  obtain ⟨k, hk⟩ := h
  obtain ⟨hk, other⟩ := Rows.othersDrafts_eq_some.mp hk
  exact ⟨⟨k, hk⟩, other⟩

theorem Rows.Drafted.of_rollback (h : (rows.rollback txn').Drafted txn r) :
    rows.Drafted txn r ∧ txn ≠ txn' := by
  obtain ⟨k, hk⟩ := h
  obtain ⟨hk, other⟩ := Rows.othersDrafts_eq_some.mp hk
  exact ⟨⟨k, hk⟩, other⟩

theorem Rows.Sees.of_commit (fresh : rows.Fresh) (h : (rows.commit txn').Sees txn r) :
    rows.Sees txn r ∨ rows.Drafted txn' r := by
  rcases h.cases with drafted | ⟨k, hk⟩
  · exact Or.inl (Rows.sees_of_drafted drafted.of_commit.1)
  · have hk : rows.visible txn' k = some r := hk
    rcases Rows.Sees.cases ⟨k, hk⟩ with drafted | ⟨k', hk'⟩
    · exact Or.inr drafted
    · exact Or.inl (Rows.sees_of_committed fresh hk')

theorem Rows.Sees.of_rollback (fresh : rows.Fresh) (h : (rows.rollback txn').Sees txn r) :
    rows.Sees txn r := by
  rcases h.cases with drafted | ⟨k, hk⟩
  · exact Rows.sees_of_drafted drafted.of_rollback.1
  · exact Rows.sees_of_committed fresh hk

section Writes

variable [DecidableEq κ]

theorem Rows.insert_eq_rows {ι : Type*} [DecidableEq ι] {index : ρ → Option ι}
    {rows' : Rows κ ρ} (h : rows.insert index txn k r = .rows rows') :
    rows.free txn k = true ∧ rows.visible txn k = none ∧
      rows.clear index txn k (some r) = true ∧ rows.violates index txn k (some r) = false ∧
        rows' = rows.write txn k (some r) := by
  unfold Rows.insert at h
  split at h
  · simp at h
  split at h
  · simp at h
  split at h
  · simp at h
  split at h
  · simp at h
  simp_all

theorem Rows.drafted_write (free : rows.free txn k = true) (unseen : rows.visible txn k = none)
    {u : ℕ} : (rows.write txn k (some r)).Drafted u r' ↔
      rows.Drafted u r' ∨ u = txn ∧ r' = r := by
  constructor
  · rintro ⟨k', hk'⟩
    by_cases hkk : k' = k
    · subst hkk
      rw [Rows.drafts_write_self] at hk'
      simp only [Option.some.injEq, Draft.mk.injEq] at hk'
      exact Or.inr ⟨hk'.1.symm, hk'.2.symm⟩
    · exact Or.inl ⟨k', by rwa [Rows.drafts_write_ne hkk] at hk'⟩
  · rintro (⟨k', hk'⟩ | ⟨rfl, rfl⟩)
    · have hkk : k' ≠ k := by
        rintro rfl
        have own : u = txn := Rows.holder_of_free hk' free
        subst own
        simp [Rows.visible_of_holder hk'] at unseen
      exact ⟨k', by rw [Rows.drafts_write_ne hkk, hk']⟩
    · exact ⟨k, Rows.drafts_write_self⟩

theorem Rows.Sees.of_write (fresh : rows.Fresh) (free : rows.free txn k = true)
    (unseen : rows.visible txn k = none) {u : ℕ}
    (h : (rows.write txn k (some r)).Sees u r') : rows.Sees u r' ∨ u = txn ∧ r' = r := by
  rcases h.cases with drafted | ⟨k', hk'⟩
  · exact ((Rows.drafted_write free unseen).mp drafted).imp_left Rows.sees_of_drafted
  · exact Or.inl (Rows.sees_of_committed fresh hk')

theorem Rows.Fresh.write (fresh : rows.Fresh) (free : rows.free txn k = true)
    (unseen : rows.visible txn k = none) : (rows.write txn k (some r)).Fresh := by
  intro k' d hd
  by_cases hkk : k' = k
  · subst hkk
    rcases Rows.drafts_of_free free with hnone | hsome
    · exact (Rows.visible_of_none hnone).symm.trans unseen
    · exact fresh k' _ hsome
  · exact fresh k' d (by rwa [Rows.drafts_write_ne hkk] at hd)

end Writes

end Inserts

section Statements

/-- What a conditional update of one row comes to. -/
inductive Updated (κ ρ : Type*) where
  | waits
  /-- No row satisfies the condition. -/
  | unmatched
  | rows (row : ρ) (rows : Rows κ ρ)

variable [DecidableEq κ]

/-- `UPDATE … WHERE key = k AND p`, in a transaction. -/
def Rows.update (rows : Rows κ ρ) (txn : ℕ) (k : κ) (p : ρ → Bool) (f : ρ → ρ) : Updated κ ρ :=
  match (rows.visible txn k).filter p with
  | none => .unmatched
  | some row =>
      if rows.free txn k then .rows (f row) (rows.write txn k (some (f row))) else .waits

/-- A write that commits by itself. -/
def Rows.put (rows : Rows κ ρ) (k : κ) (row : ρ) : Rows κ ρ where
  keys := if k ∈ rows.keys then rows.keys else rows.keys ++ [k]
  committed := Function.update rows.committed k (some row)
  drafts := rows.drafts

variable {rows rows' : Rows κ ρ} {txn : ℕ} {k k' : κ} {row : ρ}

theorem Rows.update_eq_rows {p : ρ → Bool} {f : ρ → ρ}
    (h : rows.update txn k p f = .rows row rows') :
    ∃ old, rows.visible txn k = some old ∧ p old = true ∧ rows.free txn k = true ∧
      row = f old ∧ rows' = rows.write txn k (some (f old)) := by
  unfold Rows.update at h
  split at h
  · simp at h
  · rename_i old found
    obtain ⟨seen, hp⟩ := Option.filter_eq_some_iff.mp found
    split at h
    · rename_i free
      simp only [Updated.rows.injEq] at h
      exact ⟨old, seen, hp, free, h.1.symm, h.2.symm⟩
    · simp at h

theorem Rows.Listed.put (h : rows.Listed) : (rows.put k row).Listed := by
  have old {k' : κ} (hk' : k' ∈ rows.keys) : k' ∈ (rows.put k row).keys := by
    simp only [Rows.put]
    split
    · exact hk'
    · exact List.mem_append_left _ hk'
  refine ⟨?_, fun k' hk' => ?_, fun k' hk' => old (h.drafts k' hk')⟩
  · simp only [Rows.put]
    split
    · exact h.nodup
    · next fresh => exact h.nodup.append (List.nodup_singleton k) (by simpa using fresh)
  · by_cases hkk : k' = k
    · subst hkk
      simp only [Rows.put]
      split
      · assumption
      · simp
    · exact old (h.committed k' (by simpa [Rows.put, hkk] using hk'))

theorem Rows.All.put {P : κ → ρ → Prop} (h : rows.All P) (new : P k row) :
    (rows.put k row).All P where
  committed k' r hr := by
    by_cases hkk : k' = k
    · subst hkk
      obtain rfl : row = r := by simpa [Rows.put] using hr
      exact new
    · exact h.committed k' r (by simpa [Rows.put, hkk] using hr)
  drafts := h.drafts

theorem Rows.Follow.put {R : Option ρ → Option ρ → Prop} (h : rows.Follow R)
    (free : rows.drafts k = none) : (rows.put k row).Follow R := by
  intro k' d hd
  have hkk : k' ≠ k := by
    rintro rfl
    simp [Rows.put, free] at hd
  have same : (rows.put k row).committed k' = rows.committed k' := by simp [Rows.put, hkk]
  rw [same]
  exact h k' d hd

end Statements

variable [DecidableEq κ]

def Change.apply (rows : Rows κ ρ) : Change κ ρ → Rows κ ρ
  | .write txn k row => rows.write txn k row
  | .commit txn => rows.commit txn
  | .rollback txn => rows.rollback txn

/-- A write waits for its row, and makes of it what it can become. -/
def Change.Proper (P : κ → ρ → Prop) (R : Option ρ → Option ρ → Prop) (rows : Rows κ ρ) :
    Change κ ρ → Prop
  | .write txn k row => rows.free txn k = true ∧ (∀ r, row = some r → P k r) ∧
      R (rows.visible txn k) row
  | .commit _ | .rollback _ => True

section Preserved

variable {rows : Rows κ ρ} {P : κ → ρ → Prop} {R : Option ρ → Option ρ → Prop}

theorem Rows.All.apply (h : rows.All P) (change : Change κ ρ) (proper : change.Proper P R rows) :
    (change.apply rows).All P := by
  cases change with
  | write txn k row =>
      refine ⟨h.committed, fun k' d r hd hr => ?_⟩
      by_cases hk : k' = k
      · subst hk
        obtain rfl := Option.some.inj (Rows.drafts_write_self.symm.trans hd)
        exact proper.2.1 r hr
      · exact h.drafts k' d r ((Rows.drafts_write_ne hk).symm.trans hd) hr
  | commit txn =>
      refine ⟨fun k r hr => h.visible hr, fun k d r hd hr => ?_⟩
      exact h.drafts k d r (Rows.othersDrafts_eq_some.mp hd).1 hr
  | rollback txn =>
      refine ⟨h.committed, fun k d r hd hr => ?_⟩
      exact h.drafts k d r (Rows.othersDrafts_eq_some.mp hd).1 hr

theorem Rows.Follow.apply (refl : ∀ a, R a a) (trans : ∀ a b c, R a b → R b c → R a c)
    (h : rows.Follow R) (change : Change κ ρ) (proper : change.Proper P R rows) :
    (change.apply rows).Follow R := by
  cases change with
  | write txn k row =>
      intro k' d hd
      by_cases hk : k' = k
      · subst hk
        obtain rfl := Option.some.inj (Rows.drafts_write_self.symm.trans hd)
        have seen : R (rows.committed k') (rows.visible txn k') := h.visible refl
        exact trans _ _ _ seen proper.2.2
      · exact h k' d ((Rows.drafts_write_ne hk).symm.trans hd)
  | commit txn =>
      intro k d hd
      obtain ⟨hd, other⟩ := Rows.othersDrafts_eq_some.mp hd
      have unseen : rows.visible txn k = rows.committed k := by simp [Rows.visible, hd, other]
      have hcommitted : (rows.commit txn).committed k = rows.committed k := unseen
      simp only [Change.apply, hcommitted]
      exact h k d hd
  | rollback txn =>
      intro k d hd
      exact h k d (Rows.othersDrafts_eq_some.mp hd).1

theorem Rows.Follow.committed (refl : ∀ a, R a a) (h : rows.Follow R) (change : Change κ ρ)
    (k : κ) : R (rows.committed k) ((change.apply rows).committed k) := by
  cases change with
  | write txn k' row => exact refl _
  | commit txn =>
      have seen : R (rows.committed k) (rows.visible txn k) := h.visible refl
      exact seen
  | rollback txn => exact refl _

end Preserved

end RowLocks
