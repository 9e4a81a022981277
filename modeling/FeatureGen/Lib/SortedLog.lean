import Mathlib

/-! # Logs read by position

A log in strictly increasing order of its entries' positions, and a reader that
keeps the position of the last entry it has consumed. Reading on from there
splits the log exactly, and stays right while entries are only added behind.

A log whose events each belong to a stream and carry a version in it, as an
optimistic event store keeps it. In a contiguous log the versions of a stream
count its events, so a writer that finds the version after the one it read still
free knows that nothing was written to the stream since.
-/

namespace SortedLog

section Reading

variable {α κ : Type*} {key : α → κ}

/-- Where reading `rows` from `c` ends. -/
def position (key : α → κ) (c : κ) (rows : List α) : κ := rows.foldl (fun _ a => key a) c

@[simp] theorem position_nil {c : κ} : position key c [] = c := rfl

@[simp] theorem position_cons {c : κ} {a : α} {rows : List α} :
    position key c (a :: rows) = position key (key a) rows := rfl

theorem position_eq (key : α → κ) (c : κ) (rows : List α) :
    position key c rows = c ∨ ∃ a ∈ rows, position key c rows = key a := by
  induction rows generalizing c with
  | nil => exact Or.inl rfl
  | cons a rows ih =>
      right
      rcases ih (key a) with first | ⟨b, hb, later⟩
      · exact ⟨a, List.mem_cons_self, first⟩
      · exact ⟨b, List.mem_cons_of_mem _ hb, later⟩

end Reading

variable {α κ : Type*} [LinearOrder κ] {key : α → κ}

/-- Entries in strictly increasing position. -/
def Ordered (key : α → κ) (log : List α) : Prop := log.Pairwise fun a b => key a < key b

/-- What a reader at `c` has consumed. -/
def upTo (key : α → κ) (log : List α) (c : κ) : List α := log.filter fun a => key a ≤ c

/-- What a reader at `c` has still to read. -/
def after (key : α → κ) (log : List α) (c : κ) : List α := log.filter fun a => c < key a

theorem mem_upTo {log : List α} {c : κ} {a : α} : a ∈ upTo key log c ↔ a ∈ log ∧ key a ≤ c := by
  simp [upTo]

theorem mem_after {log : List α} {c : κ} {a : α} : a ∈ after key log c ↔ a ∈ log ∧ c < key a := by
  simp [after]

theorem Ordered.after {log : List α} (h : Ordered key log) (c : κ) :
    Ordered key (after key log c) := List.Pairwise.filter _ h

theorem Ordered.append {log new : List α} (h : Ordered key log) (hnew : Ordered key new)
    (later : ∀ a ∈ log, ∀ b ∈ new, key a < key b) : Ordered key (log ++ new) :=
  List.pairwise_append.mpr ⟨h, hnew, later⟩

theorem Ordered.insertionSort_eq {log : List α} (h : Ordered key log) :
    log.insertionSort (fun a b => key a ≤ key b) = log :=
  List.Pairwise.insertionSort_eq (List.Pairwise.imp le_of_lt h)

theorem upTo_append {log new : List α} {c : κ} (h : ∀ a ∈ new, c < key a) :
    upTo key (log ++ new) c = upTo key log c := by
  have none : upTo key new c = [] := by
    rw [upTo, List.filter_eq_nil_iff]
    intro a ha
    simpa using h a ha
  rw [upTo, List.filter_append]
  exact (congrArg _ none).trans (List.append_nil _)

theorem after_append {log new : List α} {c : κ} (h : ∀ a ∈ new, c < key a) :
    after key (log ++ new) c = after key log c ++ new := by
  have all : after key new c = new := by
    rw [after, List.filter_eq_self]
    intro a ha
    simpa using h a ha
  rw [after, List.filter_append]
  exact congrArg _ all

theorem upTo_append_after {log : List α} (h : Ordered key log) (c : κ) :
    upTo key log c ++ after key log c = log := by
  induction log with
  | nil => rfl
  | cons a log ih =>
      obtain ⟨hlt, hlog⟩ := List.pairwise_cons.mp h
      have hsplit := ih hlog
      by_cases ha : key a ≤ c
      · have hnot : ¬ c < key a := not_lt.mpr ha
        simpa [upTo, after, ha, hnot] using hsplit
      · have hgt : c < key a := not_le.mp ha
        have none : upTo key log c = [] := by
          rw [upTo, List.filter_eq_nil_iff]
          intro b hb
          simpa using hgt.trans (hlt b hb)
        rw [none, List.nil_append] at hsplit
        have htail : upTo key (a :: log) c = [] := by
          rw [upTo, List.filter_cons_of_neg (by simpa using hgt)]
          exact none
        rw [htail, after, List.filter_cons_of_pos (by simpa using hgt)]
        exact congrArg (a :: ·) hsplit

theorem le_position {rows : List α} {c : κ} (h : Ordered key rows) (hc : ∀ a ∈ rows, c < key a) :
    c ≤ position key c rows ∧ ∀ a ∈ rows, key a ≤ position key c rows := by
  induction rows generalizing c with
  | nil => simp
  | cons a rows ih =>
      obtain ⟨hlt, hrows⟩ := List.pairwise_cons.mp h
      obtain ⟨hend, hall⟩ := ih hrows hlt
      rw [position_cons]
      refine ⟨(hc a List.mem_cons_self).le.trans hend, fun b hb => ?_⟩
      rcases List.mem_cons.mp hb with rfl | hb
      · exact hend
      · exact hall b hb

theorem upTo_position {log rows : List α} {c : κ} (h : Ordered key log)
    (hrows : rows <+: after key log c) :
    upTo key log (position key c rows) = upTo key log c ++ rows := by
  obtain ⟨rest, hrest⟩ := hrows
  have hafter : Ordered key (rows ++ rest) := hrest ▸ h.after c
  obtain ⟨hordered, -, hlater⟩ := List.pairwise_append.mp hafter
  have hbeyond : ∀ a ∈ rows ++ rest, c < key a := fun a ha =>
    (mem_after.mp (hrest ▸ ha)).2
  obtain ⟨hc, hle⟩ := le_position hordered fun a ha => hbeyond a (List.mem_append_left _ ha)
  have hrestBeyond : ∀ b ∈ rest, position key c rows < key b := by
    intro b hb
    rcases position_eq key c rows with hstart | ⟨a, ha, hlast⟩
    · rw [hstart]
      exact hbeyond b (List.mem_append_right _ hb)
    · rw [hlast]
      exact hlater a ha b hb
  have hsplit : log = (upTo key log c ++ rows) ++ rest := by
    rw [List.append_assoc, hrest, upTo_append_after h]
  conv_lhs => rw [hsplit]
  rw [upTo_append hrestBeyond, upTo, List.filter_eq_self]
  intro a ha
  rcases List.mem_append.mp ha with ha | ha
  · simpa using (mem_upTo.mp ha).2.trans hc
  · simpa using hle a ha

theorem after_position {log rows rest : List α} {c : κ} (h : Ordered key log)
    (hrows : rows ++ rest = after key log c) : after key log (position key c rows) = rest := by
  have hread := upTo_position h ⟨rest, hrows⟩
  have hsplit : upTo key log c ++ rows ++ after key log (position key c rows) =
      upTo key log c ++ rows ++ rest := by
    rw [← hread, upTo_append_after h, hread, List.append_assoc, hrows, upTo_append_after h]
  exact List.append_cancel_left hsplit

end SortedLog

namespace Streams

section Streams

variable {ε κ : Type*} [DecidableEq κ] {stream : ε → κ} {version : ε → ℕ}

def ofKey (stream : ε → κ) (log : List ε) (k : κ) : List ε :=
  log.filter fun e => stream e = k

@[simp] theorem ofKey_nil {k : κ} : ofKey stream [] k = [] := rfl

@[simp] theorem ofKey_append {log log' : List ε} {k : κ} :
    ofKey stream (log ++ log') k = ofKey stream log k ++ ofKey stream log' k :=
  List.filter_append ..

theorem ofKey_single {e : ε} {k : κ} :
    ofKey stream [e] k = if stream e = k then [e] else [] := by
  by_cases h : stream e = k <;> simp [ofKey, h]

theorem mem_ofKey {log : List ε} {k : κ} {e : ε} :
    e ∈ ofKey stream log k ↔ e ∈ log ∧ stream e = k := by
  simp [ofKey]

def head (stream : ε → κ) (version : ε → ℕ) (log : List ε) (k : κ) : ℕ :=
  ((ofKey stream log k).map version).foldr max 0

/-- The versions of every stream are 1, 2, … in log order. -/
def Contiguous (stream : ε → κ) (version : ε → ℕ) (log : List ε) : Prop :=
  ∀ k, (ofKey stream log k).map version = List.range' 1 (ofKey stream log k).length

theorem foldr_max (l : List ℕ) (m : ℕ) : l.foldr max m = max (l.foldr max 0) m := by
  induction l with
  | nil => simp
  | cons a l ih => rw [List.foldr_cons, List.foldr_cons, ih, max_assoc]

namespace Contiguous

theorem nil : Contiguous stream version [] := fun _ => rfl

theorem append_single {log : List ε} {e : ε} (h : Contiguous stream version log)
    (next : version e = (ofKey stream log (stream e)).length + 1) :
    Contiguous stream version (log ++ [e]) := by
  intro k
  rw [ofKey_append, ofKey_single]
  by_cases hk : stream e = k
  · subst hk
    simp only [if_pos, List.map_append, List.map_cons, List.map_nil, List.length_append,
      List.length_singleton, List.range'_concat, h (stream e), next]
    congr 2
    omega
  · simpa [hk] using h k

theorem of_append {log log' : List ε} (h : Contiguous stream version (log ++ log')) :
    Contiguous stream version log := by
  intro k
  have hk := h k
  rw [ofKey_append, List.map_append, List.length_append, ← List.range'_append] at hk
  exact (List.append_inj hk (by simp)).1

theorem mem_versions {log : List ε} (h : Contiguous stream version log) {k : κ} {v : ℕ} :
    (∃ e ∈ log, stream e = k ∧ version e = v) ↔ 1 ≤ v ∧ v ≤ (ofKey stream log k).length := by
  have hmem : v ∈ (ofKey stream log k).map version ↔
      1 ≤ v ∧ v ≤ (ofKey stream log k).length := by
    rw [h k, List.mem_range'_1]
    omega
  rw [← hmem, List.mem_map]
  simp only [mem_ofKey, and_assoc]

theorem head_eq {log : List ε} (h : Contiguous stream version log) (k : κ) :
    head stream version log k = (ofKey stream log k).length := by
  rw [head, h k]
  generalize (ofKey stream log k).length = n
  induction n with
  | zero => rfl
  | succ n ih =>
      rw [List.range'_concat, List.foldr_append, foldr_max, ih]
      simp only [List.foldr_cons, List.foldr_nil]
      omega

theorem eq_length_of_free {log : List ε} (h : Contiguous stream version log) {k : κ} {v : ℕ}
    (seen : v ≤ (ofKey stream log k).length)
    (free : ∀ e ∈ log, stream e = k → version e ≠ v + 1) : v = (ofKey stream log k).length := by
  by_contra hne
  have taken : 1 ≤ v + 1 ∧ v + 1 ≤ (ofKey stream log k).length := by omega
  obtain ⟨e, he, hk, hv⟩ := h.mem_versions.mpr taken
  exact free e he hk hv

theorem sorted {log : List ε} (h : Contiguous stream version log) (k : κ) :
    (ofKey stream log k).insertionSort (fun e e' => version e ≤ version e') =
      ofKey stream log k := by
  apply List.Pairwise.insertionSort_eq
  have increasing : ((ofKey stream log k).map version).Pairwise (· ≤ ·) := by
    rw [h k]
    exact List.Pairwise.imp le_of_lt List.pairwise_lt_range'
  exact List.pairwise_map.mp increasing

end Contiguous

end Streams

end Streams
