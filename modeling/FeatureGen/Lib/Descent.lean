import Mathlib

/-! # Recursive descent

Readers of a list of tokens: what a reader answers, one reader after another, and
the loop that reads `(op operand)*` and folds what it reads to the left.
-/

namespace Descent

variable {ε τ α β : Type}

/-- What a reader answers: an error, or a value and the tokens it left. None where
    the fuel ran out. -/
abbrev Reading (ε τ α : Type) := Option (Except ε (α × List τ))

/-- Read on from what a reader left. -/
def andThen (reading : Reading ε τ α) (next : α → List τ → Reading ε τ β) : Reading ε τ β :=
  match reading with
  | none => none
  | some (.error e) => some (.error e)
  | some (.ok read) => next read.1 read.2

@[simp] theorem andThen_ok {next : α → List τ → Reading ε τ β} {a : α} {rest : List τ} :
    andThen (some (.ok (a, rest))) next = next a rest := rfl

theorem andThen_eq_ok {reading : Reading ε τ α} {next : α → List τ → Reading ε τ β} {b : β}
    {left : List τ} :
    andThen reading next = some (.ok (b, left)) ↔
      ∃ a rest, reading = some (.ok (a, rest)) ∧ next a rest = some (.ok (b, left)) := by
  cases reading with
  | none => simp [andThen]
  | some result =>
      cases result with
      | error e => simp [andThen]
      | ok read => simp [andThen, Prod.ext_iff]

theorem andThen_isSome {reading : Reading ε τ α} {next : α → List τ → Reading ε τ β}
    (h : reading.isSome)
    (hnext : ∀ a rest, reading = some (.ok (a, rest)) → (next a rest).isSome) :
    (andThen reading next).isSome := by
  cases reading with
  | none => simp at h
  | some result =>
      cases result with
      | error e => simp [andThen]
      | ok read => exact hnext read.1 read.2 rfl

variable [DecidableEq τ] {op : τ} {build : α → α → α} {operand : List τ → Reading ε τ α}

/-- While the next token is `op`: pass it, read an operand, and build on the left. -/
def loop (op : τ) (build : α → α → α) (operand : List τ → Reading ε τ α) :
    ℕ → α → List τ → Reading ε τ α
  | 0, _, _ => none
  | fuel + 1, left, tokens =>
      if tokens.head? = some op then
        andThen (operand tokens.tail) fun right rest =>
          loop op build operand fuel (build left right) rest
      else some (.ok (left, tokens))

theorem loop_stop {fuel : ℕ} {left : α} {tokens : List τ} (h : tokens.head? ≠ some op) :
    loop op build operand (fuel + 1) left tokens = some (.ok (left, tokens)) := by
  simp [loop, h]

theorem loop_more {fuel : ℕ} {left right : α} {tokens rest : List τ}
    (h : operand tokens = some (.ok (right, rest))) :
    loop op build operand (fuel + 1) left (op :: tokens)
      = loop op build operand fuel (build left right) rest := by
  simp [loop, h]

theorem loop_invariant {I : α → List τ → Prop}
    (round : ∀ left tokens right rest, I left (op :: tokens) →
      operand tokens = some (.ok (right, rest)) → I (build left right) rest)
    {fuel : ℕ} {left final : α} {tokens rest : List τ} (h : I left tokens)
    (run : loop op build operand fuel left tokens = some (.ok (final, rest))) : I final rest := by
  induction fuel generalizing left tokens with
  | zero => simp [loop] at run
  | succ fuel ih =>
      rw [loop] at run
      split at run
      · rename_i atOp
        obtain ⟨right, left', read, run'⟩ := andThen_eq_ok.mp run
        have split : tokens = op :: tokens.tail := by
          cases tokens with
          | nil => simp at atOp
          | cons token tail =>
              simp only [List.head?_cons, Option.some.injEq] at atOp
              rw [atOp, List.tail_cons]
        rw [split] at h
        exact ih (round _ _ _ _ h read) run'
      · simp only [Option.some.injEq, Except.ok.injEq, Prod.mk.injEq] at run
        rw [← run.1, ← run.2]
        exact h

theorem loop_isSome {fuel : ℕ} {left : α} {tokens : List τ} (enough : tokens.length < fuel)
    (total : ∀ rest, rest <:+ tokens → rest.length < tokens.length → (operand rest).isSome)
    (onward : ∀ ts a rest, ts <:+ tokens → operand ts = some (.ok (a, rest)) → rest <:+ ts) :
    (loop op build operand fuel left tokens).isSome := by
  induction fuel generalizing left tokens with
  | zero => omega
  | succ fuel ih =>
      rw [loop]
      split
      · rename_i atOp
        have shorter : tokens.tail.length < tokens.length := by
          cases tokens with
          | nil => simp at atOp
          | cons token tail => simp
        have tail := List.tail_suffix tokens
        apply andThen_isSome (total _ tail shorter)
        intro right rest read
        have onRest := onward _ _ _ tail read
        have le := onRest.length_le
        apply ih (by omega)
        · intro ts hts hlt
          exact total ts (hts.trans (onRest.trans tail)) (by omega)
        · intro ts a left hts
          exact onward ts a left (hts.trans (onRest.trans tail))
      · rfl

end Descent
