import Mathlib

/-! # Runs of executable transition systems

A system is a partial step function: `step s a` is `none` when action `a` is not
enabled in state `s`. Everything an environment chooses (which row a claim
picks, what a handler returns, where a crash falls) is part of the action, so a
list of actions is one interleaving and running it is a computation.

Properties of whole runs are stated over `exec` and over `history`, the list of
moves a run took; the induction rules below are the only inductions over runs.
-/

namespace Transition

variable {σ α : Type*}

/-- One executed step with the states around it. -/
structure Move (σ α : Type*) where
  before : σ
  action : α
  after : σ

/-- Run a list of actions from a state. -/
def exec (step : σ → α → Option σ) : σ → List α → Option σ
  | s, [] => some s
  | s, a :: as => (step s a).bind fun s' => exec step s' as

/-- The moves a run takes, oldest first; it ends at the first disabled action. -/
def history (step : σ → α → Option σ) : σ → List α → List (Move σ α)
  | _, [] => []
  | s, a :: as =>
      match step s a with
      | none => []
      | some s' => ⟨s, a, s'⟩ :: history step s' as

/-- Some run from an initial state ends here. -/
def Reachable (step : σ → α → Option σ) (init : σ → Prop) (s : σ) : Prop :=
  ∃ s₀ as, init s₀ ∧ exec step s₀ as = some s

/-- Every action of the run is taken in a state that meets `guard`. -/
def Along (step : σ → α → Option σ) (guard : σ → α → Prop) (s : σ) (as : List α) : Prop :=
  ∀ m ∈ history step s as, guard m.before m.action

/-- Every action of the run is taken in a state, and after moves, that meet `guard`. -/
def AlongPast (step : σ → α → Option σ) (guard : List (Move σ α) → σ → α → Prop) (s : σ)
    (as : List α) : Prop :=
  ∀ past m rest, history step s as = past ++ m :: rest → guard past m.before m.action

section Runs

variable {step : σ → α → Option σ}

@[simp] theorem exec_nil {s : σ} : exec step s [] = some s := rfl

theorem exec_cons {s : σ} {a : α} {as : List α} :
    exec step s (a :: as) = (step s a).bind fun s' => exec step s' as := rfl

@[simp] theorem history_nil {s : σ} : history step s [] = [] := rfl

theorem history_cons {s s' : σ} {a : α} {as : List α} (h : step s a = some s') :
    history step s (a :: as) = ⟨s, a, s'⟩ :: history step s' as := by
  simp only [history, h]

theorem exec_cons_eq_some {s t : σ} {a : α} {as : List α} :
    exec step s (a :: as) = some t ↔ ∃ s', step s a = some s' ∧ exec step s' as = some t := by
  simp only [exec_cons, Option.bind_eq_some_iff]

theorem exec_append {s : σ} {as bs : List α} :
    exec step s (as ++ bs) = (exec step s as).bind fun s' => exec step s' bs := by
  induction as generalizing s with
  | nil => simp
  | cons a as ih =>
      simp only [List.cons_append, exec_cons, Option.bind_assoc]
      congr 1
      funext s'
      exact ih

theorem exec_append_eq_some {s t : σ} {as bs : List α} :
    exec step s (as ++ bs) = some t ↔
      ∃ s', exec step s as = some s' ∧ exec step s' bs = some t := by
  simp only [exec_append, Option.bind_eq_some_iff]

theorem exec_single {s : σ} {a : α} : exec step s [a] = step s a := by
  cases h : step s a <;> simp [exec_cons, h]

theorem history_append {s t : σ} {as bs : List α} (h : exec step s as = some t) :
    history step s (as ++ bs) = history step s as ++ history step t bs := by
  induction as generalizing s with
  | nil => simpa using congrArg (history step · bs) (Option.some.inj h)
  | cons a as ih =>
      obtain ⟨s', hs, hrun⟩ := exec_cons_eq_some.mp h
      simp only [List.cons_append, history_cons hs, ih hrun]

theorem step_of_mem_history {s : σ} {as : List α} {m : Move σ α} (h : m ∈ history step s as) :
    step m.before m.action = some m.after := by
  induction as generalizing s with
  | nil => simp at h
  | cons a as ih =>
      cases hs : step s a with
      | none => simp [history, hs] at h
      | some s' =>
          rw [history_cons hs, List.mem_cons] at h
          cases h with
          | inl first => subst first; exact hs
          | inr later => exact ih later

theorem exists_split_of_history_eq {s : σ} {as : List α} {past rest : List (Move σ α)}
    {m : Move σ α} (h : history step s as = past ++ m :: rest) :
    ∃ pre post, as = pre ++ m.action :: post ∧ exec step s pre = some m.before ∧
      history step s pre = past ∧ history step m.after post = rest := by
  induction as generalizing s past with
  | nil => simp at h
  | cons a as ih =>
      cases hs : step s a with
      | none => simp [history, hs] at h
      | some s' =>
          rw [history_cons hs] at h
          cases past with
          | nil =>
              obtain ⟨rfl, hrest⟩ := List.cons.inj h
              exact ⟨[], as, rfl, rfl, rfl, hrest⟩
          | cons first past =>
              obtain ⟨rfl, htail⟩ := List.cons.inj h
              obtain ⟨pre, post, rfl, hpre, hpast, hrest⟩ := ih htail
              exact ⟨a :: pre, post, rfl, by simp [exec_cons, hs, hpre],
                by rw [history_cons hs, hpast], hrest⟩

theorem exists_split_of_mem_history {s : σ} {as : List α} {m : Move σ α}
    (h : m ∈ history step s as) :
    ∃ pre post, as = pre ++ m.action :: post ∧ exec step s pre = some m.before := by
  obtain ⟨past, rest, hsplit⟩ := List.append_of_mem h
  obtain ⟨pre, post, has, hpre, -, -⟩ := exists_split_of_history_eq hsplit
  exact ⟨pre, post, has, hpre⟩

theorem exists_run_of_mem_history {s t : σ} {as : List α} {m : Move σ α}
    (h : m ∈ history step s as) (run : exec step s as = some t) :
    ∃ post, exec step m.after post = some t := by
  obtain ⟨pre, post, rfl, hpre⟩ := exists_split_of_mem_history h
  obtain ⟨before, hbefore, hpost⟩ := exec_append_eq_some.mp run
  rw [hpre] at hbefore
  cases hbefore
  obtain ⟨after, hstep, hrest⟩ := exec_cons_eq_some.mp hpost
  rw [step_of_mem_history h] at hstep
  cases hstep
  exact ⟨post, hrest⟩

theorem mem_history_of_step {s t t' : σ} {as bs : List α} {a : α}
    (run : exec step s as = some t) (hstep : step t a = some t') :
    ⟨t, a, t'⟩ ∈ history step s (as ++ a :: bs) := by
  rw [history_append run, history_cons hstep]
  exact List.mem_append_right _ List.mem_cons_self

theorem action_mem_of_mem_history {s : σ} {as : List α} {m : Move σ α}
    (h : m ∈ history step s as) : m.action ∈ as := by
  obtain ⟨pre, post, rfl, _⟩ := exists_split_of_mem_history h
  exact List.mem_append_right pre List.mem_cons_self

theorem along_of_forall {guard : σ → α → Prop} {s : σ} {as : List α}
    (h : ∀ a ∈ as, ∀ s, guard s a) : Along step guard s as :=
  fun m hm => h m.action (action_mem_of_mem_history hm) m.before

theorem exec_history_induction {P : List (Move σ α) → σ → Prop} {s₀ s : σ} {as : List α}
    (start : P [] s₀)
    (next : ∀ past s a s', P past s → step s a = some s' → P (past ++ [⟨s, a, s'⟩]) s')
    (run : exec step s₀ as = some s) : P (history step s₀ as) s := by
  suffices h : ∀ past, P past s₀ → P (past ++ history step s₀ as) s by
    simpa using h [] start
  clear start
  induction as generalizing s₀ with
  | nil =>
      intro past hp
      cases run
      simpa using hp
  | cons a as ih =>
      intro past hp
      obtain ⟨s', hs, hrun⟩ := exec_cons_eq_some.mp run
      rw [history_cons hs, List.append_cons]
      exact ih hrun (past ++ [⟨s₀, a, s'⟩]) (next _ _ _ _ hp hs)

theorem exec_history_induction_along {guard : σ → α → Prop} {P : List (Move σ α) → σ → Prop}
    {s₀ s : σ} {as : List α} (start : P [] s₀)
    (next : ∀ past s a s', P past s → guard s a → step s a = some s' →
      P (past ++ [⟨s, a, s'⟩]) s')
    (guarded : Along step guard s₀ as) (run : exec step s₀ as = some s) :
    P (history step s₀ as) s := by
  have h : Along step guard s₀ as → P (history step s₀ as) s := exec_history_induction
    (P := fun past s => (∀ m ∈ past, guard m.before m.action) → P past s)
    (fun _ => start)
    (fun past s a s' hp hs hg => by
      simp only [List.mem_append, List.mem_singleton] at hg
      exact next past s a s' (hp fun m hm => hg m (Or.inl hm)) (hg ⟨s, a, s'⟩ (Or.inr rfl)) hs)
    run
  exact h guarded

theorem exec_history_induction_alongPast {guard : List (Move σ α) → σ → α → Prop}
    {P : List (Move σ α) → σ → Prop} {s₀ s : σ} {as : List α} (start : P [] s₀)
    (next : ∀ past s a s', P past s → guard past s a → step s a = some s' →
      P (past ++ [⟨s, a, s'⟩]) s')
    (guarded : AlongPast step guard s₀ as) (run : exec step s₀ as = some s) :
    P (history step s₀ as) s := by
  have h : AlongPast step guard s₀ as → P (history step s₀ as) s := exec_history_induction
    (P := fun past s =>
      (∀ pre (m : Move σ α) rest, past = pre ++ m :: rest →
        guard pre m.before m.action) → P past s)
    (fun _ => start)
    (fun past s a s' hp hs hg => by
      apply next past s a s' _ (hg past ⟨s, a, s'⟩ [] rfl) hs
      apply hp
      intro pre m rest hpast
      exact hg pre m (rest ++ [⟨s, a, s'⟩]) (by simp [hpast]))
    run
  exact h guarded

theorem exec_induction {P : σ → Prop} {s₀ s : σ} {as : List α} (start : P s₀)
    (next : ∀ s a s', P s → step s a = some s' → P s') (run : exec step s₀ as = some s) : P s :=
  exec_history_induction (P := fun _ s => P s) start (fun _ s a s' => next s a s') run

theorem exec_induction_along {guard : σ → α → Prop} {P : σ → Prop} {s₀ s : σ} {as : List α}
    (start : P s₀) (next : ∀ s a s', P s → guard s a → step s a = some s' → P s')
    (guarded : Along step guard s₀ as) (run : exec step s₀ as = some s) : P s :=
  exec_history_induction_along (P := fun _ s => P s) start (fun _ s a s' => next s a s')
    guarded run

theorem Reachable.induction {init P : σ → Prop} {s : σ} (reach : Reachable step init s)
    (start : ∀ s, init s → P s) (next : ∀ s a s', P s → step s a = some s' → P s') : P s := by
  obtain ⟨s₀, as, hinit, run⟩ := reach
  exact exec_induction (start s₀ hinit) next run

theorem reachable_of_mem_history {init : σ → Prop} {s₀ : σ} {as : List α} {m : Move σ α}
    (hinit : init s₀) (h : m ∈ history step s₀ as) : Reachable step init m.before := by
  obtain ⟨pre, _, _, hpre⟩ := exists_split_of_mem_history h
  exact ⟨s₀, pre, hinit, hpre⟩

/-- What no step undoes is brought about at most once. -/
theorem countP_history_le_one {P : σ → Prop} {brings : Move σ α → Bool}
    (before : ∀ m, brings m = true → step m.before m.action = some m.after → ¬ P m.before)
    (after : ∀ m, brings m = true → step m.before m.action = some m.after → P m.after)
    (kept : ∀ s a s', P s → step s a = some s' → P s') {s : σ} {as : List α} :
    (history step s as).countP brings ≤ 1 := by
  have never {s : σ} (as : List α) (hs : P s) : (history step s as).countP brings = 0 := by
    refine List.countP_eq_zero.mpr fun m hm hb =>
      before m hb (step_of_mem_history hm) ?_
    obtain ⟨pre, _, _, hpre⟩ := exists_split_of_mem_history hm
    exact exec_induction hs kept hpre
  induction as generalizing s with
  | nil => exact Nat.zero_le 1
  | cons a as ih =>
      cases hstep : step s a with
      | none => simp [history, hstep]
      | some s' =>
          rw [history_cons hstep, List.countP_cons]
          cases hb : brings ⟨s, a, s'⟩ with
          | true => simp [never as (after _ hb hstep)]
          | false => simpa using ih

end Runs

theorem foldlM_except_induction {ε β γ : Type*} {f : β → γ → Except ε β} {P : β → Prop}
    {l : List γ} (next : ∀ x ∈ l, ∀ b b', P b → f b x = .ok b' → P b') {b b' : β} (start : P b)
    (h : l.foldlM f b = .ok b') : P b' := by
  induction l generalizing b with
  | nil =>
      cases h
      exact start
  | cons x l ih =>
      rw [List.foldlM_cons] at h
      cases hx : f b x with
      | error e => simp [hx, bind, Except.bind] at h
      | ok c =>
          simp only [hx, bind, Except.bind] at h
          exact ih (fun y hy => next y (List.mem_cons_of_mem x hy))
            (next x List.mem_cons_self b c start hx) h

end Transition
