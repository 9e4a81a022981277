import FeatureGen.Projections.Runner

/-! # Rebuilding a projection

`rebuild_projection` of `projections/runner.py`: reset, then `run_projection` for as
long as it applies something. The loop stops at the first run that applies nothing,
which is not always the head of the log.
-/

namespace FeatureGen.Projections

open FeatureGen.Events SortedLog

variable {π S : Type}

/-- `run_projection`: how many events were applied, and what is stored then; none when an
    exception escapes it. -/
def runProjectionOnce (p : Projection π S) (log : List (Event π)) (batch : ℕ) (s : Stored π S) :
    Option (ℕ × Stored π S) :=
  (applyRows p (nextEvents log s.checkpointSeq batch) s).map fun s' =>
    (s'.applied.length - s.applied.length, { s' with headSeq := headSeq log })

inductive Rebuilt (π S : Type) where
  | returned (stored : Stored π S)
  | raised

/-- `while run_projection(...) > 0`; none when the fuel runs out. -/
def drain (p : Projection π S) (log : List (Event π)) (batch : ℕ) :
    ℕ → Stored π S → Option (Rebuilt π S)
  | 0, _ => none
  | fuel + 1, s =>
      match runProjectionOnce p log batch s with
      | none => some .raised
      | some (0, s') => some (.returned s')
      | some (_ + 1, s') => drain p log batch fuel s'

/-- What `reset` and the two statements after it leave; `empty` is what `reset` makes of the
    projection's tables. -/
def resetStored (empty : S) (s : Stored π S) : Stored π S :=
  { s with state := empty, checkpointSeq := 0, headSeq := 0, skips := [], applied := [] }

/-- Stale markers are cleared on a replay to the head. -/
def clearDegraded (log : List (Event π)) (s : Stored π S) : Stored π S :=
  if headSeq log - s.checkpointSeq = 0 then { s with degraded := [] } else s

def Rebuilt.finish (log : List (Event π)) : Rebuilt π S → Rebuilt π S
  | .returned s => .returned (clearDegraded log s)
  | .raised => .raised

/-- `rebuild_projection`; its `run_projection` reads `batch` events at a time. -/
def rebuildProjection (p : Projection π S) (empty : S) (log : List (Event π)) (batch fuel : ℕ)
    (s : Stored π S) : Option (Rebuilt π S) :=
  (drain p log batch fuel (resetStored empty s)).map (.finish log)

/-- `run_projection` once with each of these batch sizes. -/
def runProjections (p : Projection π S) (log : List (Event π)) :
    List ℕ → Stored π S → Option (Stored π S)
  | [], s => some s
  | batch :: batches, s =>
      (runProjectionOnce p log batch s).bind fun run => runProjections p log batches run.2

/-- `apply` raises. -/
def ApplyResult.Rejected : ApplyResult S → Prop
  | .ok _ => False
  | _ => True

/-- `apply` raises a `ProjectionApplyError`. -/
def ApplyResult.Skippable : ApplyResult S → Prop
  | .applyError .. => True
  | _ => False

/-- What the tables hold after the projection went past these events, none if it cannot. -/
def pass (p : Projection π S) : S → List (Event π) → Option S
  | s, [] => some s
  | s, e :: rows =>
      match p.apply s e with
      | .ok s' => pass p s' rows
      | .applyError .. => if p.isAnalytics then pass p s rows else none
      | .unexpected .. => none

theorem pass_append {p : Projection π S} {s : S} {rows more : List (Event π)} :
    pass p s (rows ++ more) = (pass p s rows).bind fun s' => pass p s' more := by
  induction rows generalizing s with
  | nil => rfl
  | cons e rows ih =>
      simp only [List.cons_append, pass]
      split
      · exact ih
      · split
        · exact ih
        · rfl
      · rfl

theorem pass_cons_rejected {p : Projection π S} {s : S} {e : Event π} {rows : List (Event π)}
    (halts : p.isAnalytics = false) (rejected : (p.apply s e).Rejected) :
    pass p s (e :: rows) = none := by
  simp only [pass]
  split
  · next hok =>
      rw [hok] at rejected
      exact rejected.elim
  · simp [halts]
  · rfl

/-- How far one run gets with the rows it read. -/
structure Ran (p : Projection π S) (rows : List (Event π)) (s s' : Stored π S)
    (done rest : List (Event π)) : Prop where
  rows_eq : rows = done ++ rest
  passed : pass p s.state done = some s'.state
  checkpoint : s'.checkpointSeq = position Event.globalSeq s.checkpointSeq done
  /-- It stops early only before an event that a projection which halts rejects. -/
  stopped : rest = [] ∨ p.isAnalytics = false ∧
    ∃ e more, rest = e :: more ∧ (p.apply s'.state e).Rejected
  grows : s.applied.length ≤ s'.applied.length
  /-- Nothing was applied just when every row passed was skipped. -/
  idle : s'.applied.length = s.applied.length ↔ ∀ e ∈ done, (p.apply s.state e).Skippable

theorem Ran.rest_eq_nil {p : Projection π S} {rows : List (Event π)} {s s' : Stored π S}
    {done rest : List (Event π)} (ran : Ran p rows s s' done rest)
    (analytics : p.isAnalytics = true) : rest = [] := by
  rcases ran.stopped with all | ⟨halts, _⟩
  · exact all
  · rw [analytics] at halts
    cases halts

theorem Ran.of_applyRows {p : Projection π S} {rows : List (Event π)} {s s' : Stored π S}
    (h : applyRows p rows s = some s') : ∃ done rest, Ran p rows s s' done rest := by
  induction rows generalizing s with
  | nil =>
      cases h
      exact ⟨[], [], ⟨rfl, rfl, rfl, Or.inl rfl, le_rfl, by simp⟩⟩
  | cons e rows ih =>
      have halted : ∀ marker : Degraded, p.isAnalytics = false → (p.apply s.state e).Rejected →
          some { s with degraded := markDegraded s.degraded marker } = some s' →
          ∃ done rest, Ran p (e :: rows) s s' done rest := by
        intro marker halts rejected heq
        cases heq
        exact ⟨[], e :: rows, ⟨rfl, rfl, rfl, Or.inr ⟨halts, e, rows, rfl, rejected⟩, le_rfl,
          by simp⟩⟩
      simp only [applyRows] at h
      split at h
      · next state hok =>
          obtain ⟨done, rest, ran⟩ := ih h
          have grows := ran.grows
          rw [List.length_append, List.length_singleton] at grows
          refine ⟨e :: done, rest, ⟨?_, ?_, ran.checkpoint, ran.stopped, by omega, ?_⟩⟩
          · rw [ran.rows_eq, List.cons_append]
          · simp only [pass, hok]
            exact ran.passed
          · constructor
            · intro same
              omega
            · intro all
              have first := all e List.mem_cons_self
              rw [hok] at first
              exact first.elim
      · next aggregate aggregateId reason herror =>
          split at h
          · next analytics =>
              obtain ⟨done, rest, ran⟩ := ih h
              refine ⟨e :: done, rest, ⟨?_, ?_, ran.checkpoint, ran.stopped, ran.grows, ?_⟩⟩
              · rw [ran.rows_eq, List.cons_append]
              · simp only [pass, herror, analytics, if_true]
                exact ran.passed
              · rw [List.forall_mem_cons]
                constructor
                · intro same
                  exact ⟨by rw [herror]; trivial, ran.idle.mp same⟩
                · intro all
                  exact ran.idle.mpr all.2
          · next halts =>
              exact halted _ (by simpa using halts) (by rw [herror]; trivial) h
      · next typeName text herror =>
          split at h
          · cases h
          · next halts =>
              exact halted _ (by simpa using halts) (by rw [herror]; trivial) h

theorem applyRows_ne_none {p : Projection π S} {rows : List (Event π)} {s : Stored π S}
    {state : S} (h : pass p s.state rows = some state) : applyRows p rows s ≠ none := by
  induction rows generalizing s with
  | nil => simp [applyRows]
  | cons e rows ih =>
      cases hp : p.apply s.state e with
      | ok next =>
          simp only [pass, hp] at h
          simp only [applyRows, hp]
          exact ih h
      | applyError aggregate aggregateId reason =>
          simp only [pass, hp] at h
          simp only [applyRows, hp]
          split at h
          · next analytics =>
              simp only [analytics, if_true]
              exact ih h
          · cases h
      | unexpected typeName text =>
          simp only [pass, hp] at h
          cases h

section Standing

variable (p : Projection π S) (empty : S) (log : List (Event π))

/-- The tables hold what passing the events up to the checkpoint leaves. -/
structure Standing (s : Stored π S) : Prop where
  passed : pass p empty (upTo Event.globalSeq log s.checkpointSeq) = some s.state
  checkpoint : s.checkpointSeq =
    position Event.globalSeq 0 (upTo Event.globalSeq log s.checkpointSeq)

/-- The checkpoint is the head, or the projection halted before an event it rejects. -/
def Reached (s : Stored π S) : Prop :=
  s.checkpointSeq = headSeq log ∨ p.isAnalytics = false ∧
    ∃ e rest, after Event.globalSeq log s.checkpointSeq = e :: rest ∧
      (p.apply s.state e).Rejected

end Standing

/-- The rows of `events` in the order of their positions, which start at one. -/
structure EventLog (log : List (Event π)) : Prop where
  ordered : Ordered Event.globalSeq log
  positive : ∀ e ∈ log, 0 < e.globalSeq

variable {p : Projection π S} {empty : S} {log : List (Event π)} {s s' t : Stored π S}

theorem le_headSeq {e : Event π} (h : e ∈ log) : e.globalSeq ≤ headSeq log := by
  unfold headSeq
  induction log with
  | nil => cases h
  | cons a log ih =>
      rw [List.map_cons, List.foldr_cons]
      rcases List.mem_cons.mp h with rfl | h
      · exact le_max_left _ _
      · exact (ih h).trans (le_max_right _ _)

theorem headSeq_le {n : ℕ} (h : ∀ e ∈ log, e.globalSeq ≤ n) : headSeq log ≤ n := by
  unfold headSeq
  induction log with
  | nil => exact Nat.zero_le n
  | cons a log ih =>
      rw [List.map_cons, List.foldr_cons]
      exact max_le (h a List.mem_cons_self) (ih fun e he => h e (List.mem_cons_of_mem a he))

theorem EventLog.position_eq (ordered : EventLog log) :
    position Event.globalSeq 0 log = headSeq log := by
  apply le_antisymm
  · rcases SortedLog.position_eq Event.globalSeq 0 log with start | ⟨e, he, last⟩
    · rw [start]
      exact Nat.zero_le _
    · rw [last]
      exact le_headSeq he
  · exact headSeq_le (le_position ordered.ordered ordered.positive).2

theorem EventLog.upTo_reset (ordered : EventLog log) (empty : S) (s : Stored π S) :
    upTo Event.globalSeq log (resetStored empty s).checkpointSeq = [] := by
  refine List.filter_eq_nil_iff.mpr fun e he => ?_
  have positive := ordered.positive e he
  have start : (resetStored empty s).checkpointSeq = 0 := rfl
  rw [start, decide_eq_true_eq]
  omega

theorem Standing.reset (ordered : EventLog log) (s : Stored π S) :
    Standing p empty log (resetStored empty s) := by
  constructor
  · rw [ordered.upTo_reset]
    rfl
  · rw [ordered.upTo_reset]
    rfl

theorem Standing.head_iff (ordered : EventLog log) (standing : Standing p empty log s) :
    s.checkpointSeq = headSeq log ↔ after Event.globalSeq log s.checkpointSeq = [] := by
  constructor
  · intro head
    refine List.filter_eq_nil_iff.mpr fun e he => ?_
    have behind := le_headSeq he
    simp only [decide_eq_true_eq]
    omega
  · intro none
    have all := upTo_append_after ordered.ordered s.checkpointSeq
    rw [none, List.append_nil] at all
    rw [standing.checkpoint, all, ordered.position_eq]

theorem Standing.of_ran (ordered : EventLog log) (standing : Standing p empty log s) {batch : ℕ}
    {done rest : List (Event π)}
    (ran : Ran p (nextEvents log s.checkpointSeq batch) s s' done rest) :
    Standing p empty log s' ∧ done ++ (rest ++
        (after Event.globalSeq log s.checkpointSeq).drop batch) =
      after Event.globalSeq log s.checkpointSeq ∧
      after Event.globalSeq log s'.checkpointSeq =
        rest ++ (after Event.globalSeq log s.checkpointSeq).drop batch := by
  have rows := ran.rows_eq
  rw [nextEvents_ordered ordered.ordered] at rows
  have split : done ++ (rest ++ (after Event.globalSeq log s.checkpointSeq).drop batch) =
      after Event.globalSeq log s.checkpointSeq := by
    rw [← List.append_assoc, ← rows, List.take_append_drop]
  have isPrefix : done <+: after Event.globalSeq log s.checkpointSeq := ⟨_, split⟩
  have consumed := upTo_position ordered.ordered isPrefix
  refine ⟨⟨?_, ?_⟩, split, ?_⟩
  · rw [ran.checkpoint, consumed, pass_append, standing.passed, Option.bind_some]
    exact ran.passed
  · rw [ran.checkpoint, consumed]
    conv_lhs => rw [standing.checkpoint]
    simp [position, List.foldl_append]
  · rw [ran.checkpoint]
    exact after_position ordered.ordered split

theorem Standing.unique (ordered : EventLog log) (left : Standing p empty log s)
    (right : Standing p empty log t) (leftReached : Reached p log s)
    (rightReached : Reached p log t) :
    s.state = t.state ∧ s.checkpointSeq = t.checkpointSeq := by
  -- The one that stands further back would have gone on.
  have notBehind : ∀ {a b : Stored π S}, Standing p empty log a → Standing p empty log b →
      Reached p log a → ¬ a.checkpointSeq < b.checkpointSeq := by
    intro a b ha hb reached behind
    have further : upTo Event.globalSeq log b.checkpointSeq =
        upTo Event.globalSeq log a.checkpointSeq ++
          upTo Event.globalSeq (after Event.globalSeq log a.checkpointSeq) b.checkpointSeq := by
      conv_lhs => rw [← upTo_append_after ordered.ordered a.checkpointSeq]
      rw [upTo, List.filter_append]
      congr 1
      refine List.filter_eq_self.mpr fun e he => ?_
      have low := (mem_upTo.mp he).2
      simp only [decide_eq_true_eq]
      omega
    rcases reached with head | ⟨halts, e, rest, next, rejected⟩
    · have none := (ha.head_iff ordered).mp head
      rw [none] at further
      have same : upTo Event.globalSeq log b.checkpointSeq =
          upTo Event.globalSeq log a.checkpointSeq := by
        rw [further]
        exact List.append_nil _
      have equal := hb.checkpoint
      rw [same, ← ha.checkpoint] at equal
      omega
    · have passed := hb.passed
      by_cases included : e.globalSeq ≤ b.checkpointSeq
      · have first : upTo Event.globalSeq (e :: rest) b.checkpointSeq =
            e :: upTo Event.globalSeq rest b.checkpointSeq := by
          rw [upTo, List.filter_cons_of_pos (by simpa using included)]
          rfl
        rw [further, next, first, pass_append, ha.passed, Option.bind_some,
          pass_cons_rejected halts rejected] at passed
        cases passed
      · have ordering : Ordered Event.globalSeq (e :: rest) :=
          next ▸ ordered.ordered.after a.checkpointSeq
        have none : upTo Event.globalSeq (e :: rest) b.checkpointSeq = [] := by
          refine List.filter_eq_nil_iff.mpr fun x hx => ?_
          have later : e.globalSeq ≤ x.globalSeq := by
            rcases List.mem_cons.mp hx with rfl | hx
            · exact le_rfl
            · exact ((List.pairwise_cons.mp ordering).1 x hx).le
          simp only [decide_eq_true_eq]
          omega
        have equal := hb.checkpoint
        rw [further, next, none, List.append_nil, ← ha.checkpoint] at equal
        omega
  have same : s.checkpointSeq = t.checkpointSeq :=
    le_antisymm (not_lt.mp (notBehind right left rightReached))
      (not_lt.mp (notBehind left right leftReached))
  have states := left.passed
  rw [same, right.passed] at states
  exact ⟨(Option.some.inj states).symm, same⟩

section Runs

variable {batch n : ℕ}

theorem ran_of_runProjectionOnce (h : runProjectionOnce p log batch s = some (n, s')) :
    n = s'.applied.length - s.applied.length ∧
      ∃ done rest, Ran p (nextEvents log s.checkpointSeq batch) s s' done rest := by
  obtain ⟨s₁, hrows, heq⟩ := Option.map_eq_some_iff.mp h
  simp only [Prod.mk.injEq] at heq
  obtain ⟨rfl, rfl⟩ := heq
  obtain ⟨done, rest, ran⟩ := Ran.of_applyRows hrows
  exact ⟨rfl, done, rest, ran.rows_eq, ran.passed, ran.checkpoint, ran.stopped, ran.grows,
    ran.idle⟩

theorem Standing.of_runProjections (ordered : EventLog log) {batches : List ℕ}
    (standing : Standing p empty log s) (h : runProjections p log batches s = some t) :
    Standing p empty log t := by
  induction batches generalizing s with
  | nil =>
      cases h
      exact standing
  | cons batch batches ih =>
      obtain ⟨run, first, rest⟩ := Option.bind_eq_some_iff.mp h
      obtain ⟨_, done, behind, ran⟩ := ran_of_runProjectionOnce first
      exact ih (standing.of_ran ordered ran).1 rest

theorem Ran.length_after_lt (ordered : EventLog log) (standing : Standing p empty log s)
    {done rest : List (Event π)}
    (ran : Ran p (nextEvents log s.checkpointSeq batch) s s' done rest)
    (applied : s'.applied.length ≠ s.applied.length) :
    (after Event.globalSeq log s'.checkpointSeq).length <
      (after Event.globalSeq log s.checkpointSeq).length := by
  obtain ⟨_, split, behind⟩ := standing.of_ran ordered ran
  have lengths := congrArg List.length split
  rw [List.length_append, ← behind] at lengths
  have some : done ≠ [] := by
    intro none
    refine applied (ran.idle.mpr ?_)
    rw [none]
    simp
  have positive := List.length_pos_iff.mpr some
  omega

theorem drain_isSome (ordered : EventLog log) {fuel : ℕ} (standing : Standing p empty log s)
    (enough : (after Event.globalSeq log s.checkpointSeq).length < fuel) :
    (drain p log batch fuel s).isSome = true := by
  induction fuel generalizing s with
  | zero => omega
  | succ fuel ih =>
      cases hrun : runProjectionOnce p log batch s with
      | none => simp [drain, hrun]
      | some run =>
          obtain ⟨n, s'⟩ := run
          obtain ⟨hn, done, rest, ran⟩ := ran_of_runProjectionOnce hrun
          cases n with
          | zero => simp [drain, hrun]
          | succ n =>
              have shorter := ran.length_after_lt ordered standing (by omega)
              simp only [drain, hrun]
              exact ih (standing.of_ran ordered ran).1 (by omega)

def Advances (p : Projection π S) (empty : S) (log : List (Event π)) (batch : ℕ) : Prop :=
  ∀ before chunk behind state, log = before ++ chunk ++ behind → batch ∣ before.length →
    chunk.length = batch → behind ≠ [] → pass p empty before = some state →
    ∃ e ∈ chunk, ¬ (p.apply state e).Skippable

def Aligned (p : Projection π S) (log : List (Event π)) (batch : ℕ) (s : Stored π S) : Prop :=
  p.isAnalytics = true → batch ∣ (upTo Event.globalSeq log s.checkpointSeq).length ∨
    after Event.globalSeq log s.checkpointSeq = []

theorem Aligned.of_ran (ordered : EventLog log) (standing : Standing p empty log s)
    (aligned : Aligned p log batch s) {done rest : List (Event π)}
    (ran : Ran p (nextEvents log s.checkpointSeq batch) s s' done rest) :
    Aligned p log batch s' := by
  intro analytics
  obtain ⟨_, split, behind⟩ := standing.of_ran ordered ran
  have all : rest = [] := ran.rest_eq_nil analytics
  have rows := ran.rows_eq
  rw [all, List.append_nil, nextEvents_ordered ordered.ordered] at rows
  rw [all, List.nil_append] at behind
  by_cases left : (after Event.globalSeq log s.checkpointSeq).drop batch = []
  · right
    rw [behind, left]
  · left
    have full : done.length = batch := by
      have long := List.length_pos_iff.mpr left
      rw [List.length_drop] at long
      rw [← rows, List.length_take]
      omega
    have whole : batch ∣ (upTo Event.globalSeq log s.checkpointSeq).length := by
      refine (aligned analytics).resolve_right ?_
      intro none
      rw [none] at left
      exact left List.drop_nil
    rw [ran.checkpoint, upTo_position ordered.ordered ⟨_, split⟩, List.length_append, full]
    exact (Nat.dvd_add_right whole).mpr (dvd_refl batch)

theorem Standing.reached_of_idle (ordered : EventLog log) (positive : 0 < batch)
    (standing : Standing p empty log s)
    (aligned : Aligned p log batch s)
    (advances : p.isAnalytics = true → Advances p empty log batch) {done rest : List (Event π)}
    (ran : Ran p (nextEvents log s.checkpointSeq batch) s s' done rest)
    (idle : s'.applied.length = s.applied.length) : Reached p log s' := by
  obtain ⟨standing', split, behind⟩ := standing.of_ran ordered ran
  rcases ran.stopped with all | ⟨halts, e, more, hrest, rejected⟩
  · left
    rw [standing'.head_iff ordered, behind, all, List.nil_append]
    by_contra left
    have rows := ran.rows_eq
    rw [all, List.append_nil, nextEvents_ordered ordered.ordered] at rows
    have full : done.length = batch := by
      have long := List.length_pos_iff.mpr left
      rw [List.length_drop] at long
      rw [← rows, List.length_take]
      omega
    have skipped := ran.idle.mp idle
    obtain ⟨e, he⟩ := List.exists_mem_of_length_pos (by omega : 0 < done.length)
    have analytics : p.isAnalytics = true := by
      by_contra halts
      obtain ⟨front, tail, hsplit⟩ := List.append_of_mem he
      cases done with
      | nil => simp at hsplit
      | cons first more =>
          have passed := ran.passed
          have firstSkipped := skipped first List.mem_cons_self
          rw [pass_cons_rejected (by simpa using halts)] at passed
          · cases passed
          · cases happly : p.apply s.state first with
            | ok state =>
                rw [happly] at firstSkipped
                exact firstSkipped.elim
            | applyError aggregate aggregateId reason => trivial
            | unexpected typeName text => trivial
    have cut : log = upTo Event.globalSeq log s.checkpointSeq ++ done ++
        (after Event.globalSeq log s.checkpointSeq).drop batch := by
      rw [all, List.nil_append] at split
      rw [List.append_assoc, split, upTo_append_after ordered.ordered]
    have whole : batch ∣ (upTo Event.globalSeq log s.checkpointSeq).length := by
      refine (aligned analytics).resolve_right ?_
      intro none
      rw [none] at left
      exact left List.drop_nil
    obtain ⟨poison, hmem, hnot⟩ := advances analytics _ _ _ _ cut whole full left standing.passed
    exact hnot (skipped poison hmem)
  · right
    refine ⟨halts, e, more ++ (after Event.globalSeq log s.checkpointSeq).drop batch, ?_, rejected⟩
    rw [behind, hrest, List.cons_append]

theorem Standing.of_drain (ordered : EventLog log) (positive : 0 < batch) {fuel : ℕ}
    (standing : Standing p empty log s)
    (aligned : Aligned p log batch s)
    (advances : p.isAnalytics = true → Advances p empty log batch)
    (h : drain p log batch fuel s = some (.returned s')) :
    Standing p empty log s' ∧ Reached p log s' := by
  induction fuel generalizing s with
  | zero => cases h
  | succ fuel ih =>
      cases hrun : runProjectionOnce p log batch s with
      | none => simp [drain, hrun] at h
      | some run =>
          obtain ⟨n, s₁⟩ := run
          obtain ⟨hn, done, rest, ran⟩ := ran_of_runProjectionOnce hrun
          obtain ⟨standing₁, split, behind⟩ := standing.of_ran ordered ran
          have grows := ran.grows
          cases n with
          | zero =>
              simp only [drain, hrun, Option.some.injEq, Rebuilt.returned.injEq] at h
              subst h
              exact ⟨standing₁,
                standing.reached_of_idle ordered positive aligned advances ran (by omega)⟩
          | succ n =>
              simp only [drain, hrun] at h
              exact ih standing₁ (aligned.of_ran ordered standing ran) h

theorem exists_runProjectionOnce {state : S}
    (h : pass p s.state (nextEvents log s.checkpointSeq batch) = some state) :
    ∃ n s', runProjectionOnce p log batch s = some (n, s') := by
  cases hrows : applyRows p (nextEvents log s.checkpointSeq batch) s with
  | none => exact absurd hrows (applyRows_ne_none h)
  | some s' => exact ⟨_, _, by rw [runProjectionOnce, hrows, Option.map_some]⟩

theorem pass_of_skippable (analytics : p.isAnalytics = true) {state : S} {rows : List (Event π)}
    (h : ∀ e ∈ rows, (p.apply state e).Skippable) : pass p state rows = some state := by
  induction rows with
  | nil => rfl
  | cons e rows ih =>
      obtain ⟨first, later⟩ := List.forall_mem_cons.mp h
      cases happly : p.apply state e with
      | ok state' =>
          rw [happly] at first
          exact first.elim
      | applyError aggregate aggregateId reason =>
          simp only [pass, happly, analytics, if_true]
          exact ih later
      | unexpected typeName text =>
          rw [happly] at first
          exact first.elim

theorem stalls (ordered : EventLog log) (analytics : p.isAnalytics = true)
    {before chunk behind mid : List (Event π)} {state : S}
    (hlog : log = before ++ chunk ++ behind) (hchunk : chunk.length = batch)
    (hbehind : behind ≠ []) (hpass : pass p empty before = some state)
    (skipped : ∀ e ∈ chunk, (p.apply state e).Skippable) {fuel : ℕ} {r : Rebuilt π S}
    (standing : Standing p empty log s)
    (hmid : upTo Event.globalSeq log s.checkpointSeq ++ mid = before) (hdvd : batch ∣ mid.length)
    (h : drain p log batch fuel s = some r) : ∃ s', r = .returned s' ∧ ¬ Reached p log s' := by
  induction fuel generalizing s mid with
  | zero => cases h
  | succ fuel ih =>
      have ahead : after Event.globalSeq log s.checkpointSeq = mid ++ chunk ++ behind := by
        have whole := upTo_append_after ordered.ordered s.checkpointSeq
        conv_rhs at whole => rw [hlog, ← hmid]
        rw [List.append_assoc, List.append_assoc] at whole
        rw [List.append_assoc]
        exact List.append_cancel_left whole
      have midPassed : pass p s.state mid = some state := by
        rw [← hmid, pass_append, standing.passed, Option.bind_some] at hpass
        exact hpass
      have notReached : ∀ {s₁ : Stored π S}, Standing p empty log s₁ →
          after Event.globalSeq log s₁.checkpointSeq ≠ [] → ¬ Reached p log s₁ := by
        intro s₁ standing₁ left reached
        rcases reached with head | ⟨halts, _⟩
        · exact left ((standing₁.head_iff ordered).mp head)
        · rw [analytics] at halts
          cases halts
      have read : nextEvents log s.checkpointSeq batch =
          (after Event.globalSeq log s.checkpointSeq).take batch :=
        nextEvents_ordered ordered.ordered s.checkpointSeq batch
      by_cases hnil : mid = []
      · -- The chunk itself is read: nothing is applied, and the loop ends.
        subst hnil
        rw [List.nil_append] at ahead
        have rows : nextEvents log s.checkpointSeq batch = chunk := by
          rw [read, ahead, List.take_left' hchunk]
        have same : s.state = state := by simpa [pass] using midPassed
        have passed : pass p s.state (nextEvents log s.checkpointSeq batch) = some s.state := by
          rw [rows, same]
          exact pass_of_skippable analytics skipped
        obtain ⟨n, s₁, hrun⟩ := exists_runProjectionOnce passed
        obtain ⟨hn, done, rest, ran⟩ := ran_of_runProjectionOnce hrun
        have all : rest = [] := ran.rest_eq_nil analytics
        have hdone : done = chunk := by
          have rowsEq := ran.rows_eq
          rw [all, List.append_nil, rows] at rowsEq
          exact rowsEq.symm
        have idle : s₁.applied.length = s.applied.length := by
          rw [ran.idle, hdone, same]
          exact skipped
        have zero : n = 0 := by omega
        subst zero
        simp only [drain, hrun, Option.some.injEq] at h
        obtain ⟨standing₁, _, behind₁⟩ := standing.of_ran ordered ran
        refine ⟨s₁, h.symm, notReached standing₁ ?_⟩
        rw [behind₁, all, List.nil_append, ahead, List.drop_left' hchunk]
        exact hbehind
      · -- A whole batch before the chunk is read.
        have long : batch ≤ mid.length :=
          Nat.le_of_dvd (List.length_pos_iff.mpr hnil) hdvd
        have rows : nextEvents log s.checkpointSeq batch = mid.take batch := by
          rw [read, ahead, List.append_assoc, List.take_append_of_le_length long]
        have cut : mid.take batch ++ mid.drop batch = mid := List.take_append_drop batch mid
        obtain ⟨state₁, passed, _⟩ : ∃ state₁, pass p s.state (mid.take batch) = some state₁ ∧
            pass p state₁ (mid.drop batch) = some state := by
          rw [← cut, pass_append] at midPassed
          exact Option.bind_eq_some_iff.mp midPassed
        rw [← rows] at passed
        obtain ⟨n, s₁, hrun⟩ := exists_runProjectionOnce passed
        obtain ⟨hn, done, rest, ran⟩ := ran_of_runProjectionOnce hrun
        have all : rest = [] := ran.rest_eq_nil analytics
        have hdone : done = mid.take batch := by
          have rowsEq := ran.rows_eq
          rw [all, List.append_nil, rows] at rowsEq
          exact rowsEq.symm
        obtain ⟨standing₁, split, behind₁⟩ := standing.of_ran ordered ran
        cases n with
        | zero =>
            simp only [drain, hrun, Option.some.injEq] at h
            refine ⟨s₁, h.symm, notReached standing₁ ?_⟩
            rw [behind₁, ahead, List.append_assoc, List.drop_append_of_le_length long]
            simp [hbehind]
        | succ n =>
            simp only [drain, hrun] at h
            have hmid₁ : upTo Event.globalSeq log s₁.checkpointSeq ++ mid.drop batch = before := by
              rw [ran.checkpoint, upTo_position ordered.ordered ⟨_, split⟩, hdone,
                List.append_assoc, cut, hmid]
            have hdvd₁ : batch ∣ (mid.drop batch).length := by
              rw [List.length_drop]
              exact Nat.dvd_sub hdvd (dvd_refl batch)
            exact ih standing₁ hmid₁ hdvd₁ h

end Runs

/-- What a rebuild returns has reached the head, or the event it halts before, and is what
    any runs from the empty tables that reach as far come to. -/
def RebuildReaches (p : Projection π S) (empty : S) (log : List (Event π)) (batch : ℕ)
    (s : Stored π S) : Prop :=
  ∀ fuel s', rebuildProjection p empty log batch fuel s = some (.returned s') →
    Reached p log s' ∧ ∀ batches s₀ t,
      runProjections p log batches (resetStored empty s₀) = some t → Reached p log t →
      t.state = s'.state ∧ t.checkpointSeq = s'.checkpointSeq

theorem length_after_reset (log : List (Event π)) (empty : S) (s : Stored π S) :
    (after Event.globalSeq log (resetStored empty s).checkpointSeq).length ≤ log.length :=
  List.length_filter_le _ log

theorem exists_of_rebuildProjection {batch fuel : ℕ} {r : Rebuilt π S}
    (h : rebuildProjection p empty log batch fuel s = some r) :
    ∃ r₀, drain p log batch fuel (resetStored empty s) = some r₀ ∧ r₀.finish log = r :=
  Option.map_eq_some_iff.mp h

theorem clearDegraded_state (log : List (Event π)) (s : Stored π S) :
    (clearDegraded log s).state = s.state ∧
      (clearDegraded log s).checkpointSeq = s.checkpointSeq := by
  unfold clearDegraded
  split <;> exact ⟨rfl, rfl⟩

theorem reached_clearDegraded : Reached p log (clearDegraded log s) ↔ Reached p log s := by
  obtain ⟨state, checkpoint⟩ := clearDegraded_state log s
  unfold Reached
  rw [state, checkpoint]

theorem aligned_reset (ordered : EventLog log) {batch : ℕ} (empty : S) (s : Stored π S) :
    Aligned p log batch (resetStored empty s) := by
  intro _
  left
  rw [ordered.upTo_reset]
  exact dvd_zero batch

/-- A rebuild ends, and it reaches the head just when the projection halts on what it
    rejects or no batch is skipped whole with an event behind it. -/
theorem rebuild_reaches_iff (p : Projection π S) (empty : S) (log : List (Event π))
    (ordered : EventLog log) (batch : ℕ) (positive : 0 < batch) (s : Stored π S) :
    (∀ fuel, log.length < fuel →
      (rebuildProjection p empty log batch fuel s).isSome = true) ∧
    (RebuildReaches p empty log batch s ↔
      (p.isAnalytics = true → Advances p empty log batch)) := by
  have start : Standing p empty log (resetStored empty s) := .reset ordered s
  have ends : ∀ fuel, log.length < fuel →
      (rebuildProjection p empty log batch fuel s).isSome = true := by
    intro fuel enough
    rw [rebuildProjection, Option.isSome_map]
    have fewer := length_after_reset log empty s
    exact drain_isSome ordered start (by omega)
  refine ⟨ends, ?_⟩
  constructor
  · intro reaches analytics before chunk behind state hlog hdvd hchunk hbehind hpass
    by_contra none
    have skipped : ∀ e ∈ chunk, (p.apply state e).Skippable := by
      intro e he
      by_contra applied
      exact none ⟨e, he, applied⟩
    obtain ⟨r, hr⟩ := Option.isSome_iff_exists.mp (ends (log.length + 1) (by omega))
    obtain ⟨r₀, hdrain, hfinish⟩ := exists_of_rebuildProjection hr
    have nothing : upTo Event.globalSeq log (resetStored empty s).checkpointSeq ++ before =
        before := by
      rw [ordered.upTo_reset, List.nil_append]
    obtain ⟨s', rfl, notReached⟩ := stalls ordered analytics hlog hchunk hbehind hpass
      skipped start nothing hdvd hdrain
    rw [← hfinish] at hr
    exact notReached (reached_clearDegraded.mp (reaches _ _ hr).1)
  · intro advances fuel s' hrebuild
    obtain ⟨r₀, hdrain, hfinish⟩ := exists_of_rebuildProjection hrebuild
    cases r₀ with
    | raised => cases hfinish
    | returned s₀ =>
        simp only [Rebuilt.finish, Rebuilt.returned.injEq] at hfinish
        subst hfinish
        obtain ⟨standing, reached⟩ := start.of_drain ordered positive
          (aligned_reset ordered empty s) advances hdrain
        refine ⟨reached_clearDegraded.mpr reached, ?_⟩
        intro batches s₁ t hruns reachedRuns
        have standingRuns := (Standing.reset ordered s₁).of_runProjections ordered hruns
        rw [(clearDegraded_state log s₀).1, (clearDegraded_state log s₀).2]
        exact standingRuns.unique ordered standing reachedRuns reached

/-- The default `batch` of `run_projection`. -/
def defaultBatch : ℕ := 500

/-- Counts the events it can apply. -/
def countingRuns (isAnalytics : Bool) : Projection Unit ℕ where
  isAnalytics := isAnalytics
  apply n e := if e.type = "POISON" then .applyError "run" e.aggregateId "poison" else .ok (n + 1)

def logged (type : String) (n : ℕ) : Event Unit :=
  ⟨"e", n + 1, "run", "run-1", n + 1, type, 1, 1, ()⟩

def nothingStored : Stored Unit ℕ := ⟨0, 0, 0, [], [], []⟩

theorem eventLog_logged (type : ℕ → String) (n : ℕ) :
    EventLog ((List.range n).map fun i => logged (type i) i) where
  ordered := by
    refine List.pairwise_map.mpr (List.Pairwise.imp ?_ List.pairwise_lt_range)
    intro i j h
    simpa [logged] using h
  positive := by
    intro e he
    obtain ⟨i, _, rfl⟩ := List.mem_map.mp he
    exact Nat.succ_pos i

theorem rebuild_reaches_counting :
    RebuildReaches (countingRuns false) 0 ((List.range 2).map fun i => logged "POISON" i)
      defaultBatch nothingStored :=
  (rebuild_reaches_iff (countingRuns false) 0 _ (eventLog_logged (fun _ => "POISON") 2)
    defaultBatch (by decide) nothingStored).2.mpr fun analytics => by cases analytics

/-- Five hundred events to skip and one to apply. -/
def poisonedType (i : ℕ) : String := if i < 500 then "POISON" else "STARTED"

def poisonedLog : List (Event Unit) := (List.range 501).map fun i => logged (poisonedType i) i

/-- The loop ends after the five hundred skips. -/
theorem rebuild_stops_at_poison :
    EventLog poisonedLog ∧
      ¬ RebuildReaches (countingRuns true) 0 poisonedLog defaultBatch nothingStored := by
  have ordered : EventLog poisonedLog := eventLog_logged poisonedType 501
  refine ⟨ordered, fun reaches => ?_⟩
  have start : Standing (countingRuns true) 0 poisonedLog (resetStored 0 nothingStored) :=
    .reset ordered nothingStored
  have cut : poisonedLog = [] ++ (List.range 500).map (fun i => logged (poisonedType i) i) ++
      [logged (poisonedType 500) 500] := by
    rw [poisonedLog, List.range_succ, List.map_append, List.nil_append]
    rfl
  have skipped : ∀ e ∈ (List.range 500).map (fun i => logged (poisonedType i) i),
      ((countingRuns true).apply 0 e).Skippable := by
    intro e he
    obtain ⟨i, hi, rfl⟩ := List.mem_map.mp he
    have poison : poisonedType i = "POISON" := by
      simp [poisonedType, List.mem_range.mp hi]
    simp [countingRuns, logged, poison, ApplyResult.Skippable]
  have length : ((List.range 500).map fun i => logged (poisonedType i) i).length =
      defaultBatch := by
    rw [List.length_map, List.length_range]
    rfl
  have nothing : upTo Event.globalSeq poisonedLog (resetStored 0 nothingStored).checkpointSeq ++
      [] = [] := by
    rw [ordered.upTo_reset, List.nil_append]
  have fewer := length_after_reset poisonedLog 0 nothingStored
  have ends : (drain (countingRuns true) poisonedLog defaultBatch (poisonedLog.length + 1)
      (resetStored 0 nothingStored)).isSome = true := drain_isSome ordered start (by omega)
  obtain ⟨r, hr⟩ := Option.isSome_iff_exists.mp ends
  obtain ⟨s', rfl, notReached⟩ := stalls ordered rfl cut length (List.cons_ne_nil _ _) rfl skipped
    start nothing (dvd_zero _) hr
  have returned : rebuildProjection (countingRuns true) 0 poisonedLog defaultBatch
      (poisonedLog.length + 1) nothingStored = some (.returned (clearDegraded poisonedLog s')) := by
    rw [rebuildProjection, hr]
    rfl
  exact notReached (reached_clearDegraded.mp (reaches _ _ returned).1)

end FeatureGen.Projections
