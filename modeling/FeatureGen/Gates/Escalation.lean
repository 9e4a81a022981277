import Mathlib
import FeatureGen.Gates.Quorum

/-! # Escalating a conflict

A task whose quorum disagrees becomes 'conflict' and schedules a timer stamped
with its version. The timer's guard resolves the version of an open task only,
so the timer finds its task closed from the moment it is scheduled.
-/

namespace FeatureGen.Gates

open FeatureGen.Runtime

structure Conflicts (m : GateMove) (taskId timerId : String) : Prop where
  action : ∃ signal, m.action = .submitHumanSignal signal timerId ∧ signal.taskId = taskId
  before : ∀ t ∈ m.before.store.tasks, t.taskId = taskId → t.status ≠ .conflict
  after : ∃ t ∈ m.after.store.tasks, t.taskId = taskId ∧ t.status = .conflict
  new : ∀ r ∈ m.before.store.timers, r.timerId ≠ timerId
  scheduled : ∃ r ∈ m.after.store.timers, r.timerId = timerId

def enqueues (timerId : String) (m : GateMove) : Bool :=
  match m.action with
  | .fireTimer id => id = timerId ∧ (m.before.store.fire timerId m.before.now).2.2.fired
  | _ => false

structure Guarding (taskId timerId : String) (s : Store) : Prop where
  task : ∃ t ∈ s.tasks, t.taskId = taskId ∧ t.status = .conflict
  timer : ∃ r ∈ s.timers, r.timerId = timerId ∧ ∃ version, r.guards taskId version

theorem Guarding.advances {taskId timerId : String} {s s' : Store} (h : Guarding taskId timerId s)
    (advances : Advances s s') : Guarding taskId timerId s' := by
  obtain ⟨t, ht, hid, hconflict⟩ := h.task
  obtain ⟨r, hr, hrid, version, guards⟩ := h.timer
  obtain ⟨t', ht', follows⟩ := advances.tasks t ht
  obtain ⟨r', hr', kept⟩ := advances.timers r hr
  constructor
  · refine ⟨t', ht', follows.taskId.trans hid, ?_⟩
    rw [follows.closed (by simp [hconflict]), hconflict]
  · refine ⟨r', hr', kept.timerId.trans hrid, version, ?_⟩
    rw [Timer.guards, kept.same]
    exact guards

theorem Guarding.fire {taskId timerId : String} {s : Store} (h : Guarding taskId timerId s)
    (clock : Instant) :
    (s.fire timerId clock).2.2.fired = false ∧ (s.fire timerId clock).2.1 = s.queue := by
  obtain ⟨t, ht, hid, hconflict⟩ := h.task
  obtain ⟨r, hr, hrid, version, guards⟩ := h.timer
  have closed : defaultTaskVersion s.tasks taskId = none := by
    rw [defaultTaskVersion, ← hid, Table.get?_key ht]
    simp [Option.filter, hconflict]
  have effect := @fireTimer_effect (defaultTaskVersion s.tasks) s.timers s.queue timerId clock
  rw [Store.fire]
  generalize fireTimer (defaultTaskVersion s.tasks) s.timers s.queue timerId clock = fired
    at effect ⊢
  obtain ⟨timers, queue, outcome⟩ := fired
  dsimp only at effect ⊢
  cases effect with
  | suppressed reason settled => exact ⟨rfl, rfl⟩
  | voided r' reason row unsettled guarded => exact ⟨rfl, rfl⟩
  | fired r' row unsettled unguarded =>
      obtain ⟨hr', hrid'⟩ := Table.get?_eq_some.mp row
      obtain rfl := Table.eq_of_key_eq hr hr' (hrid.trans hrid'.symm)
      have current := guardReason_eq_none unguarded guards
      rw [closed] at current
      cases current

theorem Conflicts.guarding {m : GateMove} {taskId timerId : String}
    (h : step m.before m.action = some m.after) (conflicts : Conflicts m taskId timerId) :
    Guarding taskId timerId m.after.store := by
  obtain ⟨before, action, after⟩ := m
  obtain ⟨⟨signal, haction, hid⟩, -, isConflict, new, r, hr, hrid⟩ := conflicts
  dsimp only at h haction isConflict new hr ⊢
  subst haction
  refine ⟨isConflict, ?_⟩
  -- only the conflict branch adds a timer
  have unchanged {t : Timers} (rows : t = before.store.timers) (hr : r ∈ t) : False :=
    new r (rows ▸ hr) hrid
  have closed {t : Timers} (rows : t = before.store.timers)
      (hr : r ∈ cancelScheduledTimers t taskId) : False := by
    obtain ⟨x, hx, rfl⟩ := Timers.mem_setStatus.mp hr
    refine new x (rows ▸ hx) ?_
    split at hrid <;> exact hrid
  cases hcall : submitHumanSignal before.store signal timerId before.now with
  | error failure =>
      simp only [step, hcall, Except.map, committed, Option.some.injEq] at h
      subst h
      exact (unchanged rfl hr).elim
  | ok returned =>
      obtain ⟨s', result⟩ := returned
      simp only [step, hcall, Except.map, committed, Option.some.injEq] at h
      subst h
      dsimp only at hr ⊢
      cases submitHumanSignal_submitted hcall with
      | early _ uncounted => exact (unchanged rfl hr).elim
      | decided task authority _ status quorumMet admits settled =>
          obtain ⟨-, timers, -⟩ := recordResponse_same before.store signal authority
          obtain ⟨-, htask⟩ := Table.get?_eq_some.mp (admit_admitted admits).row
          cases settled with
          | pending short => exact (unchanged timers hr).elim
          | answered enough agreed =>
              refine (closed timers ?_).elim
              rw [← hid, ← htask]
              exact hr
          | conflict aggregate aggregateId scheduled enough hins =>
              refine ⟨r, hr, hrid, task.taskVersion, ?_⟩
              rcases Timers.insertNew_some hins with ⟨rfl, -⟩ | ⟨hinsert, -⟩
              · refine (closed timers ?_).elim
                rw [← hid, ← htask]
                exact hr
              · rcases ((Timers.mem_insert? hinsert).1 r).mp hr with old | rfl
                · refine (closed timers ?_).elim
                  rw [← hid, ← htask]
                  exact old
                · exact ⟨by simp [conflictEscalation, htask, hid], rfl⟩

theorem enqueues_eq_false_of_new {w₀ w : World} {as : List Action} {timerId : String}
    (run : Transition.exec step w₀ as = some w) (new : ∀ r ∈ w.store.timers, r.timerId ≠ timerId) :
    ∀ m ∈ Transition.history step w₀ as, enqueues timerId m = false := by
  intro m hm
  obtain ⟨post, hpost⟩ : ∃ post, Transition.exec step m.before post = some w := by
    obtain ⟨pre, post, rfl, hpre⟩ := Transition.exists_split_of_mem_history hm
    obtain ⟨before, hbefore, hrest⟩ := Transition.exec_append_eq_some.mp run
    obtain rfl := Option.some.inj (hpre.symm.trans hbefore)
    exact ⟨_, hrest⟩
  have absent : m.before.store.timers.get? timerId = none := by
    rw [Timers.get?, Table.get?_eq_none]
    intro r hr hid
    obtain ⟨r', hr', follows⟩ := (run_advances hpost).timers r hr
    exact new r' hr' (follows.timerId.trans hid)
  unfold enqueues
  split
  · simp [Store.fire, fireTimer, absent]
  · rfl

/-- A conflicted task is never escalated: whatever follows, no firing of the
    timer its conflict scheduled enqueues a message. -/
theorem conflict_never_escalates {w₀ : World} {as : List Action} {past rest : List GateMove}
    {m : GateMove} {taskId timerId : String}
    (hsplit : Transition.history step w₀ as = past ++ m :: rest)
    (conflicts : Conflicts m taskId timerId) :
    (Transition.history step w₀ as).countP (enqueues timerId) = 0 ∧
      ∀ m' ∈ rest, m'.action = .fireTimer timerId →
        (m'.before.store.fire timerId m'.before.now).2.2.fired = false ∧
          m'.after.store.queue = m'.before.store.queue := by
  have mem : m ∈ Transition.history step w₀ as := by simp [hsplit]
  obtain ⟨pre, post, rfl, hpre, rfl, rfl⟩ := Transition.exists_split_of_history_eq hsplit
  have hstep := Transition.step_of_mem_history mem
  have guarding := conflicts.guarding hstep
  have silent {m' : GateMove} (hm' : m' ∈ Transition.history step m.after post) :
      (m'.before.store.fire timerId m'.before.now).2.2.fired = false ∧
        (m'.before.store.fire timerId m'.before.now).2.1 = m'.before.store.queue := by
    obtain ⟨pre', _, _, hpre'⟩ := Transition.exists_split_of_mem_history hm'
    exact (guarding.advances (run_advances hpre')).fire m'.before.now
  constructor
  · rw [hsplit, List.countP_append, List.countP_cons]
    have before := enqueues_eq_false_of_new hpre conflicts.new
    have itself : enqueues timerId m = false := by
      obtain ⟨signal, haction, -⟩ := conflicts.action
      simp [enqueues, haction]
    have after : ∀ m' ∈ Transition.history step m.after post, enqueues timerId m' = false := by
      intro m' hm'
      unfold enqueues
      split
      · simp [(silent hm').1]
      · rfl
    rw [List.countP_eq_zero.mpr fun m' hm' => by simp [before m' hm'],
      List.countP_eq_zero.mpr fun m' hm' => by simp [after m' hm'], itself]
    rfl
  · intro m' hm' haction
    have hfired := Transition.step_of_mem_history hm'
    obtain ⟨unfired, queue⟩ := silent hm'
    refine ⟨unfired, ?_⟩
    rw [haction] at hfired
    simp only [step, Option.some.injEq] at hfired
    rw [← hfired]
    exact queue

/-- Two data owners are asked, and the first confirms. -/
def firstAnswer : List Action :=
  [.openTask stewardSpec "task-1" [], .submitHumanSignal (answer alice none) "tmr-1"]

/-- The second rejects. -/
def disagreement : Action :=
  .submitHumanSignal { answer bob none with response := "reject" } "tmr-2"

def firing : List Action := [.pollDueTimers "poller" 30 10 0, .fireTimer "tmr-2"]

theorem disagreement_conflicts :
    ∃ past m rest, Transition.history step emptyWorld (firstAnswer ++ disagreement :: firing) =
      past ++ m :: rest ∧ Conflicts m "task-1" "tmr-2" := by
  have computed : ((Transition.exec step emptyWorld firstAnswer).any fun w =>
      (step w disagreement).any fun w' =>
        decide (w.store.tasks.rows.map (·.status) = [.open] ∧
          w.store.timers.rows.rows.map (·.timerId) = [] ∧
          w'.store.tasks.rows.map (fun t => (t.taskId, t.status)) = [("task-1", .conflict)] ∧
          w'.store.timers.rows.rows.map (·.timerId) = ["tmr-2"])) = true := by
    decide +kernel
  obtain ⟨w, run, hstep⟩ := Option.any_eq_true _ _ |>.mp computed
  obtain ⟨w', hstep, hcomputed⟩ := Option.any_eq_true _ _ |>.mp hstep
  obtain ⟨opened, new, conflict, scheduled⟩ := of_decide_eq_true hcomputed
  refine ⟨Transition.history step emptyWorld firstAnswer, ⟨w, disagreement, w'⟩,
    Transition.history step w' firing,
    by rw [Transition.history_append run, Transition.history_cons hstep], ⟨_, rfl, rfl⟩, ?_, ?_, ?_,
    ?_⟩
  · intro t ht _
    have := List.mem_map_of_mem (f := fun t : HumanTask => t.status) ht
    rw [opened, List.mem_singleton] at this
    simp [this]
  · have := List.mem_singleton_self ("task-1", TaskStatus.conflict)
    rw [← conflict, List.mem_map] at this
    obtain ⟨t, ht, heq⟩ := this
    exact ⟨t, ht, (Prod.mk.inj heq).1, (Prod.mk.inj heq).2⟩
  · intro r hr hid
    have := List.mem_map_of_mem (f := Timer.timerId) hr
    rw [new] at this
    cases this
  · have := List.mem_singleton_self "tmr-2"
    rw [← scheduled, List.mem_map] at this
    exact this

theorem conflict_timer_cancelled_unfired :
    ∃ w, Transition.exec step emptyWorld (firstAnswer ++ disagreement :: firing) = some w ∧
      (∃ past m rest, Transition.history step emptyWorld (firstAnswer ++ disagreement :: firing) =
        past ++ m :: rest ∧ Conflicts m "task-1" "tmr-2") ∧
      w.store.tasks.rows.map (·.status) = [.conflict] ∧
      w.store.timers.rows.rows.map (·.status) = [.cancelled] ∧ w.store.queue.rows.rows = [] ∧
      (Transition.history step emptyWorld (firstAnswer ++ disagreement :: firing)).countP
        (enqueues "tmr-2") ≠ 1 := by
  have computed : ((Transition.exec step emptyWorld
      (firstAnswer ++ disagreement :: firing)).any fun w =>
        decide (w.store.tasks.rows.map (·.status) = [.conflict] ∧
          w.store.timers.rows.rows.map (·.status) = [.cancelled] ∧
          w.store.queue.rows.rows.length = 0 ∧
          (Transition.history step emptyWorld (firstAnswer ++ disagreement :: firing)).countP
            (enqueues "tmr-2") = 0)) = true := by
    decide +kernel
  obtain ⟨w, run, hcomputed⟩ := Option.any_eq_true _ _ |>.mp computed
  obtain ⟨conflict, cancelled, queue, unfired⟩ := of_decide_eq_true hcomputed
  exact ⟨w, run, disagreement_conflicts, conflict, cancelled, List.eq_nil_of_length_eq_zero queue,
    by omega⟩

theorem conflict_never_escalates_disagreement :
    ∃ past m rest, Transition.history step emptyWorld (firstAnswer ++ disagreement :: firing) =
      past ++ m :: rest ∧
      (Transition.history step emptyWorld (firstAnswer ++ disagreement :: firing)).countP
        (enqueues "tmr-2") = 0 := by
  obtain ⟨past, m, rest, hsplit, conflicts⟩ := disagreement_conflicts
  exact ⟨past, m, rest, hsplit, (conflict_never_escalates hsplit conflicts).1⟩

end FeatureGen.Gates
