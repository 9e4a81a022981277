import Mathlib
import FeatureGen.Gates.Escalation

/-! # Timers fire once

Whatever is polled, answered, bumped and cancelled in between: a settled timer is left alone, and
to fire a timer settles it.
-/

namespace FeatureGen.Gates

open FeatureGen.Runtime

/-- The timer is there, and nothing more happens to it. -/
def TimerSettled (timerId : String) (w : World) : Prop :=
  ∃ r ∈ w.store.timers, r.timerId = timerId ∧ r.status.final = true

theorem TimerSettled.step {timerId : String} {w w' : World} {a : Action}
    (h : TimerSettled timerId w) (hs : step w a = some w') : TimerSettled timerId w' := by
  obtain ⟨r, hr, hid, final⟩ := h
  obtain ⟨r', hr', follows⟩ := (step_advances hs).timers r hr
  obtain rfl := follows.settled final
  exact ⟨r', hr', hid, final⟩

/-- What the fire of a timer needs, and what it comes to. -/
theorem enqueues_fired {timerId : String} {m : GateMove} (h : enqueues timerId m = true)
    (hs : step m.before m.action = some m.after) :
    ∃ r, m.before.store.timers.get? timerId = some r ∧ r.status.final = false ∧
      r.guardReason (defaultTaskVersion m.before.store.tasks) = none ∧
      m.after.store.timers =
        m.before.store.timers.setStatus (fun r => r.timerId = timerId) .fired ∧
      m.after.store.queue = enqueueFired m.before.store.queue r m.before.now := by
  obtain ⟨before, action, after⟩ := m
  cases action with
  | fireTimer id =>
      simp only [enqueues, Bool.decide_and, Bool.decide_eq_true, Bool.and_eq_true,
        decide_eq_true_eq] at h
      obtain ⟨rfl, fired⟩ := h
      have effect := @fireTimer_effect (defaultTaskVersion before.store.tasks) before.store.timers
        before.store.queue id before.now
      simp only [step, Store.fire, Option.some.injEq] at hs fired
      subst hs
      generalize fireTimer (defaultTaskVersion before.store.tasks) before.store.timers
        before.store.queue id before.now = result at effect fired
      obtain ⟨timers, queue, outcome⟩ := result
      cases effect with
      | suppressed | voided => cases fired
      | fired r row unsettled unguarded => exact ⟨r, row, unsettled, unguarded, rfl, rfl⟩
  | _ => cases h

/-- In every run a timer enqueues at most one message, and not before a fire that found it
    unsettled, and the task it guards open at the version it was stamped with. -/
theorem timer_enqueues_once (timerId : String) (w : World) (as : List Action) :
    (Transition.history step w as).countP (enqueues timerId) ≤ 1 ∧
      ∀ m ∈ Transition.history step w as, enqueues timerId m = true →
        ∃ r, m.before.store.timers.get? timerId = some r ∧ r.status.final = false ∧
          m.after.store.queue = enqueueFired m.before.store.queue r m.before.now ∧
          ∀ taskId version, r.guards taskId version → ∃ task ∈ m.before.store.tasks,
            task.taskId = taskId ∧ task.status = .open ∧ task.taskVersion = version := by
  constructor
  · refine Transition.countP_history_le_one (P := TimerSettled timerId)
      (fun m h hs settled => ?_) (fun m h hs => ?_) fun w a w' h hs => h.step hs
    · obtain ⟨r, row, unsettled, -⟩ := enqueues_fired h hs
      obtain ⟨r', hr', hid', final⟩ := settled
      obtain ⟨hr, hid⟩ := Table.get?_eq_some.mp row
      obtain rfl := Table.eq_of_key_eq hr hr' (hid.trans hid'.symm)
      rw [unsettled] at final
      cases final
    · obtain ⟨r, row, -, -, timers, -⟩ := enqueues_fired h hs
      obtain ⟨hr, hid⟩ := Table.get?_eq_some.mp row
      refine ⟨r.withStatus .fired, ?_, hid, rfl⟩
      rw [timers, Timers.mem_setStatus]
      exact ⟨r, hr, by simp [hid]⟩
  · intro m hm h
    obtain ⟨r, row, unsettled, unguarded, -, queue⟩ :=
      enqueues_fired h (Transition.step_of_mem_history hm)
    refine ⟨r, row, unsettled, queue, fun taskId version guards => ?_⟩
    have resolved := guardReason_eq_none unguarded guards
    obtain ⟨task, found, hversion⟩ := Option.map_eq_some_iff.mp resolved
    obtain ⟨row, hopen⟩ := Option.filter_eq_some_iff.mp found
    obtain ⟨hmem, hid⟩ := Table.get?_eq_some.mp row
    exact ⟨task, hmem, hid, by simpa using hopen, hversion⟩

end FeatureGen.Gates
