import FeatureGen.Events.Store
import FeatureGen.Lib.SortedLog

/-! # The projection runner

`run_projection` of `projections/runner.py` over one projection: its checkpoint
row, the tables its `apply` writes (one state `S`), and the two ledgers of
events it could not apply. A projection that is not analytics halts before such
an event; an analytics projection records the skip and goes on.
-/

namespace FeatureGen.Projections

open FeatureGen.Events

/-- What `apply` comes to. A failed one leaves no partial writes behind. -/
inductive ApplyResult (S : Type) where
  | ok (state : S)
  /-- `ProjectionApplyError`. -/
  | applyError (aggregate aggregateId reason : String)
  /-- Any other exception. -/
  | unexpected (typeName text : String)

structure Projection (π S : Type) where
  isAnalytics : Bool
  apply : S → Event π → ApplyResult S

/-- A row of `projection_degraded`, of one projection. -/
structure Degraded where
  aggregate : String
  aggregateId : String
  reason : String
  poisonEventId : String
  poisonSeq : ℕ

/-- A row of `projection_skips`, of one projection. -/
structure Skip where
  eventGlobalSeq : ℕ
  reason : String

/-- What is stored of a projection. A checkpoint row that does not exist yet
    counts as its defaults. -/
structure Stored (π S : Type) where
  checkpointSeq : ℕ
  headSeq : ℕ
  state : S
  skips : List Skip
  degraded : List Degraded
  /-- Every event whose application is committed, oldest first. -/
  applied : List (Event π)

section Run

variable {π S : Type}

/-- The first 500 characters. -/
def truncated (s : String) : String := String.ofList (s.toList.take 500)

/-- `INSERT … ON CONFLICT DO NOTHING`. -/
def addSkip (skips : List Skip) (skip : Skip) : List Skip :=
  if ∃ s ∈ skips, s.eventGlobalSeq = skip.eventGlobalSeq then skips else skips ++ [skip]

/-- `_mark_degraded`: one row for each aggregate, the last marker wins. -/
def markDegraded (degraded : List Degraded) (marker : Degraded) : List Degraded :=
  (degraded.filter fun d =>
    ¬ (d.aggregate = marker.aggregate ∧ d.aggregateId = marker.aggregateId)) ++ [marker]

/-- The select's rows: the next `batch` events after the checkpoint. -/
def nextEvents (visible : List (Event π)) (checkpoint batch : ℕ) : List (Event π) :=
  ((visible.filter fun e => checkpoint < e.globalSeq).insertionSort
    fun e e' => e.globalSeq ≤ e'.globalSeq).take batch

def headSeq (visible : List (Event π)) : ℕ := (visible.map (·.globalSeq)).foldr max 0

/-- The loop of `run_projection` over the selected rows, on what is stored;
    none when an exception escapes it. -/
def applyRows (p : Projection π S) : List (Event π) → Stored π S → Option (Stored π S)
  | [], s => some s
  | e :: rows, s =>
      match p.apply s.state e with
      | .ok state => applyRows p rows { s with
          state := state, checkpointSeq := e.globalSeq, applied := s.applied ++ [e] }
      | .applyError aggregate aggregateId reason =>
          if p.isAnalytics then
            let skip : Skip := ⟨e.globalSeq, truncated s!"{aggregate}:{aggregateId}: {reason}"⟩
            applyRows p rows { s with
              checkpointSeq := e.globalSeq, skips := addSkip s.skips skip }
          else
            let marker : Degraded := ⟨aggregate, aggregateId, reason, e.eventId, e.globalSeq⟩
            some { s with degraded := markDegraded s.degraded marker }
      | .unexpected typeName text =>
          if p.isAnalytics then none
          else
            let reason := truncated s!"unexpected {typeName}: {text}"
            let marker : Degraded := ⟨e.aggregate, e.aggregateId, reason, e.eventId, e.globalSeq⟩
            some { s with degraded := markDegraded s.degraded marker }

/-- What the tables hold after all of these events, if each can be applied. -/
def applyAll (p : Projection π S) : S → List (Event π) → Option S
  | s, [] => some s
  | s, e :: rows =>
      match p.apply s e with
      | .ok s' => applyAll p s' rows
      | _ => none

theorem applyAll_append {p : Projection π S} {s : S} {rows more : List (Event π)} :
    applyAll p s (rows ++ more) = (applyAll p s rows).bind fun s' => applyAll p s' more := by
  induction rows generalizing s with
  | nil => rfl
  | cons e rows ih =>
      simp only [List.cons_append, applyAll]
      split
      · exact ih
      · rfl

theorem applyRows_halting {p : Projection π S} (halts : p.isAnalytics = false)
    {rows : List (Event π)} {s s' : Stored π S} (h : applyRows p rows s = some s') :
    ∃ done, done <+: rows ∧ s'.applied = s.applied ++ done ∧
      s'.checkpointSeq = SortedLog.position Event.globalSeq s.checkpointSeq done ∧
      applyAll p s.state done = some s'.state := by
  induction rows generalizing s with
  | nil =>
      cases h
      exact ⟨[], List.prefix_refl _, by simp, rfl, rfl⟩
  | cons e rows ih =>
      have halted : ∀ marker : Degraded,
          some { s with degraded := markDegraded s.degraded marker } = some s' →
          ∃ done, done <+: e :: rows ∧ s'.applied = s.applied ++ done ∧
            s'.checkpointSeq = SortedLog.position Event.globalSeq s.checkpointSeq done ∧
            applyAll p s.state done = some s'.state := by
        intro marker heq
        cases heq
        exact ⟨[], List.nil_prefix, by simp, rfl, rfl⟩
      simp only [applyRows, halts] at h
      split at h
      · next state hok =>
          obtain ⟨done, htaken, happlied, hcheckpoint, hstate⟩ := ih h
          refine ⟨e :: done, List.prefix_cons_inj e |>.mpr htaken, ?_, hcheckpoint, ?_⟩
          · rw [happlied, List.append_assoc, List.singleton_append]
          · simp only [applyAll, hok]
            exact hstate
      · exact halted _ h
      · exact halted _ h

theorem applyRows_checkpoint {p : Projection π S} {rows : List (Event π)} {s s' : Stored π S}
    (h : applyRows p rows s = some s') : ∃ done, done <+: rows ∧
      s'.checkpointSeq = SortedLog.position Event.globalSeq s.checkpointSeq done := by
  induction rows generalizing s with
  | nil =>
      cases h
      exact ⟨[], List.prefix_refl _, rfl⟩
  | cons e rows ih =>
      simp only [applyRows] at h
      split at h
      · obtain ⟨done, htaken, hcheckpoint⟩ := ih h
        exact ⟨e :: done, List.prefix_cons_inj e |>.mpr htaken, hcheckpoint⟩
      · split at h
        · obtain ⟨done, htaken, hcheckpoint⟩ := ih h
          exact ⟨e :: done, List.prefix_cons_inj e |>.mpr htaken, hcheckpoint⟩
        · cases h
          exact ⟨[], List.nil_prefix, rfl⟩
      · split at h
        · cases h
        · cases h
          exact ⟨[], List.nil_prefix, rfl⟩

theorem applyRows_of_applyAll {p : Projection π S} {rows : List (Event π)} {s : Stored π S}
    {state : S} (h : applyAll p s.state rows = some state) : applyRows p rows s = some { s with
      state := state
      checkpointSeq := SortedLog.position Event.globalSeq s.checkpointSeq rows
      applied := s.applied ++ rows } := by
  induction rows generalizing s with
  | nil =>
      cases h
      simp [applyRows]
  | cons e rows ih =>
      simp only [applyAll] at h
      split at h
      · next next hok =>
          simp only [applyRows, hok]
          rw [ih h]
          simp
      · cases h

theorem nextEvents_ordered {visible : List (Event π)}
    (h : SortedLog.Ordered Event.globalSeq visible) (checkpoint batch : ℕ) :
    nextEvents visible checkpoint batch =
      (SortedLog.after Event.globalSeq visible checkpoint).take batch := by
  rw [nextEvents]
  exact congrArg _ (h.after checkpoint).insertionSort_eq

end Run

end FeatureGen.Projections
