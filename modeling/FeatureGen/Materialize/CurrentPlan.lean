import Mathlib
import FeatureGen.Materialize.GroupBindings
import FeatureGen.Materialize.PublicationOrder

/-! # The current plan of a group

The plane says twice what a group is now: the active revision is the publication of the
newest seq, and the current plan the published revision of the latest creation. Both are
of the same publications, whole transactions at a time; the orders are their own.
-/

namespace FeatureGen.Materialize

open FeatureGen.Runtime (Instant)
open Transition

variable {fromisoformat : String → Option IsoTimestamp}

section Derivation

variable {revisions : List (GroupPlanRevision fromisoformat)} {ids : List String}
  {p : GroupPlanRevision fromisoformat}

theorem dedup_length_le_one {α : Type} [DecidableEq α] {l : List α} {a : α}
    (same : ∀ b ∈ l, b = a) : l.dedup.length ≤ 1 := by
  have : l.dedup ⊆ [a] := fun b hb => by simp [same b (List.mem_dedup.mp hb)]
  exact (List.nodup_dedup l).subperm this |>.length_le

/-- Revisions of one binding, each of a generation of its own. -/
structure OneHistory (revisions : List (GroupPlanRevision fromisoformat)) : Prop where
  binding : ∃ id, ∀ r ∈ revisions, r.bindingId = id
  generation : ∀ a ∈ revisions, ∀ b ∈ revisions, a.generationId = b.generationId → a = b

theorem OneHistory.not_several (h : OneHistory revisions) :
    ¬ 1 < ((revisions.map (·.bindingId)).dedup).length := by
  obtain ⟨id, same⟩ := h.binding
  refine not_lt.mpr (dedup_length_le_one (a := id) fun b hb => ?_)
  obtain ⟨r, hr, rfl⟩ := List.mem_map.mp hb
  exact same r hr

theorem mem_filter_published {q : GroupPlanRevision fromisoformat} :
    q ∈ revisions.filter (fun r => ids.contains r.generationId) ↔
      q ∈ revisions ∧ q.generationId ∈ ids := by
  simp

theorem current_of_unpublished (h : OneHistory revisions)
    (unpublished : ∀ q ∈ revisions, q.generationId ∉ ids) :
    currentPlanRevision revisions ids = .ok none := by
  have none : revisions.filter (fun r => ids.contains r.generationId) = [] :=
    List.filter_eq_nil_iff.mpr fun q hq => by simpa using unpublished q hq
  unfold currentPlanRevision
  simp only [h.not_several, if_false, none, List.map_nil, List.max?_nil]
  split <;> rfl

theorem current_eq_some (h : OneHistory revisions)
    (current : currentPlanRevision revisions ids = .ok (some p)) :
    p ∈ revisions ∧ p.generationId ∈ ids ∧
      ∀ q ∈ revisions, q.generationId ∈ ids → q ≠ p → q.instant < p.instant := by
  unfold currentPlanRevision at current
  simp only [h.not_several, if_false] at current
  split at current
  · cases current
  split at current
  · cases current
  rename_i latest hmax
  split at current
  · cases current
  rename_i untied
  obtain ⟨_, bound⟩ := List.max?_eq_some_iff.mp hmax
  obtain ⟨hp, instant⟩ := List.mem_filter.mp (List.mem_of_head? (Except.ok.inj current))
  have instant : p.instant = latest := of_decide_eq_true instant
  obtain ⟨mem, published⟩ := mem_filter_published.mp hp
  refine ⟨mem, published, fun q hq hids other => ?_⟩
  have le : q.instant ≤ latest :=
    bound q.instant (List.mem_map.mpr ⟨q, mem_filter_published.mpr ⟨hq, hids⟩, rfl⟩)
  refine instant ▸ lt_of_le_of_ne le fun tie => other ?_
  -- A tie is of one plan and one generation.
  let pair (r : GroupPlanRevision fromisoformat) := (r.groupPlanHash, r.generationId)
  have distinct {r : GroupPlanRevision fromisoformat} (hr : r ∈ revisions)
      (hrids : r.generationId ∈ ids) (ties : r.instant = latest) :
      pair r ∈ (((revisions.filter fun r => ids.contains r.generationId).filter
        (·.instant = latest)).map pair).dedup := by
    refine List.mem_dedup.mpr (List.mem_map.mpr ⟨r, List.mem_filter.mpr ⟨?_, ?_⟩, rfl⟩)
    · exact mem_filter_published.mpr ⟨hr, hrids⟩
    · exact decide_eq_true ties
  have same : pair q = pair p := by
    have two := distinct hq hids tie
    have one := distinct mem published instant
    generalize (((revisions.filter fun r => ids.contains r.generationId).filter
      (·.instant = latest)).map pair).dedup = l at two one untied
    match l with
    | [] => cases one
    | [a] => rw [List.mem_singleton.mp one, List.mem_singleton.mp two]
    | _ :: _ :: _ => simp at untied
  exact h.generation q hq p mem (Prod.ext_iff.mp same).2

theorem current_of_latest (h : OneHistory revisions) (mem : p ∈ revisions)
    (published : p.generationId ∈ ids)
    (latest : ∀ q ∈ revisions, q.generationId ∈ ids → q ≠ p → q.instant < p.instant) :
    currentPlanRevision revisions ids = .ok (some p) := by
  have hp := mem_filter_published.mpr ⟨mem, published⟩
  have nonempty : revisions.isEmpty = false := by
    cases revisions with
    | nil => cases mem
    | cons => rfl
  have hmax : (((revisions.filter fun r => ids.contains r.generationId)).map (·.instant)).max? =
      some p.instant := by
    refine List.max?_eq_some_iff.mpr ⟨List.mem_map.mpr ⟨p, hp, rfl⟩, fun i hi => ?_⟩
    obtain ⟨q, hq, rfl⟩ := List.mem_map.mp hi
    obtain ⟨hq, hids⟩ := mem_filter_published.mp hq
    by_cases hqp : q = p
    · rw [hqp]
    · exact (latest q hq hids hqp).le
  have only : ∀ q ∈ (revisions.filter fun r => ids.contains r.generationId).filter
      (·.instant = p.instant), q = p := by
    intro q hq
    obtain ⟨hq, tie⟩ := List.mem_filter.mp hq
    obtain ⟨hq, hids⟩ := mem_filter_published.mp hq
    by_contra hqp
    exact absurd (of_decide_eq_true tie) (latest q hq hids hqp).ne
  have untied : ¬ 1 < ((((revisions.filter fun r => ids.contains r.generationId).filter
      (·.instant = p.instant)).map fun r => (r.groupPlanHash, r.generationId)).dedup).length := by
    refine not_lt.mpr (dedup_length_le_one (a := (p.groupPlanHash, p.generationId)) fun b hb => ?_)
    obtain ⟨q, hq, rfl⟩ := List.mem_map.mp hb
    rw [only q hq]
  have head : ((revisions.filter fun r => ids.contains r.generationId).filter
      (·.instant = p.instant)).head? = some p := by
    have tied : p ∈ (revisions.filter fun r => ids.contains r.generationId).filter
        (·.instant = p.instant) := List.mem_filter.mpr ⟨hp, by simp⟩
    rw [List.head?_eq_some_head (List.ne_nil_of_mem tied)]
    exact congrArg some (only _ (List.head_mem _))
  unfold currentPlanRevision
  simp only [h.not_several, nonempty, if_false, Bool.false_eq_true, hmax, untied, head]

theorem current_eq_none_iff (h : OneHistory revisions) :
    currentPlanRevision revisions ids = .ok none ↔ ∀ q ∈ revisions, q.generationId ∉ ids := by
  refine ⟨fun current q hq hids => ?_, current_of_unpublished h⟩
  unfold currentPlanRevision at current
  simp only [h.not_several, if_false] at current
  split at current
  · rename_i hempty
    rw [List.isEmpty_iff.mp hempty] at hq
    cases hq
  split at current
  · rename_i hmax
    have none := List.map_eq_nil_iff.mp (List.max?_eq_none_iff.mp hmax)
    have found := mem_filter_published.mpr ⟨hq, hids⟩
    rw [none] at found
    cases found
  · rename_i latest hmax
    split at current
    · cases current
    · obtain ⟨mem, _⟩ := List.max?_eq_some_iff.mp hmax
      obtain ⟨r, hr, instant⟩ := List.mem_map.mp mem
      have none := List.head?_eq_none_iff.mp (Except.ok.inj current)
      have tied : r ∈ (revisions.filter fun r => ids.contains r.generationId).filter
          (·.instant = latest) := List.mem_filter.mpr ⟨hr, decide_eq_true instant⟩
      rw [none] at tied
      cases tied

end Derivation

def CompilePhase.plan : CompilePhase fromisoformat → Option (GroupPlanRevision fromisoformat)
  | .planned plan | .publishing plan | .published plan _ | .ended plan _ _ => some plan
  | _ => none

namespace CompileCall

/-- The generation and the binding, as they are recorded. -/
def bound (call : CompileCall fromisoformat) : List (PlaneRow fromisoformat) :=
  .generation call.compilation.generation :: if call.minted then [.binding call.binding] else []

/-- What the call has written so far. -/
def wrote (call : CompileCall fromisoformat) : List (PlaneRow fromisoformat) :=
  match call.phase with
  | .begun => []
  | .generated => [.generation call.compilation.generation]
  | .bound => call.bound
  | .planned plan | .publishing plan | .published plan _ =>
      call.bound ++ [.plan plan call.startedAt]
  | .ended plan _ event => call.bound ++ [.plan plan call.startedAt] ++ [.event event]

def Activates (call : CompileCall fromisoformat) (r : ActiveRevision) : Prop :=
  r.logicalGroupName = call.compilation.logicalGroupName ∧
    r.generationId = call.compilation.generationId

/-- What the call has published so far, and its event says so. -/
def Publishes (call : CompileCall fromisoformat) (publish : Option PublishCall)
    (own : List ActiveRevision) : Prop :=
  match call.phase with
  | .publishing _ => ∃ p, (∀ seq, call.Activates (p.revision seq)) ∧
      ((∃ seq, own = [] ∧ (publish = some ⟨p, .numbered seq⟩ ∨ publish = some ⟨p, .checked seq⟩)) ∨
        ∃ r, call.Activates r ∧ own = [r] ∧ publish = some ⟨p, .recorded r⟩)
  | .published _ r => publish = none ∧ own = [r] ∧ call.Activates r
  | .ended _ revision event => publish = none ∧ own = revision.toList ∧
      (∀ r, revision = some r → call.Activates r) ∧
      event.generationId = call.compilation.generationId ∧
      (event.eventKind = .published ↔ revision.isSome = true)
  | _ => publish = none ∧ own = []

end CompileCall

theorem Publications.step_within {w w' : Publications} {action : PublishAction}
    (h : w.step action = some w') (opens : ∀ txn, action ≠ .commit txn) :
    w'.revisions.committed = w.revisions.committed ∧ ∀ other ≠ action.txn,
      w'.calls other = w.calls other ∧ w'.revisions.own other = w.revisions.own other := by
  cases stepped h with
  | rolledBack action =>
      exact ⟨rfl, fun other ho => ⟨by simp [rollback, ho], AppendLog.own_rollback_ne ho⟩⟩
  | begun txn p idle => exact ⟨rfl, fun other ho => ⟨by simp_all [goOn, PublishAction.txn], rfl⟩⟩
  | checked txn p seq begun =>
      exact ⟨rfl, fun other ho => ⟨by simp_all [goOn, PublishAction.txn], rfl⟩⟩
  | inserted txn p seq begun revisions inserted =>
      obtain ⟨_, _, rfl⟩ := AppendLog.insert_eq_log inserted
      exact ⟨rfl, fun other ho =>
        ⟨by simp_all [goOn, PublishAction.txn], AppendLog.own_insert_ne ho⟩⟩
  | swapped txn p r begun => exact ⟨rfl, fun other ho => ⟨by simp_all [PublishAction.txn], rfl⟩⟩
  | committed txn idle => exact absurd rfl (opens txn)

namespace Plane

variable {w w' : Plane fromisoformat} {txn : ℕ} {call call' : CompileCall fromisoformat}
  {row : PlaneRow fromisoformat}

/-- Each plan is of its binding's group, each active revision has a plan and an event, and
    each event that says so an active revision. -/
structure Whole (rows : List (PlaneRow fromisoformat)) (actives : List ActiveRevision) : Prop where
  plan : ∀ p recordedAt, .plan p recordedAt ∈ rows → ∃ b g, .binding b ∈ rows ∧ .generation g ∈ rows ∧
    b.bindingId = p.bindingId ∧ g.generationId = p.generationId ∧
    g.logicalGroupName = b.logicalGroupName
  active : ∀ r ∈ actives, ∃ p recordedAt b e, .plan p recordedAt ∈ rows ∧ .binding b ∈ rows ∧
    .event e ∈ rows ∧ p.generationId = r.generationId ∧ p.bindingId = b.bindingId ∧
    b.logicalGroupName = r.logicalGroupName ∧ e.eventKind = .published ∧
    e.generationId = r.generationId
  event : ∀ e, .event e ∈ rows → e.eventKind = .published →
    ∃ r ∈ actives, r.generationId = e.generationId

/-- A call under way and what its transaction has written. -/
structure Mine (w : Plane fromisoformat) (txn : ℕ) (call : CompileCall fromisoformat) : Prop where
  rows : w.rows.own txn = call.wrote
  name : call.binding.logicalGroupName = call.compilation.logicalGroupName
  found : call.minted = false → .binding call.binding ∈ w.rows.committed
  plan : ∀ plan, call.phase.plan = some plan → plan.bindingId = call.binding.bindingId ∧
    plan.generationId = call.compilation.generationId
  publishes : call.Publishes (w.publications.calls txn) (w.publications.revisions.own txn)

structure Kept (w : Plane fromisoformat) : Prop where
  distinct : w.rows.Distinct PlaneRow.conflicts
  whole : Whole w.rows.committed w.publications.revisions.committed
  mine : ∀ txn call, w.calls txn = some call → w.Mine txn call
  idle : ∀ txn, w.calls txn = none → w.rows.own txn = [] ∧ w.publications.calls txn = none ∧
    w.publications.revisions.own txn = []

theorem kept_empty : (empty : Plane fromisoformat).Kept where
  distinct := AppendLog.distinct_empty
  whole := ⟨by simp [empty, AppendLog.empty], by simp [empty, Publications.empty, AppendLog.empty],
    by simp [empty, AppendLog.empty]⟩
  mine := by simp [empty]
  idle txn _ := ⟨rfl, rfl, rfl⟩

/-- The step of one transaction, that commits nothing. -/
structure Within (w w' : Plane fromisoformat) (txn : ℕ) : Prop where
  rows : w'.rows.committed = w.rows.committed
  revisions : w'.publications.revisions.committed = w.publications.revisions.committed
  calls : ∀ other ≠ txn, w'.calls other = w.calls other
  ownRows : ∀ other ≠ txn, w'.rows.own other = w.rows.own other
  publishCalls : ∀ other ≠ txn, w'.publications.calls other = w.publications.calls other
  ownRevisions : ∀ other ≠ txn, w'.publications.revisions.own other =
    w.publications.revisions.own other

theorem Within.mine {other : ℕ} (h : Within w w' txn) (hne : other ≠ txn)
    (mine : w.Mine other call) : w'.Mine other call where
  rows := (h.ownRows other hne).trans mine.rows
  name := mine.name
  found minted := h.rows ▸ mine.found minted
  plan := mine.plan
  publishes := by
    rw [h.publishCalls other hne, h.ownRevisions other hne]
    exact mine.publishes

theorem Kept.within (h : w.Kept) (txn : ℕ) (within : Within w w' txn)
    (distinct : w'.rows.Distinct PlaneRow.conflicts)
    (mine : ∀ call, w'.calls txn = some call → w'.Mine txn call)
    (idle : w'.calls txn = none → w'.rows.own txn = [] ∧ w'.publications.calls txn = none ∧
      w'.publications.revisions.own txn = []) : w'.Kept where
  distinct := distinct
  whole := by
    rw [within.rows, within.revisions]
    exact h.whole
  mine other call hcall := by
    by_cases ho : other = txn
    · subst ho
      exact mine call hcall
    · exact within.mine ho (h.mine other call (within.calls other ho ▸ hcall))
  idle other hother := by
    by_cases ho : other = txn
    · subst ho
      exact idle hother
    · rw [within.ownRows other ho, within.publishCalls other ho, within.ownRevisions other ho]
      exact h.idle other (within.calls other ho ▸ hother)

theorem Kept.rollback (h : w.Kept) : (w.rollback txn).Kept := by
  refine h.within txn ⟨rfl, rfl, fun other ho => ?_, fun other ho => ?_,
    fun other ho => ?_, fun other ho => ?_⟩ h.distinct.rollback (fun call hcall => ?_) fun _ =>
    ⟨AppendLog.own_rollback_self, ?_, AppendLog.own_rollback_self⟩
  · simp [Plane.rollback, ho]
  · exact AppendLog.own_rollback_ne ho
  · simp [Plane.rollback, Publications.rollback, ho]
  · exact AppendLog.own_rollback_ne ho
  · simp [Plane.rollback] at hcall
  · simp [Plane.rollback, Publications.rollback]

theorem Kept.setCall (h : w.Kept) (mine : w.Mine txn call) : (w.setCall txn call).Kept := by
  refine h.within txn ⟨rfl, rfl, fun other ho => ?_, fun _ _ => rfl, fun _ _ => rfl,
    fun _ _ => rfl⟩ h.distinct (fun c hc => ?_) fun hnone => ?_
  · simp [Plane.setCall, ho]
  · obtain rfl : call = c := by simpa [Plane.setCall] using hc
    exact ⟨mine.rows, mine.name, mine.found, mine.plan, mine.publishes⟩
  · simp [Plane.setCall] at hnone

theorem Kept.writeRow (h : w.Kept) (calling : w.calls txn = some call)
    (hstep : w.writeRow txn row call' = some w')
    (wrote : call'.wrote = call.wrote ++ [row]) (compilation : call'.compilation = call.compilation)
    (binding : call'.binding = call.binding) (minted : call'.minted = call.minted)
    (plan : ∀ plan, call'.phase.plan = some plan → plan.bindingId = call.binding.bindingId ∧
      plan.generationId = call.compilation.generationId)
    (publishes : call.Publishes (w.publications.calls txn) (w.publications.revisions.own txn) →
      call'.Publishes (w.publications.calls txn) (w.publications.revisions.own txn)) :
    w'.Kept := by
  unfold Plane.writeRow at hstep
  split at hstep
  · cases hstep
    exact h.rollback
  split at hstep
  · cases hstep
  · cases hstep
    exact h.rollback
  · rename_i rows inserted
    cases hstep
    have mine := h.mine txn call calling
    obtain ⟨_, _, rfl⟩ := AppendLog.insert_eq_log inserted
    refine h.within txn ⟨rfl, rfl, fun other ho => ?_,
      fun other ho => AppendLog.own_insert_ne ho, fun _ _ => rfl, fun _ _ => rfl⟩
      (h.distinct.insert inserted) (fun c hc => ?_) fun hnone => ?_
    · simp [Plane.setCall, ho]
    · obtain rfl : call' = c := by simpa [Plane.setCall] using hc
      refine ⟨?_, ?_, fun hminted => ?_, ?_, publishes mine.publishes⟩
      · rw [wrote, ← mine.rows]
        exact AppendLog.own_insert_self
      · rw [binding, compilation, mine.name]
      · rw [binding]
        exact mine.found (minted ▸ hminted)
      · rw [binding, compilation]
        exact plan
    · simp [Plane.setCall] at hnone

theorem Kept.goPublish (h : w.Kept) {action : PublishAction}
    (calling : w.calls txn = some call) (hstep : w.goPublish txn action call' = some w')
    (own : action.txn = txn)
    (opens : ∀ t, action ≠ .commit t) (wrote : call'.wrote = call.wrote)
    (compilation : call'.compilation = call.compilation)
    (binding : call'.binding = call.binding) (minted : call'.minted = call.minted)
    (plan : call'.phase.plan = call.phase.plan)
    (publishes : ∀ publications, w.publications.step action = some publications →
      (publications.calls txn).isSome = true →
      call'.Publishes (publications.calls txn) (publications.revisions.own txn)) : w'.Kept := by
  unfold Plane.goPublish at hstep
  split at hstep
  · cases hstep
  rename_i publications stepped
  split at hstep
  · cases hstep
    exact h.rollback
  rename_i publishing
  cases hstep
  subst own
  have mine := h.mine action.txn call calling
  obtain ⟨committed, others⟩ := Publications.step_within stepped opens
  refine h.within action.txn ⟨rfl, committed, fun other ho => ?_, fun _ _ => rfl,
    fun other ho => (others other ho).1, fun other ho => (others other ho).2⟩ h.distinct
    (fun c hc => ?_) fun hnone => ?_
  · simp [Plane.setCall, ho]
  · obtain rfl : call' = c := by simpa [Plane.setCall] using hc
    refine ⟨?_, ?_, fun hminted => ?_, ?_, publishes publications stepped ?_⟩
    · rw [wrote]
      exact mine.rows
    · rw [binding, compilation, mine.name]
    · rw [binding]
      exact mine.found (minted ▸ hminted)
    · rw [binding, compilation, plan]
      exact mine.plan
    · rw [publishing]
      rfl
  · simp [Plane.setCall] at hnone

theorem bindGroup_eq_binding {c : Compilation} {existing : Option GroupContractBinding}
    {binding : GroupContractBinding} (h : bindGroup c existing = .binding binding) :
    binding.logicalGroupName = c.logicalGroupName ∧
      (existing.isNone = false → existing = some binding) := by
  unfold bindGroup at h
  split at h
  · split at h
    · cases h
    · cases h
      exact ⟨rfl, fun some => by cases some⟩
  · split at h
    · cases h
    rename_i name
    split at h
    · cases h
    split at h
    · cases h
    · cases h
      exact ⟨not_not.mp name, fun _ => rfl⟩

theorem mem_of_readGroupBinding {name : String} {binding : GroupContractBinding}
    (h : w.readGroupBinding txn name = some binding) :
    .binding binding ∈ w.rows.visible txn := by
  obtain ⟨row, hrow, found⟩ := List.mem_filterMap.mp (List.mem_of_head? h)
  unfold PlaneRow.isBindingOf at found
  split at found
  · split at found
    · cases found
      exact hrow
    · cases found
  · cases found

theorem planRevision_eq_some {c : Compilation} {binding : GroupContractBinding}
    {plan : GroupPlanRevision fromisoformat} (h : planRevision fromisoformat c binding = some plan) :
    plan.bindingId = binding.bindingId ∧ plan.generationId = c.generationId := by
  unfold planRevision at h
  split at h
  · cases h
  split at h
  · split at h
    · cases h
      exact ⟨rfl, rfl⟩
    · cases h
  · cases h

theorem conflicts_symm (a b : PlaneRow fromisoformat) (h : a.conflicts b = false) :
    b.conflicts a = false := by
  cases a <;> cases b <;> simp only [PlaneRow.conflicts] at h ⊢ <;> grind

theorem Kept.commit_whole (h : w.Kept) {plan : GroupPlanRevision fromisoformat}
    {revision : Option ActiveRevision} {event : RunEvent} (calling : w.calls txn = some call)
    (ended : call.phase = .ended plan revision event) :
    Whole (w.rows.committed ++ w.rows.own txn)
      (w.publications.revisions.committed ++ w.publications.revisions.own txn) := by
  have mine := h.mine txn call calling
  have publishes := mine.publishes
  simp only [CompileCall.Publishes, ended] at publishes
  obtain ⟨_, own, activates, generation, told⟩ := publishes
  obtain ⟨bindingId, generationId⟩ := mine.plan plan (by rw [ended]; rfl)
  have rows : w.rows.own txn = call.bound ++ [.plan plan call.startedAt] ++ [.event event] := by
    rw [mine.rows, CompileCall.wrote, ended]
  have hgeneration : .generation call.compilation.generation ∈ w.rows.own txn := by
    simp [rows, CompileCall.bound]
  have hplan : .plan plan call.startedAt ∈ w.rows.own txn := by simp [rows]
  have hevent : .event event ∈ w.rows.own txn := by simp [rows]
  have hbinding : .binding call.binding ∈ w.rows.committed ++ w.rows.own txn := by
    cases hminted : call.minted with
    | false => exact List.mem_append_left _ (mine.found hminted)
    | true => exact List.mem_append_right _ (by simp [rows, CompileCall.bound, hminted])
  refine ⟨fun p recordedAt hp => ?_, fun r hr => ?_, fun e he published => ?_⟩
  · rcases List.mem_append.mp hp with old | new
    · obtain ⟨b, g, hb, hg, rest⟩ := h.whole.plan p recordedAt old
      exact ⟨b, g, List.mem_append_left _ hb, List.mem_append_left _ hg, rest⟩
    · obtain rfl : p = plan := by
        rw [rows] at new
        simp only [CompileCall.bound] at new
        split at new <;> simp_all
      exact ⟨call.binding, call.compilation.generation, hbinding, List.mem_append_right _ hgeneration,
        bindingId.symm, generationId.symm, mine.name.symm⟩
  · rcases List.mem_append.mp hr with old | new
    · obtain ⟨p, recordedAt, b, e, hp, hb, he, rest⟩ := h.whole.active r old
      exact ⟨p, recordedAt, b, e, List.mem_append_left _ hp, List.mem_append_left _ hb,
        List.mem_append_left _ he, rest⟩
    · rw [own, Option.mem_toList] at new
      obtain ⟨name, id⟩ := activates r new
      refine ⟨plan, call.startedAt, call.binding, event, List.mem_append_right _ hplan, hbinding,
        List.mem_append_right _ hevent, generationId.trans id.symm, bindingId,
        mine.name.trans name.symm, told.mpr ?_, generation.trans id.symm⟩
      rw [new]
      rfl
  · rcases List.mem_append.mp he with old | new
    · obtain ⟨r, hr, same⟩ := h.whole.event e old published
      exact ⟨r, List.mem_append_left _ hr, same⟩
    · obtain rfl : e = event := by
        rw [rows] at new
        simp only [CompileCall.bound] at new
        split at new <;> simp_all
      obtain ⟨r, hr⟩ := Option.isSome_iff_exists.mp (told.mp published)
      refine ⟨r, List.mem_append_right _ (by simp [own, hr]), ?_⟩
      exact (activates r hr).2.trans generation.symm

theorem Kept.commit (h : w.Kept) {plan : GroupPlanRevision fromisoformat}
    {revision : Option ActiveRevision} {event : RunEvent} (calling : w.calls txn = some call)
    (ended : call.phase = .ended plan revision event) {publications : Publications}
    (committed : w.publications.step (.commit txn) = some publications) :
    Kept ⟨w.rows.commit txn, publications, Function.update w.calls txn none⟩ := by
  have publishes := (h.mine txn call calling).publishes
  simp only [CompileCall.Publishes, ended] at publishes
  obtain rfl : publications = ⟨w.publications.revisions.commit txn, w.publications.calls,
      w.publications.swaps⟩ := by
    simp only [Publications.step, publishes.1] at committed
    exact (Option.some.inj committed).symm
  refine ⟨h.distinct.commit conflicts_symm, h.commit_whole calling ended, fun other c hc => ?_,
    fun other hother => ?_⟩
  · have ho : other ≠ txn := by
      rintro rfl
      simp at hc
    have mine := h.mine other c (by simpa [ho] using hc)
    exact ⟨(AppendLog.own_commit_ne ho).trans mine.rows, mine.name,
      fun minted => List.mem_append_left _ (mine.found minted), mine.plan,
      (AppendLog.own_commit_ne ho).symm ▸ mine.publishes⟩
  · by_cases ho : other = txn
    · subst ho
      exact ⟨AppendLog.own_commit_self, publishes.1, AppendLog.own_commit_self⟩
    · have idle := h.idle other (by simpa [ho] using hother)
      exact ⟨(AppendLog.own_commit_ne ho).trans idle.1, idle.2.1,
        (AppendLog.own_commit_ne ho).trans idle.2.2⟩

theorem Kept.writeEvent (h : w.Kept) (calling : w.calls txn = some call)
    {plan : GroupPlanRevision fromisoformat} {revision : Option ActiveRevision} {event : RunEvent}
    (hstep : w.writeEvent txn event (call.goTo (.ended plan revision event)) = some w')
    (planned : call.phase.plan = some plan)
    (wrote : call.wrote = call.bound ++ [.plan plan call.startedAt])
    (publishes : call.Publishes (w.publications.calls txn) (w.publications.revisions.own txn) →
      (call.goTo (.ended plan revision event)).Publishes (w.publications.calls txn)
        (w.publications.revisions.own txn)) : w'.Kept := by
  unfold Plane.writeEvent at hstep
  split at hstep
  · cases hstep
    exact h.rollback
  · refine h.writeRow calling hstep ?_ rfl rfl rfl (fun plan' hplan => ?_) publishes
    · rw [wrote]
      rfl
    · cases hplan
      exact (h.mine txn call calling).plan plan planned

theorem Kept.step {action : PlaneAction} (h : w.Kept) (hstep : w.step action = some w') :
    w'.Kept := by
  cases action with
  | compile txn c startedAt =>
      simp only [Plane.step] at hstep
      split at hstep
      · cases hstep
      rename_i idle
      obtain ⟨rows, publish, own⟩ := h.idle txn idle
      split at hstep
      · rename_i binding bound
        cases hstep
        obtain ⟨name, found⟩ := bindGroup_eq_binding bound
        refine h.setCall ⟨rows, name, fun minted => ?_, by simp [CompilePhase.plan], publish, own⟩
        have visible := mem_of_readGroupBinding (found minted)
        rwa [AppendLog.visible, rows, List.append_nil] at visible
      · cases hstep
        exact h
      · cases hstep
        exact h
  | generation txn =>
      simp only [Plane.step] at hstep
      split at hstep
      · rename_i calling
        exact h.writeRow calling hstep rfl rfl rfl rfl (by simp [CompilePhase.plan]) id
      · cases hstep
  | binding txn =>
      simp only [Plane.step] at hstep
      split at hstep
      · rename_i c binding minted startedAt calling
        split at hstep
        · rename_i hminted
          refine h.writeRow calling hstep ?_ rfl rfl rfl (by simp [CompilePhase.plan]) id
          simp [CompileCall.wrote, CompileCall.bound, hminted]
        · rename_i hminted
          cases hstep
          have mine := h.mine txn _ calling
          refine h.setCall ⟨?_, mine.name, mine.found, by simp [CompilePhase.plan],
            mine.publishes⟩
          rw [mine.rows]
          simp [CompileCall.wrote, CompileCall.bound, hminted]
      · cases hstep
  | plan txn =>
      simp only [Plane.step] at hstep
      split at hstep
      · rename_i calling
        split at hstep
        · cases hstep
          exact h.rollback
        · rename_i plan revised
          refine h.writeRow calling hstep rfl rfl rfl rfl (fun plan' hplan => ?_) id
          cases hplan
          exact planRevision_eq_some revised
      · cases hstep
  | publish txn selection =>
      simp only [Plane.step] at hstep
      split at hstep
      · rename_i c binding minted startedAt plan calling
        refine h.goPublish calling hstep rfl (by simp) rfl rfl rfl rfl rfl
          fun publications stepped hcalls => ?_
        have publishes := (h.mine txn _ calling).publishes
        cases Publications.stepped stepped with
        | rolledBack => simp [Publications.rollback, PublishAction.txn] at hcalls
        | begun txn p idle =>
            let call : CompileCall fromisoformat := ⟨c, binding, minted, startedAt, .publishing plan⟩
            exact ⟨call.publication selection, fun seq => ⟨rfl, rfl⟩,
              Or.inl ⟨_, publishes.2, Or.inl (Function.update_self ..)⟩⟩
      · cases hstep
  | trigger txn =>
      simp only [Plane.step] at hstep
      split at hstep
      · rename_i c binding minted startedAt plan calling
        refine h.goPublish calling hstep rfl (by simp) rfl rfl rfl rfl rfl
          fun publications stepped hcalls => ?_
        obtain ⟨p, activates, before⟩ := (h.mine txn _ calling).publishes
        cases Publications.stepped stepped with
        | rolledBack => simp [Publications.rollback, PublishAction.txn] at hcalls
        | checked txn p' seq begun =>
            rcases before with ⟨seq', own, numbered | checked⟩ | ⟨r, _, _, recorded⟩
            · obtain ⟨rfl, rfl⟩ : p' = p ∧ seq = seq' := by simpa [begun] using numbered
              refine ⟨p', activates, Or.inl ⟨seq, own, Or.inr ?_⟩⟩
              simp [Publications.goOn]
            · simp [begun] at checked
            · simp [begun] at recorded
      · cases hstep
  | insert txn =>
      simp only [Plane.step] at hstep
      split at hstep
      · rename_i c binding minted startedAt plan calling
        refine h.goPublish calling hstep rfl (by simp) rfl rfl rfl rfl rfl
          fun publications stepped hcalls => ?_
        obtain ⟨p, activates, before⟩ := (h.mine txn _ calling).publishes
        cases Publications.stepped stepped with
        | rolledBack => simp [Publications.rollback, PublishAction.txn] at hcalls
        | inserted txn p' seq begun revisions inserted =>
            obtain ⟨_, _, rfl⟩ := AppendLog.insert_eq_log inserted
            rcases before with ⟨seq', own, numbered | checked⟩ | ⟨r, _, _, recorded⟩
            · simp [begun] at numbered
            · obtain ⟨rfl, rfl⟩ : p' = p ∧ seq = seq' := by simpa [begun] using checked
              refine ⟨p', activates, Or.inr ⟨p'.revision seq, activates seq, ?_, ?_⟩⟩
              · exact AppendLog.own_insert_self.trans (by rw [own]; rfl)
              · simp [Publications.goOn]
            · simp [begun] at recorded
      · cases hstep
  | swap txn =>
      simp only [Plane.step] at hstep
      split at hstep
      · rename_i c binding minted startedAt plan p revision calling publishing
        split at hstep
        · cases hstep
        rename_i publications swapped
        cases hstep
        have mine := h.mine txn _ calling
        obtain ⟨p', activates, before⟩ := mine.publishes
        obtain ⟨r, active, own, recorded⟩ : ∃ r, CompileCall.Activates
            ⟨c, binding, minted, startedAt, .publishing plan⟩ r ∧
            w.publications.revisions.own txn = [r] ∧
            w.publications.calls txn = some ⟨p', .recorded r⟩ := by
          rcases before with ⟨seq', _, numbered | checked⟩ | recorded
          · simp [publishing] at numbered
          · simp [publishing] at checked
          · exact recorded
        obtain ⟨_, rfl⟩ : p' = p ∧ r = revision := by simpa [publishing, eq_comm] using recorded
        simp only [Publications.step, publishing, Option.some.injEq] at swapped
        subst swapped
        refine h.within txn ⟨rfl, rfl, fun other ho => ?_, fun _ _ => rfl,
          fun other ho => ?_, fun _ _ => rfl⟩ h.distinct (fun call hcall => ?_) fun hnone => ?_
        · simp [Plane.setCall, ho]
        · simp [Plane.setCall, ho]
        · obtain rfl := by simpa [Plane.setCall] using hcall
          exact ⟨mine.rows, mine.name, mine.found, mine.plan,
            by simp [Plane.setCall], own, active⟩
        · simp [Plane.setCall] at hnone
      · cases hstep
  | fail txn refused detail =>
      simp only [Plane.step] at hstep
      split at hstep
      · rename_i c binding minted startedAt plan calling
        refine h.writeEvent calling hstep rfl rfl fun publishes => ?_
        refine ⟨publishes.1, publishes.2, by simp, rfl, ?_⟩
        cases refused <;> simp [CompileCall.event]
      · cases hstep
  | succeed txn detail =>
      simp only [Plane.step] at hstep
      split at hstep
      · rename_i c binding minted startedAt plan revision calling
        refine h.writeEvent calling hstep rfl rfl fun publishes => ?_
        obtain ⟨publish, own, activates⟩ := publishes
        refine ⟨publish, own, fun r hr => ?_, rfl, by simp [CompileCall.event]⟩
        cases hr
        exact activates
      · cases hstep
  | commit txn =>
      simp only [Plane.step] at hstep
      split at hstep
      · rename_i calling
        split at hstep
        · cases hstep
        · rename_i publications committed
          cases hstep
          exact h.commit calling rfl committed
      · cases hstep
  | rollback txn =>
      simp only [Plane.step] at hstep
      split at hstep
      · cases hstep
        exact h.rollback
      · cases hstep

variable {name : String}

theorem Kept.eq_of_conflicts (h : w.Kept) {x y : PlaneRow fromisoformat}
    (hx : x ∈ w.rows.committed) (hy : y ∈ w.rows.committed) (clash : x.conflicts y = true) :
    x = y := by
  by_contra hne
  have symm : Std.Symm fun a b : PlaneRow fromisoformat => a.conflicts b = false :=
    ⟨conflicts_symm⟩
  have apart := h.distinct.committed.forall hx hy hne
  rw [clash] at apart
  cases apart

theorem isBindingOf_eq_some {b : GroupContractBinding} :
    row.isBindingOf name = some b ↔ row = .binding b ∧ b.logicalGroupName = name := by
  cases row with
  | binding b' =>
      simp only [PlaneRow.isBindingOf, Option.ite_none_right_eq_some, Option.some.injEq,
        PlaneRow.binding.injEq]
      constructor
      · rintro ⟨named, rfl⟩
        exact ⟨rfl, named⟩
      · rintro ⟨rfl, named⟩
        exact ⟨named, rfl⟩
  | _ => simp [PlaneRow.isBindingOf]

theorem isPlanOf_eq_some {id : String} {p : GroupPlanRevision fromisoformat} {t : Instant} :
    row.isPlanOf id = some (p, t) ↔ row = .plan p t ∧ p.bindingId = id := by
  cases row with
  | plan p' t' =>
      simp only [PlaneRow.isPlanOf, Option.ite_none_right_eq_some, Option.some.injEq, Prod.mk.injEq,
        PlaneRow.plan.injEq]
      constructor
      · rintro ⟨named, rfl, rfl⟩
        exact ⟨⟨rfl, rfl⟩, named⟩
      · rintro ⟨⟨rfl, rfl⟩, named⟩
        exact ⟨named, rfl, rfl⟩
  | _ => simp [PlaneRow.isPlanOf]

theorem publishes_eq_some {id : String} :
    row.publishes = some id ↔
      ∃ e, row = .event e ∧ e.eventKind = .published ∧ e.generationId = id := by
  cases row with
  | event e => simp [PlaneRow.publishes]
  | _ => simp [PlaneRow.publishes]

theorem mem_readPlanRevisions {id : String} {p : GroupPlanRevision fromisoformat} :
    p ∈ w.readPlanRevisions id ↔ ∃ t, .plan p t ∈ w.rows.committed ∧ p.bindingId = id := by
  simp only [readPlanRevisions, List.mem_map, KeySort.mem_sortBy, List.mem_filterMap]
  constructor
  · rintro ⟨⟨p', t⟩, ⟨row, hrow, hp⟩, rfl⟩
    obtain ⟨rfl, id⟩ := isPlanOf_eq_some.mp hp
    exact ⟨t, hrow, id⟩
  · rintro ⟨t, hrow, id⟩
    exact ⟨(p, t), ⟨_, hrow, isPlanOf_eq_some.mpr ⟨rfl, id⟩⟩, rfl⟩

theorem mem_publishedGenerationIds {id : String} :
    id ∈ w.publishedGenerationIds ↔
      ∃ e, .event e ∈ w.rows.committed ∧ e.eventKind = .published ∧ e.generationId = id := by
  simp only [publishedGenerationIds, List.mem_dedup, List.mem_filterMap, publishes_eq_some]
  constructor
  · rintro ⟨row, hrow, e, rfl, published, id⟩
    exact ⟨e, hrow, published, id⟩
  · rintro ⟨e, hrow, published, id⟩
    exact ⟨_, hrow, e, rfl, published, id⟩

theorem bindingOf_eq_some (h : w.Kept) {b : GroupContractBinding} :
    w.bindingOf name = some b ↔ .binding b ∈ w.rows.committed ∧ b.logicalGroupName = name := by
  constructor
  · intro found
    obtain ⟨row, hrow, hb⟩ := List.mem_filterMap.mp (List.mem_of_head? found)
    obtain ⟨rfl, named⟩ := isBindingOf_eq_some.mp hb
    exact ⟨hrow, named⟩
  · rintro ⟨hb, named⟩
    have found : b ∈ w.rows.committed.filterMap (PlaneRow.isBindingOf name) :=
      List.mem_filterMap.mpr ⟨_, hb, isBindingOf_eq_some.mpr ⟨rfl, named⟩⟩
    obtain ⟨b', hb'⟩ := Option.isSome_iff_exists.mp
      (List.isSome_head?.mpr (List.ne_nil_of_mem found))
    obtain ⟨row, hrow, hrow'⟩ := List.mem_filterMap.mp (List.mem_of_head? hb')
    obtain ⟨rfl, named'⟩ := isBindingOf_eq_some.mp hrow'
    have same := h.eq_of_conflicts hrow hb (by simp [PlaneRow.conflicts, named, named'])
    cases same
    exact hb'

theorem mem_revisionsOf (h : w.Kept) {p : GroupPlanRevision fromisoformat} :
    p ∈ w.revisionsOf name ↔ ∃ b t, .binding b ∈ w.rows.committed ∧ b.logicalGroupName = name ∧
      .plan p t ∈ w.rows.committed ∧ p.bindingId = b.bindingId := by
  unfold revisionsOf
  split
  · rename_i none
    constructor
    · intro hp
      cases hp
    · rintro ⟨b, t, hb, named, _⟩
      rw [(bindingOf_eq_some h).mpr ⟨hb, named⟩] at none
      cases none
  · rename_i b found
    obtain ⟨hb, named⟩ := (bindingOf_eq_some h).mp found
    rw [mem_readPlanRevisions]
    constructor
    · rintro ⟨t, hp, id⟩
      exact ⟨b, t, hb, named, hp, id⟩
    · rintro ⟨b', t, hb', named', hp, id⟩
      have same := h.eq_of_conflicts hb' hb (by simp [PlaneRow.conflicts, named, named'])
      cases same
      exact ⟨t, hp, id⟩

theorem oneHistory (h : w.Kept) (name : String) : OneHistory (w.revisionsOf name) := by
  refine ⟨⟨(w.bindingOf name).elim "" (·.bindingId), fun r hr => ?_⟩, fun a ha b hb same => ?_⟩
  · obtain ⟨b, t, hb, named, _, id⟩ := (mem_revisionsOf h).mp hr
    rw [(bindingOf_eq_some h).mpr ⟨hb, named⟩]
    exact id
  · obtain ⟨b₁, t₁, hb₁, named₁, ha, id₁⟩ := (mem_revisionsOf h).mp ha
    obtain ⟨b₂, t₂, hb₂, named₂, hb, id₂⟩ := (mem_revisionsOf h).mp hb
    have bindings := h.eq_of_conflicts hb₁ hb₂ (by simp [PlaneRow.conflicts, named₁, named₂])
    cases bindings
    have rows := h.eq_of_conflicts ha hb (by simp [PlaneRow.conflicts, same, id₁, id₂])
    cases rows
    rfl

theorem Kept.planned (h : w.Kept) {r : ActiveRevision}
    (active : r ∈ w.publications.revisions.committed) :
    (∃ p ∈ w.revisionsOf r.logicalGroupName, p.generationId = r.generationId) ∧
      r.generationId ∈ w.publishedGenerationIds := by
  obtain ⟨p, t, b, e, hp, hb, he, generation, binding, named, published, of⟩ :=
    h.whole.active r active
  exact ⟨⟨p, (mem_revisionsOf h).mpr ⟨b, t, hb, named, hp, binding⟩, generation⟩,
    mem_publishedGenerationIds.mpr ⟨e, he, published, of⟩⟩

theorem Kept.published_iff (h : w.Kept) {q : GroupPlanRevision fromisoformat}
    (hq : q ∈ w.revisionsOf name) :
    q.generationId ∈ w.publishedGenerationIds ↔
      ∃ r ∈ w.publications.revisions.committed, r.logicalGroupName = name ∧
        r.generationId = q.generationId := by
  constructor
  · intro published
    obtain ⟨e, he, kind, of⟩ := mem_publishedGenerationIds.mp published
    obtain ⟨r, hr, same⟩ := h.whole.event e he kind
    refine ⟨r, hr, ?_, same.trans of⟩
    -- One generation is of one group.
    obtain ⟨p, t, b, _, hp, hb, _, generation, binding, named, _⟩ := h.whole.active r hr
    obtain ⟨b₁, g₁, hb₁, hg₁, id₁, gen₁, named₁⟩ := h.whole.plan p t hp
    obtain ⟨b', t', hb', named', hq', id'⟩ := (mem_revisionsOf h).mp hq
    obtain ⟨b₂, g₂, hb₂, hg₂, id₂, gen₂, named₂⟩ := h.whole.plan q t' hq'
    have first := h.eq_of_conflicts hb₁ hb (by simp [PlaneRow.conflicts, id₁, binding])
    have second := h.eq_of_conflicts hb₂ hb' (by simp [PlaneRow.conflicts, id₂, id'])
    have generations := h.eq_of_conflicts hg₁ hg₂
      (by simp [PlaneRow.conflicts, gen₁, gen₂, generation, same, of])
    cases first
    cases second
    cases generations
    rw [← named, ← named₁, named₂, named']
  · rintro ⟨r, hr, _, same⟩
    exact same ▸ (h.planned hr).2

theorem kept_of_run {actions : List PlaneAction}
    (run : exec Plane.step (empty : Plane fromisoformat) actions = some w) : w.Kept :=
  exec_induction kept_empty (fun _ _ _ h hstep => h.step hstep) run

/-- Of every interleaving of compilations and publications: there is no current plan just where
    the group has no active revision; and where it has one in an environment, its generation has
    one plan revision, which is the current plan just where the plan of every other generation
    that the group has published was created before. -/
theorem current_plan_of_active_revision {actions : List PlaneAction}
    (run : exec Plane.step (empty : Plane fromisoformat) actions = some w) (name : String) :
    (currentPlanRevision (w.revisionsOf name) w.publishedGenerationIds = .ok none ↔
      ∀ environmentId, w.readActiveRevision ⟨environmentId, name⟩ = none) ∧
    ∀ environmentId r, w.readActiveRevision ⟨environmentId, name⟩ = some r →
      ∃ p ∈ w.revisionsOf name, p.generationId = r.generationId ∧
        (∀ q ∈ w.revisionsOf name, q.generationId = r.generationId → q = p) ∧
        (currentPlanRevision (w.revisionsOf name) w.publishedGenerationIds = .ok (some p) ↔
          ∀ r' ∈ w.publications.revisions.committed, r'.logicalGroupName = name →
            r'.generationId ≠ r.generationId →
            ∀ q ∈ w.revisionsOf name, q.generationId = r'.generationId → q.instant < p.instant) := by
  have h := kept_of_run run
  have history := oneHistory h name
  have reads {environmentId r} (active : w.readActiveRevision ⟨environmentId, name⟩ = some r) :
      r ∈ w.publications.revisions.committed ∧ r.logicalGroupName = name := by
    obtain ⟨mem, scope⟩ := List.mem_filter.mp (List.argmax_mem active)
    exact ⟨mem, congrArg Scope.logicalGroupName (of_decide_eq_true scope)⟩
  constructor
  · rw [current_eq_none_iff history]
    constructor
    · intro unpublished environmentId
      by_contra some
      obtain ⟨r, active⟩ := Option.ne_none_iff_exists'.mp some
      obtain ⟨mem, rfl⟩ := reads active
      obtain ⟨⟨p, hp, generation⟩, published⟩ := h.planned mem
      exact unpublished p hp (generation ▸ published)
    · intro none q hq published
      obtain ⟨r, mem, rfl, _⟩ := (h.published_iff hq).mp published
      have found : r ∈ w.publications.committedIn ⟨r.environmentId, r.logicalGroupName⟩ :=
        List.mem_filter.mpr ⟨mem, by simp [ActiveRevision.scope]⟩
      have absent := none r.environmentId
      rw [readActiveRevision, Publications.readActiveRevision, List.argmax_eq_none] at absent
      rw [absent] at found
      cases found
  · intro environmentId r active
    obtain ⟨mem, rfl⟩ := reads active
    obtain ⟨⟨p, hp, generation⟩, published⟩ := h.planned mem
    refine ⟨p, hp, generation, fun q hq same => history.generation q hq p hp
      (same.trans generation.symm), fun current r' hr' named other q hq same => ?_, fun before =>
      current_of_latest history hp (generation ▸ published) fun q hq hids hqp => ?_⟩
    · obtain ⟨_, _, latest⟩ := current_eq_some history current
      have ids : q.generationId ∈ w.publishedGenerationIds :=
        (h.published_iff hq).mpr ⟨r', hr', named, same.symm⟩
      refine latest q hq ids fun hqp => other ?_
      rw [← same, hqp, generation]
    · obtain ⟨r', hr', named, same⟩ := (h.published_iff hq).mp hids
      refine before r' hr' named (fun both => hqp ?_) q hq same.symm
      exact history.generation q hq p hp (same.symm.trans (both.trans generation.symm))

def readMorning (text : String) : Option IsoTimestamp :=
  if text = "2026-08-15T09:00:00+00:00" then some ⟨1786784400000000, some 0⟩
  else if text = "2026-08-15T10:00:00+00:00" then some ⟨1786788000000000, some 0⟩
  else if text = "2026-08-15T11:00:00+00:00" then some ⟨1786791600000000, some 0⟩
  else none

def compilationOf (id createdAt : String) : Compilation where
  logicalGroupName := "churn"
  materializationContractHash := "contract"
  groupPlanHash := "plan-" ++ id
  generatedProjectHash := "project-" ++ id
  physicalTarget := "sandbox_feature.churn"
  bindingId := "gbind_churn"
  generationId := "gen_" ++ id
  runId := "mrun_" ++ id
  revisionId := "frev_" ++ id
  createdAt := createdAt

def sandboxSelection : PublishSelection where
  environmentId := "sandbox"
  mechanism := .setLocation
  capabilityAttestationId := "att_1"
  columns := ["customer_id", "business_dt"]
  stagingRoot := "staging"
  activatedAt := "2026-08-15T11:30:00+00:00"

def recordsOf (txn : ℕ) : List PlaneAction := [.generation txn, .binding txn, .plan txn]

def publishes (txn : ℕ) : List PlaneAction :=
  [.publish txn sandboxSelection, .trigger txn, .insert txn, .swap txn,
    .succeed txn "published", .commit txn]

/-- The first compilation is refused publication; the next two overlap, and the one created
    later publishes first. -/
def overlapping : List PlaneAction :=
  .compile 1 (compilationOf "1" "2026-08-15T09:00:00+00:00") 0 :: recordsOf 1 ++
    [.fail 1 true "refused", .commit 1] ++
    .compile 2 (compilationOf "2" "2026-08-15T10:00:00+00:00") 1 ::
    .compile 3 (compilationOf "3" "2026-08-15T11:00:00+00:00") 2 ::
    recordsOf 2 ++ recordsOf 3 ++ publishes 3 ++ publishes 2

/-- The same two, published in the order of their creation. -/
def inOrder : List PlaneAction :=
  .compile 2 (compilationOf "2" "2026-08-15T10:00:00+00:00") 1 :: recordsOf 2 ++ publishes 2 ++
    .compile 3 (compilationOf "3" "2026-08-15T11:00:00+00:00") 2 :: recordsOf 3 ++ publishes 3

def activeGeneration (w : Plane fromisoformat) : Option String :=
  (w.readActiveRevision ⟨"sandbox", "churn"⟩).map (·.generationId)

def currentGeneration (w : Plane fromisoformat) : Option String :=
  (currentPlanRevision (w.revisionsOf "churn") w.publishedGenerationIds).toOption.join.map
    (·.generationId)

theorem overlapping_answers_differ :
    ∃ w : Plane readMorning, exec Plane.step empty overlapping = some w ∧
      w.activeGeneration = some "gen_2" ∧ w.currentGeneration = some "gen_3" := by
  have ends : (exec Plane.step (empty : Plane readMorning) overlapping).any (fun w =>
      w.activeGeneration = some "gen_2" && w.currentGeneration = some "gen_3") = true := by
    decide +kernel
  obtain ⟨w, run, hw⟩ := (Option.any_eq_true _ _).mp ends
  simp only [Bool.and_eq_true, decide_eq_true_eq] at hw
  exact ⟨w, run, hw⟩

theorem current_plan_of_active_revision_inOrder :
    ∃ w : Plane readMorning, exec Plane.step empty inOrder = some w ∧
      w.activeGeneration = some "gen_3" ∧ ∃ p ∈ w.revisionsOf "churn", p.generationId = "gen_3" ∧
        ∀ q ∈ w.revisionsOf "churn", q.generationId = "gen_3" → q = p := by
  have ends : (exec Plane.step (empty : Plane readMorning) inOrder).any (fun w =>
      w.activeGeneration = some "gen_3") = true := by
    decide +kernel
  obtain ⟨w, run, hw⟩ := (Option.any_eq_true _ _).mp ends
  have active : w.activeGeneration = some "gen_3" := of_decide_eq_true hw
  obtain ⟨r, hr, generation⟩ := Option.map_eq_some_iff.mp active
  obtain ⟨p, hp, same, one, _⟩ := (current_plan_of_active_revision run "churn").2 "sandbox" r hr
  rw [generation] at same one
  exact ⟨w, run, active, p, hp, same, one⟩

end Plane

end FeatureGen.Materialize
