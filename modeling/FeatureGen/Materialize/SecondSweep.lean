import FeatureGen.Materialize.ProvedVerdicts

/-! # The sweep after a sweep

A sweep that runs alone writes the verdicts that the tables support for its candidates,
and leaves the rest as they are. So the next one finds nothing to write among them; what
it writes, it writes of requests that the first had no room for.
-/

namespace FeatureGen.Materialize

open FeatureGen.Runtime RowLocks Transition

def ReconcilerAction.begins : ReconcilerAction → Bool
  | .sweep _ _ _ => true
  | _ => false

namespace Reconciler

variable {w w' start : Reconciler} {worker : ℕ} {action : ReconcilerAction} {now : Instant}
  {limit : ℕ} {r : MaterializationRequest}

theorem hasTerminalEdge_live {state : RequestLifecycle} (h : hasTerminalEdge state = true) :
    state.isTerminal = false := by
  cases state <;> revert h <;> decide

/-- The rows of the table stand under their ids. -/
structure Keyed (w : Reconciler) : Prop where
  listed : w.requests.Listed
  ids : ∀ id r, w.requests.committed id = some r → r.requestId = id

theorem Kept.keyed (kept : w.Kept) : w.Keyed where
  listed := kept.listed
  ids id r stored := (kept.sound.committed id r stored).id

theorem Keyed.of_mem (keyed : w.Keyed) (h : r ∈ committedRequests w.requests) :
    w.requests.committed r.requestId = some r := by
  obtain ⟨id, _, stored⟩ := List.mem_filterMap.mp h
  rw [keyed.ids id r stored]
  exact stored

theorem Keyed.mem (keyed : w.Keyed) {id : String} (stored : w.requests.committed id = some r) :
    r ∈ committedRequests w.requests :=
  List.mem_filterMap.mpr ⟨id, keyed.listed.committed id (by simp [stored]), stored⟩

theorem nodup_committed (keyed : w.Keyed) :
    ((committedRequests w.requests).map (·.requestId)).Nodup := by
  refine List.pairwise_map.mpr (List.pairwise_filterMap.mpr ?_)
  refine keyed.listed.nodup.imp fun {k k'} hne a ha b hb same => hne ?_
  rw [← keyed.ids k a ha, ← keyed.ids k' b hb, same]

theorem nodup_unreachable (keyed : w.Keyed) {queue : Messages} :
    ((unreachableRequests w.requests queue limit).map (·.requestId)).Nodup :=
  KeySort.nodup_map_take_sortBy _
    ((nodup_committed keyed).sublist (List.filter_sublist.map MaterializationRequest.requestId))
    limit

theorem nodup_expired (keyed : w.Keyed) :
    ((expiredRequests w.requests now limit).map (·.requestId)).Nodup :=
  KeySort.nodup_map_take_sortBy _
    ((nodup_committed keyed).sublist (List.filter_sublist.map MaterializationRequest.requestId))
    limit

theorem nodup_found {unreachable expired : List MaterializationRequest}
    (hu : (unreachable.map (·.requestId)).Nodup) (he : (expired.map (·.requestId)).Nodup) :
    ((unreachable ++ expired.filter fun r =>
      !(unreachable.map (·.requestId)).contains r.requestId).map (·.requestId)).Nodup := by
  rw [List.map_append]
  refine List.Nodup.append hu (he.sublist (List.filter_sublist.map _)) fun id hid hid' => ?_
  obtain ⟨r, hr, rfl⟩ := List.mem_map.mp hid'
  have new := (List.mem_filter.mp hr).2
  simp only [Bool.not_eq_true', List.contains_eq_mem, decide_eq_false_iff_not] at new
  exact new hid

theorem nodup_candidates {unreachable expired : List MaterializationRequest}
    (hu : (unreachable.map (·.requestId)).Nodup) (he : (expired.map (·.requestId)).Nodup) :
    ((candidates unreachable expired limit).map (·.requestId)).Nodup :=
  KeySort.nodup_map_take_sortBy _ (nodup_found hu he) limit

/-- The requests that a verdict can be written for, by their state and their message. -/
def actionable (w : Reconciler) : List MaterializationRequest :=
  (committedRequests w.requests).filter fun r => hasTerminalEdge r.lifecycleState &&
    !deliverable w.queue r.requestId

theorem filter_unreachable : ((committedRequests w.requests).filter fun r =>
      !r.lifecycleState.isTerminal && !deliverable w.queue r.requestId).filter
        (hasTerminalEdge ·.lifecycleState) = actionable w := by
  rw [List.filter_filter, actionable]
  refine List.filter_congr fun r _ => ?_
  cases hedge : hasTerminalEdge r.lifecycleState with
  | false => simp
  | true => simp [hasTerminalEdge_live hedge]

/-- Where a request stands among those of one tier. -/
def place (r : MaterializationRequest) : ℤ ×ₗ String := toLex (r.requestedAt, r.requestId)

def upTo (w : Reconciler) (r : MaterializationRequest) : List MaterializationRequest :=
  (actionable w).filter fun y => place y ≤ place r

theorem length_upTo_le : (upTo w r).length ≤ (actionable w).length := List.length_filter_le _ _

theorem upTo_eq : upTo w r = ((committedRequests w.requests).filter fun y =>
    !y.lifecycleState.isTerminal && !deliverable w.queue y.requestId).filter fun y =>
      place y ≤ place r && hasTerminalEdge y.lifecycleState := by
  rw [upTo, ← filter_unreachable, List.filter_filter]

theorem mem_unreachable (few : (upTo w r).length ≤ limit) (h : r ∈ actionable w) :
    r ∈ unreachableRequests w.requests w.queue limit := by
  have h' := h
  rw [← filter_unreachable] at h'
  obtain ⟨found, edge⟩ := List.mem_filter.mp h'
  refine KeySort.mem_take_sortBy _ found (le_trans ?_ few)
  rw [upTo_eq]
  refine (List.monotone_filter_right _ fun y hy => ?_).length_le
  have hle := of_decide_eq_true hy
  rw [Prod.Lex.le_iff] at hle
  have second : (!hasTerminalEdge r.lifecycleState) = false := by simpa using edge
  by_cases hedge : hasTerminalEdge y.lifecycleState = true
  · have first : (!hasTerminalEdge y.lifecycleState) = false := by simpa using hedge
    simp only [ofLex_toLex, first, second, lt_self_iff_false, true_and, false_or] at hle
    simp [hedge, place, hle]
  · have first : (!hasTerminalEdge y.lifecycleState) = true := by simpa using hedge
    simp only [ofLex_toLex, first, second, reduceCtorEq, false_and, or_false] at hle
    exact absurd hle (by decide)

theorem mem_candidates {expired : List MaterializationRequest}
    (few : (upTo w r).length ≤ limit) (h : r ∈ actionable w) :
    r ∈ candidates (unreachableRequests w.requests w.queue limit) expired limit := by
  have found := mem_unreachable few h
  have edge : hasTerminalEdge r.lifecycleState = true :=
    (Bool.and_eq_true_iff.mp (List.mem_filter.mp h).2).1
  set unreachable := unreachableRequests w.requests w.queue limit with hu
  set writable := unreachable.map (·.requestId) with hw
  have top : tier writable r = 0 := by
    have : writable.contains r.requestId = true := by
      simpa [hw] using ⟨r, found, rfl⟩
    simp only [tier, this, edge, not_true, if_true, if_false]
  refine KeySort.mem_take_sortBy _ (List.mem_append_left _ found) ?_
  have tiered {y : MaterializationRequest}
      (hle : toLex (tier writable y, toLex (y.requestedAt, y.requestId)) ≤
        toLex (tier writable r, toLex (r.requestedAt, r.requestId))) :
      writable.contains y.requestId = true ∧ hasTerminalEdge y.lifecycleState = true ∧
        place y ≤ place r := by
    rw [Prod.Lex.le_iff] at hle
    simp only [ofLex_toLex, top] at hle
    have zero : tier writable y = 0 := by omega
    have le : place y ≤ place r := by
      rw [zero] at hle
      simpa [place] using hle
    unfold tier at zero
    split at zero
    · omega
    · rename_i mem
      split at zero
      · rename_i hedge
        exact ⟨not_not.mp mem, hedge, le⟩
      · omega
  have none : (((expired.filter fun y => !writable.contains y.requestId).filter fun y =>
      toLex (tier writable y, toLex (y.requestedAt, y.requestId)) ≤
        toLex (tier writable r, toLex (r.requestedAt, r.requestId)))) = [] := by
    refine List.filter_eq_nil_iff.mpr fun y hy hle => ?_
    have new := (List.mem_filter.mp hy).2
    rw [(tiered (of_decide_eq_true hle)).1] at new
    cases new
  rw [List.filter_append, none, List.append_nil]
  have less : (unreachable.filter fun y => place y ≤ place r &&
      hasTerminalEdge y.lifecycleState).length ≤ (upTo w r).length := by
    rw [upTo_eq, hu, unreachableRequests]
    refine ((List.take_sublist _ _).filter _).length_le.trans_eq ?_
    exact ((KeySort.perm_sortBy _ _).filter _).length_eq
  refine le_trans (List.monotone_filter_right _ fun y hy => ?_).length_le (less.trans few)
  have hy := (tiered (of_decide_eq_true hy)).2
  simp [hy]

/-- The terminal state that the tables support for a request, as a sweep reads it. -/
def supported (w : Reconciler) (now : Instant) (r : MaterializationRequest) :
    Option RequestLifecycle :=
  match judge r (w.queue (materializationMessageId r.requestId)) now with
  | .terminalizes target => some target
  | .reads runId => mirrored (runEventsOf w.events runId)
  | .left _ | .raises => none

/-- The candidates of a sweep that runs alone. -/
def candidatesOf (w : Reconciler) (now : Instant) (limit : ℕ) : List MaterializationRequest :=
  candidates (unreachableRequests w.requests w.queue limit)
    (expiredRequests w.requests now limit) limit

def Supports (start : Reconciler) (now : Instant) : SweepPhase → Prop
  | .queried _ | .judging => True
  | .reading judged runId =>
      judge judged.request (start.queue (materializationMessageId judged.request.requestId)) now =
        .reads runId
  | .writing judged target | .updating judged target =>
      supported start now judged.request = some target

/-- Which candidates a sweep is through with, and which it is not. -/
def Plan (start w : Reconciler) (now : Instant) (limit : ℕ) (sweep : Sweep) : Prop :=
  match sweep.phase with
  | .queried unreachable =>
      unreachable = unreachableRequests start.requests start.queue limit ∧
        w.requests = start.requests
  | _ => sweep.considered.map (·.requestId) ++ (pending sweep).map (·.requestId) =
      (candidatesOf start now limit).map (·.requestId)

structure Alone (start w : Reconciler) (now : Instant) (limit : ℕ) (sweep : Sweep) : Prop where
  instant : sweep.now = now
  bound : sweep.limit = limit
  queue : w.queue = start.queue
  events : w.events = start.events
  drafts : w.requests.drafts = start.requests.drafts
  written : ∀ id, w.requests.committed id ≠ start.requests.committed id →
    (∃ r, start.requests.committed id = some r ∧ supported start now r ≠ none) ∧
      start.requests.drafts id = none ∧
      ∃ r, w.requests.committed id = some r ∧ r.lifecycleState.isTerminal = true
  fresh : ∀ r ∈ pending sweep, w.requests.committed r.requestId = some r
  nodup : ((pending sweep).map (·.requestId)).Nodup
  plan : Plan start w now limit sweep
  done : ∀ v ∈ sweep.considered, ∀ r, w.requests.committed v.requestId = some r →
    supported start now r = none ∨ start.requests.drafts v.requestId ≠ none
  supports : Supports start now sweep.phase

theorem supported_terminal (h : r.lifecycleState.isTerminal = true) :
    supported w now r = none := by
  unfold supported
  split
  · rename_i target terminalizes
    rw [(judge_terminalizes terminalizes).1] at h
    cases h
  · rename_i runId reads
    rw [(judge_reads reads).1] at h
    cases h
  · rfl
  · rfl

theorem legal_of_supported {target : RequestLifecycle} (h : supported w now r = some target) :
    target ∈ legalLifecycleTransitions r.lifecycleState ∧ target.isTerminal = true := by
  unfold supported at h
  split at h
  · rename_i terminalizes
    obtain ⟨accepted, _, _, rfl⟩ := judge_terminalizes terminalizes
    cases h
    rw [accepted]
    decide
  · rename_i reads
    rw [(judge_reads reads).1]
    obtain ⟨event, _, hmirrored⟩ := Option.bind_eq_some_iff.mp h
    cases hkind : event.eventKind <;> rw [hkind] at hmirrored <;> cases hmirrored <;> decide
  · cases h
  · cases h

theorem terminal_of_supported {target : RequestLifecycle} (h : supported w now r = some target) :
    target.isTerminal = true := (legal_of_supported h).2

theorem allows_of_supported {judged : Judged} {target : RequestLifecycle}
    (h : supported w now judged.request = some target) :
    (terminalize judged target).allows judged.request = true := by
  obtain ⟨legal, ended⟩ := legal_of_supported h
  have source := mem_legalFrom.mpr legal
  have stays : target ≠ .running := by
    rintro rfl
    cases ended
  simp [Advance.allows, terminalize, legal, source, stays]

variable {sweep : Sweep}

theorem Alone.record (h : Alone start w now limit sweep) {judged : Judged}
    {remaining : List MaterializationRequest}
    (hpending : pending sweep = judged.request :: remaining)
    (phase : ∀ u, sweep.phase ≠ .queried u) {verdict : ReconciliationVerdict}
    (through : supported start now judged.request = none ∨
      start.requests.drafts judged.request.requestId ≠ none)
    (queue : w'.queue = w.queue) (events : w'.events = w.events)
    (requests : w'.requests = w.requests) :
    Alone start w' now limit
      (Sweep.record ⟨now, limit, .judging, remaining, sweep.considered⟩ judged verdict) := by
  have fresh := h.fresh
  have nodup := h.nodup
  rw [hpending] at fresh nodup
  refine ⟨rfl, rfl, queue.trans h.queue, events.trans h.events, by rw [requests, h.drafts],
    requests ▸ h.written, fun r hr => ?_, (List.nodup_cons.mp nodup).2, ?_, fun v hv r hr => ?_,
    trivial⟩
  · rw [requests]
    exact fresh r (List.mem_cons_of_mem _ hr)
  · have plan := h.plan
    unfold Plan at plan ⊢
    split at plan
    · rename_i u hu
      exact absurd hu (phase u)
    · rw [hpending] at plan
      simpa [Sweep.record, pending, left] using plan
  · rw [requests] at hr
    rcases List.mem_append.mp hv with hv | hv
    · exact h.done v hv r hr
    · obtain rfl := List.mem_singleton.mp hv
      have stored := fresh judged.request List.mem_cons_self
      obtain rfl : judged.request = r := Option.some.inj (stored.symm.trans hr)
      exact through

theorem Alone.goTo (h : Alone start w now limit sweep) {judged : Judged} {phase' : SweepPhase}
    {remaining : List MaterializationRequest} {considered : List ReconciledRequest}
    (hpending : pending sweep = judged.request :: remaining)
    (phase : ∀ u, sweep.phase ≠ .queried u) (hconsidered : considered = sweep.considered)
    (pending' : pending ⟨now, limit, phase', remaining, considered⟩ = judged.request :: remaining)
    (phaseNext : ∀ u, phase' ≠ .queried u) (supports : Supports start now phase')
    (queue : w'.queue = w.queue) (events : w'.events = w.events)
    (requests : w'.requests = w.requests) :
    Alone start w' now limit ⟨now, limit, phase', remaining, considered⟩ := by
  subst hconsidered
  refine ⟨rfl, rfl, queue.trans h.queue, events.trans h.events, by rw [requests, h.drafts],
    requests ▸ h.written, ?_, ?_, ?_, requests ▸ h.done, supports⟩
  · rw [pending', ← hpending, requests]
    exact h.fresh
  · rw [pending', ← hpending]
    exact h.nodup
  · have plan := h.plan
    unfold Plan at plan ⊢
    split at plan
    · rename_i u hu
      exact absurd hu (phase u)
    · rw [pending', ← hpending]
      exact plan

theorem Alone.write (h : Alone start w now limit sweep) {judged : Judged}
    {target : RequestLifecycle} {remaining : List MaterializationRequest} {instant : Instant}
    (phase : sweep.phase = .updating judged target) (hremaining : sweep.remaining = remaining)
    (ended : target.isTerminal = true)
    (free : w.requests.drafts judged.request.requestId = none)
    (queue : w'.queue = w.queue) (events : w'.events = w.events)
    (requests : w'.requests = w.requests.put judged.request.requestId
      ((terminalize judged target).move instant judged.request)) :
    Alone start w' now limit (Sweep.record
      ⟨now, limit, .judging, remaining, sweep.considered⟩ judged (writtenVerdict target)) := by
  have hpending : pending sweep = judged.request :: remaining := by
    simp only [pending, phase, hremaining]
  have fresh := h.fresh
  have nodup := h.nodup
  have supports := h.supports
  rw [hpending] at fresh nodup
  rw [phase] at supports
  have stored := fresh judged.request List.mem_cons_self
  have unwritten : start.requests.committed judged.request.requestId = some judged.request := by
    by_contra changed
    obtain ⟨_, _, r, hr, terminal⟩ := h.written judged.request.requestId
      (by rw [stored]; exact Ne.symm changed)
    obtain rfl : judged.request = r := Option.some.inj (stored.symm.trans hr)
    have none : supported start now judged.request = none := supported_terminal terminal
    simp [none, Supports] at supports
  have self : w'.requests.committed judged.request.requestId =
      some ((terminalize judged target).move instant judged.request) := by
    simp [requests, Rows.put]
  have others {id : String} (hid : id ≠ judged.request.requestId) :
      w'.requests.committed id = w.requests.committed id := by
    simp [requests, Rows.put, hid]
  refine ⟨rfl, rfl, queue.trans h.queue, events.trans h.events, ?_, fun id changed => ?_,
    fun r hr => ?_, (List.nodup_cons.mp nodup).2, ?_, fun v hv r hr => ?_, trivial⟩
  · rw [requests]
    exact h.drafts
  · by_cases hid : id = judged.request.requestId
    · subst hid
      refine ⟨⟨_, unwritten, ?_⟩, by rw [← h.drafts, free], _, self, ended⟩
      rw [show supported start now judged.request = some target from supports]
      simp
    · obtain ⟨r, hr⟩ := h.written id (by rwa [others hid] at changed)
      refine ⟨r, hr.1, ?_⟩
      rw [others hid]
      exact hr.2
  · have hne : r.requestId ≠ judged.request.requestId := fun same =>
      (List.nodup_cons.mp nodup).1 (List.mem_map.mpr ⟨r, hr, same⟩)
    rw [others hne]
    exact fresh r (List.mem_cons_of_mem _ hr)
  · have plan := h.plan
    unfold Plan at plan ⊢
    rw [phase] at plan
    dsimp only at plan
    rw [hpending] at plan
    simpa [Sweep.record, pending, left] using plan
  · by_cases hid : v.requestId = judged.request.requestId
    · rw [hid, self] at hr
      obtain rfl := Option.some.inj hr
      exact Or.inl (supported_terminal ended)
    · rw [others hid] at hr
      rcases List.mem_append.mp hv with hv | hv
      · exact h.done v hv r hr
      · obtain rfl := List.mem_singleton.mp hv
        exact absurd rfl hid

/-- What the worker's sweep is through with, where it has begun and not gone. -/
def AloneAt (start w : Reconciler) (worker : ℕ) (now : Instant) (limit : ℕ) : Prop :=
  ∀ sweep, w.sweeps worker = some sweep → Alone start w now limit sweep

theorem alone_set {s : Sweep} (hs : w'.sweeps = Function.update w.sweeps worker (some s))
    (h : Alone start w' now limit s) : AloneAt start w' worker now limit := by
  intro s' hs'
  obtain rfl : s = s' := by simpa [hs] using hs'
  exact h

theorem alone_begin (keyed : start.Keyed)
    (hstep : start.step (.sweep worker now limit) = some w) :
    AloneAt start w worker now limit := by
  simp only [step] at hstep
  split at hstep
  · cases hstep
  · cases hstep
    refine alone_set rfl ⟨rfl, rfl, rfl, rfl, rfl, fun _ h => absurd rfl h, fun r hr => ?_,
      nodup_unreachable keyed, ⟨rfl, rfl⟩, by simp, trivial⟩
    exact keyed.of_mem (mem_of_mem_unreachable hr)

theorem AloneAt.step (keyed : start.Keyed) (h : AloneAt start w worker now limit)
    (own : action.worker = some worker) (goes : action.begins = false)
    (hstep : w.step action = some w') : AloneAt start w' worker now limit := by
  have live {s : Sweep} (hs : w.sweeps worker = some s) : s.now = now ∧ s.limit = limit :=
    ⟨(h s hs).instant, (h s hs).bound⟩
  cases swept hstep own with
  | gone action other hown =>
      obtain rfl : other = worker := Option.some.inj (hown.symm.trans own)
      intro s hs
      simp [setSweep] at hs
  | began => cases goes
  | queried other now' limit' unreachable remaining considered under =>
      cases own
      obtain ⟨rfl, rfl⟩ := live under
      have alone := h _ under
      obtain ⟨first, requests⟩ := alone.plan
      have second : expiredRequests w.requests now' limit' =
          expiredRequests start.requests now' limit' := by rw [requests]
      have expired : ∀ r ∈ expiredRequests w.requests now' limit',
          w.requests.committed r.requestId = some r := by
        rw [requests]
        exact fun r hr => keyed.of_mem (mem_of_mem_expired hr)
      refine alone_set rfl ⟨rfl, rfl, alone.queue, alone.events, alone.drafts, alone.written,
        fun r hr => ?_, ?_, ?_, by simp, trivial⟩
      · exact (mem_of_mem_candidates hr).elim (alone.fresh r) (expired r)
      · rw [first, second]
        exact nodup_candidates (nodup_unreachable keyed) (nodup_expired keyed)
      · simp only [Plan, pending, List.map_nil, List.nil_append, first, second, candidatesOf]
  | left other now' limit' request remaining considered verdict under judged =>
      cases own
      obtain ⟨rfl, rfl⟩ := live under
      have alone := h _ under
      refine alone_set rfl (alone.record rfl (by simp) (Or.inl ?_) rfl rfl rfl)
      simp only [supported, ← alone.queue, judged]
  | reads other now' limit' request remaining considered runId under judged =>
      cases own
      obtain ⟨rfl, rfl⟩ := live under
      have alone := h _ under
      refine alone_set rfl (alone.goTo rfl (by simp) rfl rfl (by simp) ?_ rfl rfl rfl)
      rw [alone.queue] at judged
      exact judged
  | abandoned other now' limit' request remaining considered target under judged =>
      cases own
      obtain ⟨rfl, rfl⟩ := live under
      have alone := h _ under
      refine alone_set rfl (alone.goTo rfl (by simp) rfl rfl (by simp) ?_ rfl rfl rfl)
      simp only [Supports, supported, ← alone.queue, judged]
  | unproved other now' limit' judged runId remaining considered under unended =>
      cases own
      obtain ⟨rfl, rfl⟩ := live under
      have alone := h _ under
      have reads := alone.supports
      refine alone_set rfl (alone.record rfl (by simp) (Or.inl ?_) rfl rfl rfl)
      simp only [Supports] at reads
      simp only [supported, reads, ← alone.events, unended]
  | proved other now' limit' judged runId remaining considered target under ended =>
      cases own
      obtain ⟨rfl, rfl⟩ := live under
      have alone := h _ under
      have reads := alone.supports
      refine alone_set rfl (alone.goTo rfl (by simp) rfl rfl (by simp) ?_ rfl rfl rfl)
      simp only [Supports] at reads
      simp only [Supports, supported, reads, ← alone.events, ended]
  | called other now' limit' judged target remaining considered under legal =>
      cases own
      obtain ⟨rfl, rfl⟩ := live under
      have alone := h _ under
      exact alone_set rfl (alone.goTo rfl (by simp) rfl rfl (by simp) alone.supports rfl rfl rfl)
  | raced action other hown _ now' limit' judged target remaining considered under moved =>
      obtain rfl : other = worker := Option.some.inj (hown.symm.trans own)
      -- The row is as it was read, and what is supported is allowed.
      rcases under with under | under
      · have alone := h _ under
        have refused := moved _ (alone.fresh judged.request List.mem_cons_self) rfl
        rw [allows_of_supported alone.supports] at refused
        cases refused
      · have alone := h _ under
        have refused := moved _ (alone.fresh judged.request List.mem_cons_self) rfl
        rw [allows_of_supported alone.supports] at refused
        cases refused
  | wrote other instant now' limit' judged target remaining considered r under stored state free =>
      cases own
      obtain ⟨rfl, rfl⟩ := live under
      have alone := h _ under
      have same := alone.fresh judged.request List.mem_cons_self
      obtain rfl : judged.request = r := Option.some.inj (same.symm.trans stored)
      exact alone_set rfl
        (alone.write rfl rfl (terminal_of_supported alone.supports) free rfl rfl rfl)
  | locked other now' limit' judged target remaining considered under held =>
      cases own
      obtain ⟨rfl, rfl⟩ := live under
      have alone := h _ under
      refine alone_set rfl (alone.record rfl (by simp) (Or.inr ?_) rfl rfl rfl)
      rw [← alone.drafts]
      exact held

/-- A sweep that runs alone comes to the end of its candidates. -/
def SweptAlone (start : Reconciler) (worker : ℕ) (now : Instant) (limit : ℕ)
    (considered : List ReconciledRequest) (w : Reconciler) : Prop :=
  ∃ actions : List ReconcilerAction,
    (∀ action ∈ actions, action.worker = some worker ∧ action.begins = false) ∧
      exec step start (.sweep worker now limit :: actions) = some w ∧
      w.sweeps worker = some ⟨now, limit, .judging, [], considered⟩

theorem SweptAlone.alone {considered : List ReconciledRequest} (keyed : start.Keyed)
    (h : SweptAlone start worker now limit considered w) :
    Alone start w now limit ⟨now, limit, .judging, [], considered⟩ := by
  obtain ⟨actions, own, run, under⟩ := h
  obtain ⟨begun, hbegin, run⟩ := exec_cons_eq_some.mp run
  have along : Along step (fun _ action => action.worker = some worker ∧ action.begins = false)
      begun actions := along_of_forall fun action ha _ => own action ha
  have alone : AloneAt start w worker now limit :=
    exec_induction_along (P := fun v => AloneAt start v worker now limit)
      (alone_begin keyed hbegin)
      (fun _ _ _ h goes hstep => h.step keyed goes.1 goes.2 hstep) along run
  exact alone _ under

/-- The tables are as the other state has them. -/
structure Unchanged (w v : Reconciler) : Prop where
  requests : v.requests = w.requests
  queue : v.queue = w.queue
  events : v.events = w.events

theorem supported_congr {v : Reconciler} (queue : v.queue = w.queue)
    (events : v.events = w.events) :
    supported v now r = supported w now r := by
  simp only [supported, queue, events]

theorem actionable_of_supported (keyed : w.Keyed) {id : String}
    (stored : w.requests.committed id = some r) (h : supported w now r ≠ none) :
    r ∈ actionable w := by
  have left (verdict) :
      judge r (w.queue (materializationMessageId r.requestId)) now ≠ .left verdict := by
    intro left
    rw [supported, left] at h
    exact h rfl
  have edge : hasTerminalEdge r.lifecycleState = true := by
    unfold supported at h
    split at h
    · rename_i terminalizes
      rw [(judge_terminalizes terminalizes).1]
      decide
    · rename_i reads
      rw [(judge_reads reads).1]
      decide
    · exact absurd rfl h
    · exact absurd rfl h
  refine List.mem_filter.mpr ⟨keyed.mem stored, ?_⟩
  rw [edge, (judge_passes left).1]
  rfl

theorem SweptAlone.second {v v' : Reconciler} {worker' limit' : ℕ}
    {considered considered' : List ReconciledRequest} (kept : start.Kept) (keptV : v.Kept)
    (first : SweptAlone start worker now limit considered w) (same : Unchanged w v)
    (second : SweptAlone v worker' now limit' considered' v') {id : String}
    (changed : v'.requests.committed id ≠ v.requests.committed id) :
    id ∉ considered.map (·.requestId) ∧ limit < (actionable start).length := by
  have alone := first.alone kept.keyed
  obtain ⟨⟨r, stored, support⟩, free, _⟩ := (second.alone keptV.keyed).written id changed
  rw [supported_congr (same.queue.trans alone.queue) (same.events.trans alone.events)] at support
  rw [same.requests] at stored free
  have unconsidered : id ∉ considered.map (·.requestId) := by
    intro hid
    obtain ⟨c, hc, rfl⟩ := List.mem_map.mp hid
    rcases alone.done c hc r stored with none | held
    · exact support none
    · exact held (by rw [← alone.drafts, free])
  refine ⟨unconsidered, ?_⟩
  by_contra room
  -- The first has not written it, and so has it among its candidates.
  have unwritten : start.requests.committed id = some r := by
    by_contra moved
    obtain ⟨_, _, r', stored', terminal⟩ := alone.written id (by rw [stored]; exact Ne.symm moved)
    obtain rfl : r = r' := Option.some.inj (stored.symm.trans stored')
    exact support (supported_terminal terminal)
  have hid : r.requestId = id := (kept.sound.committed id r unwritten).id
  have found : r ∈ candidatesOf start now limit :=
    mem_candidates (length_upTo_le.trans (not_lt.mp room))
      (actionable_of_supported kept.keyed unwritten support)
  have plan := alone.plan
  simp only [Plan, pending, List.map_nil, List.append_nil] at plan
  exact unconsidered (plan ▸ List.mem_map.mpr ⟨r, found, hid⟩)

theorem kept_of_reachable (h : Reachable step (· = empty) w) : w.Kept :=
  h.induction (fun _ he => he ▸ kept_empty) fun _ _ _ kept hstep => (kept.step hstep).1

/-- In every interleaving of sweeps with the other sessions: what a sweep changes rests on the
    reads of its own queries, of the message and of the run's events, made before; and after a
    sweep that no other session came between, one over what it left, with the same `now`,
    writes no request that the first considered, and none where the first had room for all. -/
theorem reconciler_writes_proved_verdicts :
    (∀ (actions : List ReconcilerAction) (past rest : Past)
        (m : Move Reconciler ReconcilerAction) (id : String),
      history step empty actions = past ++ m :: rest → m.action.worker.isSome = true →
      m.after.requests.committed id ≠ m.before.requests.committed id →
      ∃ worker sweep instant, m.action = .update worker instant ∧
        m.before.sweeps worker = some sweep ∧
        ProvedWrite past m.before m.after worker sweep.now id) ∧
    ∀ (start w v v' : Reconciler) (worker worker' limit limit' : ℕ) (now : Instant)
        (considered considered' : List ReconciledRequest) (id : String),
      Reachable step (· = empty) start → Reachable step (· = empty) v →
      SweptAlone start worker now limit considered w → Unchanged w v →
      SweptAlone v worker' now limit' considered' v' →
      v'.requests.committed id ≠ v.requests.committed id →
      id ∉ considered.map (·.requestId) ∧ limit < (actionable start).length := by
  constructor
  · intro actions past rest m id split own changed
    obtain ⟨kept, evidence⟩ := evidence_of_history split
    have hstep : step m.before m.action = some m.after :=
      step_of_mem_history (split ▸ List.mem_append_right _ List.mem_cons_self)
    obtain ⟨worker, hown⟩ := Option.isSome_iff_exists.mp own
    exact evidence.write kept (swept hstep hown) changed
  · intro start w v v' worker worker' limit limit' now considered considered' id reach reachV
      first same second changed
    exact first.second (kept_of_reachable reach) (kept_of_reachable reachV) same second changed

def newRequestOf (requestId : String) : NewRequest where
  requestId := requestId
  logicalGroupName := "churn"
  requestedBy := "ana"
  authorizedRoles := ["materializer"]
  idempotencyKey := "key-" ++ requestId
  activationState := .obj .nil
  resolvedInputDigest := none
  consideredRevisionId := none
  optionId := none

/-- Two requests are accepted, and their messages never come. -/
def twoAbandoned : List ReconcilerAction :=
  [.record 1 (newRequestOf "req_1") 0, .record 1 (newRequestOf "req_2") 1, .commit 1,
    .accept 1 "req_1" 60 2, .accept 1 "req_2" 60 3, .commit 1]

/-- What a sweep goes on to do, up to the first verdict it writes. -/
def oneVerdict (worker : ℕ) : List ReconcilerAction :=
  [.query worker, .judge worker, .write worker, .update worker 90000001]

def lifecycleOf (w : Reconciler) (id : String) : Option RequestLifecycle :=
  (w.requests.committed id).map (·.lifecycleState)

/-- The worker's sweep has come to the end of its candidates. -/
def through (w : Reconciler) (worker : ℕ) (now : Instant) (limit : ℕ) : Bool :=
  match w.sweeps worker with
  | some ⟨now', limit', .judging, [], _⟩ => now' = now && limit' = limit
  | _ => false

theorem exists_considered (h : w.through worker now limit = true) :
    ∃ considered, w.sweeps worker = some ⟨now, limit, .judging, [], considered⟩ := by
  unfold through at h
  split at h
  · rename_i under
    simp only [Bool.and_eq_true, decide_eq_true_eq] at h
    obtain ⟨rfl, rfl⟩ := h
    exact ⟨_, under⟩
  · cases h

theorem sweptAlone_oneVerdict
    (run : exec step start (.sweep worker now limit :: oneVerdict worker) = some w)
    (ends : w.through worker now limit = true) :
    ∃ considered, SweptAlone start worker now limit considered w := by
  obtain ⟨considered, under⟩ := exists_considered ends
  refine ⟨considered, oneVerdict worker, fun action ha => ?_, run, under⟩
  simp only [oneVerdict, List.mem_cons, List.not_mem_nil, or_false] at ha
  rcases ha with rfl | rfl | rfl | rfl <;> exact ⟨rfl, rfl⟩

theorem twoAbandoned_swept : ∃ start w v, exec step empty twoAbandoned = some start ∧
    exec step start (.sweep 1 90000000 1 :: oneVerdict 1) = some w ∧
    exec step w (.sweep 2 90000000 1 :: oneVerdict 2) = some v ∧
    w.through 1 90000000 1 = true ∧ v.through 2 90000000 1 = true ∧
    w.lifecycleOf "req_2" = some .accepted ∧ v.lifecycleOf "req_2" = some .failed := by
  have runs : (exec step empty twoAbandoned).any (fun start =>
      (exec step start (.sweep 1 90000000 1 :: oneVerdict 1)).any fun w =>
        (exec step w (.sweep 2 90000000 1 :: oneVerdict 2)).any fun v =>
          w.through 1 90000000 1 && v.through 2 90000000 1 &&
            w.lifecycleOf "req_2" = some .accepted &&
            v.lifecycleOf "req_2" = some .failed) = true := by
    decide +kernel
  obtain ⟨start, hstart, runs⟩ := (Option.any_eq_true _ _).mp runs
  obtain ⟨w, hw, runs⟩ := (Option.any_eq_true _ _).mp runs
  obtain ⟨v, hv, runs⟩ := (Option.any_eq_true _ _).mp runs
  simp only [Bool.and_eq_true, decide_eq_true_eq] at runs
  exact ⟨start, w, v, hstart, hw, hv, runs.1.1.1, runs.1.1.2, runs.1.2, runs.2⟩

theorem second_sweep_writes : ∃ start w v, Reachable step (· = empty) start ∧
    (∃ considered, SweptAlone start 1 90000000 1 considered w) ∧
    (∃ considered, SweptAlone w 2 90000000 1 considered v) ∧
    w.lifecycleOf "req_2" = some .accepted ∧ v.lifecycleOf "req_2" = some .failed := by
  obtain ⟨start, w, v, hstart, hw, hv, first, second, before, after⟩ := twoAbandoned_swept
  exact ⟨start, w, v, ⟨empty, twoAbandoned, rfl, hstart⟩, sweptAlone_oneVerdict hw first,
    sweptAlone_oneVerdict hv second, before, after⟩

theorem reconciler_writes_proved_verdicts_twoAbandoned :
    (∃ (past : Past) (m : Move Reconciler ReconcilerAction) (worker : ℕ) (sweep : Sweep)
        (instant : Instant), m.action = .update worker instant ∧
      m.before.sweeps worker = some sweep ∧
      ProvedWrite past m.before m.after worker sweep.now "req_1") ∧
    ∃ start w v considered considered', SweptAlone start 1 90000000 1 considered w ∧
      SweptAlone w 2 90000000 1 considered' v ∧
      "req_2" ∉ considered.map (·.requestId) ∧ 1 < (actionable start).length := by
  constructor
  · let actions := twoAbandoned ++ .sweep 1 90000000 1 :: oneVerdict 1
    have moves : ((history step empty actions).getLast?).any (fun m =>
        m.action.worker.isSome && m.before.lifecycleOf "req_1" = some .accepted &&
          m.after.lifecycleOf "req_1" = some .failed) = true := by
      decide +kernel
    obtain ⟨m, hm, moved⟩ := (Option.any_eq_true _ _).mp moves
    simp only [Bool.and_eq_true, decide_eq_true_eq] at moved
    obtain ⟨past, split⟩ := List.getLast?_eq_some_iff.mp hm
    have changed : m.after.requests.committed "req_1" ≠ m.before.requests.committed "req_1" := by
      intro same
      have states := moved.2
      rw [lifecycleOf, same, ← lifecycleOf, moved.1.2] at states
      cases states
    exact ⟨past, m, reconciler_writes_proved_verdicts.1 actions past [] m "req_1" split
      moved.1.1 changed⟩
  · obtain ⟨start, w, v, hstart, hw, hv, hfirst, hsecond, before, after⟩ := twoAbandoned_swept
    obtain ⟨considered, first⟩ := sweptAlone_oneVerdict hw hfirst
    obtain ⟨considered', second⟩ := sweptAlone_oneVerdict hv hsecond
    have changed : v.requests.committed "req_2" ≠ w.requests.committed "req_2" := by
      intro same
      rw [lifecycleOf, same, ← lifecycleOf, before] at after
      cases after
    have reach : Reachable step (· = empty) w :=
      ⟨empty, twoAbandoned ++ .sweep 1 90000000 1 :: oneVerdict 1, rfl,
        exec_append_eq_some.mpr ⟨start, hstart, hw⟩⟩
    exact ⟨start, w, v, considered, considered', first, second,
      reconciler_writes_proved_verdicts.2 start w w v 1 2 1 1 90000000 considered considered'
        "req_2"
        ⟨empty, twoAbandoned, rfl, hstart⟩ reach first ⟨rfl, rfl, rfl⟩ second changed⟩

end Reconciler

end FeatureGen.Materialize
