import FeatureGen.Materialize.SecondSweep

/-! # Bounded sweeps

One sweep after another, each alone: a sweep writes what the tables support for its
candidates. A request that no sweep can be written a verdict for keeps its place among
the candidates, so what stands behind as many of those as a sweep has room for is never
considered, and what stands behind fewer is written in the end.
-/

namespace FeatureGen.Materialize.Reconciler

open FeatureGen.Runtime RowLocks Transition

variable {start w v u : Reconciler} {worker : ℕ} {now : Instant} {limit : ℕ}
  {r y : MaterializationRequest} {considered : List ReconciledRequest} {action : ReconcilerAction}

theorem nodup_places {κ : Type} {xs : List MaterializationRequest}
    (ids : (xs.map (·.requestId)).Nodup) (f : MaterializationRequest → κ) :
    (xs.map fun r => toLex (f r, toLex (r.requestedAt, r.requestId))).Nodup := by
  refine List.Nodup.of_map (fun place => (ofLex (ofLex place).2).2) ?_
  rw [List.map_map]
  exact ids

theorem upTo_le_of_unreachable (keyed : w.Keyed) (edge : hasTerminalEdge r.lifecycleState = true)
    (h : r ∈ unreachableRequests w.requests w.queue limit) : (upTo w r).length ≤ limit := by
  have ids := (nodup_committed keyed).sublist ((List.filter_sublist (p := fun y =>
    !y.lifecycleState.isTerminal && !deliverable w.queue y.requestId)).map
      MaterializationRequest.requestId)
  have few := KeySort.length_le_of_mem_take_sortBy
    (nodup_places ids fun y => !hasTerminalEdge y.lifecycleState) h
  refine le_trans ?_ few
  rw [upTo_eq]
  refine (List.monotone_filter_right _ fun y hy => ?_).length_le
  simp only [Bool.and_eq_true, decide_eq_true_eq] at hy
  simp only [hy.2, edge, decide_eq_true_eq, Prod.Lex.le_iff, ofLex_toLex, lt_self_iff_false,
    true_and, false_or]
  exact Prod.Lex.le_iff.mp hy.1

theorem tier_le_of_mem {writable : List String} (h : y.requestId ∈ writable) :
    tier writable y ≤ 1 := by
  have listed : writable.contains y.requestId = true := List.contains_iff_mem.mpr h
  simp only [tier, listed, not_true, if_false]
  split <;> omega

theorem upTo_le_of_mem_candidates (keyed : w.Keyed) (hr : r ∈ actionable w)
    (h : r ∈ candidatesOf w now limit) : (upTo w r).length ≤ limit := by
  have edge : hasTerminalEdge r.lifecycleState = true :=
    (Bool.and_eq_true_iff.mp (List.mem_filter.mp hr).2).1
  by_cases found : r ∈ unreachableRequests w.requests w.queue limit
  · exact upTo_le_of_unreachable keyed edge found
  · exfalso
    set unreachable := unreachableRequests w.requests w.queue limit with hu
    -- The first query has cut it off, and so has filled the bound.
    have full : unreachable.length = limit := by
      rw [hu, unreachableRequests, List.length_take]
      by_contra short
      apply found
      rw [hu, unreachableRequests, List.take_of_length_le (by omega), KeySort.mem_sortBy]
      have mem := hr
      rw [← filter_unreachable] at mem
      exact (List.mem_filter.mp mem).1
    set writable := unreachable.map (·.requestId) with hw
    have ids : ((unreachable ++ (expiredRequests w.requests now limit).filter fun y =>
        !writable.contains y.requestId).map (·.requestId)).Nodup :=
      nodup_found (nodup_unreachable keyed) (nodup_expired keyed)
    have few : ((unreachable ++ (expiredRequests w.requests now limit).filter fun y =>
        !writable.contains y.requestId).filter fun y =>
          toLex (tier writable y, toLex (y.requestedAt, y.requestId)) ≤
            toLex (tier writable r, toLex (r.requestedAt, r.requestId))).length ≤ limit :=
      KeySort.length_le_of_mem_take_sortBy (nodup_places ids (tier writable)) h
    have unlisted : ¬writable.contains r.requestId = true := by
      intro listed
      obtain ⟨y, hy, same⟩ := List.mem_map.mp (List.contains_iff_mem.mp listed)
      have stored := keyed.of_mem (mem_of_mem_unreachable hy)
      have stored' := keyed.of_mem (List.mem_filter.mp hr).1
      rw [same, stored'] at stored
      exact found (Option.some.inj stored ▸ hy)
    have last : tier writable r = 2 := by rw [tier, if_pos unlisted]
    have before : ∀ y ∈ unreachable, toLex (tier writable y, toLex (y.requestedAt, y.requestId)) ≤
        toLex (tier writable r, toLex (r.requestedAt, r.requestId)) := by
      intro y hy
      have le : tier writable y ≤ 1 := tier_le_of_mem (List.mem_map_of_mem hy)
      rw [Prod.Lex.le_iff, last]
      exact Or.inl (Nat.lt_succ_of_le le)
    have mem : r ∈ (expiredRequests w.requests now limit).filter fun y =>
        !writable.contains y.requestId := by
      have either := (KeySort.mem_sortBy _).mp (List.mem_of_mem_take h)
      exact (List.mem_append.mp either).resolve_left found
    rw [List.filter_append, List.length_append,
      List.filter_eq_self.mpr fun y hy => decide_eq_true (before y hy), full] at few
    have own : 0 < (((expiredRequests w.requests now limit).filter fun y =>
        !writable.contains y.requestId).filter fun y =>
          toLex (tier writable y, toLex (y.requestedAt, y.requestId)) ≤
            toLex (tier writable r, toLex (r.requestedAt, r.requestId))).length :=
      List.length_pos_of_mem (List.mem_filter.mpr ⟨mem, decide_eq_true (le_refl _)⟩)
    omega

/-- A row that a verdict has ended. -/
def ended (r : MaterializationRequest) (target : RequestLifecycle) (instant : Instant) :
    MaterializationRequest :=
  { r with lifecycleState := target, updatedAt := instant }

theorem move_terminalize {judged : Judged} {target : RequestLifecycle} {instant : Instant} :
    (terminalize judged target).move instant judged.request =
      ended judged.request target instant := by
  simp [Advance.move, terminalize, ended]

/-- A row is as it was, or the tables supported its end. -/
def EndedAs (start w : Reconciler) (now : Instant) (id : String) : Prop :=
  ∃ r target instant, start.requests.committed id = some r ∧
    supported start now r = some target ∧
      w.requests.committed id = some (ended r target instant)

/-- What a worker's sweep has written so far. -/
structure Written (start w : Reconciler) (worker : ℕ) (now : Instant)
    (considered : List ReconciledRequest) : Prop where
  keys : w.requests.keys = start.requests.keys
  others : ∀ other, other ≠ worker → w.sweeps other = start.sweeps other
  rows : ∀ id, w.requests.committed id = start.requests.committed id ∨
    id ∈ considered.map (·.requestId) ∧ EndedAs start w now id

def WrittenAt (start w : Reconciler) (worker : ℕ) (now : Instant) : Prop :=
  ∀ sweep, w.sweeps worker = some sweep → Written start w worker now sweep.considered

theorem Written.keep {considered' : List ReconciledRequest} {s : Sweep}
    (h : Written start w worker now considered) (requests : v.requests = w.requests)
    (sweeps : v.sweeps = Function.update w.sweeps worker (some s))
    (more : considered ⊆ considered') (own : s.considered = considered') :
    WrittenAt start v worker now := by
  intro s' hs'
  obtain rfl : s = s' := by simpa [sweeps] using hs'
  rw [own]
  refine ⟨requests ▸ h.keys, ?_, ?_⟩
  · intro other differs
    rw [sweeps, Function.update_of_ne differs]
    exact h.others other differs
  · intro id
    unfold EndedAs
    rw [requests]
    exact (h.rows id).imp_right fun ended => ⟨List.map_subset _ more ended.1, ended.2⟩

theorem mem_keys_of_supported (keyed : start.Keyed) {id : String}
    (stored : start.requests.committed id = some r) : id ∈ start.requests.keys :=
  keyed.listed.committed id (by simp [stored])

theorem Written.put {judged : Judged} {target : RequestLifecycle} {instant : Instant} {s : Sweep}
    (keyed : start.Keyed) (h : Written start w worker now considered)
    (stored : w.requests.committed judged.request.requestId = some judged.request)
    (support : supported start now judged.request = some target)
    (requests : v.requests = w.requests.put judged.request.requestId
      ((terminalize judged target).move instant judged.request))
    (sweeps : v.sweeps = Function.update w.sweeps worker (some s))
    (own : s.considered =
      considered ++ [left judged.request judged.message (writtenVerdict target)]) :
    WrittenAt start v worker now := by
  have unwritten : start.requests.committed judged.request.requestId = some judged.request := by
    cases h.rows judged.request.requestId with
    | inl same => rw [← same, stored]
    | inr ended =>
        obtain ⟨_, r, target', instant', _, support', written⟩ := ended
        rw [stored] at written
        have terminal : judged.request.lifecycleState.isTerminal = true := by
          rw [Option.some.inj written]
          exact terminal_of_supported support'
        rw [supported_terminal terminal] at support
        cases support
  intro s' hs'
  obtain rfl : s = s' := by simpa [sweeps] using hs'
  rw [own]
  refine ⟨?_, ?_, ?_⟩
  · rw [requests, Rows.put, h.keys, if_pos (mem_keys_of_supported keyed unwritten)]
  · intro other differs
    rw [sweeps, Function.update_of_ne differs]
    exact h.others other differs
  · intro id
    by_cases same : id = judged.request.requestId
    · subst same
      refine Or.inr ⟨by simp [left], judged.request, target, instant, unwritten, support, ?_⟩
      simp [requests, Rows.put, move_terminalize]
    · have others : v.requests.committed id = w.requests.committed id := by
        simp [requests, Rows.put, same]
      unfold EndedAs
      rw [others]
      refine (h.rows id).imp_right fun ended => ⟨?_, ended.2⟩
      rw [List.map_append]
      exact List.mem_append_left _ ended.1

theorem written_begin (hstep : start.step (.sweep worker now limit) = some w) :
    WrittenAt start w worker now := by
  simp only [step] at hstep
  split at hstep
  · cases hstep
  · cases hstep
    intro s hs
    refine ⟨rfl, ?_, fun _ => Or.inl rfl⟩
    intro other differs
    simp [setSweep, Function.update_of_ne differs]

theorem WrittenAt.step (keyed : start.Keyed) (alone : AloneAt start w worker now limit)
    (h : WrittenAt start w worker now) (own : action.worker = some worker)
    (goes : action.begins = false) (hstep : w.step action = some v) :
    WrittenAt start v worker now := by
  cases swept hstep own with
  | gone action other hown =>
      obtain rfl : other = worker := Option.some.inj (hown.symm.trans own)
      intro s hs
      simp [setSweep] at hs
  | began => cases goes
  | queried other now' limit' unreachable remaining considered under =>
      cases own
      obtain ⟨_, same⟩ := (alone _ under).plan
      have before := h _ under
      intro s hs
      obtain rfl : _ = s := by simpa [setSweep] using hs
      refine ⟨by rw [← same]; rfl, ?_, fun id => Or.inl (by rw [← same]; rfl)⟩
      intro other differs
      exact (Function.update_of_ne differs _ _).trans (before.others other differs)
  | left other now' limit' request remaining considered verdict under judged =>
      cases own
      exact (h _ under).keep rfl rfl (List.subset_append_left _ _) rfl
  | reads other now' limit' request remaining considered runId under judged =>
      cases own
      exact (h _ under).keep rfl rfl (List.Subset.refl _) rfl
  | abandoned other now' limit' request remaining considered target under judged =>
      cases own
      exact (h _ under).keep rfl rfl (List.Subset.refl _) rfl
  | unproved other now' limit' judged runId remaining considered under unended =>
      cases own
      exact (h _ under).keep rfl rfl (List.subset_append_left _ _) rfl
  | proved other now' limit' judged runId remaining considered target under ended =>
      cases own
      exact (h _ under).keep rfl rfl (List.Subset.refl _) rfl
  | called other now' limit' judged target remaining considered under legal =>
      cases own
      exact (h _ under).keep rfl rfl (List.Subset.refl _) rfl
  | raced action other hown _ now' limit' judged target remaining considered under moved =>
      obtain rfl : other = worker := Option.some.inj (hown.symm.trans own)
      cases under with
      | inl under => exact (h _ under).keep rfl rfl (List.subset_append_left _ _) rfl
      | inr under => exact (h _ under).keep rfl rfl (List.subset_append_left _ _) rfl
  | wrote other instant now' limit' judged target remaining considered r under stored state free =>
      cases own
      have lone := alone _ under
      have same := lone.fresh judged.request List.mem_cons_self
      obtain rfl : judged.request = r := Option.some.inj (same.symm.trans stored)
      exact (h _ under).put keyed stored lone.supports rfl rfl rfl
  | locked other now' limit' judged target remaining considered under held =>
      cases own
      exact (h _ under).keep rfl rfl (List.subset_append_left _ _) rfl

theorem SweptAlone.written (keyed : start.Keyed)
    (h : SweptAlone start worker now limit considered w) :
    Written start w worker now considered := by
  obtain ⟨actions, own, run, under⟩ := h
  obtain ⟨begun, hbegin, run⟩ := exec_cons_eq_some.mp run
  have along : Along step (fun _ action => action.worker = some worker ∧ action.begins = false)
      begun actions := along_of_forall fun action ha _ => own action ha
  have both := exec_induction_along
    (P := fun v => AloneAt start v worker now limit ∧ WrittenAt start v worker now)
    ⟨alone_begin keyed hbegin, written_begin hbegin⟩
    (fun _ _ _ h goes hstep => ⟨h.1.step keyed goes.1 goes.2 hstep,
      h.2.step keyed h.1 goes.1 goes.2 hstep⟩) along run
  exact both.2 _ under

/-- No other session is at work, and no row is locked. -/
structure Quiet (w : Reconciler) : Prop where
  keyed : w.Keyed
  drafts : ∀ id, w.requests.drafts id = none
  sweeps : ∀ worker, w.sweeps worker = none

/-- A call of `reconcile_abandoned_requests` that runs alone. -/
def SweepCall (w : Reconciler) (now : Instant) (limit : ℕ) (v : Reconciler) : Prop :=
  ∃ worker considered u, SweptAlone w worker now limit considered u ∧
    u.step (.leave worker) = some v

structure Called (w v : Reconciler) (now : Instant) (limit : ℕ) : Prop where
  quiet : v.Quiet
  queue : v.queue = w.queue
  events : v.events = w.events
  keys : v.requests.keys = w.requests.keys
  /-- It writes what the tables support, of its candidates. -/
  rows : ∀ id, v.requests.committed id = w.requests.committed id ∨
    id ∈ (candidatesOf w now limit).map (·.requestId) ∧ EndedAs w v now id
  /-- And leaves none of them that they support an end of. -/
  through : ∀ r ∈ candidatesOf w now limit, v.requests.committed r.requestId = some r →
    supported w now r = none

theorem leave_cases (h : u.step (.leave worker) = some v) : v = u.setSweep worker none := by
  simp only [step] at h
  split at h
  · cases h
  · cases h
    rfl

theorem SweepCall.called (quiet : w.Quiet) (h : SweepCall w now limit v) :
    Called w v now limit := by
  obtain ⟨worker, considered, u, swept, leaves⟩ := h
  have alone := swept.alone quiet.keyed
  have written := swept.written quiet.keyed
  obtain rfl := leave_cases leaves
  have ids : considered.map (·.requestId) = (candidatesOf w now limit).map (·.requestId) := by
    have plan := alone.plan
    simpa [Plan, pending] using plan
  refine ⟨⟨⟨?_, ?_⟩, ?_, ?_⟩, alone.queue, alone.events, written.keys, ?_, ?_⟩
  · have listed := quiet.keyed.listed
    refine ⟨written.keys ▸ listed.nodup, ?_, ?_⟩
    · intro id stored
      have keys : (u.setSweep worker none).requests.keys = w.requests.keys := written.keys
      rw [keys]
      cases written.rows id with
      | inl same =>
          apply listed.committed
          rw [← same]
          exact stored
      | inr ended =>
          obtain ⟨_, r, _, _, before, _⟩ := ended
          exact listed.committed id (by simp [before])
    · intro id held
      exact absurd ((congrFun alone.drafts id).trans (quiet.drafts id)) held
  · intro id r stored
    cases written.rows id with
    | inl same => exact quiet.keyed.ids id r (same ▸ stored)
    | inr ended =>
        obtain ⟨_, r', target, instant, before, _, after⟩ := ended
        obtain rfl := Option.some.inj (after.symm.trans stored)
        exact quiet.keyed.ids id r' before
  · intro id
    exact (congrFun alone.drafts id).trans (quiet.drafts id)
  · intro other
    by_cases same : other = worker
    · subst same
      exact Function.update_self _ _ _
    · exact (Function.update_of_ne same _ _).trans
        ((written.others other same).trans (quiet.sweeps other))
  · intro id
    rw [← ids]
    exact written.rows id
  · intro r hr stored
    obtain ⟨c, hc, same⟩ := List.mem_map.mp (ids ▸ List.mem_map_of_mem hr)
    have done := alone.done c hc r (by rw [same]; exact stored)
    exact done.resolve_right fun held => held (quiet.drafts _)

/-- Steps of the worker's sweep lead on. -/
def Onward (worker : ℕ) (w v : Reconciler) : Prop :=
  ∃ actions : List ReconcilerAction,
    (∀ action ∈ actions, action.worker = some worker ∧ action.begins = false) ∧
      exec step w actions = some v

theorem Onward.refl : Onward worker w w := ⟨[], by simp, rfl⟩

theorem Onward.single (hstep : w.step action = some v) (own : action.worker = some worker)
    (goes : action.begins = false) : Onward worker w v := by
  refine ⟨[action], ?_, exec_single.trans hstep⟩
  intro other hother
  rw [List.mem_singleton.mp hother]
  exact ⟨own, goes⟩

theorem Onward.trans (first : Onward worker w v) (second : Onward worker v u) :
    Onward worker w u := by
  obtain ⟨actions, own, run⟩ := first
  obtain ⟨actions', own', run'⟩ := second
  refine ⟨actions ++ actions', ?_, exec_append_eq_some.mpr ⟨v, run, run'⟩⟩
  intro action haction
  exact (List.mem_append.mp haction).elim (own action) (own' action)

theorem written_out (quiet : start.Quiet) (alone : AloneAt start w worker now limit)
    {judged : Judged} {target : RequestLifecycle} {remaining : List MaterializationRequest}
    (under : w.sweeps worker = some ⟨now, limit, .writing judged target, remaining, considered⟩) :
    ∃ v considered', Onward worker w v ∧
      v.sweeps worker = some ⟨now, limit, .judging, remaining, considered'⟩ := by
  have lone := alone _ under
  have stored : w.requests.committed judged.request.requestId = some judged.request :=
    lone.fresh judged.request List.mem_cons_self
  have support : supported start now judged.request = some target := lone.supports
  have free : w.requests.drafts judged.request.requestId = none :=
    (congrFun lone.drafts _).trans (quiet.drafts _)
  have called : w.step (.write worker) = some (w.setSweep worker (some
      ⟨now, limit, .updating judged target, remaining, considered⟩)) := by
    simp [step, under, (legal_of_supported support).1, stored, allows_of_supported support,
      Sweep.goTo]
  have updated : ∃ v considered', step (w.setSweep worker (some
      ⟨now, limit, .updating judged target, remaining, considered⟩)) (.update worker 0) = some v ∧
        v.sweeps worker = some ⟨now, limit, .judging, remaining, considered'⟩ := by
    simp [step, setSweep, stored, free, sources_terminalize, Sweep.record, Option.filter]
  obtain ⟨v, considered', hstep, judging⟩ := updated
  exact ⟨v, considered', (Onward.single called rfl rfl).trans (Onward.single hstep rfl rfl),
    judging⟩

theorem AloneAt.onward (keyed : start.Keyed) (h : AloneAt start w worker now limit)
    (onward : Onward worker w v) : AloneAt start v worker now limit := by
  obtain ⟨actions, own, run⟩ := onward
  exact exec_induction_along (P := fun v => AloneAt start v worker now limit) h
    (fun _ _ _ h goes hstep => h.step keyed goes.1 goes.2 hstep)
    (along_of_forall fun action ha _ => own action ha) run

theorem dealt_with (quiet : start.Quiet) (alone : AloneAt start w worker now limit)
    {remaining : List MaterializationRequest} (live : r.lifecycleState.isTerminal = false)
    (under : w.sweeps worker = some ⟨now, limit, .judging, r :: remaining, considered⟩) :
    ∃ v considered', Onward worker w v ∧
      v.sweeps worker = some ⟨now, limit, .judging, remaining, considered'⟩ := by
  cases judged : judge r (w.queue (materializationMessageId r.requestId)) now with
  | left verdict =>
      have recorded : ∃ v considered', w.step (.judge worker) = some v ∧
          v.sweeps worker = some ⟨now, limit, .judging, remaining, considered'⟩ := by
        simp [step, under, judged, setSweep, Sweep.record]
      obtain ⟨v, considered', hstep, judging⟩ := recorded
      exact ⟨v, considered', Onward.single hstep rfl rfl, judging⟩
  | reads runId =>
      have hstep : w.step (.judge worker) = some (w.setSweep worker (some ⟨now, limit,
          .reading ⟨r, w.queue (materializationMessageId r.requestId)⟩ runId, remaining,
            considered⟩)) := by
        simp [step, under, judged, Sweep.goTo]
      have reading : Onward worker w _ := Onward.single hstep rfl rfl
      cases ends : mirrored (runEventsOf w.events runId) with
      | none =>
          have recorded : ∃ v considered', step (w.setSweep worker (some ⟨now, limit,
              .reading ⟨r, w.queue (materializationMessageId r.requestId)⟩ runId, remaining,
                considered⟩)) (.readEvents worker) = some v ∧
              v.sweeps worker = some ⟨now, limit, .judging, remaining, considered'⟩ := by
            simp [step, setSweep, ends, Sweep.record]
          obtain ⟨v, considered', hread, judging⟩ := recorded
          exact ⟨v, considered', reading.trans (Onward.single hread rfl rfl), judging⟩
      | some target =>
          have proved : ∃ v, step (w.setSweep worker (some ⟨now, limit,
              .reading ⟨r, w.queue (materializationMessageId r.requestId)⟩ runId, remaining,
                considered⟩)) (.readEvents worker) = some v ∧
              v.sweeps worker = some ⟨now, limit, .writing
                ⟨r, w.queue (materializationMessageId r.requestId)⟩ target, remaining,
                  considered⟩ := by
            simp [step, setSweep, ends, Sweep.goTo]
          obtain ⟨v, hread, writing⟩ := proved
          have onward := reading.trans (Onward.single hread rfl rfl)
          obtain ⟨u, considered', hwrite, judging⟩ :=
            written_out quiet (alone.onward quiet.keyed onward) writing
          exact ⟨u, considered', onward.trans hwrite, judging⟩
  | terminalizes target =>
      have abandoned : ∃ v, w.step (.judge worker) = some v ∧
          v.sweeps worker = some ⟨now, limit, .writing
            ⟨r, w.queue (materializationMessageId r.requestId)⟩ target, remaining,
              considered⟩ := by
        simp [step, under, judged, setSweep, Sweep.goTo]
      obtain ⟨v, hstep, writing⟩ := abandoned
      have onward : Onward worker w v := Onward.single hstep rfl rfl
      obtain ⟨u, considered', hwrite, judging⟩ :=
        written_out quiet (alone.onward quiet.keyed onward) writing
      exact ⟨u, considered', onward.trans hwrite, judging⟩
  | raises =>
      exfalso
      unfold judge at judged
      split at judged
      · cases judged
      · split at judged
        · cases judged
        · split at judged
          · cases judged
          · split at judged <;> cases judged
          · split at judged <;> cases judged
          · next state =>
              rw [state] at live
              cases live
          · next state =>
              rw [state] at live
              cases live

theorem exists_through (quiet : start.Quiet) (remaining : List MaterializationRequest)
    (alone : AloneAt start w worker now limit)
    (live : ∀ r ∈ remaining, r.lifecycleState.isTerminal = false)
    (under : w.sweeps worker = some ⟨now, limit, .judging, remaining, considered⟩) :
    ∃ v considered', Onward worker w v ∧
      v.sweeps worker = some ⟨now, limit, .judging, [], considered'⟩ := by
  induction remaining generalizing w considered with
  | nil => exact ⟨w, considered, Onward.refl, under⟩
  | cons r remaining ih =>
      obtain ⟨v, considered', first, judging⟩ :=
        dealt_with quiet alone (live r List.mem_cons_self) under
      obtain ⟨u, considered'', rest, through⟩ := ih (alone.onward quiet.keyed first)
        (fun r hr => live r (List.mem_cons_of_mem _ hr)) judging
      exact ⟨u, considered'', first.trans rest, through⟩

theorem live_of_mem_candidates (h : r ∈ candidatesOf w now limit) :
    r.lifecycleState.isTerminal = false := by
  have found := mem_of_mem_candidates h
  cases found with
  | inl unreachable =>
      have found := (KeySort.mem_sortBy _).mp (List.mem_of_mem_take unreachable)
      have kept := (List.mem_filter.mp found).2
      simp only [Bool.and_eq_true, Bool.not_eq_true'] at kept
      exact kept.1
  | inr expired =>
      have found := (KeySort.mem_sortBy _).mp (List.mem_of_mem_take expired)
      have kept := (List.mem_filter.mp found).2
      simp only [Bool.and_eq_true, Bool.not_eq_true'] at kept
      exact kept.1

theorem exists_sweepCall (quiet : w.Quiet) (now : Instant) (limit : ℕ) :
    ∃ v, SweepCall w now limit v := by
  have begins : ∃ u, w.step (.sweep 0 now limit) = some u ∧ u.requests = w.requests ∧
      u.sweeps 0 = some ⟨now, limit, .queried (unreachableRequests w.requests w.queue limit), [],
        []⟩ := by
    simp [step, quiet.sweeps, setSweep]
  obtain ⟨u, hbegin, same, queried⟩ := begins
  have asks : ∃ u', u.step (.query 0) = some u' ∧
      u'.sweeps 0 = some ⟨now, limit, .judging, candidatesOf w now limit, []⟩ := by
    simp [step, queried, setSweep, same, candidatesOf]
  obtain ⟨u', hquery, judging⟩ := asks
  have alone := alone_begin quiet.keyed hbegin
  have query : Onward 0 u u' := Onward.single hquery rfl rfl
  obtain ⟨v, considered, onward, through⟩ := exists_through quiet _
    (alone.onward quiet.keyed query) (fun r hr => live_of_mem_candidates hr) judging
  obtain ⟨actions, own, run⟩ := query.trans onward
  have leaves : v.step (.leave 0) = some (v.setSweep 0 none) := by simp [step, through]
  exact ⟨_, 0, considered, v, ⟨actions, own, exec_cons_eq_some.mpr ⟨u, hbegin, run⟩, through⟩,
    leaves⟩

/-- The state after `n` calls, the `i`-th of them at `clock i`. -/
inductive SweepsInTurn (limit : ℕ) (clock : ℕ → Instant) (start : Reconciler) :
    ℕ → Reconciler → Prop where
  | begun : SweepsInTurn limit clock start 0 start
  | next {n : ℕ} {w v : Reconciler} (before : SweepsInTurn limit clock start n w)
      (call : SweepCall w (clock n) limit v) : SweepsInTurn limit clock start (n + 1) v

/-- What the calls have done to the rows. -/
structure Ran (start w : Reconciler) (clock : ℕ → Instant) : Prop where
  quiet : w.Quiet
  queue : w.queue = start.queue
  events : w.events = start.events
  keys : w.requests.keys = start.requests.keys
  rows : ∀ id, w.requests.committed id = start.requests.committed id ∨
    ∃ i, EndedAs start w (clock i) id

theorem Ran.supported {clock : ℕ → Instant} (ran : Ran start w clock) {now : Instant} :
    supported w now r = supported start now r := supported_congr ran.queue ran.events

theorem Ran.next {clock : ℕ → Instant} {n : ℕ} (ran : Ran start w clock)
    (called : Called w v (clock n) limit) : Ran start v clock where
  quiet := called.quiet
  queue := called.queue.trans ran.queue
  events := called.events.trans ran.events
  keys := called.keys.trans ran.keys
  rows id := by
    cases called.rows id with
    | inl same =>
        unfold EndedAs
        rw [same]
        exact ran.rows id
    | inr ended =>
        obtain ⟨_, r, target, instant, before, support, after⟩ := ended
        cases ran.rows id with
        | inl same =>
            refine Or.inr ⟨n, r, target, instant, same ▸ before, ?_, after⟩
            rw [← ran.supported]
            exact support
        | inr already =>
            obtain ⟨i, r', target', instant', _, support', written⟩ := already
            obtain rfl := Option.some.inj (before.symm.trans written)
            have terminal : (ended r' target' instant').lifecycleState.isTerminal = true :=
              terminal_of_supported support'
            rw [supported_terminal terminal] at support
            cases support

section Turns

variable {clock : ℕ → Instant} {n : ℕ} {x : MaterializationRequest}

theorem ran_of_turns (quiet : start.Quiet) (turns : SweepsInTurn limit clock start n w) :
    Ran start w clock := by
  induction turns with
  | begun => exact ⟨quiet, rfl, rfl, rfl, fun _ => Or.inl rfl⟩
  | next _ call ih => exact ih.next (call.called ih.quiet)

theorem exists_turns (quiet : start.Quiet) (limit : ℕ) (clock : ℕ → Instant) (n : ℕ) :
    ∃ w, SweepsInTurn limit clock start n w := by
  induction n with
  | zero => exact ⟨start, .begun⟩
  | succ n ih =>
      obtain ⟨w, turns⟩ := ih
      obtain ⟨v, call⟩ := exists_sweepCall (ran_of_turns quiet turns).quiet (clock n) limit
      exact ⟨v, turns.next call⟩

/-- The row is the one in the table. -/
def Stands (w : Reconciler) (r : MaterializationRequest) : Prop :=
  w.requests.committed r.requestId = some r

instance : DecidablePred (Stands w) := fun r =>
  inferInstanceAs (Decidable (w.requests.committed r.requestId = some r))

theorem not_hasTerminalEdge {state : RequestLifecycle} (h : state.isTerminal = true) :
    hasTerminalEdge state = false := by
  cases edge : hasTerminalEdge state with
  | false => rfl
  | true =>
      rw [hasTerminalEdge_live edge] at h
      cases h

theorem Ran.actionable_eq (keyed : start.Keyed) (ran : Ran start w clock) :
    actionable w = (actionable start).filter (Stands w) := by
  unfold actionable committedRequests
  rw [List.filter_filter, List.filter_filterMap, List.filter_filterMap, ran.keys, ran.queue]
  refine List.filterMap_congr fun id _ => ?_
  cases ran.rows id with
  | inl same =>
      rw [same]
      cases stored : start.requests.committed id with
      | none => rfl
      | some r =>
          have stands : Stands w r := by
            rw [Stands, keyed.ids id r stored, same, stored]
          simp [Option.filter, stands]
  | inr already =>
      obtain ⟨i, r, target, instant, stored, support, written⟩ := already
      have moved : ¬Stands w r := by
        rw [Stands, keyed.ids id r stored, written, Option.some.injEq]
        intro same
        have terminal : r.lifecycleState.isTerminal = true := by
          rw [← same]
          exact terminal_of_supported support
        rw [supported_terminal terminal] at support
        cases support
      have closed : hasTerminalEdge (ended r target instant).lifecycleState = false :=
        not_hasTerminalEdge (terminal_of_supported support)
      simp [Option.filter, written, stored, moved, closed]

theorem supported_mono {now later : Instant} (le : now ≤ later) {target : RequestLifecycle}
    (h : supported w now r = some target) : supported w later r = some target := by
  have judged : ∀ verdict : Judgement, verdict ≠ .left .leased →
      judge r (w.queue (materializationMessageId r.requestId)) now = verdict →
        judge r (w.queue (materializationMessageId r.requestId)) later = verdict := by
    intro verdict notLeased judged
    unfold judge at judged ⊢
    split
    · next owned => rwa [if_pos owned] at judged
    · next unowned =>
      rw [if_neg unowned] at judged
      by_cases leased : r.leaseExpiresAt.any (now < ·) = true
      · rw [if_pos leased] at judged
        exact absurd judged.symm notLeased
      · rw [if_neg leased] at judged
        have expired : ¬r.leaseExpiresAt.any (later < ·) = true := by
          cases lease : r.leaseExpiresAt with
          | none => simp
          | some instant =>
              simp only [lease, Option.any_some, decide_eq_true_eq] at leased ⊢
              exact not_lt.mpr ((not_lt.mp leased).trans le)
        rwa [if_neg expired]
  unfold supported at h ⊢
  cases hnow : judge r (w.queue (materializationMessageId r.requestId)) now with
  | left verdict =>
      rw [hnow] at h
      cases h
  | raises =>
      rw [hnow] at h
      cases h
  | reads runId =>
      rw [hnow] at h
      rwa [judged _ (by simp) hnow]
  | terminalizes target' =>
      rw [hnow] at h
      rwa [judged _ (by simp) hnow]

/-- No sweep is supported in a verdict. -/
def Stuck (start : Reconciler) (clock : ℕ → Instant) (r : MaterializationRequest) : Prop :=
  ∀ i, supported start (clock i) r = none

open Classical in
/-- How many requests stand before a request that no sweep is supported in a verdict on. -/
noncomputable def stuckBefore (start : Reconciler) (clock : ℕ → Instant)
    (r : MaterializationRequest) : ℕ :=
  (actionable start).countP fun y => place y < place r ∧ Stuck start clock y

theorem exists_supported_of_not_stuck (h : ¬Stuck start clock r) :
    ∃ i target, supported start (clock i) r = some target := by
  unfold Stuck at h
  push Not at h
  obtain ⟨i, some⟩ := h
  exact ⟨i, Option.ne_none_iff_exists'.mp some⟩

theorem exists_supported_from (mono : Monotone clock) (rs : List MaterializationRequest)
    (each : ∀ r ∈ rs, ¬Stuck start clock r) :
    ∃ N, ∀ n, N ≤ n → ∀ r ∈ rs, supported start (clock n) r ≠ none := by
  induction rs with
  | nil => exact ⟨0, by simp⟩
  | cons r rs ih =>
      obtain ⟨N, later⟩ := ih fun r hr => each r (List.mem_cons_of_mem _ hr)
      obtain ⟨i, target, support⟩ := exists_supported_of_not_stuck (each r List.mem_cons_self)
      refine ⟨max N i, fun n hn y hy => ?_⟩
      cases List.mem_cons.mp hy with
      | inl same =>
          rw [same, supported_mono (mono ((le_max_right N i).trans hn)) support]
          simp
      | inr rest => exact later n ((le_max_left N i).trans hn) y rest

open Classical in
/-- The actionable requests that some sweep is supported in a verdict on. -/
noncomputable def undecided (start w : Reconciler) (clock : ℕ → Instant) :
    List MaterializationRequest :=
  (actionable w).filter fun y => ¬Stuck start clock y

theorem mem_undecided : r ∈ undecided start w clock ↔ r ∈ actionable w ∧ ¬Stuck start clock r := by
  simp [undecided]

theorem place_injective {p q : MaterializationRequest} (keyed : w.Keyed)
    (hp : p ∈ actionable w) (hq : q ∈ actionable w) (same : place p = place q) : p = q := by
  have ids : p.requestId = q.requestId := congrArg (fun place => (ofLex place).2) same
  have stored := keyed.of_mem (List.mem_filter.mp hp).1
  rw [ids, keyed.of_mem (List.mem_filter.mp hq).1] at stored
  exact (Option.some.inj stored).symm

theorem nodup_actionable (keyed : w.Keyed) : (actionable w).Nodup :=
  (List.Nodup.of_map _ (nodup_committed keyed)).sublist List.filter_sublist

theorem countP_or_le {α : Type} (p q : α → Bool) (xs : List α) :
    xs.countP (fun a => p a || q a) ≤ xs.countP p + xs.countP q := by
  induction xs with
  | nil => simp
  | cons a xs ih =>
      simp only [List.countP_cons]
      cases p a <;> cases q a <;> simp <;> omega

theorem exists_first_undecided (quiet : start.Quiet) (ran : Ran start w clock)
    (hr : r ∈ undecided start w clock) (few : stuckBefore start clock r < limit) :
    ∃ x ∈ undecided start w clock, (upTo w x).length ≤ limit := by
  classical
  cases first : (undecided start w clock).argmin place with
  | none =>
      rw [List.argmin_eq_none] at first
      rw [first] at hr
      exact absurd hr List.not_mem_nil
  | some x =>
      have hx : x ∈ undecided start w clock := List.argmin_mem first
      have least : ∀ y ∈ undecided start w clock, place x ≤ place y := fun y hy =>
        List.le_of_mem_argmin hy first
      have keyed := ran.quiet.keyed
      have split : (upTo w x).length ≤ (actionable w).countP (fun y => place y < place x) +
          (actionable w).count x := by
        rw [upTo, ← List.countP_eq_length_filter, List.count]
        have cases : ∀ y ∈ actionable w, decide (place y ≤ place x) = true →
            (decide (place y < place x) || y == x) = true := by
          intro y hy le
          cases lt_or_eq_of_le (of_decide_eq_true le) with
          | inl lt => simp [lt]
          | inr same => simp [place_injective keyed hy (mem_undecided.mp hx).1 same]
        refine (List.countP_mono_left cases).trans ?_
        exact countP_or_le _ _ _
      have alone : (actionable w).count x ≤ 1 :=
        List.nodup_iff_count_le_one.mp (nodup_actionable keyed) x
      have stuck : (actionable w).countP (fun y => place y < place x) ≤
          stuckBefore start clock r := by
        have earlier : ∀ y ∈ actionable w, decide (place y < place x) = true →
            decide (place y < place r ∧ Stuck start clock y) = true := by
          intro y hy lt
          have lt := of_decide_eq_true lt
          refine decide_eq_true ⟨lt_of_lt_of_le lt (least r hr), ?_⟩
          by_contra moves
          exact absurd (least y (mem_undecided.mpr ⟨hy, moves⟩)) (not_le.mpr lt)
        refine (List.countP_mono_left earlier).trans ?_
        rw [ran.actionable_eq quiet.keyed, stuckBefore]
        exact List.filter_sublist.countP_le
      exact ⟨x, hx, by omega⟩

theorem stands_of_mem (keyed : w.Keyed) (h : r ∈ actionable w) : Stands w r :=
  keyed.of_mem (List.mem_filter.mp h).1

theorem undecided_sublist (ran : Ran start w clock)
    (called : Called w v (clock n) limit) :
    (undecided start v clock).Sublist (undecided start w clock) := by
  have oneCall : Ran w v fun _ => clock n :=
    ⟨called.quiet, called.queue, called.events, called.keys, fun id =>
      (called.rows id).imp_right fun ended => ⟨0, ended.2⟩⟩
  rw [undecided, oneCall.actionable_eq ran.quiet.keyed]
  exact List.filter_sublist.filter _

theorem fewer_undecided (quiet : start.Quiet) (ran : Ran start w clock)
    (called : Called w v (clock n) limit)
    (supports : ∀ r ∈ undecided start start clock, supported start (clock n) r ≠ none)
    (hr : r ∈ undecided start w clock) (few : stuckBefore start clock r < limit) :
    (undecided start v clock).length < (undecided start w clock).length := by
  obtain ⟨x, hx, room⟩ := exists_first_undecided quiet ran hr few
  have sub := undecided_sublist ran called
  refine lt_of_le_of_ne sub.length_le fun same => ?_
  have still : x ∈ undecided start v clock := by
    rw [sub.eq_of_length same]
    exact hx
  have considered : x ∈ candidatesOf w (clock n) limit :=
    mem_candidates room (mem_undecided.mp hx).1
  have none := called.through x considered
    (stands_of_mem called.quiet.keyed (mem_undecided.mp still).1)
  rw [ran.supported] at none
  refine supports x (mem_undecided.mpr ⟨?_, (mem_undecided.mp hx).2⟩) none
  have mem := (mem_undecided.mp hx).1
  rw [ran.actionable_eq quiet.keyed] at mem
  exact (List.mem_filter.mp mem).1

theorem exists_all_decided (quiet : start.Quiet) (mono : Monotone clock) (limit : ℕ) :
    ∃ n, ∀ w, SweepsInTurn limit clock start n w → ∀ r ∈ undecided start w clock,
      limit ≤ stuckBefore start clock r := by
  obtain ⟨N, supports⟩ := exists_supported_from mono (undecided start start clock)
    fun r hr => (mem_undecided.mp hr).2
  have progress : ∀ k w, SweepsInTurn limit clock start (N + k) w →
      (∃ r ∈ undecided start w clock, stuckBefore start clock r < limit) →
        (undecided start w clock).length + k ≤ (undecided start start clock).length := by
    intro k
    induction k with
    | zero =>
        intro w turns _
        have ran := ran_of_turns quiet turns
        rw [undecided, ran.actionable_eq quiet.keyed]
        exact (List.filter_sublist.filter _).length_le
    | succ k ih =>
        intro v turns waiting
        cases turns with
        | next before call =>
            have ran := ran_of_turns quiet before
            have called := call.called ran.quiet
            obtain ⟨r, hr, few⟩ := waiting
            have hw := (undecided_sublist ran called).subset hr
            have fewer := fewer_undecided quiet ran called
              (fun r hr => supports (N + k) (Nat.le_add_right N k) r hr) hw few
            have bound := ih _ before ⟨r, hw, few⟩
            omega
  refine ⟨N + ((undecided start start clock).length + 1), fun w turns r hr => ?_⟩
  by_contra few
  have bound := progress _ w turns ⟨r, hr, not_le.mp few⟩
  omega

/-- A request that the calls are to end: an abandoned one, or one whose run has ended. -/
inductive Due (start : Reconciler) (clock : ℕ → Instant) :
    MaterializationRequest → RequestLifecycle → Prop where
  | abandoned (r : MaterializationRequest) (i : ℕ) (stored : r ∈ committedRequests start.requests)
      (state : r.lifecycleState = .accepted) (generation : r.generationId = none)
      (run : r.runId = none) (expired : r.leaseExpiresAt.any (clock i < ·) = false)
      (undeliverable : deliverable start.queue r.requestId = false) : Due start clock r .failed
  | ended (r : MaterializationRequest) (runId : String) (target : RequestLifecycle)
      (stored : r ∈ committedRequests start.requests) (state : r.lifecycleState = .running)
      (run : r.runId = some runId)
      (ends : mirrored (runEventsOf start.events runId) = some target) : Due start clock r target

/-- After finitely many calls each request that is due has its end. -/
def Settles (start : Reconciler) (clock : ℕ → Instant) (limit : ℕ) : Prop :=
  ∃ n, ∀ w, SweepsInTurn limit clock start n w → ∀ r target, Due start clock r target →
    ∃ r', w.requests.committed r.requestId = some r' ∧ r'.lifecycleState = target

theorem Due.stored {target : RequestLifecycle} (due : Due start clock r target) :
    r ∈ committedRequests start.requests := by
  cases due <;> assumption

theorem Due.live {target : RequestLifecycle} (due : Due start clock r target) :
    r.lifecycleState.isTerminal = false := by
  cases due with
  | abandoned _ _ state => rw [state]; rfl
  | ended _ _ _ state => rw [state]; rfl

theorem isTerminal_of_mirrored {events : List RunEvent} {target : RequestLifecycle}
    (h : mirrored events = some target) : target.isTerminal = true := by
  obtain ⟨event, _, hmirrored⟩ := Option.bind_eq_some_iff.mp h
  cases hkind : event.eventKind <;> rw [hkind] at hmirrored <;> cases hmirrored <;> rfl

theorem Due.terminal {target : RequestLifecycle} (due : Due start clock r target) :
    target.isTerminal = true := by
  cases due with
  | abandoned => rfl
  | ended _ _ _ _ _ ends => exact isTerminal_of_mirrored ends

theorem Due.supported_eq {target target' : RequestLifecycle} (due : Due start clock r target)
    {now : Instant} (h : supported start now r = some target') : target' = target := by
  unfold supported at h
  split at h
  · next terminalizes =>
      obtain ⟨accepted, _, _, rfl⟩ := judge_terminalizes terminalizes
      cases h
      cases due with
      | abandoned => rfl
      | ended _ _ _ state =>
          rw [accepted] at state
          cases state
  · next runId reads =>
      obtain ⟨running, run⟩ := judge_reads reads
      cases due with
      | abandoned _ _ state =>
          rw [running] at state
          cases state
      | ended runId' _ _ _ run' ends =>
          obtain rfl := Option.some.inj (run.symm.trans run')
          exact Option.some.inj (h.symm.trans ends)
  · cases h
  · cases h

theorem actionable_of_due (keyed : start.Keyed) {target : RequestLifecycle}
    (due : Due start clock r target) (moves : ¬Stuck start clock r) : r ∈ actionable start := by
  obtain ⟨i, target', support⟩ := exists_supported_of_not_stuck moves
  exact actionable_of_supported keyed (keyed.of_mem due.stored) (by rw [support]; simp)

theorem Ran.settled_iff (keyed : start.Keyed) (ran : Ran start w clock)
    {target : RequestLifecycle} (due : Due start clock r target) :
    (∃ r', w.requests.committed r.requestId = some r' ∧ r'.lifecycleState = target) ↔
      ¬Stands w r := by
  constructor
  · intro settled stands
    obtain ⟨r', stored, state⟩ := settled
    obtain rfl := Option.some.inj (stored.symm.trans stands)
    have live := due.live
    rw [state, due.terminal] at live
    cases live
  · intro moved
    cases ran.rows r.requestId with
    | inl same => exact absurd (same.trans (keyed.of_mem due.stored)) moved
    | inr already =>
        obtain ⟨i, r', target', instant, stored, support, written⟩ := already
        obtain rfl := Option.some.inj (stored.symm.trans (keyed.of_mem due.stored))
        exact ⟨_, written, due.supported_eq support⟩

theorem stands_of_stuck (ran : Ran start w clock) (stands : Stands start r)
    (stuck : Stuck start clock r) : Stands w r := by
  cases ran.rows r.requestId with
  | inl same => exact same.trans stands
  | inr already =>
      obtain ⟨i, r', target', instant, stored, support, _⟩ := already
      obtain rfl := Option.some.inj (stored.symm.trans stands)
      rw [stuck i] at support
      cases support

theorem lt_length_upTo (quiet : start.Quiet) (ran : Ran start w clock)
    (hr : r ∈ actionable start) (stands : Stands w r) :
    stuckBefore start clock r < (upTo w r).length := by
  classical
  have standing : ∀ y ∈ actionable start, Stuck start clock y → Stands w y := fun y hy stuck =>
    stands_of_stuck ran (stands_of_mem quiet.keyed hy) stuck
  have mem : r ∈ actionable w := by
    rw [ran.actionable_eq quiet.keyed]
    exact List.mem_filter.mpr ⟨hr, decide_eq_true stands⟩
  have count : stuckBefore start clock r ≤ (actionable w).countP fun y => place y < place r := by
    rw [stuckBefore, ran.actionable_eq quiet.keyed, List.countP_filter]
    refine List.countP_mono_left fun y hy h => ?_
    obtain ⟨lt, stuck⟩ := of_decide_eq_true h
    simp [lt, standing y hy stuck]
  have strict : (actionable w).countP (fun y => place y < place r) <
      (actionable w).countP fun y => place y ≤ place r := by
    have sub : ((actionable w).filter fun y => place y < place r).Sublist (upTo w r) := by
      refine List.monotone_filter_right _ fun y lt => ?_
      exact decide_eq_true (of_decide_eq_true lt).le
    rw [List.countP_eq_length_filter, List.countP_eq_length_filter]
    refine lt_of_le_of_ne sub.length_le fun same => ?_
    have last : r ∈ (actionable w).filter fun y => place y < place r := by
      rw [sub.eq_of_length same]
      exact List.mem_filter.mpr ⟨mem, decide_eq_true (le_refl _)⟩
    exact lt_irrefl _ (of_decide_eq_true (List.mem_filter.mp last).2)
  rw [upTo, ← List.countP_eq_length_filter]
  omega

theorem stands_of_starved (quiet : start.Quiet) (hr : r ∈ actionable start)
    (starved : limit ≤ stuckBefore start clock r) (turns : SweepsInTurn limit clock start n w) :
    Stands w r := by
  induction turns with
  | begun => exact stands_of_mem quiet.keyed hr
  | @next n w v before call ih =>
      have ran := ran_of_turns quiet before
      have called := call.called ran.quiet
      cases called.rows r.requestId with
      | inl same => exact same.trans ih
      | inr already =>
          exfalso
          obtain ⟨y, hy, same⟩ := List.mem_map.mp already.1
          have stored : y = r := by
            have found := mem_of_mem_candidates hy
            have held : Stands w y := ran.quiet.keyed.of_mem
              (found.elim mem_of_mem_unreachable mem_of_mem_expired)
            unfold Stands at held ih
            rw [same, ih] at held
            exact (Option.some.inj held).symm
          have mem : r ∈ actionable w := by
            rw [ran.actionable_eq quiet.keyed]
            exact List.mem_filter.mpr ⟨hr, decide_eq_true ih⟩
          have room := upTo_le_of_mem_candidates ran.quiet.keyed mem (stored ▸ hy)
          have taken := lt_length_upTo quiet ran hr ih
          omega

end Turns

/-- Bounded sweeps settle every request that is due exactly where each of them can be written a
    verdict, and has fewer requests that never can before it than a sweep has room for. -/
theorem bounded_sweeps_settle_iff (start : Reconciler) (clock : ℕ → Instant) (limit : ℕ)
    (quiet : start.Quiet) (mono : Monotone clock) :
    Settles start clock limit ↔ ∀ r target, Due start clock r target →
      ¬Stuck start clock r ∧ stuckBefore start clock r < limit := by
  constructor
  · intro settles r target due
    obtain ⟨n, settled⟩ := settles
    obtain ⟨w, turns⟩ := exists_turns quiet limit clock n
    have ran := ran_of_turns quiet turns
    have moved := (ran.settled_iff quiet.keyed due).mp (settled w turns r target due)
    have moves : ¬Stuck start clock r := fun stuck =>
      moved (stands_of_stuck ran (quiet.keyed.of_mem due.stored) stuck)
    refine ⟨moves, ?_⟩
    by_contra starved
    exact moved (stands_of_starved quiet (actionable_of_due quiet.keyed due moves)
      (not_lt.mp starved) turns)
  · intro room
    obtain ⟨n, decided⟩ := exists_all_decided quiet mono limit
    refine ⟨n, fun w turns r target due => ?_⟩
    have ran := ran_of_turns quiet turns
    obtain ⟨moves, few⟩ := room r target due
    refine (ran.settled_iff quiet.keyed due).mpr fun stands => ?_
    have waiting : r ∈ undecided start w clock := by
      refine mem_undecided.mpr ⟨?_, moves⟩
      rw [ran.actionable_eq quiet.keyed]
      exact List.mem_filter.mpr ⟨actionable_of_due quiet.keyed due moves, decide_eq_true stands⟩
    exact absurd (decided w turns r waiting) (not_le.mpr few)

def claimedRequest (requestId : String) (state : RequestLifecycle) (runId : Option String)
    (requestedAt : ℤ) : MaterializationRequest where
  requestId := requestId
  logicalGroupName := "churn"
  requestedBy := "ana"
  authorizedRoles := ["materializer"]
  idempotencyKey := requestId
  activationState := .null
  lifecycleState := state
  generationId := runId
  runId := runId
  resolvedInputDigest := none
  requestedAt := requestedAt
  acceptedAt := some 2
  leaseExpiresAt := some 60
  updatedAt := 2
  consideredRevisionId := none
  optionId := none

def unprovedRun : MaterializationRequest := claimedRequest "req_1" .running (some "run_1") 0

def abandonedClaim : MaterializationRequest := claimedRequest "req_2" .accepted none 1

/-- The run has no event, and neither request has a message. -/
def unprovedFirst : Reconciler where
  requests := ⟨["req_1", "req_2"], fun id =>
    if id = "req_1" then some unprovedRun else if id = "req_2" then some abandonedClaim else none,
    fun _ => none⟩
  queue _ := none
  events := []
  advances _ := none
  sweeps _ := none

/-- A sweep each microsecond, from after the leases on. -/
def everyTick (n : ℕ) : ℤ := 100 + n

theorem everyTick_monotone : Monotone everyTick := by
  intro m n le
  simpa [everyTick] using le

theorem unprovedFirst_quiet : unprovedFirst.Quiet where
  keyed := by
    refine ⟨⟨by decide, ?_, fun id held => absurd rfl held⟩, ?_⟩
    · intro id stored
      by_cases first : id = "req_1"
      · simp [first, unprovedFirst]
      · by_cases second : id = "req_2"
        · simp [second, unprovedFirst]
        · simp [unprovedFirst, first, second] at stored
    · intro id r stored
      by_cases first : id = "req_1"
      · obtain rfl : unprovedRun = r := by simpa [unprovedFirst, first] using stored
        exact first.symm
      · by_cases second : id = "req_2"
        · obtain rfl : abandonedClaim = r := by simpa [unprovedFirst, second] using stored
          exact second.symm
        · simp [unprovedFirst, first, second] at stored
  drafts _ := rfl
  sweeps _ := rfl

theorem bounded_sweeps_settle_unprovedFirst :
    Settles unprovedFirst everyTick 1 ↔ ∀ r target, Due unprovedFirst everyTick r target →
      ¬Stuck unprovedFirst everyTick r ∧ stuckBefore unprovedFirst everyTick r < 1 :=
  bounded_sweeps_settle_iff unprovedFirst everyTick 1 unprovedFirst_quiet everyTick_monotone

theorem unprovedRun_stuck : Stuck unprovedFirst everyTick unprovedRun := by
  intro i
  have expired : ¬(100 + (i : ℤ) < 60) := by omega
  simp [supported, judge, unprovedFirst, unprovedRun, claimedRequest, everyTick, expired,
    runEventsOf, mirrored, KeySort.sortBy]

/-- The abandoned claim is never failed, however often a sweep of one request is made. -/
theorem unproved_run_starves_claim :
    unprovedFirst.Quiet ∧ Due unprovedFirst everyTick abandonedClaim .failed ∧
      ¬Settles unprovedFirst everyTick 1 := by
  have due : Due unprovedFirst everyTick abandonedClaim .failed :=
    .abandoned abandonedClaim 0 (by decide) rfl rfl rfl (by decide) rfl
  refine ⟨unprovedFirst_quiet, due, fun settles => ?_⟩
  obtain ⟨n, settled⟩ := settles
  obtain ⟨w, turns⟩ := exists_turns unprovedFirst_quiet 1 everyTick n
  have claim : abandonedClaim ∈ actionable unprovedFirst := by decide
  have before : 1 ≤ stuckBefore unprovedFirst everyTick abandonedClaim := by
    classical
    refine List.countP_pos_iff.mpr ⟨unprovedRun, by decide, ?_⟩
    exact decide_eq_true ⟨by decide, unprovedRun_stuck⟩
  have stands := stands_of_starved unprovedFirst_quiet claim before turns
  have moved := ((ran_of_turns unprovedFirst_quiet turns).settled_iff unprovedFirst_quiet.keyed
    due).mp (settled w turns _ _ due)
  exact moved stands

end FeatureGen.Materialize.Reconciler
