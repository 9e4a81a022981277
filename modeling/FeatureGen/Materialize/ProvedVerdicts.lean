import FeatureGen.Materialize.Reconcile

/-! # The reconciler writes what is proved

A sweep's reads are of three tables and of different instants; what its one update adds
is that the request is still in the state that was judged. So what a verdict rests on is
what the reads of its sweep returned, and those are moves of the run before it.
-/

namespace FeatureGen.Materialize

open FeatureGen.Runtime RowLocks Transition

/-- The worker whose sweep takes the step. -/
def ReconcilerAction.worker : ReconcilerAction → Option ℕ
  | .sweep worker _ _ | .query worker | .judge worker | .readEvents worker | .write worker
  | .update worker _ | .lockTimeout worker | .leave worker => some worker
  | _ => none

/-- The action is the beginning of the worker's sweep. -/
def ReconcilerAction.isSweep (worker : ℕ) : ReconcilerAction → Bool
  | .sweep other _ _ => other == worker
  | _ => false

/-- The action is one of the two queries of the worker's sweep. -/
def ReconcilerAction.isQuery (worker : ℕ) : ReconcilerAction → Prop
  | .sweep other _ _ | .query other => other = worker
  | _ => False

namespace Reconciler

abbrev Past := List (Move Reconciler ReconcilerAction)

variable {w w' : Reconciler} {worker : ℕ} {past : Past} {action : ReconcilerAction}

inductive Swept (w : Reconciler) : ReconcilerAction → Reconciler → Prop where
  | gone (action : ReconcilerAction) (worker : ℕ) (own : action.worker = some worker) :
      Swept w action (w.setSweep worker none)
  | began (worker : ℕ) (now : Instant) (limit : ℕ) : Swept w (.sweep worker now limit)
      (w.setSweep worker (some
        ⟨now, limit, .queried (unreachableRequests w.requests w.queue limit), [], []⟩))
  | queried (worker : ℕ) (now : Instant) (limit : ℕ) (unreachable remaining)
      (considered : List ReconciledRequest)
      (under : w.sweeps worker = some ⟨now, limit, .queried unreachable, remaining, considered⟩) :
      Swept w (.query worker) (w.setSweep worker (some ⟨now, limit, .judging,
        candidates unreachable (expiredRequests w.requests now limit) limit, []⟩))
  | left (worker : ℕ) (now : Instant) (limit : ℕ) (request remaining)
      (considered : List ReconciledRequest) (verdict : ReconciliationVerdict)
      (under : w.sweeps worker = some ⟨now, limit, .judging, request :: remaining, considered⟩)
      (judged : judge request (w.queue (materializationMessageId request.requestId)) now =
        .left verdict) :
      Swept w (.judge worker) (w.setSweep worker (some
        (Sweep.record ⟨now, limit, .judging, remaining, considered⟩
          ⟨request, w.queue (materializationMessageId request.requestId)⟩ verdict)))
  | reads (worker : ℕ) (now : Instant) (limit : ℕ) (request remaining)
      (considered : List ReconciledRequest) (runId : String)
      (under : w.sweeps worker = some ⟨now, limit, .judging, request :: remaining, considered⟩)
      (judged : judge request (w.queue (materializationMessageId request.requestId)) now =
        .reads runId) :
      Swept w (.judge worker) (w.setSweep worker (some
        ⟨now, limit, .reading ⟨request, w.queue (materializationMessageId request.requestId)⟩ runId,
          remaining, considered⟩))
  | abandoned (worker : ℕ) (now : Instant) (limit : ℕ) (request remaining)
      (considered : List ReconciledRequest) (target : RequestLifecycle)
      (under : w.sweeps worker = some ⟨now, limit, .judging, request :: remaining, considered⟩)
      (judged : judge request (w.queue (materializationMessageId request.requestId)) now =
        .terminalizes target) :
      Swept w (.judge worker) (w.setSweep worker (some
        ⟨now, limit, .writing ⟨request, w.queue (materializationMessageId request.requestId)⟩ target,
          remaining, considered⟩))
  | unproved (worker : ℕ) (now : Instant) (limit : ℕ) (judged : Judged) (runId : String) (remaining)
      (considered : List ReconciledRequest)
      (under : w.sweeps worker = some ⟨now, limit, .reading judged runId, remaining, considered⟩)
      (unended : mirrored (runEventsOf w.events runId) = none) :
      Swept w (.readEvents worker) (w.setSweep worker (some
        (Sweep.record ⟨now, limit, .judging, remaining, considered⟩ judged .noRunEvidence)))
  | proved (worker : ℕ) (now : Instant) (limit : ℕ) (judged : Judged) (runId : String) (remaining)
      (considered : List ReconciledRequest) (target : RequestLifecycle)
      (under : w.sweeps worker = some ⟨now, limit, .reading judged runId, remaining, considered⟩)
      (ended : mirrored (runEventsOf w.events runId) = some target) :
      Swept w (.readEvents worker) (w.setSweep worker (some
        ⟨now, limit, .writing judged target, remaining, considered⟩))
  | called (worker : ℕ) (now : Instant) (limit : ℕ) (judged : Judged) (target : RequestLifecycle)
      (remaining) (considered : List ReconciledRequest)
      (under : w.sweeps worker = some ⟨now, limit, .writing judged target, remaining, considered⟩)
      (legal : target ∈ legalLifecycleTransitions judged.request.lifecycleState) :
      Swept w (.write worker) (w.setSweep worker (some
        ⟨now, limit, .updating judged target, remaining, considered⟩))
  | raced (action : ReconcilerAction) (worker : ℕ) (own : action.worker = some worker)
      (continues : action.isSweep worker = false)
      (now : Instant) (limit : ℕ) (judged : Judged) (target : RequestLifecycle) (remaining)
      (considered : List ReconciledRequest)
      (under : w.sweeps worker = some ⟨now, limit, .writing judged target, remaining, considered⟩ ∨
        w.sweeps worker = some ⟨now, limit, .updating judged target, remaining, considered⟩)
      (moved : ∀ r, w.requests.committed judged.request.requestId = some r →
        r.lifecycleState = judged.request.lifecycleState →
          (terminalize judged target).allows r = false) :
      Swept w action (w.setSweep worker (some
        (Sweep.record ⟨now, limit, .judging, remaining, considered⟩ judged .raced)))
  | wrote (worker : ℕ) (instant now : Instant) (limit : ℕ) (judged : Judged)
      (target : RequestLifecycle) (remaining) (considered : List ReconciledRequest)
      (r : MaterializationRequest)
      (under : w.sweeps worker = some ⟨now, limit, .updating judged target, remaining, considered⟩)
      (stored : w.requests.committed judged.request.requestId = some r)
      (state : r.lifecycleState = judged.request.lifecycleState)
      (free : w.requests.drafts judged.request.requestId = none) :
      Swept w (.update worker instant) (setSweep
        ⟨w.requests.put judged.request.requestId ((terminalize judged target).move instant r),
          w.queue, w.events, w.advances, w.sweeps⟩ worker (some
        (Sweep.record ⟨now, limit, .judging, remaining, considered⟩ judged
          (writtenVerdict target))))
  | locked (worker : ℕ) (now : Instant) (limit : ℕ) (judged : Judged)
      (target : RequestLifecycle) (remaining) (considered : List ReconciledRequest)
      (under : w.sweeps worker = some ⟨now, limit, .updating judged target, remaining, considered⟩)
      (held : w.requests.drafts judged.request.requestId ≠ none) :
      Swept w (.lockTimeout worker) (w.setSweep worker (some
        (Sweep.record ⟨now, limit, .judging, remaining, considered⟩ judged .locked)))

theorem sources_terminalize {judged : Judged} {target : RequestLifecycle} :
    (terminalize judged target).sources = [judged.request.lifecycleState] := rfl

theorem swept (h : w.step action = some w') (own : action.worker = some worker) :
    Swept w action w' := by
  cases action with
  | sweep worker now limit =>
      simp only [step] at h
      split at h
      · cases h
      · cases h
        exact .began worker now limit
  | query worker =>
      simp only [step] at h
      split at h
      · rename_i under
        cases h
        exact .queried worker _ _ _ _ _ under
      · cases h
  | judge worker =>
      simp only [step] at h
      split at h
      · rename_i under
        split at h
        · rename_i judged
          cases h
          exact .left worker _ _ _ _ _ _ under judged
        · rename_i judged
          cases h
          exact .reads worker _ _ _ _ _ _ under judged
        · rename_i judged
          cases h
          exact .abandoned worker _ _ _ _ _ _ under judged
        · cases h
          exact .gone _ worker rfl
      · cases h
  | readEvents worker =>
      simp only [step] at h
      split at h
      · rename_i under
        split at h
        · rename_i unended
          cases h
          exact .unproved worker _ _ _ _ _ _ under unended
        · rename_i ended
          cases h
          exact .proved worker _ _ _ _ _ _ _ under ended
      · cases h
  | write worker =>
      simp only [step] at h
      split at h
      · rename_i under
        split at h
        · cases h
          exact .gone _ worker rfl
        · rename_i legal
          split at h
          · cases h
            exact .called worker _ _ _ _ _ _ under (not_not.mp legal)
          · rename_i refused
            cases h
            refine .raced _ worker rfl rfl _ _ _ _ _ _ (Or.inl under) fun r stored _ => ?_
            simpa [stored] using refused
      · cases h
  | update worker instant =>
      simp only [step] at h
      split at h
      · rename_i under
        split at h
        · rename_i unmatched
          cases h
          refine .raced _ worker rfl rfl _ _ _ _ _ _ (Or.inr under) fun r stored state => ?_
          simp [stored, sources_terminalize, state] at unmatched
        · rename_i matched
          obtain ⟨stored, state⟩ := Option.filter_eq_some_iff.mp matched
          split at h
          · rename_i free
            cases h
            refine .wrote worker instant _ _ _ _ _ _ _ under stored ?_ free
            simpa [sources_terminalize] using state
          · cases h
      · cases h
  | lockTimeout worker =>
      simp only [step] at h
      split at h
      · rename_i under
        split at h
        · cases h
        · split at h
          · cases h
          · rename_i held
            cases h
            exact .locked worker _ _ _ _ _ _ under held
      · cases h
  | leave worker =>
      simp only [step] at h
      split at h
      · cases h
      · cases h
        exact .gone _ worker rfl
  | _ => cases own

/-- What the statements keep of a row. -/
structure Sound (id : String) (r : MaterializationRequest) : Prop where
  id : r.requestId = id
  leased : r.lifecycleState ∈ leasedStates → r.leaseExpiresAt.isSome = true
  unstamped : r.lifecycleState = .requested ∨ r.lifecycleState = .accepted →
    r.generationId = none ∧ r.runId = none
  prepared : r.lifecycleState = .running → r.runId.isSome = true

/-- What becomes of a request that was prepared, or is over. -/
structure Later (old new : MaterializationRequest) : Prop where
  running : old.lifecycleState = .running →
    (new.lifecycleState = .running ∧ new.runId = old.runId) ∨ new.lifecycleState.isTerminal = true
  terminal : old.lifecycleState.isTerminal = true → new.lifecycleState.isTerminal = true

/-- A row stays, and becomes what it can. -/
def Lasts (old new : Option MaterializationRequest) : Prop :=
  ∀ r, old = some r → ∃ r', new = some r' ∧ Later r r'

theorem Later.refl (r : MaterializationRequest) : Later r r :=
  ⟨fun running => Or.inl ⟨running, rfl⟩, id⟩

theorem Later.trans {a b c : MaterializationRequest} (h : Later a b) (h' : Later b c) :
    Later a c where
  running running := by
    rcases h.running running with ⟨still, same⟩ | ended
    · rcases h'.running still with ⟨still', same'⟩ | ended
      · exact Or.inl ⟨still', same'.trans same⟩
      · exact Or.inr ended
    · exact Or.inr (h'.terminal ended)
  terminal ended := h'.terminal (h.terminal ended)

theorem lasts_refl (r : Option MaterializationRequest) : Lasts r r :=
  fun r hr => ⟨r, hr, Later.refl r⟩

theorem lasts_trans (a b c : Option MaterializationRequest) (h : Lasts a b) (h' : Lasts b c) :
    Lasts a c := by
  intro r hr
  obtain ⟨r', hr', first⟩ := h r hr
  obtain ⟨r'', hr'', second⟩ := h' r' hr'
  exact ⟨r'', hr'', first.trans second⟩

/-- A verdict that is being written ends its request, along an edge once it is checked. -/
def Ends : SweepPhase → Prop
  | .writing _ target => target.isTerminal = true
  | .updating judged target => target.isTerminal = true ∧
      target ∈ legalLifecycleTransitions judged.request.lifecycleState
  | _ => True

/-- The rows of the table, whoever has written them, and the calls under way. -/
structure Kept (w : Reconciler) : Prop where
  listed : w.requests.Listed
  sound : w.requests.All Sound
  lasting : w.requests.Follow Lasts
  /-- An advance under way has passed its checks. -/
  advances : ∀ txn advance, w.advances txn = some advance → advance.checked = true ∧
    ∃ r, Sound advance.requestId r ∧ advance.allows r = true
  ends : ∀ worker sweep, w.sweeps worker = some sweep → Ends sweep.phase

theorem kept_empty : empty.Kept where
  listed := ⟨by simp [empty], by simp [empty], by simp [empty]⟩
  sound := ⟨by simp [empty], by simp [empty]⟩
  lasting := by simp [Rows.Follow, empty]
  advances := by simp [empty]
  ends := by simp [empty]

theorem mem_legalFrom {source target : RequestLifecycle} :
    source ∈ legalFrom target ↔ target ∈ legalLifecycleTransitions source := by
  cases source <;> cases target <;> decide

theorem names_run {advance : Advance} {id : String} {r : MaterializationRequest} (sound : Sound id r)
    (allowed : advance.allows r = true) (running : advance.toState = .running) :
    advance.runId.isSome = true := by
  simp only [Advance.allows, running, Bool.and_eq_true, decide_eq_true_eq, ne_eq, not_true,
    decide_false, Bool.false_or] at allowed
  obtain ⟨⟨⟨⟨legal, _⟩, _⟩, named⟩, _⟩ := allowed
  have accepted : r.lifecycleState = .accepted := by
    cases hr : r.lifecycleState <;> simp_all [legalLifecycleTransitions]
  simpa [(sound.unstamped (Or.inr accepted)).2] using named

theorem sources_legal {advance : Advance} {r : MaterializationRequest}
    (allowed : advance.allows r = true) {source : RequestLifecycle}
    (hsource : source ∈ advance.sources) :
    advance.toState ∈ legalLifecycleTransitions source := by
  refine mem_legalFrom.mp ?_
  simp only [Advance.allows, Bool.and_eq_true] at allowed
  unfold Advance.sources at hsource
  split at hsource
  · rename_i expected hexpected
    have legal := allowed.2
    rw [hexpected] at legal
    rw [List.mem_singleton.mp hsource]
    simpa using legal
  · exact hsource

theorem sound_move (advance : Advance) {id : String} {r : MaterializationRequest}
    (h : Sound id r) (legal : advance.toState ∈ legalLifecycleTransitions r.lifecycleState)
    (unaccepted : advance.toState ≠ .accepted)
    (prepared : advance.toState = .running → advance.runId.isSome = true) (instant : Instant) :
    Sound id (advance.move instant r) where
  id := h.id
  leased leased := by
    refine h.leased ?_
    cases hr : r.lifecycleState <;> rw [hr] at legal <;>
      simp_all [legalLifecycleTransitions, leasedStates, Advance.move]
  unstamped begun := by
    cases hr : r.lifecycleState <;> rw [hr] at legal <;>
      simp_all [legalLifecycleTransitions, Advance.move]
  prepared running := by
    have := prepared running
    simp [Advance.move, Option.isSome_or, this]

theorem later_move (advance : Advance) {r : MaterializationRequest}
    (legal : advance.toState ∈ legalLifecycleTransitions r.lifecycleState) (instant : Instant) :
    Later r (advance.move instant r) where
  running running := by
    rw [running] at legal
    right
    simp only [legalLifecycleTransitions, List.mem_cons, List.not_mem_nil, or_false] at legal
    rcases legal with h | h <;> simp [Advance.move, h] <;> decide
  terminal ended := by
    simp only [RequestLifecycle.isTerminal, decide_eq_true_eq] at ended
    rw [ended] at legal
    cases legal

theorem of_update_none {calls : ℕ → Option Advance} {txn t : ℕ} {advance : Advance}
    (h : Function.update calls txn none t = some advance) : calls t = some advance := by
  by_cases ht : t = txn
  · subst ht
    simp at h
  · simpa [ht] using h

theorem Kept.write (h : w.Kept) {txn : ℕ} {id : String} {r : MaterializationRequest}
    (free : w.requests.free txn id = true) (sound : Sound id r)
    (lasts : Lasts (w.requests.visible txn id) (some r)) :
    let rows := w.requests.write txn id (some r)
    rows.Listed ∧ rows.All Sound ∧ rows.Follow Lasts := by
  have proper : (Change.write txn id (some r)).Proper Sound Lasts w.requests :=
    ⟨free, fun r' hr' => by cases hr'; exact sound, lasts⟩
  exact ⟨h.listed.write, h.sound.apply _ proper, h.lasting.apply lasts_refl lasts_trans _ proper⟩

theorem Kept.afterUpdate (h : w.Kept) {txn : ℕ} {id : String} {p : MaterializationRequest → Bool}
    {f : MaterializationRequest → MaterializationRequest}
    (sound : ∀ r, Sound id r → p r = true → Sound id (f r) ∧ Later r (f r))
    (hstep : w.afterUpdate txn (w.requests.update txn id p f) = some w') :
    w'.Kept ∧ ∀ k, w'.requests.committed k = w.requests.committed k := by
  have advances (t a) (ha : Function.update w.advances txn none t = some a) :=
    h.advances t a (of_update_none ha)
  unfold Reconciler.afterUpdate at hstep
  split at hstep
  · cases hstep
  · cases hstep
    exact ⟨⟨h.listed, h.sound, h.lasting, advances, h.ends⟩, fun _ => rfl⟩
  · rename_i new rows updated
    cases hstep
    obtain ⟨old, seen, hp, free, rfl, rfl⟩ := Rows.update_eq_rows updated
    obtain ⟨hsound, hlater⟩ := sound old (h.sound.visible seen) hp
    have lasts : Lasts (w.requests.visible txn id) (some (f old)) := by
      rw [seen]
      intro r hr
      cases hr
      exact ⟨f old, rfl, hlater⟩
    obtain ⟨listed, sound, lasting⟩ := h.write free hsound lasts
    exact ⟨⟨listed, sound, lasting, advances, h.ends⟩, fun _ => rfl⟩

theorem sound_row {new : NewRequest} {instant : Instant} :
    Sound new.requestId (new.row instant) where
  id := rfl
  leased leased := by simp [NewRequest.row, leasedStates] at leased
  unstamped _ := ⟨rfl, rfl⟩
  prepared running := by cases running

theorem insertRequest_eq_rows {rows rows' : Requests} {txn : ℕ} {new : NewRequest}
    {instant : Instant} (h : insertRequest rows txn new instant = .rows rows') :
    rows.free txn new.requestId = true ∧ rows.visible txn new.requestId = none ∧
      rows' = rows.write txn new.requestId (some (new.row instant)) := by
  unfold insertRequest at h
  split at h
  · cases h
  split at h
  · cases h
  split at h
  · cases h
  split at h
  · cases h
  split at h
  · cases h
  · cases h
    simp_all

theorem Kept.rollback (h : w.Kept) {txn : ℕ} : (w.rollback txn).Kept where
  listed := h.listed.rollback
  sound := h.sound.apply (.rollback txn) (R := Lasts) trivial
  lasting := h.lasting.apply lasts_refl lasts_trans (.rollback txn) (P := Sound) trivial
  advances _ _ ha := h.advances _ _ (of_update_none ha)
  ends := h.ends

theorem Kept.idle (h : w.Kept) {txn : ℕ} :
    Kept { w with advances := Function.update w.advances txn none } :=
  ⟨h.listed, h.sound, h.lasting, fun _ _ ha => h.advances _ _ (of_update_none ha), h.ends⟩

theorem sound_accept {id : String} {r : MaterializationRequest} {lease instant : Instant}
    (h : Sound id r) (state : r.lifecycleState = .requested) :
    Sound id { r with
      lifecycleState := .accepted
      acceptedAt := some instant
      leaseExpiresAt := some lease
      updatedAt := instant } where
  id := h.id
  leased _ := rfl
  unstamped _ := h.unstamped (Or.inl state)
  prepared running := by cases running

theorem sound_renew {id : String} {r : MaterializationRequest} {lease instant : Instant}
    (h : Sound id r) :
    Sound id { r with leaseExpiresAt := some lease, updatedAt := instant } where
  id := h.id
  leased _ := rfl
  unstamped := h.unstamped
  prepared := h.prepared

theorem Kept.step_other (h : w.Kept) (other : action.worker = none)
    (hstep : w.step action = some w') :
    w'.Kept ∧ ∀ k, Lasts (w.requests.committed k) (w'.requests.committed k) := by
  have same {v : Reconciler} (kept : v.Kept ∧ ∀ k, v.requests.committed k = w.requests.committed k) :
      v.Kept ∧ ∀ k, Lasts (w.requests.committed k) (v.requests.committed k) :=
    ⟨kept.1, fun k => kept.2 k ▸ lasts_refl _⟩
  cases action with
  | record txn new instant =>
      simp only [step] at hstep
      split at hstep
      · cases hstep
      split at hstep
      · cases hstep
      · cases hstep
        exact same ⟨h.rollback, fun _ => rfl⟩
      · cases hstep
        exact same ⟨h, fun _ => rfl⟩
      · rename_i rows inserted
        cases hstep
        obtain ⟨free, unseen, rfl⟩ := insertRequest_eq_rows inserted
        obtain ⟨listed, sound, lasting⟩ := h.write free sound_row (by
          rw [unseen]
          exact fun r hr => by cases hr)
        exact same ⟨⟨listed, sound, lasting, h.advances, h.ends⟩, fun _ => rfl⟩
  | accept txn requestId leaseSeconds instant =>
      simp only [step] at hstep
      split at hstep
      · cases hstep
      · unfold acceptRequest at hstep
        split at hstep
        · cases hstep
          exact same ⟨h.idle, fun _ => rfl⟩
        · refine same (h.afterUpdate (fun r sound state => ?_) hstep)
          have state : r.lifecycleState = .requested := of_decide_eq_true state
          refine ⟨sound_accept sound state, fun running => ?_, fun ended => ?_⟩
          · simp [state] at running
          · simp [state, RequestLifecycle.isTerminal, legalLifecycleTransitions] at ended
  | renew txn requestId leaseSeconds instant =>
      simp only [step] at hstep
      split at hstep
      · cases hstep
      · unfold renewLease at hstep
        split at hstep
        · cases hstep
          exact same ⟨h.idle, fun _ => rfl⟩
        · refine same (h.afterUpdate (fun r sound _ => ?_) hstep)
          exact ⟨sound_renew sound, fun running => Or.inl ⟨running, rfl⟩, id⟩
  | advance txn advance =>
      simp only [step] at hstep
      split at hstep
      · cases hstep
      split at hstep
      · rename_i passes
        cases hstep
        obtain ⟨checked, found⟩ := Bool.and_eq_true_iff.mp passes
        obtain ⟨r, seen, allowed⟩ := (Option.any_eq_true _ _).mp found
        refine same ⟨⟨h.listed, h.sound, h.lasting, fun t a ha => ?_, h.ends⟩, fun _ => rfl⟩
        by_cases ht : t = txn
        · subst ht
          obtain rfl : advance = a := by simpa using ha
          exact ⟨checked, r, h.sound.visible seen, allowed⟩
        · exact h.advances t a (by simpa [ht] using ha)
      · cases hstep
        exact same ⟨h, fun _ => rfl⟩
  | advanceUpdate txn instant =>
      simp only [step] at hstep
      split at hstep
      · cases hstep
      · rename_i advance calling
        obtain ⟨checked, existing, hexisting, allowed⟩ := h.advances txn advance calling
        refine same (h.afterUpdate (fun r sound state => ?_) hstep)
        have legal := sources_legal allowed (of_decide_eq_true state)
        refine ⟨sound_move advance sound legal ?_ (fun running => ?_) instant,
          later_move advance legal instant⟩
        · simp only [Advance.checked, Bool.and_eq_true] at checked
          simpa using checked.2
        · exact names_run hexisting allowed running
  | commit txn =>
      simp only [step] at hstep
      split at hstep
      · cases hstep
      · cases hstep
        exact ⟨⟨h.listed.commit, h.sound.apply (.commit txn) (R := Lasts) trivial,
          h.lasting.apply lasts_refl lasts_trans (.commit txn) (P := Sound) trivial, h.advances,
          h.ends⟩, h.lasting.committed lasts_refl (.commit txn)⟩
  | rollback txn =>
      cases hstep
      exact same ⟨h.rollback, fun _ => rfl⟩
  | message messageId message =>
      cases hstep
      exact same ⟨⟨h.listed, h.sound, h.lasting, h.advances, h.ends⟩, fun _ => rfl⟩
  | event event =>
      cases hstep
      exact same ⟨⟨h.listed, h.sound, h.lasting, h.advances, h.ends⟩, fun _ => rfl⟩
  | _ => cases other

theorem Kept.setSweep (h : w.Kept) {sweep : Option Sweep}
    (ends : ∀ s, sweep = some s → Ends s.phase) : (w.setSweep worker sweep).Kept where
  listed := h.listed
  sound := h.sound
  lasting := h.lasting
  advances := h.advances
  ends other s hs := by
    by_cases ho : other = worker
    · subst ho
      exact ends s (by simpa [Reconciler.setSweep] using hs)
    · exact h.ends other s (by simpa [Reconciler.setSweep, ho] using hs)

theorem judge_reads {r : MaterializationRequest} {message : Option Message} {now : Instant}
    {runId : String} (h : judge r message now = .reads runId) :
    r.lifecycleState = .running ∧ r.runId = some runId := by
  unfold judge at h
  split at h
  · cases h
  split at h
  · cases h
  split at h
  · cases h
  · split at h <;> cases h
  · rename_i running
    split at h
    · cases h
    · rename_i run
      cases h
      exact ⟨running, run⟩
  · cases h
  · cases h

theorem judge_terminalizes {r : MaterializationRequest} {message : Option Message} {now : Instant}
    {target : RequestLifecycle} (h : judge r message now = .terminalizes target) :
    r.lifecycleState = .accepted ∧ r.generationId = none ∧ r.runId = none ∧ target = .failed := by
  unfold judge at h
  split at h
  · cases h
  split at h
  · cases h
  split at h
  · cases h
  · rename_i accepted
    split at h
    · cases h
    · rename_i stamped
      cases h
      simp only [Bool.or_eq_true, not_or, Option.not_isSome_iff_eq_none] at stamped
      exact ⟨accepted, stamped.1, stamped.2, rfl⟩
  · split at h <;> cases h
  · cases h
  · cases h

theorem ends_of_judge {r : MaterializationRequest} {message : Option Message} {now : Instant}
    {target : RequestLifecycle} (h : judge r message now = .terminalizes target) :
    target.isTerminal = true := by
  obtain ⟨_, _, _, rfl⟩ := judge_terminalizes h
  rfl

theorem ends_of_mirrored {events : List RunEvent} {target : RequestLifecycle}
    (h : mirrored events = some target) : target.isTerminal = true := by
  obtain ⟨event, _, hmirrored⟩ := Option.bind_eq_some_iff.mp h
  cases hkind : event.eventKind <;> rw [hkind] at hmirrored <;> cases hmirrored <;> rfl

theorem Kept.step_sweep (h : w.Kept) (hswept : Swept w action w') :
    w'.Kept ∧ ∀ k, Lasts (w.requests.committed k) (w'.requests.committed k) := by
  cases hswept with
  | gone action worker own => exact ⟨h.setSweep (by simp), fun _ => lasts_refl _⟩
  | began worker now limit => exact ⟨h.setSweep (by simp [Ends]), fun _ => lasts_refl _⟩
  | queried => exact ⟨h.setSweep (by simp [Ends]), fun _ => lasts_refl _⟩
  | left => exact ⟨h.setSweep (by simp [Ends, Sweep.record]), fun _ => lasts_refl _⟩
  | reads => exact ⟨h.setSweep (by simp [Ends]), fun _ => lasts_refl _⟩
  | abandoned worker now limit request remaining considered target under judged =>
      refine ⟨h.setSweep fun s hs => ?_, fun _ => lasts_refl _⟩
      obtain rfl := Option.some.inj hs
      exact ends_of_judge judged
  | unproved => exact ⟨h.setSweep (by simp [Ends, Sweep.record]), fun _ => lasts_refl _⟩
  | proved worker now limit judged runId remaining considered target under ended =>
      refine ⟨h.setSweep fun s hs => ?_, fun _ => lasts_refl _⟩
      obtain rfl := Option.some.inj hs
      exact ends_of_mirrored ended
  | called worker now limit judged target remaining considered under legal =>
      refine ⟨h.setSweep fun s hs => ?_, fun _ => lasts_refl _⟩
      obtain rfl := Option.some.inj hs
      exact ⟨h.ends worker _ under, legal⟩
  | raced => exact ⟨h.setSweep (by simp [Ends, Sweep.record]), fun _ => lasts_refl _⟩
  | wrote worker instant now limit judged target remaining considered r under stored state free =>
      obtain ⟨ended, legal⟩ := h.ends worker _ under
      rw [← state] at legal
      have sound := sound_move (terminalize judged target) (h.sound.committed _ r stored)
        legal (by rintro rfl; cases ended) (by rintro rfl; cases ended) instant
      have rows : Kept ⟨w.requests.put judged.request.requestId
          ((terminalize judged target).move instant r), w.queue, w.events, w.advances, w.sweeps⟩ :=
        ⟨h.listed.put, h.sound.put sound, h.lasting.put free, h.advances, h.ends⟩
      refine ⟨rows.setSweep (by simp [Ends, Sweep.record]), fun k => ?_⟩
      by_cases hk : k = judged.request.requestId
      · subst hk
        intro old hold
        obtain rfl : r = old := Option.some.inj (stored.symm.trans hold)
        exact ⟨_, by simp [Reconciler.setSweep, Rows.put],
          later_move (terminalize judged target) legal instant⟩
      · have same : (w.requests.put judged.request.requestId
            ((terminalize judged target).move instant r)).committed k = w.requests.committed k := by
          simp [Rows.put, hk]
        simp only [Reconciler.setSweep, same]
        exact lasts_refl _
  | locked => exact ⟨h.setSweep (by simp [Ends, Sweep.record]), fun _ => lasts_refl _⟩

theorem Kept.step (h : w.Kept) (hstep : w.step action = some w') :
    w'.Kept ∧ ∀ k, Lasts (w.requests.committed k) (w'.requests.committed k) := by
  cases hown : action.worker with
  | none => exact h.step_other hown hstep
  | some worker => exact h.step_sweep (swept hstep hown)

/-- The moves since the worker's last sweep began. -/
def sinceSweep (worker : ℕ) (past : Past) : Past :=
  past.foldl (fun own m => if m.action.isSweep worker then [m] else own ++ [m]) []

theorem sinceSweep_of_isSweep {m : Move Reconciler ReconcilerAction}
    (sweeps : m.action.isSweep worker = true) : sinceSweep worker (past ++ [m]) = [m] := by
  simp [sinceSweep, sweeps]

theorem sinceSweep_continues {m : Move Reconciler ReconcilerAction}
    (continues : m.action.isSweep worker = false) :
    sinceSweep worker (past ++ [m]) = sinceSweep worker past ++ [m] := by
  simp [sinceSweep, continues]

theorem continues_of_worker_ne (other : action.worker ≠ some worker) :
    action.isSweep worker = false := by
  cases action with
  | sweep begun now limit => simpa [ReconcilerAction.isSweep, ReconcilerAction.worker] using other
  | _ => rfl

/-- The candidates that a sweep has not judged to the end. -/
def pending (sweep : Sweep) : List MaterializationRequest :=
  match sweep.phase with
  | .queried unreachable => unreachable
  | .judging => sweep.remaining
  | .reading judged _ | .writing judged _ | .updating judged _ => judged.request :: sweep.remaining

/-- A query has returned the request, as it was then. -/
def Read (past : Past) (worker : ℕ) (r : MaterializationRequest) : Prop :=
  ∃ m ∈ past, m.action.isQuery worker ∧ m.before.requests.committed r.requestId = some r ∧
    ∃ sweep, m.after.sweeps worker = some sweep ∧ r ∈ pending sweep

/-- The sweep has read the request's message, no delivery was coming, and the lease it had read
    was over. -/
def JudgedIn (past : Past) (worker : ℕ) (now : Instant) (judged : Judged) : Prop :=
  ∃ m ∈ past, m.action = .judge worker ∧
    (∃ sweep, m.before.sweeps worker = some sweep ∧ sweep.now = now ∧ sweep.phase = .judging ∧
      sweep.remaining.head? = some judged.request) ∧
    m.before.queue (materializationMessageId judged.request.requestId) = judged.message ∧
    deliverable m.before.queue judged.request.requestId = false ∧
    judged.request.leaseExpiresAt.all (· ≤ now) = true

/-- What supports the terminal state: nothing is stamped on a request that was accepted, or the
    sweep has read the terminal event that is paired with it. -/
inductive Proved (past : Past) (worker : ℕ) (r : MaterializationRequest) :
    RequestLifecycle → Prop where
  | unstamped (accepted : r.lifecycleState = .accepted) (generation : r.generationId = none)
      (run : r.runId = none) : Proved past worker r .failed
  | ended (running : r.lifecycleState = .running) (runId : String) (run : r.runId = some runId)
      (m : Move Reconciler ReconcilerAction) (read : m ∈ past)
      (action : m.action = .readEvents worker)
      (reading : ∃ sweep judged, m.before.sweeps worker = some sweep ∧
        sweep.phase = .reading judged runId ∧ judged.request = r) (target : RequestLifecycle)
      (mirrored : mirrored (runEventsOf m.before.events runId) = some target) :
      Proved past worker r target

def Rests (past : Past) (worker : ℕ) (now : Instant) : SweepPhase → Prop
  | .queried _ | .judging => True
  | .reading judged runId => JudgedIn past worker now judged ∧
      judged.request.lifecycleState = .running ∧ judged.request.runId = some runId
  | .writing judged target | .updating judged target =>
      JudgedIn past worker now judged ∧ Proved past worker judged.request target

/-- A request as a query has read it, and its row now. -/
structure Known (past : Past) (w : Reconciler) (worker : ℕ) (r : MaterializationRequest) : Prop where
  read : Read past worker r
  sound : Sound r.requestId r
  lasts : Lasts (some r) (w.requests.committed r.requestId)

/-- The moves are those of one sweep, from its beginning on. -/
def Begun (own : Past) (worker : ℕ) (now : Instant) (limit : ℕ) : Prop :=
  ∃ m rest, own = m :: rest ∧ m.action = .sweep worker now limit

/-- What a sweep under way has, it has from its own moves. -/
structure Evidence (past : Past) (w : Reconciler) : Prop where
  begun : ∀ worker sweep, w.sweeps worker = some sweep →
    Begun (sinceSweep worker past) worker sweep.now sweep.limit
  known : ∀ worker sweep, w.sweeps worker = some sweep → ∀ r ∈ pending sweep,
    Known (sinceSweep worker past) w worker r
  rests : ∀ worker sweep, w.sweeps worker = some sweep →
    Rests (sinceSweep worker past) worker sweep.now sweep.phase

theorem evidence_empty : Evidence [] empty where
  begun := by simp [empty]
  known := by simp [empty]
  rests := by simp [empty]

theorem Proved.mono {past' : Past} {r : MaterializationRequest} {target : RequestLifecycle}
    (h : Proved past worker r target) (sub : past ⊆ past') : Proved past' worker r target := by
  cases h with
  | unstamped accepted generation run => exact .unstamped accepted generation run
  | ended running runId run m read action reading target mirrored =>
      exact .ended running runId run m (sub read) action reading target mirrored

theorem JudgedIn.mono {past' : Past} {now : Instant} {judged : Judged}
    (h : JudgedIn past worker now judged) (sub : past ⊆ past') :
    JudgedIn past' worker now judged := by
  obtain ⟨m, hm, rest⟩ := h
  exact ⟨m, sub hm, rest⟩

theorem rests_mono {past' : Past} {now : Instant} {phase : SweepPhase}
    (h : Rests past worker now phase) (sub : past ⊆ past') : Rests past' worker now phase := by
  cases phase with
  | queried unreachable => trivial
  | judging => trivial
  | reading judged runId => exact ⟨h.1.mono sub, h.2⟩
  | writing judged target => exact ⟨h.1.mono sub, h.2.mono sub⟩
  | updating judged target => exact ⟨h.1.mono sub, h.2.mono sub⟩

theorem Known.next {past' : Past} {r : MaterializationRequest} (h : Known past w worker r)
    (sub : past ⊆ past') (lasts : ∀ k, Lasts (w.requests.committed k) (w'.requests.committed k)) :
    Known past' w' worker r where
  read := by
    obtain ⟨m, hm, rest⟩ := h.read
    exact ⟨m, sub hm, rest⟩
  sound := h.sound
  lasts := lasts_trans _ _ _ h.lasts (lasts _)

theorem judge_passes {r : MaterializationRequest} {now : Instant}
    (left : ∀ verdict, judge r (w.queue (materializationMessageId r.requestId)) now ≠ .left verdict) :
    deliverable w.queue r.requestId = false ∧ r.leaseExpiresAt.all (· ≤ now) = true := by
  unfold judge at left
  split at left
  · exact absurd rfl (left _)
  · rename_i gone
    split at left
    · exact absurd rfl (left _)
    · rename_i lease
      refine ⟨by simpa [deliverable] using gone, ?_⟩
      simpa [Option.all_eq_true, Option.any_eq_true] using lease

theorem committed_of_mem (kept : w.Kept) {r : MaterializationRequest}
    (h : r ∈ committedRequests w.requests) :
    w.requests.committed r.requestId = some r ∧ Sound r.requestId r := by
  obtain ⟨k, _, hk⟩ := List.mem_filterMap.mp h
  have sound := kept.sound.committed k r hk
  obtain rfl := sound.id
  exact ⟨hk, sound⟩

theorem mem_of_mem_unreachable {queue : Messages} {limit : ℕ} {r : MaterializationRequest}
    (h : r ∈ unreachableRequests w.requests queue limit) : r ∈ committedRequests w.requests :=
  (List.mem_filter.mp ((KeySort.mem_sortBy _).mp (List.mem_of_mem_take h))).1

theorem mem_of_mem_expired {now : Instant} {limit : ℕ} {r : MaterializationRequest}
    (h : r ∈ expiredRequests w.requests now limit) : r ∈ committedRequests w.requests :=
  (List.mem_filter.mp ((KeySort.mem_sortBy _).mp (List.mem_of_mem_take h))).1

theorem mem_of_mem_candidates {unreachable expired : List MaterializationRequest} {limit : ℕ}
    {r : MaterializationRequest} (h : r ∈ candidates unreachable expired limit) :
    r ∈ unreachable ∨ r ∈ expired := by
  have found := (KeySort.mem_sortBy _).mp (List.mem_of_mem_take h)
  exact (List.mem_append.mp found).imp_right fun h => (List.mem_filter.mp h).1

theorem known_of_query (kept : w.Kept) {r : MaterializationRequest}
    (h : r ∈ committedRequests w.requests) {own : Past} (moved : ⟨w, action, w'⟩ ∈ own)
    (query : action.isQuery worker) (same : w'.requests = w.requests) {sweep : Sweep}
    (sweeps : w'.sweeps worker = some sweep) (returned : r ∈ pending sweep) :
    Known own w' worker r where
  read := ⟨⟨w, action, w'⟩, moved, query, (committed_of_mem kept h).1, sweep, sweeps, returned⟩
  sound := (committed_of_mem kept h).2
  lasts := by
    rw [same, (committed_of_mem kept h).1]
    exact lasts_refl _

theorem Begun.append {own : Past} {now : Instant} {limit : ℕ} (h : Begun own worker now limit)
    (m : Move Reconciler ReconcilerAction) : Begun (own ++ [m]) worker now limit := by
  obtain ⟨first, rest, rfl, began⟩ := h
  exact ⟨first, rest ++ [m], rfl, began⟩

theorem Evidence.next (h : Evidence past w)
    (lasts : ∀ k, Lasts (w.requests.committed k) (w'.requests.committed k))
    (own : action.worker = some worker) {sweep : Option Sweep}
    (sweeps : w'.sweeps = Function.update w.sweeps worker sweep)
    (begun : ∀ s, sweep = some s →
      Begun (sinceSweep worker (past ++ [⟨w, action, w'⟩])) worker s.now s.limit)
    (known : ∀ s, sweep = some s → ∀ r ∈ pending s,
      Known (sinceSweep worker (past ++ [⟨w, action, w'⟩])) w' worker r)
    (rests : ∀ s, sweep = some s →
      Rests (sinceSweep worker (past ++ [⟨w, action, w'⟩])) worker s.now s.phase) :
    Evidence (past ++ [⟨w, action, w'⟩]) w' := by
  have continues {other : ℕ} (ho : other ≠ worker) :
      sinceSweep other (past ++ [⟨w, action, w'⟩]) = sinceSweep other past ++ [⟨w, action, w'⟩] := by
    refine sinceSweep_continues (continues_of_worker_ne ?_)
    rw [own]
    exact fun same => ho (Option.some.inj same).symm
  refine ⟨fun other s hs => ?_, fun other s hs r hr => ?_, fun other s hs => ?_⟩
  · by_cases ho : other = worker
    · subst ho
      exact begun s (by simpa [sweeps] using hs)
    · rw [continues ho]
      exact (h.begun other s (by simpa [sweeps, ho] using hs)).append _
  · by_cases ho : other = worker
    · subst ho
      exact known s (by simpa [sweeps] using hs) r hr
    · have old := h.known other s (by simpa [sweeps, ho] using hs) r hr
      rw [continues ho]
      exact old.next (List.subset_append_left _ _) lasts
  · by_cases ho : other = worker
    · subst ho
      exact rests s (by simpa [sweeps] using hs)
    · have old := h.rests other s (by simpa [sweeps, ho] using hs)
      rw [continues ho]
      exact rests_mono old (List.subset_append_left _ _)

theorem sweeps_other (other : action.worker = none) (hstep : w.step action = some w') :
    w'.sweeps = w.sweeps := by
  have updated {txn : ℕ} {u : Updated String MaterializationRequest}
      (h : w.afterUpdate txn u = some w') : w'.sweeps = w.sweeps := by
    unfold afterUpdate at h
    split at h <;> cases h <;> rfl
  cases action with
  | record txn new instant =>
      simp only [step] at hstep
      split at hstep
      · cases hstep
      · split at hstep <;> cases hstep <;> rfl
  | accept txn requestId leaseSeconds instant =>
      simp only [step] at hstep
      split at hstep
      · cases hstep
      · exact updated hstep
  | renew txn requestId leaseSeconds instant =>
      simp only [step] at hstep
      split at hstep
      · cases hstep
      · exact updated hstep
  | advance txn advance =>
      simp only [step] at hstep
      split at hstep
      · cases hstep
      · split at hstep <;> cases hstep <;> rfl
  | advanceUpdate txn instant =>
      simp only [step] at hstep
      split at hstep
      · cases hstep
      · exact updated hstep
  | commit txn =>
      simp only [step] at hstep
      split at hstep
      · cases hstep
      · cases hstep
        rfl
  | rollback txn =>
      cases hstep
      rfl
  | message messageId message =>
      cases hstep
      rfl
  | event event =>
      cases hstep
      rfl
  | _ => cases other

theorem Evidence.step (h : Evidence past w) (kept : w.Kept) (hstep : w.step action = some w') :
    Evidence (past ++ [⟨w, action, w'⟩]) w' := by
  have lasts := (kept.step hstep).2
  have sub {worker} (continues : action.isSweep worker = false) :
      sinceSweep worker past ⊆ sinceSweep worker (past ++ [⟨w, action, w'⟩]) := by
    rw [sinceSweep_continues continues]
    exact List.subset_append_left _ _
  cases hown : action.worker with
  | none =>
      have same := sweeps_other hown hstep
      have continues {worker} : action.isSweep worker = false :=
        continues_of_worker_ne (by simp [hown])
      refine ⟨fun worker s hs => ?_, fun worker s hs r hr => ?_, fun worker s hs => ?_⟩
      · rw [sinceSweep_continues continues]
        exact (h.begun worker s (same ▸ hs)).append _
      · exact (h.known worker s (same ▸ hs) r hr).next (sub continues) lasts
      · exact rests_mono (h.rests worker s (same ▸ hs)) (sub continues)
  | some worker =>
      -- A sweep that goes on has what it had, of the requests that it still has to judge.
      have goesOn {worker s s'} (own : action.worker = some worker)
          (continues : action.isSweep worker = false) (hs : w.sweeps worker = some s)
          (sweeps : w'.sweeps = Function.update w.sweeps worker (some s'))
          (now : s'.now = s.now) (limit : s'.limit = s.limit)
          (known : ∀ r ∈ pending s',
            r ∈ pending s ∨ Known (sinceSweep worker (past ++ [⟨w, action, w'⟩])) w' worker r)
          (rests : Rests (sinceSweep worker (past ++ [⟨w, action, w'⟩])) worker s'.now s'.phase) :
          Evidence (past ++ [⟨w, action, w'⟩]) w' := by
        refine h.next lasts own sweeps (fun t ht => ?_) (fun t ht r hr => ?_) (fun t ht => ?_)
        · obtain rfl := Option.some.inj ht
          rw [sinceSweep_continues continues, now, limit]
          exact (h.begun worker s hs).append _
        · obtain rfl := Option.some.inj ht
          rcases known r hr with old | new
          · exact (h.known worker s hs r old).next (sub continues) lasts
          · exact new
        · obtain rfl := Option.some.inj ht
          exact rests
      have moved {worker} (continues : action.isSweep worker = false) :
          ⟨w, action, w'⟩ ∈ sinceSweep worker (past ++ [⟨w, action, w'⟩]) := by
        rw [sinceSweep_continues continues]
        exact List.mem_append_right _ List.mem_cons_self
      cases swept hstep hown with
      | gone action worker own => exact h.next lasts own rfl (by simp) (by simp) (by simp)
      | began worker now limit =>
          have own : sinceSweep worker (past ++ [⟨w, .sweep worker now limit, _⟩]) =
              [⟨w, .sweep worker now limit, w.setSweep worker (some
                ⟨now, limit, .queried (unreachableRequests w.requests w.queue limit), [], []⟩)⟩] :=
            sinceSweep_of_isSweep (by simp [ReconcilerAction.isSweep])
          refine h.next lasts rfl rfl (fun s hs => ?_) (fun s hs r hr => ?_) (fun s hs => ?_)
          · obtain rfl := Option.some.inj hs
            exact ⟨_, [], own, rfl⟩
          · obtain rfl := Option.some.inj hs
            rw [own]
            exact known_of_query kept (mem_of_mem_unreachable hr) List.mem_cons_self rfl rfl
              (Function.update_self ..) hr
          · obtain rfl := Option.some.inj hs
            trivial
      | queried worker now limit unreachable remaining considered under =>
          refine goesOn rfl rfl under rfl rfl rfl (fun r hr => ?_) trivial
          rcases mem_of_mem_candidates hr with old | new
          · exact Or.inl old
          · exact Or.inr (known_of_query kept (mem_of_mem_expired new) (moved rfl) rfl rfl
              (Function.update_self ..) hr)
      | left worker now limit request remaining considered verdict under judged =>
          exact goesOn rfl rfl under rfl rfl rfl (fun r hr => Or.inl (List.mem_cons_of_mem _ hr))
            trivial
      | reads worker now limit request remaining considered runId under judged =>
          have passes := judge_passes fun verdict => by rw [judged]; simp
          exact goesOn rfl rfl under rfl rfl rfl (fun r hr => Or.inl hr)
            ⟨⟨_, moved rfl, rfl, ⟨_, under, rfl, rfl, rfl⟩, rfl, passes⟩, judge_reads judged⟩
      | abandoned worker now limit request remaining considered target under judged =>
          have passes := judge_passes fun verdict => by rw [judged]; simp
          obtain ⟨accepted, generation, run, rfl⟩ := judge_terminalizes judged
          exact goesOn rfl rfl under rfl rfl rfl (fun r hr => Or.inl hr)
            ⟨⟨_, moved rfl, rfl, ⟨_, under, rfl, rfl, rfl⟩, rfl, passes⟩,
              .unstamped accepted generation run⟩
      | unproved worker now limit judged runId remaining considered under unended =>
          exact goesOn rfl rfl under rfl rfl rfl (fun r hr => Or.inl (List.mem_cons_of_mem _ hr))
            trivial
      | proved worker now limit judged runId remaining considered target under ended =>
          obtain ⟨judgedIn, running, run⟩ := h.rests worker _ under
          exact goesOn rfl rfl under rfl rfl rfl (fun r hr => Or.inl hr) ⟨judgedIn.mono (sub rfl),
            .ended running runId run _ (moved rfl) rfl ⟨_, _, under, rfl, rfl⟩ target ended⟩
      | called worker now limit judged target remaining considered under legal =>
          obtain ⟨judgedIn, proved⟩ := h.rests worker _ under
          exact goesOn rfl rfl under rfl rfl rfl (fun r hr => Or.inl hr)
            ⟨judgedIn.mono (sub rfl), proved.mono (sub rfl)⟩
      | raced action worker own continues now limit judged target remaining considered under moved =>
          rcases under with under | under
          · exact goesOn own continues under rfl rfl rfl
              (fun r hr => Or.inl (List.mem_cons_of_mem _ hr)) trivial
          · exact goesOn own continues under rfl rfl rfl
              (fun r hr => Or.inl (List.mem_cons_of_mem _ hr)) trivial
      | wrote worker instant now limit judged target remaining considered r under stored state free =>
          exact goesOn rfl rfl under rfl rfl rfl (fun r hr => Or.inl (List.mem_cons_of_mem _ hr))
            trivial
      | locked worker now limit judged target remaining considered under held =>
          exact goesOn rfl rfl under rfl rfl rfl (fun r hr => Or.inl (List.mem_cons_of_mem _ hr))
            trivial

/-- A sweep's write of a request, and the moves of the sweep that it rests on: a query of the
    sweep read the request with a lease that is over by the sweep's `now`, no delivery was
    coming when the sweep read the message, and the request's row is still in the state that
    was read. -/
structure ProvedWrite (past : Past) (w w' : Reconciler) (worker : ℕ) (now : Instant)
    (id : String) : Prop where
  begun : ∃ limit, Begun (sinceSweep worker past) worker now limit
  proved : ∃ judged target instant r lease, judged.request.requestId = id ∧
    w.requests.committed id = some r ∧ r.lifecycleState = judged.request.lifecycleState ∧
    (r.lifecycleState = .accepted → r.generationId = none ∧ r.runId = none) ∧
    (r.lifecycleState = .running → r.runId = judged.request.runId) ∧
    w'.requests.committed id = some { r with lifecycleState := target, updatedAt := instant } ∧
    judged.request.leaseExpiresAt = some lease ∧ lease ≤ now ∧
    Read (sinceSweep worker past) worker judged.request ∧
    JudgedIn (sinceSweep worker past) worker now judged ∧
    Proved (sinceSweep worker past) worker judged.request target

theorem Swept.changed (h : Swept w action w') {id : String}
    (changed : w'.requests.committed id ≠ w.requests.committed id) :
    ∃ worker now limit judged target remaining considered r instant,
      action = .update worker instant ∧ w.sweeps worker =
        some ⟨now, limit, .updating judged target, remaining, considered⟩ ∧
      judged.request.requestId = id ∧ w.requests.committed id = some r ∧
      r.lifecycleState = judged.request.lifecycleState ∧ w.requests.drafts id = none ∧
      w'.requests.committed id = some { r with lifecycleState := target, updatedAt := instant } := by
  cases h with
  | wrote worker instant now limit judged target remaining considered r under stored state free =>
      by_cases hid : id = judged.request.requestId
      · subst hid
        refine ⟨worker, now, limit, judged, target, remaining, considered, r, instant, rfl, under,
          rfl, stored, state, free, ?_⟩
        simp [Reconciler.setSweep, Rows.put, Advance.move, terminalize]
      · exact absurd (by simp [Reconciler.setSweep, Rows.put, hid]) changed
  | _ => exact absurd rfl changed

theorem Evidence.write (h : Evidence past w) (kept : w.Kept) (hswept : Swept w action w')
    {id : String} (changed : w'.requests.committed id ≠ w.requests.committed id) :
    ∃ worker sweep instant, action = .update worker instant ∧ w.sweeps worker = some sweep ∧
      ProvedWrite past w w' worker sweep.now id := by
  obtain ⟨worker, now, limit, judged, target, remaining, considered, r, instant, rfl, under, rfl,
    stored, state, _, written⟩ := hswept.changed changed
  obtain ⟨read, sound, lasts⟩ := h.known worker _ under judged.request List.mem_cons_self
  obtain ⟨judgedIn, proved⟩ := h.rests worker _ under
  obtain ⟨r', stored', later⟩ := lasts _ rfl
  obtain rfl : r = r' := Option.some.inj (stored.symm.trans stored')
  have leased : judged.request.lifecycleState ∈ leasedStates := by
    cases proved with
    | unstamped accepted => simp [accepted, leasedStates]
    | ended running => simp [running, leasedStates]
  obtain ⟨lease, hlease⟩ := Option.isSome_iff_exists.mp (sound.leased leased)
  have ended : lease ≤ now := by
    obtain ⟨_, _, _, _, _, _, hall⟩ := judgedIn
    simpa [hlease] using hall
  refine ⟨worker, _, instant, rfl, under, ⟨_, h.begun worker _ under⟩, ⟨judged, target, instant, r, lease, rfl, stored, state,
    fun accepted => (kept.sound.committed _ r stored).unstamped (Or.inr accepted),
    fun running => ?_, written, hlease, ended, read, judgedIn, proved⟩⟩
  rcases later.running (state ▸ running) with ⟨_, same⟩ | ended
  · exact same
  · rw [running] at ended
    cases ended

theorem evidence_of_history {actions : List ReconcilerAction} {m : Move Reconciler ReconcilerAction}
    {rest : Past} (split : history step empty actions = past ++ m :: rest) :
    m.before.Kept ∧ Evidence past m.before := by
  obtain ⟨pre, post, _, run, hpast, _⟩ := exists_split_of_history_eq split
  have both := exec_history_induction (P := fun past w => w.Kept ∧ Evidence past w)
    ⟨kept_empty, evidence_empty⟩
    (fun past w a w' h hstep => ⟨(h.1.step hstep).1, h.2.step h.1 hstep⟩) run
  rwa [hpast] at both

end Reconciler

end FeatureGen.Materialize
