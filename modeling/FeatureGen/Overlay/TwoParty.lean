import FeatureGen.Overlay.Log

/-! # Two-party control of dual-owner joins

A join with two sides is confirmed in two commands. The second checks its own
actor against the owners the catalog has then, and of the first confirmer only
that one of the two is an owner when a side has none. So the first confirmer can
have stopped standing for the side that is left to them.
-/

namespace FeatureGen.Overlay

def cyclePartials (stream : List OverlayEvent) : List OverlayEvent :=
  (currentCycle stream).filter fun e => (partialConfirmer e).isSome

theorem cyclePartials_snoc {stream : List OverlayEvent} {e : OverlayEvent} :
    cyclePartials (stream ++ [e]) =
      if isProposed e || isConfirmed e then []
      else cyclePartials stream ++ if (partialConfirmer e).isSome then [e] else [] := by
  unfold cyclePartials
  rw [currentCycle_snoc]
  split
  · rfl
  · rw [List.filter_append]
    cases h : (partialConfirmer e).isSome <;> simp [h]

/-- The partial confirmers of the fold are those of the cycle's one partial
    confirmation, by somebody who did not propose. -/
structure CycleSound (stream : List OverlayEvent) : Prop where
  confirmers : (foldOverlayState stream).partialConfirmers =
    (cyclePartials stream).filterMap partialConfirmer
  single : (cyclePartials stream).length ≤ 1
  own : ∀ e ∈ cyclePartials stream,
    (partialConfirmer e).map (·.subject) = some e.actor.subject ∧
      ∀ p, latestProposed stream = some p → p.proposedBy ≠ e.actor.subject

section Cycle

variable {d : Deployment} {key : FactKey} {stream : List OverlayEvent} {e : OverlayEvent}

theorem CycleSound.fresh (empty : cyclePartials stream = [])
    (cleared : (foldOverlayState stream).partialConfirmers = []) : CycleSound stream := by
  constructor
  · rw [empty, cleared]
    rfl
  · rw [empty]
    exact Nat.zero_le 1
  · intro e he
    rw [empty] at he
    cases he

theorem CycleSound.keep (h : CycleSound stream)
    (same : cyclePartials (stream ++ [e]) = cyclePartials stream)
    (kept : (foldOverlayState (stream ++ [e])).partialConfirmers =
      (foldOverlayState stream).partialConfirmers)
    (proposal : latestProposed (stream ++ [e]) = latestProposed stream) :
    CycleSound (stream ++ [e]) := by
  constructor
  · rw [kept, same]
    exact h.confirmers
  · rw [same]
    exact h.single
  · rw [same, proposal]
    exact h.own

theorem CycleSound.next (h : CycleSound stream)
    (admissible : Admissible d stream key e.actor e.payload) : CycleSound (stream ++ [e]) := by
  cases hp : e.payload with
  | proposed p =>
      rw [hp] at admissible
      obtain ⟨_, _, cleared, _⟩ := fold_proposed _ hp admissible.1
      apply CycleSound.fresh
      · rw [cyclePartials_snoc]
        simp [isProposed, hp]
      · rw [foldOverlayState_snoc, cleared]
  | confirmed c =>
      obtain ⟨_, _, _, _, _, cleared, _⟩ := fold_confirmed (foldOverlayState stream) hp
      apply CycleSound.fresh
      · rw [cyclePartials_snoc]
        simp [isConfirmed, hp]
      · rw [foldOverlayState_snoc, cleared]
  | partiallyConfirmed byOwner role draft note =>
      rw [hp] at admissible
      obtain ⟨_, first, owner, proposer⟩ := admissible
      have none_before : cyclePartials stream = [] := by
        have confirmers := h.confirmers
        rw [first] at confirmers
        have nothing := List.filterMap_eq_nil_iff.mp confirmers.symm
        refine List.eq_nil_iff_forall_not_mem.mpr ?_
        intro x hx
        have isPartial := (List.mem_filter.mp hx).2
        simp [nothing x hx] at isPartial
      have only : cyclePartials (stream ++ [e]) = [e] := by
        rw [cyclePartials_snoc, none_before]
        simp [isProposed, isConfirmed, partialConfirmer, hp]
      constructor
      · rw [foldOverlayState_snoc, fold_partial _ hp, first, only]
        simp [partialConfirmer, hp]
      · rw [only]
        exact le_rfl
      · intro x hx
        rw [only, List.mem_singleton] at hx
        subst hx
        rw [latestProposed_snoc, hp]
        refine ⟨by simp [partialConfirmer, hp, owner], ?_⟩
        intro p hlatest
        exact owner ▸ proposer p hlatest
  | rejected rejectedBy reason category target retired =>
      apply h.keep
      · rw [cyclePartials_snoc]
        simp [isProposed, isConfirmed, partialConfirmer, hp]
      · rw [foldOverlayState_snoc]
        simp [foldEvent, hp]
      · rw [latestProposed_snoc, hp]
  | expired target =>
      apply h.keep
      · rw [cyclePartials_snoc]
        simp [isProposed, isConfirmed, partialConfirmer, hp]
      · rw [foldOverlayState_snoc]
        simp [foldEvent, hp]
      · rw [latestProposed_snoc, hp]
  | staled change target =>
      apply h.keep
      · rw [cyclePartials_snoc]
        simp [isProposed, isConfirmed, partialConfirmer, hp]
      · rw [foldOverlayState_snoc]
        simp [foldEvent, hp]
      · rw [latestProposed_snoc, hp]

theorem ValidLog.cycleSound {log : List OverlayEvent} {n : ℕ} (h : ValidLog d log n)
    (key : FactKey) : CycleSound (loadFact log key) :=
  h.stream_induction key (.fresh rfl rfl) fun _ _ _ sound admissible => sound.next admissible

theorem CycleSound.unique (h : CycleSound stream) {first first' : OverlayEvent}
    (mem : first ∈ cyclePartials stream) (mem' : first' ∈ cyclePartials stream) :
    first = first' := by
  obtain ⟨i, hi, rfl⟩ := List.mem_iff_getElem.mp mem
  obtain ⟨j, hj, rfl⟩ := List.mem_iff_getElem.mp mem'
  have single := h.single
  have same : i = j := by omega
  subst same
  rfl

theorem CycleSound.first (h : CycleSound stream) {first : Confirmer}
    (last : (foldOverlayState stream).partialConfirmers.getLast? = some first) :
    ∃ e ∈ cyclePartials stream, e.actor.subject = first.subject := by
  have mem := List.mem_of_getLast? last
  rw [h.confirmers] at mem
  obtain ⟨e, he, hfirst⟩ := List.mem_filterMap.mp mem
  obtain ⟨own, _⟩ := h.own e he
  rw [hfirst] at own
  exact ⟨e, he, (Option.some.inj own).symm⟩

end Cycle

def IdentityEnvelope.PlatformAdmin (actor : IdentityEnvelope) : Prop :=
  "platform-admin" ∈ actor.roleClaims

instance {actor : IdentityEnvelope} : Decidable actor.PlatformAdmin :=
  inferInstanceAs (Decidable ("platform-admin" ∈ actor.roleClaims))

def SideCovered (owner : Option String) (confirmers : List IdentityEnvelope) : Prop :=
  if falsy owner then ∃ actor ∈ confirmers, actor.PlatformAdmin
  else ∃ actor ∈ confirmers, some actor.subject = owner

/-- The first confirmer stands for what the second leaves: the other owner's side,
    or, when only one side has an owner and they are the second, the side without. -/
def StillStands (authority : Authority) (first second : IdentityEnvelope) : Prop :=
  match authority.known with
  | [] => True
  | [owner] => second.subject = owner → first.PlatformAdmin ∨ second.PlatformAdmin
  | fromOwner :: toOwner :: _ =>
      first.subject = if second.subject = fromOwner then toOwner else fromOwner

theorem filterMap_pair {α β : Type} (f : α → Option β) {a b : α} :
    [a, b].filterMap f = (f a).toList ++ (f b).toList := by
  cases ha : f a <;> cases hb : f b <;> simp [ha, hb]

instance {owner : Option String} {confirmers : List IdentityEnvelope} :
    Decidable (SideCovered owner confirmers) := by
  unfold SideCovered
  infer_instance

instance {authority : Authority} {first second : IdentityEnvelope} :
    Decidable (StillStands authority first second) := by
  unfold StillStands
  split <;> infer_instance

theorem known_side (owner : Option String) :
    falsy owner = true ∧ owner.filter (· ≠ "") = none ∨
      ∃ subject, owner = some subject ∧ falsy owner = false ∧
        owner.filter (· ≠ "") = some subject := by
  cases owner with
  | none => exact Or.inl ⟨rfl, rfl⟩
  | some subject =>
      by_cases blank : subject = ""
      · subst blank
        exact Or.inl ⟨rfl, rfl⟩
      · exact Or.inr ⟨subject, rfl, by simp [falsy, blank], by simp [Option.filter, blank]⟩

theorem sideCovered_unknown {owner : Option String} {first second : IdentityEnvelope}
    (unknown : falsy owner = true) :
    SideCovered owner [first, second] ↔ first.PlatformAdmin ∨ second.PlatformAdmin := by
  simp [SideCovered, unknown]

theorem sideCovered_known {owner : String} {first second : IdentityEnvelope}
    (known : falsy (some owner) = false) :
    SideCovered (some owner) [first, second] ↔ first.subject = owner ∨ second.subject = owner := by
  simp [SideCovered, known]

theorem oneKnown_iff {authority : Authority} {owner : String} {first second : IdentityEnvelope}
    (known : authority.known = [owner])
    (authorized : second.subject ∈ authority.known ∨
      authority.governanceQueue = true ∧ second.PlatformAdmin)
    (guarded : authority.governanceQueue = true → authority.known ≠ [] →
      first.subject ∈ authority.known ∨ second.subject ∈ authority.known) :
    ((first.PlatformAdmin ∨ second.PlatformAdmin) ∧
        (first.subject = owner ∨ second.subject = owner)) ↔
      (second.subject = owner → first.PlatformAdmin ∨ second.PlatformAdmin) := by
  rw [known] at authorized guarded
  simp only [List.mem_singleton] at authorized guarded
  constructor
  · rintro ⟨admin, _⟩ _
    exact admin
  · intro stands
    by_cases owns : second.subject = owner
    · exact ⟨stands owns, Or.inr owns⟩
    · obtain ⟨queue, admin⟩ := authorized.resolve_left owns
      exact ⟨Or.inr admin, guarded queue (by simp)⟩

theorem sidesCovered_iff {authority : Authority} {fromOwner toOwner : Option String}
    {first second : IdentityEnvelope} (subjects : authority.subjects = [fromOwner, toOwner])
    (dual : ¬ (fromOwner ≠ none ∧ fromOwner = toOwner))
    (authorized : second.subject ∈ authority.known ∨
      authority.governanceQueue = true ∧ second.PlatformAdmin)
    (queue : authority.governanceQueue = true → fromOwner = none ∨ toOwner = none)
    (guarded : authority.governanceQueue = true → authority.known ≠ [] →
      first.subject ∈ authority.known ∨ second.subject ∈ authority.known) :
    (∀ owner ∈ authority.subjects, SideCovered owner [first, second]) ↔
      StillStands authority first second := by
  have known : authority.known =
      (fromOwner.filter (· ≠ "")).toList ++ (toOwner.filter (· ≠ "")).toList := by
    rw [Authority.known, subjects]
    exact filterMap_pair _
  rw [subjects, List.forall_mem_cons, List.forall_mem_singleton]
  unfold StillStands
  rcases known_side fromOwner with ⟨unknownFrom, hfrom⟩ | ⟨f, rfl, knownFrom, hfrom⟩ <;>
    rcases known_side toOwner with ⟨unknownTo, hto⟩ | ⟨t, rfl, knownTo, hto⟩ <;>
    rw [hfrom, hto] at known
  · -- without owners the second confirmer is an admin
    have nobody : authority.known = [] := known
    rw [nobody] at authorized
    obtain ⟨_, admin⟩ := authorized.resolve_left List.not_mem_nil
    rw [nobody, sideCovered_unknown unknownFrom, sideCovered_unknown unknownTo]
    exact ⟨fun _ => trivial, fun _ => ⟨Or.inr admin, Or.inr admin⟩⟩
  · have one : authority.known = [t] := known
    rw [one, sideCovered_unknown unknownFrom, sideCovered_known knownTo]
    exact oneKnown_iff one authorized guarded
  · have one : authority.known = [f] := known
    rw [one, sideCovered_known knownFrom, sideCovered_unknown unknownTo, and_comm]
    exact oneKnown_iff one authorized guarded
  · -- with two owners the second confirmer is one of them
    have both : authority.known = [f, t] := known
    have unequal : f ≠ t := fun same => dual ⟨by simp, congrArg some same⟩
    have owner : second.subject = f ∨ second.subject = t := by
      rcases authorized with owner | ⟨queued, _⟩
      · simpa [both] using owner
      · have := queue queued
        simp at this
    rw [both, sideCovered_known knownFrom, sideCovered_known knownTo]
    show _ ↔ first.subject = _
    rcases owner with owner | owner <;> rw [owner]
    · simp [unequal]
    · simp [unequal.symm]

/-- `confirm_fact` takes the dual-owner path. -/
def DualPath (d : Deployment) (w : World) (cmd : ConfirmFact) (authority : Authority) : Prop :=
  cmd.factType = .approvedJoin ∧ authority.dual = true ∧
    resolveAuthority w.adapter (cmd.ref.constructed d.lower) .approvedJoin = some authority

/-- The dual path confirms in its second step alone: by a subject who did not
    propose and is not the first, let through as `sidesCovered_iff` takes it. -/
theorem confirmed_of_dualPath {d : Deployment} {w w' : World} {cmd : ConfirmFact}
    {authority : Authority} {e : OverlayEvent} {c : Confirmed}
    (h : confirmFact d w cmd = .ok w') (dual : DualPath d w cmd authority)
    (appended : w'.events = w.events ++ [e]) (confirmed : e.payload = .confirmed c) :
    ∃ last, (foldOverlayState (loadFact w.events (cmd.key d))).partialConfirmers.getLast? = some last ∧
      e.actor = cmd.actor ∧
      c.confirmedBy = .human (joinConfirmers authority last.subject cmd.actor.subject) ∧
      last.subject ≠ cmd.actor.subject ∧
      (∀ p, latestProposed (loadFact w.events (cmd.key d)) = some p →
        p.proposedBy ≠ cmd.actor.subject) ∧
      (cmd.actor.subject ∈ authority.known ∨
        authority.governanceQueue = true ∧ cmd.actor.PlatformAdmin) ∧
      (authority.governanceQueue = true → authority.known ≠ [] →
        last.subject ∈ authority.known ∨ cmd.actor.subject ∈ authority.known) := by
  obtain ⟨isJoin, isDual, hresolve⟩ := dual
  obtain ⟨_, resolved, hauthority, path⟩ := confirmFact_ok h
  rw [isJoin, hresolve] at hauthority
  cases hauthority
  obtain ⟨_, _, _, hdual⟩ | ⟨single, _⟩ := path
  · obtain ⟨authorized, proposer, hside⟩ := confirmApprovedJoin_ok hdual
    split at hside
    · -- the first side's confirmation is no `CONFIRMED`
      have hafter := confirmFirstSide_ok hside
      rw [hafter, events_append] at appended
      have last := List.append_cancel_left appended
      cases last
      cases confirmed
    · next last found =>
        obtain ⟨distinct, guarded, value, expiresAt, _, _, _, hafter⟩ := confirmSecondSide_ok hside
        have events := (congrArg World.events hafter).symm.trans appended
        have only := List.append_cancel_left events
        cases only
        cases confirmed
        exact ⟨last, found, rfl, rfl, distinct.symm, proposer, authorized, guarded⟩
  · exact absurd ⟨isJoin, isDual⟩ single

instance {d : Deployment} {w : World} {cmd : ConfirmFact} {authority : Authority} :
    Decidable (DualPath d w cmd authority) := by
  unfold DualPath
  infer_instance

/-- Two-party control of a confirmation over a stream: `first` confirmed in its
    current cycle, the two are recorded, are not the same, did not propose and
    cover both sides. -/
structure TwoParty (authority : Authority) (stream : List OverlayEvent) (c : Confirmed)
    (first second : OverlayEvent) : Prop where
  inCycle : first ∈ currentCycle stream ∧
    (partialConfirmer first).map (·.subject) = some first.actor.subject
  recorded : c.confirmedBy.confirmerList.map (·.subject) =
    [first.actor.subject, second.actor.subject]
  distinct : first.actor.subject ≠ second.actor.subject
  proposer : ∀ p, latestProposed stream = some p →
    p.proposedBy ≠ first.actor.subject ∧ p.proposedBy ≠ second.actor.subject
  covered : ∀ owner ∈ authority.subjects, SideCovered owner [first.actor, second.actor]

theorem TwoParty.mem_cyclePartials {authority : Authority} {stream : List OverlayEvent}
    {c : Confirmed} {first second : OverlayEvent} (h : TwoParty authority stream c first second) :
    first ∈ cyclePartials stream := by
  obtain ⟨mem, own⟩ := h.inCycle
  obtain ⟨confirmer, isPartial, _⟩ := Option.map_eq_some_iff.mp own
  exact List.mem_filter.mpr ⟨mem, by simp [isPartial]⟩

/-- A dual-owner confirmation that a run appends is under two-party control if and
    only if the first confirmer still stands for what the second leaves. -/
theorem dual_confirmation_iff {d : Deployment} {w₀ : World} {as : List Action} (init : Init w₀)
    {m : Transition.Move World Action} (mem : m ∈ Transition.history (step d) w₀ as)
    {cmd : ConfirmFact} (action : m.action = .confirmFact cmd) {authority : Authority}
    (dual : DualPath d m.before cmd authority) {e : OverlayEvent} {c : Confirmed}
    (appended : m.after.events = m.before.events ++ [e]) (confirmed : e.payload = .confirmed c) :
    (∃ first, TwoParty authority (loadFact m.before.events (cmd.key d)) c first e) ↔
      ∀ first ∈ cyclePartials (loadFact m.before.events (cmd.key d)),
        StillStands authority first.actor e.actor := by
  obtain ⟨pre, _, _, hpre⟩ := Transition.exists_split_of_mem_history mem
  have sound := (validLog_of_run init hpre).cycleSound (cmd.key d)
  have hstep := Transition.step_of_mem_history mem
  rw [action] at hstep
  have after : m.before.after (confirmFact d m.before cmd) = m.after := Option.some.inj hstep
  cases hcmd : confirmFact d m.before cmd with
  | error refusal =>
      rw [hcmd] at after
      have same : m.before.events = m.after.events := congrArg World.events after
      rw [appended] at same
      simp at same
  | ok w' =>
      rw [hcmd] at after
      have hw : w' = m.after := after
      obtain ⟨last, found, actor, recorded, distinct, proposer, authorized, guarded⟩ :=
        confirmed_of_dualPath hcmd dual (hw ▸ appended) confirmed
      obtain ⟨first, hfirst, subject⟩ := sound.first found
      obtain ⟨own, notProposer⟩ := sound.own first hfirst
      obtain ⟨join, _, subjects, queue, distinctOwners⟩ := resolveAuthority_approvedJoin dual.2.2
      rw [← subject] at recorded distinct guarded
      rw [← actor] at recorded distinct proposer authorized guarded
      have sides : (∀ owner ∈ authority.subjects, SideCovered owner [first.actor, e.actor]) ↔
          StillStands authority first.actor e.actor :=
        sidesCovered_iff subjects (distinctOwners.mp dual.2.1) authorized queue.mp guarded
      constructor
      · rintro ⟨first', control⟩ x hx
        rw [sound.unique hx hfirst]
        apply sides.mp
        rw [sound.unique hfirst control.mem_cyclePartials]
        exact control.covered
      · intro stands
        refine ⟨first, ⟨(List.mem_filter.mp hfirst).1, own⟩, ?_, distinct, ?_,
          sides.mpr (stands first hfirst)⟩
        · rw [recorded]
          rfl
        · intro p hp
          exact ⟨notProposer p hp, proposer p hp⟩

def bobConfirms : ConfirmFact := ordersCustomers.confirm (person "bob" []) 1

def shopOwners (ordersOwner customersOwner : String) : Authority :=
  ⟨.dataOwner, [some ordersOwner, some customersOwner], false, true, false⟩

/-- With the same owners throughout, theirs is a confirmation of both. -/
theorem dual_confirmation_by_both_owners :
    ∃ m ∈ Transition.history (step shopDeployment) shopOverlay bothOwnersConfirm,
      m.action = .confirmFact bobConfirms ∧ ∃ c first second,
        TwoParty (shopOwners "alice" "bob")
          (loadFact m.before.events (bobConfirms.key shopDeployment)) c first second := by
  have computed : ((Transition.exec (step shopDeployment) shopOverlay
      (bothOwnersConfirm.take 2)).any fun w =>
        (step shopDeployment w (.confirmFact bobConfirms)).any fun w' =>
          w'.events.getLast?.any fun e => (confirmation e).any fun c =>
            decide (DualPath shopDeployment w bobConfirms (shopOwners "alice" "bob") ∧
              w'.events = w.events ++ [e] ∧
              ∀ first ∈ cyclePartials (loadFact w.events (bobConfirms.key shopDeployment)),
                StillStands (shopOwners "alice" "bob") first.actor e.actor)) = true := by
    decide +kernel
  obtain ⟨w, run, computed⟩ := Option.any_eq_true _ _ |>.mp computed
  obtain ⟨w', hstep, computed⟩ := Option.any_eq_true _ _ |>.mp computed
  obtain ⟨e, _, computed⟩ := Option.any_eq_true _ _ |>.mp computed
  obtain ⟨c, confirmed, holds⟩ := Option.any_eq_true _ _ |>.mp computed
  obtain ⟨dual, appended, stands⟩ := of_decide_eq_true holds
  have mem : ⟨w, .confirmFact bobConfirms, w'⟩ ∈
      Transition.history (step shopDeployment) shopOverlay bothOwnersConfirm :=
    Transition.mem_history_of_step run hstep
  obtain ⟨first, control⟩ := (dual_confirmation_iff World.fresh_init mem rfl dual appended
    (confirmation_eq_some.mp confirmed)).mpr stands
  exact ⟨_, mem, rfl, c, first, e, control⟩

/-- The orders go to Dave between the two confirmations. -/
def reassigned : List Action :=
  bothOwnersConfirm.take 2 ++
    [.catalog (shop (some "dave") (some "bob") shopObjects) [] fun _ => none]

/-- Bob's confirmation still goes through, and nobody covers Dave's side. -/
theorem dual_confirmation_without_owner :
    ∃ m ∈ Transition.history (step shopDeployment) shopOverlay
        (reassigned ++ [.confirmFact bobConfirms]),
      ∃ e c, m.action = .confirmFact bobConfirms ∧
        DualPath shopDeployment m.before bobConfirms (shopOwners "dave" "bob") ∧
        m.after.events = m.before.events ++ [e] ∧ e.payload = .confirmed c ∧
        ∀ first, ¬ TwoParty (shopOwners "dave" "bob")
          (loadFact m.before.events (bobConfirms.key shopDeployment)) c first e := by
  have computed : ((Transition.exec (step shopDeployment) shopOverlay reassigned).any fun w =>
        (step shopDeployment w (.confirmFact bobConfirms)).any fun w' =>
          w'.events.getLast?.any fun e => (confirmation e).any fun _ =>
            decide (DualPath shopDeployment w bobConfirms (shopOwners "dave" "bob") ∧
              w'.events = w.events ++ [e] ∧
              ∀ first ∈ cyclePartials (loadFact w.events (bobConfirms.key shopDeployment)),
                ¬ ∀ owner ∈ (shopOwners "dave" "bob").subjects,
                  SideCovered owner [first.actor, e.actor])) = true := by
    decide +kernel
  obtain ⟨w, run, computed⟩ := Option.any_eq_true _ _ |>.mp computed
  obtain ⟨w', hstep, computed⟩ := Option.any_eq_true _ _ |>.mp computed
  obtain ⟨e, _, computed⟩ := Option.any_eq_true _ _ |>.mp computed
  obtain ⟨c, confirmed, holds⟩ := Option.any_eq_true _ _ |>.mp computed
  obtain ⟨dual, appended, uncovered⟩ := of_decide_eq_true holds
  refine ⟨⟨w, .confirmFact bobConfirms, w'⟩, Transition.mem_history_of_step run hstep, e, c, rfl,
    dual, appended, confirmation_eq_some.mp confirmed, ?_⟩
  intro first control
  exact uncovered first control.mem_cyclePartials control.covered

end FeatureGen.Overlay
