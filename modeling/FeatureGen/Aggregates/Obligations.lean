import Mathlib
import FeatureGen.Aggregates.ActiveMap

/-! # Timed obligations of features

An experiment schedules its expiry and a forced deprecation its end, each under
a key of version and use case. Timer rows are never deleted, so a second cycle
of the same pair meets the row of the first, and its insert does nothing.
-/

namespace FeatureGen.Aggregates

open FeatureGen.Runtime

structure Pending (kind : TimerKind) (payload : JsonObject) (r : Timer) : Prop where
  kind : r.kind = kind
  payload : r.payload = payload
  unsettled : r.status.final = false

def expiryPayload : String → String → String → JsonObject := timerPayload "deactivate_expired_version"

def quiescePayload : String → String → String → JsonObject := timerPayload "finalize_deprecate"

/-- What a move owes, it has scheduled. -/
structure ObligationsKept (m : FeatureMove) : Prop where
  /-- An experiment that claims its slot expires in time. -/
  expiry : ∀ a timerId expiresAt, m.action = .activate a timerId → a.expiresAt = some expiresAt →
    (∃ e ∈ newEvents m, e.payload = .versionActivated a.featureId a.featureVersionId a.useCase
      a.baseFeatureVersionId .activeExperimental) →
    ∃ r ∈ m.after.store.timers, r.fireAt = expiresAt ∧
      Pending .experimentExpiry (expiryPayload a.featureId a.featureVersionId a.useCase) r
  /-- A forced deprecation that is accepted is finalized. -/
  quiesce : ∀ d timerId refs, m.action = .deprecateVersion d timerId →
    (∃ e ∈ newEvents m, e.payload = d.quiesced refs) →
    ∃ r ∈ m.after.store.timers,
      Pending .businessRepair (quiescePayload d.featureId d.featureVersionId d.useCase) r

/-- The timer a move schedules finds its key free, or its own row still to come. -/
def TimerFree (accepts : Accepts) (w : FeatureWorld) : FeatureAction → Prop
  | .activate a _ => ∀ expiresAt, a.expiresAt = some expiresAt →
      activationStateOf a.approvalType = .activeExperimental → Claims accepts w.store a →
      ∀ r ∈ w.store.timers, r.idempotencyKey = expiryKey a.featureVersionId a.useCase →
        r.fireAt = expiresAt ∧
          Pending .experimentExpiry (expiryPayload a.featureId a.featureVersionId a.useCase) r
  | .deprecateVersion d _ => activeRefs w.store d.featureId ≠ [] → d.forceQuiesce = true →
      accepts (d.quiesced (activeRefs w.store d.featureId)) = true →
      ∀ r ∈ w.store.timers, r.idempotencyKey = quiesceKey d.featureVersionId d.useCase →
        Pending .businessRepair (quiescePayload d.featureId d.featureVersionId d.useCase) r
  | _ => True

/-- Timers of the two kinds stand under the keys of their pairs. -/
structure Keyed (r : Timer) : Prop where
  expiry : r.kind = .experimentExpiry → ∃ featureId fv useCase,
    r.payload = expiryPayload featureId fv useCase ∧ r.idempotencyKey = expiryKey fv useCase
  quiesce : r.kind = .businessRepair → ∃ featureId fv useCase,
    r.payload = quiescePayload featureId fv useCase ∧ r.idempotencyKey = quiesceKey fv useCase

section Keys

variable {accepts : Accepts} {s s' : FeatureStore} {a : FeatureAction}

theorem timerPayload_inj {handler featureId fv useCase featureId' fv' useCase' : String}
    (h : timerPayload handler featureId fv useCase = timerPayload handler featureId' fv' useCase') :
    fv = fv' ∧ useCase = useCase' := by
  simp only [timerPayload, List.cons.injEq, Prod.mk.injEq, Json.str.injEq] at h
  exact ⟨h.2.2.1.2, h.2.2.2.1.2⟩

theorem Keyed.follows {r r' : Timer} (h : Keyed r) (follows : r.Follows r') : Keyed r' := by
  rw [follows.same]
  exact ⟨h.expiry, h.quiesce⟩

theorem keyed_expiryTimer (featureId fv useCase timerId : String) (expiresAt : Instant) :
    Keyed ((expiryTimer featureId fv useCase expiresAt).row timerId "feature" featureId) where
  expiry _ := ⟨featureId, fv, useCase, rfl, rfl⟩
  quiesce h := by cases h

theorem keyed_quiesceTimer (featureId fv useCase timerId : String) (fireAt : Instant) :
    Keyed ((quiesceTimer featureId fv useCase fireAt).row timerId "feature" featureId) where
  expiry h := by cases h
  quiesce _ := ⟨featureId, fv, useCase, rfl, rfl⟩

theorem Scheduled.mem {t t' : Timers} {featureId timerId : String} {timer : NewTimer}
    (h : Scheduled t t' featureId timerId timer) :
    (t' = t ∧ ∃ r ∈ t, r.idempotencyKey = timer.idempotencyKey) ∨
      timer.row timerId "feature" featureId ∈ t' ∧
        ∀ r ∈ t', r ∈ t ∨ r = timer.row timerId "feature" featureId := by
  rcases Timers.insertNew_some h with old | ⟨hins, -⟩
  · exact Or.inl old
  · have mem := (Timers.mem_insert? hins).1
    exact Or.inr ⟨(mem _).mpr (Or.inr rfl), fun r hr => (mem r).mp hr⟩

theorem Scheduled.keyed {t t' : Timers} {featureId timerId : String} {timer : NewTimer}
    (h : Scheduled t t' featureId timerId timer) (keyed : ∀ r ∈ t, Keyed r)
    (new : Keyed (timer.row timerId "feature" featureId)) : ∀ r ∈ t', Keyed r := by
  intro r hr
  rcases h.mem with ⟨rfl, -⟩ | ⟨-, mem⟩
  · exact keyed r hr
  · rcases mem r hr with old | rfl
    · exact keyed r old
    · exact new

theorem Effect.keyed (h : Effect accepts s s' a) (keyed : ∀ r ∈ s.timers, Keyed r) :
    ∀ r ∈ s'.timers, Keyed r := by
  cases h with
  | scheduled a timerId expiresAt claims active experimental expires timers events =>
      exact timers.keyed keyed (keyed_expiryTimer ..)
  | quiesced a timerId fireAt active timers refs forced accepted events =>
      exact timers.keyed keyed (keyed_quiesceTimer ..)
  | ticked active events timers kept =>
      intro r' hr'
      obtain ⟨r, hr, follows⟩ := kept r' hr'
      exact (keyed r hr).follows follows
  | noted new untracked active timers events => rwa [timers]
  | activated a timerId claims active timers unscheduled events => rwa [timers]
  | superseded featureId useCase newFv prior expectedPrior held active timers events => rwa [timers]
  | deprecatedNow featureId fv useCase via reason direct accepted active timers events =>
      rwa [timers]
  | outcome featureId fv newRunId matched active timers events => rwa [timers]
  | expired featureId fv useCase held active timers events => rwa [timers]

theorem eq_of_idempotencyKey_eq {t : Timers} {r r' : Timer} (hr : r ∈ t) (hr' : r' ∈ t)
    (h : r.idempotencyKey = r'.idempotencyKey) : r = r' :=
  List.inj_on_of_nodup_map t.keys_nodup hr hr' h

theorem Effect.expiry_kept (h : Effect accepts s s' a) {b : Activation} {timerId : String}
    {expiresAt : Instant} (action : a = .activate b timerId) (expires : b.expiresAt = some expiresAt)
    (free : activationStateOf b.approvalType = .activeExperimental → Claims accepts s b →
      ∀ r ∈ s.timers, r.idempotencyKey = expiryKey b.featureVersionId b.useCase →
        r.fireAt = expiresAt ∧
          Pending .experimentExpiry (expiryPayload b.featureId b.featureVersionId b.useCase) r)
    {new : List FeatureEvent} (appended : Appended s s' new)
    (claimed : ∃ e ∈ new, e.payload = .versionActivated b.featureId b.featureVersionId b.useCase
      b.baseFeatureVersionId .activeExperimental) :
    ∃ r ∈ s'.timers, r.fireAt = expiresAt ∧
      Pending .experimentExpiry (expiryPayload b.featureId b.featureVersionId b.useCase) r := by
  obtain ⟨e, he, hpayload⟩ := claimed
  cases h with
  | noted new' untracked active timers events =>
      obtain rfl := events.unique appended
      have hu := untracked e he
      rw [hpayload] at hu
      cases hu
  | activated a timerId claims active timers unscheduled events =>
      cases action
      obtain rfl := events.unique appended
      obtain rfl := List.mem_singleton.mp he
      simp only [FeaturePayload.versionActivated.injEq, true_and] at hpayload
      rw [unscheduled hpayload] at expires
      cases expires
  | scheduled a timerId expiresAt' claims active experimental expires' timers events =>
      cases action
      obtain rfl := Option.some.inj (expires'.symm.trans expires)
      rcases timers.mem with ⟨heq, r, hr, hkey⟩ | ⟨hr, -⟩
      · rw [heq]
        exact ⟨r, hr, free experimental claims r hr hkey⟩
      · exact ⟨_, hr, rfl, rfl, rfl, rfl⟩
  | superseded featureId useCase newFv prior expectedPrior held active timers events =>
      cases action
  | quiesced a timerId fireAt active timers refs forced accepted events => cases action
  | deprecatedNow featureId fv useCase via reason direct accepted active timers events =>
      obtain rfl := events.unique appended
      obtain rfl := List.mem_singleton.mp he
      cases hpayload
  | outcome featureId fv newRunId matched active timers events =>
      obtain rfl := events.unique appended
      obtain rfl := List.mem_singleton.mp he
      cases hpayload
  | expired featureId fv useCase held active timers events =>
      obtain rfl := events.unique appended
      obtain rfl := List.mem_singleton.mp he
      cases hpayload
  | ticked active events timers kept =>
      obtain rfl := events.unique appended
      cases he

theorem Effect.quiesce_kept (h : Effect accepts s s' a) {d : Deprecation} {timerId : String}
    {refs : List String} (action : a = .deprecateVersion d timerId)
    (free : activeRefs s d.featureId ≠ [] → d.forceQuiesce = true →
      accepts (d.quiesced (activeRefs s d.featureId)) = true →
      ∀ r ∈ s.timers, r.idempotencyKey = quiesceKey d.featureVersionId d.useCase →
        Pending .businessRepair (quiescePayload d.featureId d.featureVersionId d.useCase) r)
    {new : List FeatureEvent} (appended : Appended s s' new)
    (quiesced : ∃ e ∈ new, e.payload = d.quiesced refs) :
    ∃ r ∈ s'.timers,
      Pending .businessRepair (quiescePayload d.featureId d.featureVersionId d.useCase) r := by
  obtain ⟨e, he, hpayload⟩ := quiesced
  cases h with
  | noted new' untracked active timers events =>
      obtain rfl := events.unique appended
      have hu := untracked e he
      rw [hpayload] at hu
      cases hu
  | activated a timerId claims active timers unscheduled events => cases action
  | scheduled a timerId expiresAt claims active experimental expires timers events => cases action
  | superseded featureId useCase newFv prior expectedPrior held active timers events =>
      cases action
  | quiesced a timerId fireAt active timers refs forced accepted events =>
      cases action
      rcases timers.mem with ⟨heq, r, hr, hkey⟩ | ⟨hr, -⟩
      · rw [heq]
        exact ⟨r, hr, free refs forced accepted r hr hkey⟩
      · exact ⟨_, hr, rfl, rfl, rfl⟩
  | deprecatedNow featureId fv useCase via reason direct accepted active timers events =>
      obtain rfl := events.unique appended
      obtain rfl := List.mem_singleton.mp he
      cases hpayload
  | outcome featureId fv newRunId matched active timers events =>
      obtain rfl := events.unique appended
      obtain rfl := List.mem_singleton.mp he
      cases hpayload
  | expired featureId fv useCase held active timers events =>
      obtain rfl := events.unique appended
      obtain rfl := List.mem_singleton.mp he
      cases hpayload
  | ticked active events timers kept =>
      obtain rfl := events.unique appended
      cases he

theorem insertFeatureTimer_taken {featureId timerId : String} {timer : NewTimer} {r : Timer}
    (hr : r ∈ s.timers) (hkey : r.idempotencyKey = timer.idempotencyKey) :
    insertFeatureTimer s featureId timerId timer = .ok s := by
  have found : s.timers.find? timer.idempotencyKey = some r :=
    Timers.find?_eq_some.mpr ⟨hr, hkey⟩
  have inserted : s.timers.insertNew (timer.row timerId "feature" featureId) = some s.timers := by
    rw [Timers.insertNew]
    simp only [NewTimer.row, found]
  rw [insertFeatureTimer, inserted]

theorem recordActivation_taken (s : FeatureStore) {b : Activation} {timerId : String}
    {expiresAt : Instant} {r : Timer} (expires : b.expiresAt = some expiresAt)
    (experimental : activationStateOf b.approvalType = .activeExperimental)
    (accepted : accepts (.versionActivated b.featureId b.featureVersionId b.useCase
      b.baseFeatureVersionId .activeExperimental) = true) (hr : r ∈ s.timers)
    (hkey : r.idempotencyKey = expiryKey b.featureVersionId b.useCase) :
    ∃ s' result, recordActivation accepts s b timerId = .ok (s', result) ∧
      s'.timers = s.timers ∧ Appended s s' [⟨s.nextSeq, b.featureId, .versionActivated b.featureId
        b.featureVersionId b.useCase b.baseFeatureVersionId .activeExperimental⟩] := by
  let evt : FeatureEvent := ⟨s.nextSeq, b.featureId, .versionActivated b.featureId
    b.featureVersionId b.useCase b.baseFeatureVersionId .activeExperimental⟩
  let logged : FeatureStore :=
    { s with
      events := s.events ++ [evt]
      nextSeq := s.nextSeq + 1 }
  refine ⟨setActivatedSeq logged b.featureId b.useCase s.nextSeq, ⟨true, false, some s.nextSeq⟩,
    ?_, rfl, Appended.single rfl rfl rfl⟩
  simp only [recordActivation, experimental, expires]
  rw [append_eq_ok.mpr ⟨accepted, rfl⟩]
  simp only [bind, Except.bind, scheduleExpiryTimer]
  rw [insertFeatureTimer_taken]
  · rfl
  · exact hr
  · exact hkey

theorem call_activate_taken {b : Activation} {timerId : String} {now expiresAt : Instant} {r : Timer}
    (expires : b.expiresAt = some expiresAt)
    (experimental : activationStateOf b.approvalType = .activeExperimental)
    (claims : Claims accepts s b) (hr : r ∈ s.timers)
    (hkey : r.idempotencyKey = expiryKey b.featureVersionId b.useCase) :
    (call accepts now s (.activate b timerId)).timers = s.timers ∧
      Appended s (call accepts now s (.activate b timerId)) [⟨s.nextSeq, b.featureId,
        .versionActivated b.featureId b.featureVersionId b.useCase b.baseFeatureVersionId
          .activeExperimental⟩] := by
  obtain ⟨inactive, ⟨attrs, hattrs, allowed⟩, atBase, accepted⟩ := claims
  obtain ⟨claimed, hclaim⟩ := Option.isSome_iff_exists.mp
    (@casClaimSlot_isSome s b.featureId b.useCase b.featureVersionId b.baseFeatureVersionId
      .activeExperimental 0 atBase)
  obtain ⟨-, active, rfl, -⟩ := casClaimSlot_some hclaim
  rw [experimental] at accepted
  obtain ⟨s', result, recorded, timers, appended⟩ :=
    recordActivation_taken { s with active := active } expires experimental accepted hr hkey
  have applied : applyActivation accepts s b timerId = .ok (s', result) := by
    simp only [applyActivation, if_neg inactive, hattrs, bind, Except.bind, allowed,
      if_neg (not_not.mpr atBase), experimental, hclaim]
    exact recorded
  simp only [call, applied]
  exact ⟨timers, appended.events, appended.seqs, appended.nextSeq⟩

theorem call_deprecate_taken {d : Deprecation} {timerId : String} {now : Instant} {r : Timer}
    (refs : activeRefs s d.featureId ≠ []) (forced : d.forceQuiesce = true)
    (accepted : accepts (d.quiesced (activeRefs s d.featureId)) = true) (hr : r ∈ s.timers)
    (hkey : r.idempotencyKey = quiesceKey d.featureVersionId d.useCase) :
    (call accepts now s (.deprecateVersion d timerId)).timers = s.timers ∧
      Appended s (call accepts now s (.deprecateVersion d timerId))
        [⟨s.nextSeq, d.featureId, d.quiesced (activeRefs s d.featureId)⟩] := by
  let logged : FeatureStore :=
    { s with
      events := s.events ++ [⟨s.nextSeq, d.featureId, d.quiesced (activeRefs s d.featureId)⟩]
      nextSeq := s.nextSeq + 1 }
  have quiesces : deprecateCommand accepts s d timerId now =
      .ok (logged, ⟨true, [s.nextSeq], none⟩) := by
    simp only [deprecateCommand, forced, Bool.not_true, Bool.false_eq_true, and_false, if_false,
      if_pos refs]
    rw [append_eq_ok.mpr ⟨accepted, rfl⟩]
    simp only [bind, Except.bind]
    rw [insertFeatureTimer_taken]
    · rfl
    · exact hr
    · exact hkey
  simp only [call, quiesces]
  exact ⟨rfl, Appended.single rfl rfl rfl⟩

end Keys

theorem keyed_of_exec {accepts : Accepts} {w₀ w : FeatureWorld} {as : List FeatureAction}
    (start : FeatureInit w₀) (run : Transition.exec (featureStep accepts) w₀ as = some w) :
    ∀ r ∈ w.store.timers, Keyed r := by
  refine Transition.exec_induction (P := fun w => ∀ r ∈ w.store.timers, Keyed r) ?_ ?_ run
  · intro r hr
    have hrow : r ∈ w₀.store.timers.rows.rows := hr
    rw [start.timers] at hrow
    cases hrow
  · intro w a w' keyed hstep
    cases hstep
    exact (call_effect w.now a).keyed keyed

/-- In every run each obligation has its timer, if and only if no timer that is scheduled
    meets a spent one under its key. -/
theorem obligations_kept_iff {accepts : Accepts} {w₀ : FeatureWorld} {as : List FeatureAction}
    (start : FeatureInit w₀) :
    (∀ m ∈ Transition.history (featureStep accepts) w₀ as, ObligationsKept m) ↔
      Transition.Along (featureStep accepts) (TimerFree accepts) w₀ as := by
  have moves (m : FeatureMove) (hm : m ∈ Transition.history (featureStep accepts) w₀ as) :
      (∀ r ∈ m.before.store.timers, Keyed r) ∧
        m.after.store = call accepts m.before.now m.before.store m.action := by
    obtain ⟨pre, post, -, hpre⟩ := Transition.exists_split_of_mem_history hm
    have hstep := Transition.step_of_mem_history hm
    exact ⟨keyed_of_exec start hpre, congrArg FeatureWorld.store (Option.some.inj hstep).symm⟩
  constructor
  · intro kept m hm
    obtain ⟨keyed, after⟩ := moves m hm
    have owed := kept m hm
    obtain ⟨before, action, w'⟩ := m
    dsimp only at keyed after
    cases action with
    | activate a timerId =>
        intro expiresAt expires experimental claims r hr hkey
        obtain ⟨timers, appended⟩ :=
          @call_activate_taken accepts _ a timerId before.now expiresAt r expires experimental claims
            hr hkey
        rw [← after] at timers appended
        obtain ⟨r', hr', hfire, hpending⟩ := owed.expiry a timerId expiresAt rfl expires
          ⟨_, by rw [newEvents, appended.events, List.drop_left]; exact List.mem_cons_self, rfl⟩
        dsimp only at hr'
        rw [timers] at hr'
        obtain ⟨featureId, fv, useCase, hpayload, hkey'⟩ := (keyed r' hr').expiry hpending.kind
        obtain ⟨rfl, rfl⟩ := timerPayload_inj (hpending.payload.symm.trans hpayload)
        obtain rfl := eq_of_idempotencyKey_eq hr' hr (hkey'.trans hkey.symm)
        exact ⟨hfire, hpending⟩
    | deprecateVersion d timerId =>
        intro refs forced accepted r hr hkey
        obtain ⟨timers, appended⟩ :=
          @call_deprecate_taken accepts _ d timerId before.now r refs forced accepted hr hkey
        rw [← after] at timers appended
        obtain ⟨r', hr', hpending⟩ := owed.quiesce d timerId _ rfl
          ⟨_, by rw [newEvents, appended.events, List.drop_left]; exact List.mem_cons_self, rfl⟩
        dsimp only at hr'
        rw [timers] at hr'
        obtain ⟨featureId, fv, useCase, hpayload, hkey'⟩ := (keyed r' hr').quiesce hpending.kind
        obtain ⟨rfl, rfl⟩ := timerPayload_inj (hpending.payload.symm.trans hpayload)
        obtain rfl := eq_of_idempotencyKey_eq hr' hr (hkey'.trans hkey.symm)
        exact hpending
    | _ => trivial
  · intro free m hm
    obtain ⟨-, after⟩ := moves m hm
    have free := free m hm
    have effect : Effect accepts m.before.store m.after.store m.action := by
      rw [after]
      exact call_effect m.before.now m.action
    obtain ⟨new, appended, -⟩ := effect.folds
    have new_eq : newEvents m = new := by
      rw [newEvents, appended.events, List.drop_left]
    constructor
    · intro a timerId expiresAt haction expires claimed
      rw [new_eq] at claimed
      rw [haction] at free
      exact effect.expiry_kept haction expires (free expiresAt expires) appended claimed
    · intro d timerId refs haction quiesced
      rw [new_eq] at quiesced
      rw [haction] at free
      exact effect.quiesce_kept haction free appended quiesced

/-- An experiment expires and its version is deactivated. -/
def expired : List FeatureAction :=
  [.mintFeatureVersion (version "fv-1"),
    .activate (activation "fv-1" "EXPERIMENTAL" none (some 100)) "tmr-1",
    .tick 200,
    .pollDueTimers "poller" 30 10 200,
    .fireTimer "tmr-1",
    .dispatchTimerCommand (expiryKey "fv-1" "credit")]

/-- The version is tried for the same use case again. -/
def secondTrial : Activation := activation "fv-1" "EXPERIMENTAL" none (some 500)

def triedAgain : List FeatureAction := expired ++ [.activate secondTrial "tmr-2"]

theorem second_experiment_never_expires :
    ¬ ∀ m ∈ Transition.history (featureStep fun _ => true) emptyFeatures triedAgain,
      ObligationsKept m := by
  have computed : ((Transition.exec (featureStep fun _ => true) emptyFeatures expired).any fun w =>
      let s := call (fun _ => true) w.now w.store (.activate secondTrial "tmr-2")
      decide (s.events = w.store.events ++ [⟨4, "feat-1", .versionActivated "feat-1" "fv-1" "credit"
          none .activeExperimental⟩] ∧
        ∀ r ∈ s.timers.rows.rows, r.status = .fired)) = true := by
    decide +kernel
  obtain ⟨w, run, h⟩ := Option.any_eq_true _ _ |>.mp computed
  obtain ⟨activated, spent⟩ := of_decide_eq_true h
  intro kept
  obtain ⟨r, hr, -, pending⟩ := (kept _ (Transition.mem_history_of_step run rfl)).expiry
    secondTrial "tmr-2" 500 rfl rfl ⟨_, by
      rw [newEvents]
      exact (congrArg (List.drop _) activated).trans (List.drop_left) ▸ List.mem_cons_self, rfl⟩
  have unsettled := pending.unsettled
  rw [spent r hr] at unsettled
  cases unsettled

/-- Its first trial has a timer to come. -/
theorem obligations_kept_iff_expired :
    ∃ w, Transition.exec (featureStep fun _ => true) emptyFeatures expired = some w ∧
      w.store.active.rows = [] ∧
      ((∀ m ∈ Transition.history (featureStep fun _ => true) emptyFeatures expired,
          ObligationsKept m) ↔
        Transition.Along (featureStep fun _ => true) (TimerFree fun _ => true) emptyFeatures
          expired) := by
  have computed : ((Transition.exec (featureStep fun _ => true) emptyFeatures expired).any
      fun w => decide (w.store.active.rows = [])) = true := by
    decide +kernel
  obtain ⟨w, run, rows⟩ := Option.any_eq_true _ _ |>.mp computed
  exact ⟨w, run, of_decide_eq_true rows, obligations_kept_iff emptyFeatures_init⟩

end FeatureGen.Aggregates
