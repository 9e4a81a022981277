import FeatureGen.Aggregates.Features
import FeatureGen.Lib.Transition

/-! # Runs of the feature commands

Lifecycle commands and the timer runtime over one store, each call in a
transaction of its own. What a call can do to the log, to the active versions
and to the timers is said once, by `Effect`.
-/

namespace FeatureGen.Aggregates

open FeatureGen.Runtime

structure FeatureWorld where
  now : Instant
  store : FeatureStore

inductive FeatureAction where
  | tick (micros : ℕ)
  | mintFeatureVersion (version : FeatureVersion)
  | registerConsumer (consumerId featureId consumerKind consumerRef : String)
  | deregisterConsumer (featureId consumerKind consumerRef : String)
  | activate (activation : Activation) (timerId : String)
  | supersede (featureId useCase newFv : String) (expectedPrior : Option String)
  | deprecateVersion (deprecation : Deprecation) (timerId : String)
  | finalizeDeprecate (featureId featureVersionId useCase : String) (reason : Option String)
  | deactivateExpiredVersion (featureId featureVersionId useCase : String)
  | raiseMonitoringAlert (featureId : String) (featureVersionId alertRef : Option String)
  | requireRevalidation (featureId : String) (featureVersionId reason : Option String)
  | recordRevalidationOutcome (featureId outcome : String)
      (featureVersionId requestId : Option String) (newRunId : String)
  | pollDueTimers (owner : String) (leaseSeconds : ℤ) (batch : ℕ) (now : Instant)
  | fireTimer (timerId : String)
  /-- The worker runs the command a fired timer's message names. -/
  | dispatchTimerCommand (messageId : String)

/-- The store a call commits; one that raises leaves it alone. -/
def kept (s : FeatureStore) : Except FeatureFailure FeatureStore → FeatureStore
  | .error _ => s
  | .ok s' => s'

/-- The store a command commits. -/
def keptOf {α : Type} (s : FeatureStore) (result : Except FeatureFailure (FeatureStore × α)) :
    FeatureStore := kept s (result.map Prod.fst)

def call (accepts : Accepts) (now : Instant) (s : FeatureStore) : FeatureAction → FeatureStore
  | .tick _ => s
  | .mintFeatureVersion version => kept s (mintFeatureVersion accepts s version)
  | .registerConsumer consumerId featureId consumerKind consumerRef =>
      keptOf s (registerConsumerCommand accepts s consumerId featureId consumerKind consumerRef)
  | .deregisterConsumer featureId consumerKind consumerRef =>
      keptOf s (deregisterConsumerCommand accepts s featureId consumerKind consumerRef)
  | .activate activation timerId => keptOf s (applyActivation accepts s activation timerId)
  | .supersede featureId useCase newFv expectedPrior =>
      keptOf s (supersedeCommand accepts s featureId useCase newFv expectedPrior)
  | .deprecateVersion deprecation timerId =>
      keptOf s (deprecateCommand accepts s deprecation timerId now)
  | .finalizeDeprecate featureId featureVersionId useCase reason =>
      keptOf s (finalizeDeprecateCommand accepts s featureId featureVersionId useCase reason)
  | .deactivateExpiredVersion featureId featureVersionId useCase =>
      keptOf s (deactivateExpiredVersionCommand accepts s featureId featureVersionId useCase)
  | .raiseMonitoringAlert featureId featureVersionId alertRef =>
      keptOf s (raiseMonitoringAlertCommand accepts s featureId featureVersionId alertRef)
  | .requireRevalidation featureId featureVersionId reason =>
      keptOf s (requireRevalidationCommand accepts s featureId featureVersionId reason)
  | .recordRevalidationOutcome featureId outcome featureVersionId requestId newRunId =>
      keptOf s (recordRevalidationOutcomeCommand accepts s featureId outcome featureVersionId
        requestId newRunId)
  | .pollDueTimers owner leaseSeconds batch clock =>
      { s with timers := (pollDueTimers s.timers [] owner leaseSeconds batch clock).1 }
  | .fireTimer timerId =>
      -- the features' timers guard no task
      let (timers, queue, _) := fireTimer (fun _ => none) s.timers s.queue timerId now
      { s with timers := timers, queue := queue }
  | .dispatchTimerCommand messageId =>
      match findMessage s.queue messageId with
      | some row => keptOf s (dispatchTimerCommand accepts s row.payload)
      | none => s

/-- Time passes, or a call commits. -/
def FeatureAction.clock (now : Instant) : FeatureAction → Instant
  | .tick micros => now + micros
  | _ => now

def featureStep (accepts : Accepts) (w : FeatureWorld) (a : FeatureAction) : Option FeatureWorld :=
  some ⟨a.clock w.now, call accepts w.now w.store a⟩

abbrev FeatureMove := Transition.Move FeatureWorld FeatureAction

/-- A feature's table, stream and timers start empty. -/
structure FeatureInit (w : FeatureWorld) : Prop where
  events : w.store.events = []
  active : w.store.active.rows = []
  timers : w.store.timers.rows.rows = []

/-- Events that say nothing about the active versions and schedule nothing. -/
def FeaturePayload.untracked : FeaturePayload → Bool
  | .versionActivated .. | .versionSuperseded .. | .versionQuiesced .. | .versionDeprecated ..
  | .versionExpired .. => false
  | .revalidationOutcomeRecorded _ outcome featureVersionId _ =>
      outcome ≠ "deprecate" ∨ featureVersionId.isNone
  | _ => true

structure Claims (accepts : Accepts) (s : FeatureStore) (a : Activation) : Prop where
  inactive : s.holder a.featureId a.useCase ≠ some a.featureVersionId
  allowed : ∃ attrs, checkFeature s a = .ok attrs ∧
    evaluateActivationGuards attrs a.useCase a.approvalType a.policy = none
  atBase : s.holder a.featureId a.useCase = a.baseFeatureVersionId
  accepted : accepts (.versionActivated a.featureId a.featureVersionId a.useCase
    a.baseFeatureVersionId (activationStateOf a.approvalType)) = true

def Scheduled (t t' : Timers) (featureId timerId : String) (timer : NewTimer) : Prop :=
  t.insertNew (timer.row timerId "feature" featureId) = some t'

/-- Events behind the others, numbered on from them. -/
structure Appended (s s' : FeatureStore) (new : List FeatureEvent) : Prop where
  events : s'.events = s.events ++ new
  seqs : new.map (·.globalSeq) = List.range' s.nextSeq new.length
  nextSeq : s'.nextSeq = s.nextSeq + new.length

inductive Effect (accepts : Accepts) (s s' : FeatureStore) : FeatureAction → Prop where
  /-- Denied, raised, or nothing to do. -/
  | noted {a : FeatureAction} (new : List FeatureEvent)
      (untracked : ∀ e ∈ new, e.payload.untracked = true)
      (active : s'.active = s.active) (timers : s'.timers = s.timers)
      (events : Appended s s' new) : Effect accepts s s' a
  | activated (a : Activation) (timerId : String) (claims : Claims accepts s a)
      (active : ∀ k, s'.active.get? k = if (a.featureId, a.useCase) = k then
        some ⟨a.featureId, a.useCase, a.featureVersionId, activationStateOf a.approvalType,
          s.nextSeq⟩ else s.active.get? k)
      (timers : s'.timers = s.timers)
      (unscheduled : activationStateOf a.approvalType = .activeExperimental → a.expiresAt = none)
      (events : Appended s s'
        [⟨s.nextSeq, a.featureId, .versionActivated a.featureId
        a.featureVersionId a.useCase a.baseFeatureVersionId (activationStateOf a.approvalType)⟩]) :
      Effect accepts s s' (.activate a timerId)
  | scheduled (a : Activation) (timerId : String) (expiresAt : Instant)
      (claims : Claims accepts s a)
      (active : ∀ k, s'.active.get? k = if (a.featureId, a.useCase) = k then
        some ⟨a.featureId, a.useCase, a.featureVersionId, .activeExperimental, s.nextSeq⟩
          else s.active.get? k)
      (experimental : activationStateOf a.approvalType = .activeExperimental)
      (expires : a.expiresAt = some expiresAt)
      (timers : Scheduled s.timers s'.timers a.featureId timerId
        (expiryTimer a.featureId a.featureVersionId a.useCase expiresAt))
      (events : Appended s s'
        [⟨s.nextSeq, a.featureId, .versionActivated a.featureId
        a.featureVersionId a.useCase a.baseFeatureVersionId .activeExperimental⟩]) :
      Effect accepts s s' (.activate a timerId)
  | superseded (featureId useCase newFv prior : String) (expectedPrior : Option String)
      (held : s.holder featureId useCase = some prior)
      (active : ∀ k, s'.active.get? k = if (featureId, useCase) = k then
        some ⟨featureId, useCase, newFv, .production, s.nextSeq⟩ else s.active.get? k)
      (timers : s'.timers = s.timers)
      (events : Appended s s'
        [⟨s.nextSeq, featureId, .versionSuperseded featureId newFv useCase (some prior)⟩]) :
      Effect accepts s s' (.supersede featureId useCase newFv expectedPrior)
  | quiesced (a : Deprecation) (timerId : String) (fireAt : Instant)
      (active : s'.active = s.active)
      (timers : Scheduled s.timers s'.timers a.featureId timerId
        (quiesceTimer a.featureId a.featureVersionId a.useCase fireAt))
      (refs : activeRefs s a.featureId ≠ []) (forced : a.forceQuiesce = true)
      (accepted : accepts (a.quiesced (activeRefs s a.featureId)) = true)
      (events : Appended s s'
        [⟨s.nextSeq, a.featureId, a.quiesced (activeRefs s a.featureId)⟩]) :
      Effect accepts s s' (.deprecateVersion a timerId)
  | deprecatedNow {a : FeatureAction} (featureId featureVersionId useCase via : String)
      (reason : Option String)
      (direct : (∃ d timerId, a = .deprecateVersion d timerId ∧ d.featureId = featureId ∧
          d.featureVersionId = featureVersionId ∧ d.useCase = useCase ∧ d.reason = reason ∧
          activeRefs s featureId = [] ∧ via = "direct") ∨
        s.holder featureId useCase = some featureVersionId)
      (accepted : accepts (.versionDeprecated featureId featureVersionId useCase reason via) = true)
      (active : ∀ k, s'.active.get? k = (s.active.get? k).map fun r =>
        if r.holds featureId useCase featureVersionId then r.markDeprecated else r)
      (timers : s'.timers = s.timers)
      (events : Appended s s'
        [⟨s.nextSeq, featureId,
        .versionDeprecated featureId featureVersionId useCase reason via⟩]) :
      Effect accepts s s' a
  | outcome {a : FeatureAction} (featureId featureVersionId : String) (newRunId : Option String)
      (matched : ∃ r ∈ s.active, r.ofVersion featureId featureVersionId = true)
      (active : ∀ k, s'.active.get? k = (s.active.get? k).map fun r =>
        if r.ofVersion featureId featureVersionId then r.markDeprecated else r)
      (timers : s'.timers = s.timers)
      (events : Appended s s'
        [⟨s.nextSeq, featureId,
        .revalidationOutcomeRecorded featureId "deprecate" (some featureVersionId) newRunId⟩]) :
      Effect accepts s s' a
  | expired {a : FeatureAction} (featureId featureVersionId useCase : String)
      (held : s.holder featureId useCase = some featureVersionId)
      (active : ∀ k, s'.active.get? k = if (featureId, useCase) = k then none
        else s.active.get? k)
      (timers : s'.timers = s.timers)
      (events : Appended s s'
        [⟨s.nextSeq, featureId, .versionExpired featureId featureVersionId useCase⟩]) :
      Effect accepts s s' a
  /-- The timer runtime. -/
  | ticked {a : FeatureAction} (active : s'.active = s.active) (events : Appended s s' [])
      (timers : s.timers.Follow s'.timers)
      (kept : ∀ r' ∈ s'.timers, ∃ r ∈ s.timers, r.Follows r') : Effect accepts s s' a

theorem bind_eq_ok {ε α β : Type} {x : Except ε α} {f : α → Except ε β} {b : β} :
    (x >>= f) = .ok b ↔ ∃ a, x = .ok a ∧ f a = .ok b := by
  cases x with
  | error e => simp [bind, Except.bind]
  | ok a => simp [bind, Except.bind]

section Commands

variable {accepts : Accepts} {s s' : FeatureStore}

theorem append_eq_ok {aggregateId : String} {payload : FeaturePayload}
    {r : FeatureStore × FeatureEvent} :
    s.append accepts aggregateId payload = .ok r ↔ accepts payload = true ∧
      r = ({ s with
        events := s.events ++ [⟨s.nextSeq, aggregateId, payload⟩]
        nextSeq := s.nextSeq + 1 }, ⟨s.nextSeq, aggregateId, payload⟩) := by
  unfold FeatureStore.append
  split
  · next accepted => simp [accepted, eq_comm]
  · next refused => simp [refused]

theorem Appended.single {e : FeatureEvent} (events : s'.events = s.events ++ [e])
    (seq : e.globalSeq = s.nextSeq) (nextSeq : s'.nextSeq = s.nextSeq + 1) :
    Appended s s' [e] :=
  ⟨events, by simp [seq], nextSeq⟩

theorem Appended.refl (s : FeatureStore) : Appended s s [] := ⟨by simp, rfl, rfl⟩

theorem Effect.refl {a : FeatureAction} : Effect accepts s s a :=
  .noted [] (by simp) rfl rfl (Appended.refl s)

theorem effect_note {α : Type} {a : FeatureAction} {aggregateId : String}
    {payload : FeaturePayload} {f : FeatureStore × FeatureEvent → Except FeatureFailure
      (FeatureStore × α)} {result : α} (untracked : payload.untracked = true)
    (h : (s.append accepts aggregateId payload >>= f) = .ok (s', result))
    (returns : ∀ s evt, ∃ x, f (s, evt) = .ok (s, x)) :
    Effect accepts s s' a := by
  obtain ⟨_, happend, h⟩ := bind_eq_ok.mp h
  obtain ⟨-, rfl⟩ := append_eq_ok.mp happend
  obtain ⟨x, hx⟩ := returns _ _
  obtain rfl := congrArg Prod.fst (Except.ok.inj (hx.symm.trans h))
  exact .noted [⟨s.nextSeq, aggregateId, payload⟩] (by simpa using untracked) rfl rfl
    (Appended.single rfl rfl rfl)

theorem holder_eq_some {featureId useCase featureVersionId : String} :
    s.holder featureId useCase = some featureVersionId ↔
      ∃ row, s.active.get? (featureId, useCase) = some row ∧
        row.featureVersionId = featureVersionId := by
  simp [FeatureStore.holder, Option.map_eq_some_iff]

theorem get?_claimed {t : Table ActiveVersion.slot} {featureId useCase newFv prior : String}
    {state : ActivationState} {seq : ℕ} (held : (t.get? (featureId, useCase)).map
      (·.featureVersionId) = some prior) (k : String × String) :
    ((t.updateWhere (ActiveVersion.holds featureId useCase prior)
        (ActiveVersion.claimedBy newFv state 0)
        (ActiveVersion.claimedBy_slot newFv state 0)).updateWhere
      (fun r => r.slot = (featureId, useCase)) (ActiveVersion.withSeq seq)
      (ActiveVersion.withSeq_slot seq)).get? k =
      if (featureId, useCase) = k then some ⟨featureId, useCase, newFv, state, seq⟩
      else t.get? k := by
  rw [Table.get?_updateWhere, Table.get?_updateWhere, Option.map_map]
  obtain ⟨row, hrow, hversion⟩ := Option.map_eq_some_iff.mp held
  split
  · next hk =>
      subst hk
      have hslot : row.slot = (featureId, useCase) := Table.key_of_get? hrow
      have holds : row.holds featureId useCase prior = true := by
        simp [ActiveVersion.holds, hslot, hversion]
      rw [hrow, Option.map_some]
      simp only [Function.comp_apply, holds, if_true, ActiveVersion.claimedBy_slot, hslot,
        decide_true]
      simp only [ActiveVersion.slot, Prod.mk.injEq] at hslot
      simp [ActiveVersion.withSeq, ActiveVersion.claimedBy, hslot.1, hslot.2]
  · next hk =>
      cases hget : t.get? k with
      | none => rfl
      | some r =>
          have hslot : r.slot = k := Table.key_of_get? hget
          have other : r.slot ≠ (featureId, useCase) := fun h => hk (h.symm.trans hslot)
          simp [ActiveVersion.holds, other]

theorem get?_inserted {t t' : Table ActiveVersion.slot} {featureId useCase newFv : String}
    {state : ActivationState} {seq : ℕ}
    (h : t.insert? ⟨featureId, useCase, newFv, state, 0⟩ = some t') (k : String × String) :
    (t'.updateWhere (fun r => r.slot = (featureId, useCase)) (ActiveVersion.withSeq seq)
      (ActiveVersion.withSeq_slot seq)).get? k =
      if (featureId, useCase) = k then some ⟨featureId, useCase, newFv, state, seq⟩
      else t.get? k := by
  have inserted := @Table.get?_insert? _ _ ActiveVersion.slot _ t t'
    ⟨featureId, useCase, newFv, state, 0⟩ k h
  rw [Table.get?_updateWhere, inserted]
  by_cases hk : (featureId, useCase) = k
  · subst hk
    simp [ActiveVersion.slot, ActiveVersion.withSeq]
  · have other : ActiveVersion.slot ⟨featureId, useCase, newFv, state, 0⟩ ≠ k := hk
    rw [if_neg other, if_neg hk]
    cases hget : t.get? k with
    | none => rfl
    | some r =>
        have hslot : r.slot = k := Table.key_of_get? hget
        have hne : r.slot ≠ (featureId, useCase) := fun h => hk (h.symm.trans hslot)
        simp [hne]

theorem insertFeatureTimer_ok {featureId timerId : String} {timer : NewTimer}
    (h : insertFeatureTimer s featureId timerId timer = .ok s') :
    ∃ timers, Scheduled s.timers timers featureId timerId timer ∧
      s' = { s with timers := timers } := by
  unfold insertFeatureTimer at h
  split at h
  · next timers hins =>
      cases h
      exact ⟨timers, hins, rfl⟩
  · cases h

theorem casClaimSlot_some {featureId useCase newFv : String} {base : Option String}
    {state : ActivationState} {claimed : FeatureStore}
    (h : casClaimSlot s featureId useCase newFv base state 0 = some claimed) :
    s.holder featureId useCase = base ∧ (∃ active, claimed = { s with active := active } ∧
      ∀ seq k, (active.updateWhere (fun r => r.slot = (featureId, useCase))
        (ActiveVersion.withSeq seq) (ActiveVersion.withSeq_slot seq)).get? k =
          if (featureId, useCase) = k then some ⟨featureId, useCase, newFv, state, seq⟩
          else s.active.get? k) := by
  unfold casClaimSlot at h
  split at h
  · obtain ⟨active, hins, rfl⟩ := Option.map_eq_some_iff.mp h
    constructor
    · have free : s.active.get? (featureId, useCase) = none :=
        Table.get?_eq_none.mpr (Table.rows_of_insert? hins).2
      simp [FeatureStore.holder, free]
    · exact ⟨active, rfl, fun seq k => get?_inserted hins k⟩
  · next base =>
      split at h
      · next held =>
          cases h
          exact ⟨held, _, rfl, fun seq k => get?_claimed held k⟩
      · cases h

theorem casClaimSlot_isSome {featureId useCase newFv : String} {base : Option String}
    {state : ActivationState} {seq : ℕ} (atBase : s.holder featureId useCase = base) :
    (casClaimSlot s featureId useCase newFv base state seq).isSome := by
  unfold casClaimSlot
  split
  · have free : s.active.get? (featureId, useCase) = none := by
      simpa [FeatureStore.holder] using atBase
    rw [Option.isSome_map, Option.isSome_iff_ne_none]
    intro hnone
    obtain ⟨x, hx, hkey⟩ := Table.insert?_eq_none.mp hnone
    exact Table.get?_eq_none.mp free x hx hkey
  · simp [atBase]

theorem recordActivation_effect {claimed : FeatureStore} {active : Table ActiveVersion.slot}
    {a : Activation} {timerId : String} {result : ActivationResult}
    (claims : accepts (.versionActivated a.featureId a.featureVersionId a.useCase
      a.baseFeatureVersionId (activationStateOf a.approvalType)) = true → Claims accepts s a)
    (heq : claimed = { s with active := active })
    (numbered : ∀ seq k, (active.updateWhere (fun r => r.slot = (a.featureId, a.useCase))
      (ActiveVersion.withSeq seq) (ActiveVersion.withSeq_slot seq)).get? k =
        if (a.featureId, a.useCase) = k then some ⟨a.featureId, a.useCase, a.featureVersionId,
          activationStateOf a.approvalType, seq⟩ else s.active.get? k)
    (h : recordActivation accepts claimed a timerId = .ok (s', result)) :
    Effect accepts s s' (.activate a timerId) := by
  subst heq
  obtain ⟨_, happend, h⟩ := bind_eq_ok.mp h
  obtain ⟨accepted, rfl⟩ := append_eq_ok.mp happend
  dsimp only at h
  split at h
  · next expiresAt experimental expires =>
      obtain ⟨_, hschedule, h⟩ := bind_eq_ok.mp h
      obtain ⟨timers, inserted, rfl⟩ := insertFeatureTimer_ok hschedule
      cases h
      rw [experimental] at numbered
      refine .scheduled a timerId expiresAt (claims accepted) (numbered s.nextSeq) experimental
        expires inserted (Appended.single ?_ rfl rfl)
      rw [← experimental]
      rfl
  · next unscheduled =>
      cases h
      refine .activated a timerId (claims accepted) (numbered s.nextSeq) rfl ?_
        (Appended.single rfl rfl rfl)
      intro experimental
      cases hexpires : a.expiresAt with
      | none => rfl
      | some expiresAt => exact (unscheduled expiresAt experimental hexpires).elim

theorem applyActivation_effect {a : Activation} {timerId : String} {result : ActivationResult}
    (h : applyActivation accepts s a timerId = .ok (s', result)) :
    Effect accepts s s' (.activate a timerId) := by
  unfold applyActivation at h
  dsimp only at h
  split at h
  · cases h
    exact .refl
  · next inactive =>
      obtain ⟨attrs, hattrs, h⟩ := bind_eq_ok.mp h
      split at h
      · next failure _ => exact effect_note rfl h fun _ _ => ⟨_, rfl⟩
      · next allowed =>
          split at h
          · exact effect_note rfl h fun _ _ => ⟨_, rfl⟩
          · split at h
            · exact effect_note rfl h fun _ _ => ⟨_, rfl⟩
            · next claimed hclaim =>
                obtain ⟨atBase, active, heq, numbered⟩ := casClaimSlot_some hclaim
                exact recordActivation_effect
                  (fun accepted => ⟨inactive, ⟨attrs, hattrs, allowed⟩, atBase, accepted⟩)
                  heq numbered h

theorem deactivateExpiredVersion_effect {featureId featureVersionId useCase : String}
    {a : FeatureAction} {result : FeatureResult}
    (h : deactivateExpiredVersionCommand accepts s featureId featureVersionId useCase =
      .ok (s', result)) : Effect accepts s s' a := by
  unfold deactivateExpiredVersionCommand at h
  split at h
  · cases h
    exact .refl
  · next row hrow =>
      split at h
      · cases h
        exact .refl
      · next holds =>
          obtain ⟨_, happend, h⟩ := bind_eq_ok.mp h
          obtain ⟨-, rfl⟩ := append_eq_ok.mp happend
          cases h
          push Not at holds
          refine .expired featureId featureVersionId useCase
            (holder_eq_some.mpr ⟨row, hrow, holds.1⟩) ?_ rfl (Appended.single rfl rfl rfl)
          intro k
          dsimp only
          rw [Table.get?_deleteWhere]
          cases hget : s.active.get? k with
          | none => simp
          | some r =>
              have hslot : r.slot = k := Table.key_of_get? hget
              by_cases hk : (featureId, useCase) = k
              · simp [hslot, hk]
              · simp [hslot, hk, Ne.symm hk]

theorem supersede_effect {featureId useCase newFv : String} {expectedPrior : Option String}
    {result : FeatureResult}
    (h : supersedeCommand accepts s featureId useCase newFv expectedPrior = .ok (s', result)) :
    Effect accepts s s' (.supersede featureId useCase newFv expectedPrior) := by
  unfold supersedeCommand at h
  split at h
  · cases h
    exact .refl
  · next prior _ =>
      obtain ⟨attrs, -, h⟩ := bind_eq_ok.mp h
      split at h
      · exact effect_note rfl h fun _ _ => ⟨_, rfl⟩
      · split at h
        · cases h
          exact .refl
        · next atPrior =>
            split at h
            · obtain ⟨_, happend, h⟩ := bind_eq_ok.mp h
              obtain ⟨-, rfl⟩ := append_eq_ok.mp happend
              cases h
              have held := not_not.mp atPrior
              refine .superseded featureId useCase newFv prior expectedPrior held
                (fun k => get?_claimed held k) rfl (Appended.single ?_ rfl rfl)
              rw [← held]
              rfl
            · cases h

theorem deprecateNow_effect {featureId featureVersionId useCase via : String}
    {reason : Option String} {a : FeatureAction} {result : FeatureResult}
    (direct : (∃ d timerId, a = .deprecateVersion d timerId ∧ d.featureId = featureId ∧
        d.featureVersionId = featureVersionId ∧ d.useCase = useCase ∧ d.reason = reason ∧
        activeRefs s featureId = [] ∧ via = "direct") ∨
      s.holder featureId useCase = some featureVersionId)
    (h : deprecateNow accepts s featureId featureVersionId useCase reason via = .ok (s', result)) :
    Effect accepts s s' a := by
  obtain ⟨_, happend, h⟩ := bind_eq_ok.mp h
  obtain ⟨accepted, rfl⟩ := append_eq_ok.mp happend
  cases h
  exact .deprecatedNow featureId featureVersionId useCase via reason direct accepted
    (fun k => @Table.get?_updateWhere _ _ _ _ s.active _ _ ActiveVersion.markDeprecated_slot k) rfl
    (Appended.single rfl rfl rfl)

theorem deprecate_effect {d : Deprecation} {timerId : String} {clock : Instant}
    {result : FeatureResult}
    (h : deprecateCommand accepts s d timerId clock = .ok (s', result)) :
    Effect accepts s s' (.deprecateVersion d timerId) := by
  unfold deprecateCommand at h
  dsimp only at h
  split at h
  · cases h
    exact .refl
  · next unforced =>
      split at h
      · next refs =>
          obtain ⟨_, happend, h⟩ := bind_eq_ok.mp h
          obtain ⟨accepted, rfl⟩ := append_eq_ok.mp happend
          obtain ⟨_, hinsert, h⟩ := bind_eq_ok.mp h
          obtain ⟨timers, inserted, rfl⟩ := insertFeatureTimer_ok hinsert
          cases h
          have forced : d.forceQuiesce = true := by
            by_contra hforce
            exact unforced ⟨refs, by simpa using hforce⟩
          exact .quiesced d timerId _ rfl inserted refs forced accepted (Appended.single rfl rfl rfl)
      · next none =>
          exact deprecateNow_effect
            (Or.inl ⟨d, timerId, rfl, rfl, rfl, rfl, rfl, not_not.mp none, rfl⟩) h

theorem finalizeDeprecate_effect {featureId featureVersionId useCase : String}
    {reason : Option String} {a : FeatureAction} {result : FeatureResult}
    (h : finalizeDeprecateCommand accepts s featureId featureVersionId useCase reason =
      .ok (s', result)) : Effect accepts s s' a := by
  unfold finalizeDeprecateCommand at h
  split at h
  · cases h
    exact .refl
  · next row hrow =>
      split at h
      · cases h
        exact .refl
      · obtain ⟨hget, hversion⟩ := Option.filter_eq_some_iff.mp hrow
        exact deprecateNow_effect
          (Or.inr (holder_eq_some.mpr ⟨row, hget, of_decide_eq_true hversion⟩)) h

theorem recordOutcome_effect {featureId outcome newRunId : String}
    {featureVersionId requestId : Option String} {a : FeatureAction} {result : FeatureResult}
    (other : outcome ≠ "deprecate")
    (h : recordOutcome accepts s featureId outcome featureVersionId requestId newRunId =
      .ok (s', result)) : Effect accepts s s' a := by
  unfold recordOutcome at h
  split at h
  · obtain ⟨_, hcreated, h⟩ := bind_eq_ok.mp h
    obtain ⟨-, rfl⟩ := append_eq_ok.mp hcreated
    obtain ⟨_, hrecorded, h⟩ := bind_eq_ok.mp h
    obtain ⟨-, rfl⟩ := append_eq_ok.mp hrecorded
    cases h
    refine .noted [_, _] ?_ rfl rfl ⟨List.append_assoc _ _ _, rfl, rfl⟩
    simp [FeaturePayload.untracked, other]
  · exact effect_note (by simp [FeaturePayload.untracked, other]) h fun _ _ => ⟨_, rfl⟩

theorem recordRevalidationOutcome_effect {featureId outcome newRunId : String}
    {featureVersionId requestId : Option String} {a : FeatureAction} {result : FeatureResult}
    (h : recordRevalidationOutcomeCommand accepts s featureId outcome featureVersionId requestId
      newRunId = .ok (s', result)) : Effect accepts s s' a := by
  unfold recordRevalidationOutcomeCommand at h
  split at h
  · cases h
    exact .refl
  · split at h
    · next deprecates =>
        split at h
        · cases h
          exact .refl
        · next fv =>
            split at h
            · next matched =>
                subst deprecates
                obtain ⟨_, happend, h⟩ := bind_eq_ok.mp h
                obtain ⟨-, rfl⟩ := append_eq_ok.mp happend
                cases h
                obtain ⟨row, hrow, hof⟩ := List.any_eq_true.mp matched
                exact .outcome featureId fv none ⟨row, hrow, hof⟩
                  (fun k => @Table.get?_updateWhere _ _ _ _ s.active _ _
                    ActiveVersion.markDeprecated_slot k) rfl (Appended.single rfl rfl rfl)
            · cases h
              exact .refl
    · next other => exact recordOutcome_effect other h

theorem dispatchTimerCommand_effect {payload : JsonObject} {a : FeatureAction}
    {result : FeatureResult}
    (h : dispatchTimerCommand accepts s payload = .ok (s', result)) : Effect accepts s s' a := by
  unfold dispatchTimerCommand at h
  split at h
  · split at h
    · exact deactivateExpiredVersion_effect h
    · split at h
      · exact finalizeDeprecate_effect h
      · cases h
  · cases h

theorem effect_keptOf {α : Type} {a : FeatureAction}
    {result : Except FeatureFailure (FeatureStore × α)}
    (h : ∀ s' r, result = .ok (s', r) → Effect accepts s s' a) :
    Effect accepts s (keptOf s result) a := by
  cases hresult : result with
  | error failure => exact .refl
  | ok returned => exact h returned.1 returned.2 hresult

theorem call_effect (now : Instant) (a : FeatureAction) : Effect accepts s (call accepts now s a) a := by
  cases a with
  | tick micros => exact .refl
  | mintFeatureVersion version =>
      simp only [call]
      cases hmint : mintFeatureVersion accepts s version with
      | error failure => exact .refl
      | ok minted =>
          unfold mintFeatureVersion at hmint
          split at hmint
          · cases hmint
          · obtain ⟨_, happend, hmint⟩ := bind_eq_ok.mp hmint
            obtain ⟨-, rfl⟩ := append_eq_ok.mp happend
            cases hmint
            exact .noted [_] (by simp [FeaturePayload.untracked]) rfl rfl
              (Appended.single rfl rfl rfl)
  | registerConsumer consumerId featureId consumerKind consumerRef =>
      apply effect_keptOf
      intro s' r h
      unfold registerConsumerCommand at h
      split at h
      · obtain ⟨_, happend, h⟩ := bind_eq_ok.mp h
        obtain ⟨-, rfl⟩ := append_eq_ok.mp happend
        cases h
        exact .noted [_] (by simp [FeaturePayload.untracked]) rfl rfl (Appended.single rfl rfl rfl)
      · cases h
  | deregisterConsumer featureId consumerKind consumerRef =>
      apply effect_keptOf
      intro s' r h
      obtain ⟨_, happend, h⟩ := bind_eq_ok.mp h
      obtain ⟨-, rfl⟩ := append_eq_ok.mp happend
      cases h
      exact .noted [_] (by simp [FeaturePayload.untracked]) rfl rfl (Appended.single rfl rfl rfl)
  | activate activation timerId => exact effect_keptOf fun _ _ h => applyActivation_effect h
  | supersede featureId useCase newFv expectedPrior =>
      exact effect_keptOf fun _ _ h => supersede_effect h
  | deprecateVersion deprecation timerId => exact effect_keptOf fun _ _ h => deprecate_effect h
  | finalizeDeprecate featureId featureVersionId useCase reason =>
      exact effect_keptOf fun _ _ h => finalizeDeprecate_effect h
  | deactivateExpiredVersion featureId featureVersionId useCase =>
      exact effect_keptOf fun _ _ h => deactivateExpiredVersion_effect h
  | raiseMonitoringAlert featureId featureVersionId alertRef =>
      exact effect_keptOf fun s' r h => effect_note rfl h fun _ _ => ⟨_, rfl⟩
  | requireRevalidation featureId featureVersionId reason =>
      apply effect_keptOf
      intro s' r h
      unfold requireRevalidationCommand at h
      split at h
      · cases h
        exact .refl
      · exact effect_note rfl h fun _ _ => ⟨_, rfl⟩
  | recordRevalidationOutcome featureId outcome featureVersionId requestId newRunId =>
      exact effect_keptOf fun _ _ h => recordRevalidationOutcome_effect h
  | pollDueTimers owner leaseSeconds batch clock =>
      have follow := follow_pollDueTimers s.timers [] owner leaseSeconds batch clock
      exact .ticked rfl ⟨by simp [call], rfl, rfl⟩ follow fun r' hr' =>
        follow.exists_of_ids (ids_pollDueTimers _ _ _ _ _ _) hr'
  | fireTimer timerId =>
      have effect := @fireTimer_effect (fun _ => none) s.timers s.queue timerId now
      exact .ticked rfl ⟨by simp [call], rfl, rfl⟩ effect.follow fun r' hr' =>
        effect.follow.exists_of_ids effect.ids hr'
  | dispatchTimerCommand messageId =>
      simp only [call]
      split
      · exact effect_keptOf fun _ _ h => dispatchTimerCommand_effect h
      · exact .refl

end Commands

end FeatureGen.Aggregates
