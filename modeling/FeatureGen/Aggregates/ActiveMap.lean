import Mathlib
import FeatureGen.Aggregates.FeatureRuns

/-! # The active versions as a fold

The table of active versions is a fold of the feature events, whatever the
commands did. What the fold cannot promise is that each event is true of the
table: a direct deprecation records its event without looking at the slot.

`apply_activation` answers from four exits: a short-cut for a version its slot
holds already, a refusal by a guard, a base that is not the slot's, and a claim.
The short-cut looks at the version and not at its state.
-/

namespace FeatureGen.Aggregates

open FeatureGen.Runtime

/-- The active versions by slot. -/
abbrev ActiveMap := String × String → Option ActiveVersion

def FeatureStore.activeMap (s : FeatureStore) : ActiveMap := s.active.get?

def ActiveMap.apply (map : ActiveMap) (e : FeatureEvent) : ActiveMap :=
  match e.payload with
  | .versionActivated featureId fv useCase _ state => fun k =>
      if (featureId, useCase) = k then some ⟨featureId, useCase, fv, state, e.globalSeq⟩ else map k
  | .versionSuperseded featureId fv useCase _ => fun k =>
      if (featureId, useCase) = k then some ⟨featureId, useCase, fv, .production, e.globalSeq⟩
      else map k
  | .versionDeprecated featureId fv useCase _ _ => fun k =>
      (map k).map fun r => if r.holds featureId useCase fv then r.markDeprecated else r
  | .versionExpired featureId _ useCase => fun k => if (featureId, useCase) = k then none else map k
  | .revalidationOutcomeRecorded featureId "deprecate" (some fv) _ => fun k =>
      (map k).map fun r => if r.ofVersion featureId fv then r.markDeprecated else r
  | _ => map

def foldActive (events : List FeatureEvent) : ActiveMap := events.foldl ActiveMap.apply fun _ => none

def FeatureEvent.holdsOf (e : FeatureEvent) (map : ActiveMap) : Prop :=
  match e.payload with
  | .versionActivated featureId fv useCase _ state =>
      map (featureId, useCase) = some ⟨featureId, useCase, fv, state, e.globalSeq⟩
  | .versionSuperseded featureId fv useCase _ =>
      map (featureId, useCase) = some ⟨featureId, useCase, fv, .production, e.globalSeq⟩
  | .versionDeprecated featureId fv useCase _ _ =>
      ∃ seq, map (featureId, useCase) = some ⟨featureId, useCase, fv, .deprecated, seq⟩
  | .versionExpired featureId _ useCase => map (featureId, useCase) = none
  | .revalidationOutcomeRecorded featureId "deprecate" (some fv) _ =>
      ∃ useCase seq, map (featureId, useCase) = some ⟨featureId, useCase, fv, .deprecated, seq⟩
  | _ => True

def newEvents (m : FeatureMove) : List FeatureEvent :=
  m.after.store.events.drop m.before.store.events.length

structure MapAgrees (m : FeatureMove) : Prop where
  ordered : m.after.store.events.Pairwise fun e e' => e.globalSeq < e'.globalSeq
  /-- The table is the fold of the events. -/
  fold : m.after.store.activeMap = foldActive m.after.store.events
  /-- The move's change is that of its own events. -/
  accounted : m.after.store.activeMap = (newEvents m).foldl ActiveMap.apply m.before.store.activeMap
  /-- What the move's events say is so. -/
  reflected : ∀ e ∈ newEvents m, e.holdsOf m.after.store.activeMap

/-- A direct deprecation that is recorded finds its version in the slot. -/
def DeprecatesHeld (accepts : Accepts) (w : FeatureWorld) : FeatureAction → Prop
  | .deprecateVersion d _ => activeRefs w.store d.featureId = [] →
      accepts (.versionDeprecated d.featureId d.featureVersionId d.useCase d.reason "direct") = true →
      w.store.holder d.featureId d.useCase = some d.featureVersionId
  | _ => True

section Fold

variable {accepts : Accepts} {s s' : FeatureStore} {a : FeatureAction}

theorem ActiveMap.apply_untracked {map : ActiveMap} {e : FeatureEvent}
    (h : e.payload.untracked = true) : map.apply e = map := by
  obtain ⟨seq, aggregateId, payload⟩ := e
  cases payload with
  | revalidationOutcomeRecorded featureId outcome featureVersionId newRunId =>
      cases featureVersionId with
      | none => simp [ActiveMap.apply]
      | some fv =>
          have other : outcome ≠ "deprecate" := by simpa [FeaturePayload.untracked] using h
          simp only [ActiveMap.apply]
          split <;> simp_all
  | versionActivated | versionSuperseded | versionQuiesced | versionDeprecated | versionExpired =>
      cases h
  | _ => rfl

theorem foldl_untracked {map : ActiveMap} {new : List FeatureEvent}
    (h : ∀ e ∈ new, e.payload.untracked = true) : new.foldl ActiveMap.apply map = map := by
  induction new generalizing map with
  | nil => rfl
  | cons e new ih =>
      rw [List.foldl_cons, ActiveMap.apply_untracked (h e List.mem_cons_self)]
      exact ih fun e' he' => h e' (List.mem_cons_of_mem _ he')

theorem Effect.folds (h : Effect accepts s s' a) :
    ∃ new, Appended s s' new ∧ s'.activeMap = new.foldl ActiveMap.apply s.activeMap := by
  cases h with
  | noted new untracked active timers events =>
      refine ⟨new, events, ?_⟩
      rw [foldl_untracked untracked, FeatureStore.activeMap, active]
      rfl
  | activated a timerId claims active timers unscheduled events => exact ⟨_, events, funext active⟩
  | scheduled a timerId expiresAt claims active experimental expires timers events =>
      exact ⟨_, events, funext active⟩
  | superseded featureId useCase newFv prior expectedPrior held active timers events =>
      exact ⟨_, events, funext active⟩
  | quiesced a timerId fireAt active timers refs forced accepted events =>
      exact ⟨_, events, congrArg Table.get? active⟩
  | deprecatedNow featureId fv useCase via reason direct accepted active timers events =>
      exact ⟨_, events, funext active⟩
  | outcome featureId fv newRunId matched active timers events => exact ⟨_, events, funext active⟩
  | expired featureId fv useCase held active timers events => exact ⟨_, events, funext active⟩
  | ticked active events timers kept => exact ⟨_, events, congrArg Table.get? active⟩

theorem Appended.unique {new new' : List FeatureEvent} (h : Appended s s' new)
    (h' : Appended s s' new') : new' = new :=
  List.append_cancel_left (h'.events.symm.trans h.events)

theorem get?_holder {featureId useCase fv : String}
    (h : s.holder featureId useCase = some fv) : ∃ state seq,
      s.active.get? (featureId, useCase) = some ⟨featureId, useCase, fv, state, seq⟩ := by
  obtain ⟨⟨f, u, version, state, seq⟩, hrow, rfl⟩ := holder_eq_some.mp h
  have hslot := Table.key_of_get? hrow
  simp only [ActiveVersion.slot, Prod.mk.injEq] at hslot
  obtain ⟨rfl, rfl⟩ := hslot
  exact ⟨state, seq, hrow⟩

theorem Effect.reflected (h : Effect accepts s s' a)
    (held : ∀ d timerId, a = .deprecateVersion d timerId → activeRefs s d.featureId = [] →
      accepts (.versionDeprecated d.featureId d.featureVersionId d.useCase d.reason "direct") = true →
      s.holder d.featureId d.useCase = some d.featureVersionId)
    {new : List FeatureEvent} (appended : Appended s s' new) :
    ∀ e ∈ new, e.holdsOf s'.activeMap := by
  intro e he
  cases h with
  | noted new' untracked active timers events =>
      obtain rfl := events.unique appended
      have hu := untracked e he
      obtain ⟨seq, aggregateId, payload⟩ := e
      cases payload with
      | revalidationOutcomeRecorded featureId outcome featureVersionId newRunId =>
          cases featureVersionId with
          | none => simp [FeatureEvent.holdsOf]
          | some fv =>
              have other : outcome ≠ "deprecate" := by simpa [FeaturePayload.untracked] using hu
              simp only [FeatureEvent.holdsOf]
              split <;> simp_all
      | versionActivated | versionSuperseded | versionQuiesced | versionDeprecated
      | versionExpired => cases hu
      | _ => trivial
  | activated a timerId claims active timers unscheduled events =>
      obtain rfl := events.unique appended
      obtain rfl := List.mem_singleton.mp he
      exact (active _).trans (if_pos rfl)
  | scheduled a timerId expiresAt claims active experimental expires timers events =>
      obtain rfl := events.unique appended
      obtain rfl := List.mem_singleton.mp he
      exact (active _).trans (if_pos rfl)
  | superseded featureId useCase newFv prior expectedPrior held active timers events =>
      obtain rfl := events.unique appended
      obtain rfl := List.mem_singleton.mp he
      exact (active _).trans (if_pos rfl)
  | quiesced a timerId fireAt active timers refs forced accepted events =>
      obtain rfl := events.unique appended
      obtain rfl := List.mem_singleton.mp he
      trivial
  | deprecatedNow featureId fv useCase via reason direct accepted active timers events =>
      obtain rfl := events.unique appended
      obtain rfl := List.mem_singleton.mp he
      have inSlot : s.holder featureId useCase = some fv := by
        rcases direct with ⟨d, timerId, haction, rfl, rfl, rfl, rfl, none, rfl⟩ | inSlot
        · exact held d timerId haction none accepted
        · exact inSlot
      obtain ⟨state, seq, hrow⟩ := get?_holder inSlot
      refine ⟨seq, (active _).trans ?_⟩
      rw [hrow]
      simp [ActiveVersion.holds, ActiveVersion.slot, ActiveVersion.markDeprecated]
  | outcome featureId fv newRunId matched active timers events =>
      obtain rfl := events.unique appended
      obtain rfl := List.mem_singleton.mp he
      obtain ⟨⟨f, useCase, version, state, seq⟩, hrow, hof⟩ := matched
      obtain ⟨rfl, rfl⟩ := of_decide_eq_true hof
      refine ⟨useCase, seq, (active _).trans ?_⟩
      have hget := Table.get?_key hrow
      simp only [ActiveVersion.slot] at hget
      rw [hget]
      simp [ActiveVersion.ofVersion, ActiveVersion.markDeprecated]
  | expired featureId fv useCase held active timers events =>
      obtain rfl := events.unique appended
      obtain rfl := List.mem_singleton.mp he
      exact (active _).trans (if_pos rfl)
  | ticked active events timers kept =>
      obtain rfl := events.unique appended
      cases he

theorem held_of_reflected {d : Deprecation} {timerId : String} {now : Instant}
    (none : activeRefs s d.featureId = [])
    (accepted : accepts (.versionDeprecated d.featureId d.featureVersionId d.useCase d.reason
      "direct") = true)
    (reflected : ∀ new, Appended s (call accepts now s (.deprecateVersion d timerId)) new →
      ∀ e ∈ new, e.holdsOf (call accepts now s (.deprecateVersion d timerId)).activeMap) :
    s.holder d.featureId d.useCase = some d.featureVersionId := by
  have committed : call accepts now s (.deprecateVersion d timerId) =
      { s with
        events := s.events ++ [⟨s.nextSeq, d.featureId, .versionDeprecated d.featureId
          d.featureVersionId d.useCase d.reason "direct"⟩]
        nextSeq := s.nextSeq + 1
        active := s.active.updateWhere
          (ActiveVersion.holds d.featureId d.useCase d.featureVersionId)
          ActiveVersion.markDeprecated ActiveVersion.markDeprecated_slot } := by
    simp [call, keptOf, kept, deprecateCommand, none, deprecateNow, FeatureStore.append, accepted,
      bind, Except.bind, pure, Except.pure, Except.map, FeatureStore.updateActive]
  rw [committed] at reflected
  obtain ⟨seq, hget⟩ := reflected _ (Appended.single rfl rfl rfl) _ List.mem_cons_self
  simp only [FeatureStore.activeMap] at hget
  rw [Table.get?_updateWhere] at hget
  obtain ⟨row, hrow, heq⟩ := Option.map_eq_some_iff.mp hget
  have version : row.featureVersionId = d.featureVersionId := by
    split at heq
    · next holds => exact (of_decide_eq_true holds).2
    · rw [heq]
  exact holder_eq_some.mpr ⟨row, hrow, version⟩

end Fold

/-- What holds of the store all along a run. -/
structure ActiveInv (s : FeatureStore) : Prop where
  ordered : s.events.Pairwise fun e e' => e.globalSeq < e'.globalSeq
  numbered : ∀ e ∈ s.events, e.globalSeq < s.nextSeq
  fold : s.activeMap = foldActive s.events

theorem ActiveInv.init {w : FeatureWorld} (h : FeatureInit w) : ActiveInv w.store := by
  refine ⟨by simp [h.events], by simp [h.events], ?_⟩
  rw [h.events]
  funext k
  simp [FeatureStore.activeMap, Table.get?, h.active, foldActive]

theorem ActiveInv.appended {s s' : FeatureStore} {new : List FeatureEvent} (h : ActiveInv s)
    (appended : Appended s s' new)
    (folds : s'.activeMap = new.foldl ActiveMap.apply s.activeMap) : ActiveInv s' := by
  have seqs (e : FeatureEvent) (he : e ∈ new) :
      s.nextSeq ≤ e.globalSeq ∧ e.globalSeq < s'.nextSeq := by
    have hmem : e.globalSeq ∈ new.map (·.globalSeq) := List.mem_map_of_mem he
    rw [appended.seqs, List.mem_range'_1] at hmem
    rw [appended.nextSeq]
    exact hmem
  constructor
  · rw [appended.events, List.pairwise_append]
    refine ⟨h.ordered, ?_, fun e he e' he' => ?_⟩
    · have increasing : (new.map (·.globalSeq)).Pairwise (· < ·) := by
        rw [appended.seqs]
        exact List.pairwise_lt_range'
      exact List.pairwise_map.mp increasing
    · exact (h.numbered e he).trans_le (seqs e' he').1
  · intro e he
    rw [appended.events] at he
    rcases List.mem_append.mp he with old | new
    · have := h.numbered e old
      rw [appended.nextSeq]
      omega
    · exact (seqs e new).2
  · rw [folds, h.fold, appended.events, foldActive, foldActive, List.foldl_append]

theorem activeInv_of_exec {accepts : Accepts} {w₀ w : FeatureWorld} {as : List FeatureAction}
    (start : FeatureInit w₀) (run : Transition.exec (featureStep accepts) w₀ as = some w) :
    ActiveInv w.store := by
  refine Transition.exec_induction (P := fun w => ActiveInv w.store) (ActiveInv.init start) ?_ run
  intro w a w' inv hstep
  cases hstep
  obtain ⟨new, appended, folds⟩ := (call_effect w.now a).folds
  exact inv.appended appended folds

/-- In every run the table agrees with the stream, if and only if each recorded direct
    deprecation finds its version in the slot. -/
theorem map_agrees_iff {accepts : Accepts} {w₀ : FeatureWorld} {as : List FeatureAction}
    (start : FeatureInit w₀) :
    (∀ m ∈ Transition.history (featureStep accepts) w₀ as, MapAgrees m) ↔
      Transition.Along (featureStep accepts) (DeprecatesHeld accepts) w₀ as := by
  have moves (m : FeatureMove) (hm : m ∈ Transition.history (featureStep accepts) w₀ as) :
      ActiveInv m.before.store ∧
        m.after.store = call accepts m.before.now m.before.store m.action := by
    obtain ⟨pre, post, -, hpre⟩ := Transition.exists_split_of_mem_history hm
    have hstep := Transition.step_of_mem_history hm
    exact ⟨activeInv_of_exec start hpre, congrArg FeatureWorld.store (Option.some.inj hstep).symm⟩
  constructor
  · intro agrees m hm
    obtain ⟨-, after⟩ := moves m hm
    have reflected := (agrees m hm).reflected
    obtain ⟨before, action, w'⟩ := m
    cases action with
    | deprecateVersion d timerId =>
        intro none accepted
        apply @held_of_reflected accepts _ d timerId before.now none accepted
        intro new appended e he
        dsimp only at after reflected
        rw [← after] at appended ⊢
        apply reflected
        rw [newEvents, appended.events, List.drop_left]
        exact he
    | _ => trivial
  · intro held m hm
    obtain ⟨inv, after⟩ := moves m hm
    have effect : Effect accepts m.before.store m.after.store m.action := by
      rw [after]
      exact call_effect m.before.now m.action
    obtain ⟨new, appended, folds⟩ := effect.folds
    have new_eq : newEvents m = new := by
      rw [newEvents, appended.events, List.drop_left]
    have inv' := inv.appended appended folds
    refine ⟨inv'.ordered, inv'.fold, ?_, ?_⟩
    · rw [new_eq]
      exact folds
    · rw [new_eq]
      refine effect.reflected ?_ appended
      intro d timerId haction
      have := held m hm
      rw [haction] at this
      exact this

def emptyFeatures : FeatureWorld where
  now := 0
  store :=
    { events := []
      nextSeq := 1
      active := Table.empty
      versions := Table.empty
      consumers := Table.empty
      timers := Timers.empty
      queue := ⟨Table.empty, 1⟩ }

theorem emptyFeatures_init : FeatureInit emptyFeatures := ⟨rfl, rfl, rfl⟩

def version (featureVersionId : String) : FeatureVersion where
  featureVersionId := featureVersionId
  featureId := "feat-1"
  producedByRun := "run-1"
  baseFeatureVersionId := none
  verificationStamp := "DATA-CHECKED"
  riskTier := "low"
  blockedUseCases := []
  requiredArtifactRefs := []

def activation (featureVersionId approvalType : String) (base : Option String)
    (expiresAt : Option Instant) : Activation where
  featureId := "feat-1"
  featureVersionId := featureVersionId
  useCase := "credit"
  baseFeatureVersionId := base
  approvalType := approvalType
  expiresAt := expiresAt
  policy := none

def deprecation (featureVersionId useCase : String) (forceQuiesce : Bool) : Deprecation where
  featureId := "feat-1"
  featureVersionId := featureVersionId
  useCase := useCase
  forceQuiesce := forceQuiesce
  graceSeconds := none
  reason := none

/-- A version in production for credit is deprecated for fraud, where it never was. -/
def deprecatesElsewhere : List FeatureAction :=
  [.mintFeatureVersion (version "fv-1"),
    .activate (activation "fv-1" "PRODUCTION" none none) "tmr-1",
    .deprecateVersion (deprecation "fv-1" "fraud" false) "tmr-2"]

theorem deprecation_of_nothing_recorded :
    ¬ ∀ m ∈ Transition.history (featureStep fun _ => true) emptyFeatures deprecatesElsewhere,
      MapAgrees m := by
  have computed : ((Transition.history (featureStep fun _ => true) emptyFeatures
      deprecatesElsewhere).any fun m =>
        decide (⟨3, "feat-1", .versionDeprecated "feat-1" "fv-1" "fraud" none "direct"⟩ ∈
          newEvents m ∧ m.after.store.active.get? ("feat-1", "fraud") = none)) = true := by
    decide +kernel
  obtain ⟨m, hm, h⟩ := List.any_eq_true.mp computed
  obtain ⟨recorded, gone⟩ := of_decide_eq_true h
  intro agrees
  obtain ⟨seq, hget⟩ := (agrees m hm).reflected _ recorded
  rw [FeatureStore.activeMap, gone] at hget
  cases hget

def deprecatesSuccessor : List FeatureAction :=
  [.mintFeatureVersion (version "fv-1"), .mintFeatureVersion (version "fv-2"),
    .activate (activation "fv-1" "PRODUCTION" none none) "tmr-1",
    .supersede "feat-1" "credit" "fv-2" (some "fv-1"),
    .deprecateVersion (deprecation "fv-2" "credit" false) "tmr-2"]

theorem map_agrees_iff_deprecatesSuccessor :
    ∃ w, Transition.exec (featureStep fun _ => true) emptyFeatures deprecatesSuccessor = some w ∧
      w.store.active.rows = [⟨"feat-1", "credit", "fv-2", .deprecated, 4⟩] ∧
      ((∀ m ∈ Transition.history (featureStep fun _ => true) emptyFeatures deprecatesSuccessor,
          MapAgrees m) ↔
        Transition.Along (featureStep fun _ => true) (DeprecatesHeld fun _ => true) emptyFeatures
          deprecatesSuccessor) := by
  have computed : ((Transition.exec (featureStep fun _ => true) emptyFeatures
      deprecatesSuccessor).any fun w =>
        decide (w.store.active.rows = [⟨"feat-1", "credit", "fv-2", .deprecated, 4⟩])) = true := by
    decide +kernel
  obtain ⟨w, run, rows⟩ := Option.any_eq_true _ _ |>.mp computed
  exact ⟨w, run, of_decide_eq_true rows, map_agrees_iff emptyFeatures_init⟩

end FeatureGen.Aggregates

namespace FeatureGen.Aggregates

open FeatureGen.Runtime

def TellsTruth (s s' : FeatureStore) (a : Activation) (result : ActivationResult) : Prop :=
  if result.activated then
    ∃ seq, s'.activeMap (a.featureId, a.useCase) = some ⟨a.featureId, a.useCase,
      a.featureVersionId, activationStateOf a.approvalType, seq⟩
  else s'.activeMap (a.featureId, a.useCase) = s.activeMap (a.featureId, a.useCase)

/-- A slot that holds the version holds it in the state the approval implies. -/
def HeldAsApproved (s : FeatureStore) (a : Activation) : Prop :=
  ∀ row, s.active.get? (a.featureId, a.useCase) = some row →
    row.featureVersionId = a.featureVersionId →
      row.activationState = activationStateOf a.approvalType

section Exits

variable {accepts : Accepts} {s s' : FeatureStore} {a : Activation} {timerId : String}
  {result : ActivationResult}

theorem refusal_eq_ok {aggregateId : String} {payload : FeaturePayload} {conflict : Bool}
    (h : (do
      let (s, evt) ← s.append accepts aggregateId payload
      return (s, ActivationResult.mk false conflict (some evt.globalSeq))) = .ok (s', result)) :
    result.activated = false ∧ s'.active = s.active := by
  obtain ⟨_, happend, h⟩ := bind_eq_ok.mp h
  obtain ⟨-, rfl⟩ := append_eq_ok.mp happend
  cases h
  exact ⟨rfl, rfl⟩

theorem recordActivation_eq_ok (h : recordActivation accepts s a timerId = .ok (s', result)) :
    result.activated = true ∧ s'.active = (s.active.updateWhere
      (fun r => r.slot = (a.featureId, a.useCase)) (ActiveVersion.withSeq s.nextSeq)
      (ActiveVersion.withSeq_slot s.nextSeq)) := by
  obtain ⟨_, happend, h⟩ := bind_eq_ok.mp h
  obtain ⟨-, rfl⟩ := append_eq_ok.mp happend
  dsimp only at h
  split at h
  · obtain ⟨_, hschedule, h⟩ := bind_eq_ok.mp h
    obtain ⟨timers, -, rfl⟩ := insertFeatureTimer_ok hschedule
    cases h
    exact ⟨rfl, rfl⟩
  · cases h
    exact ⟨rfl, rfl⟩

theorem tellsTruth_of_other (other : s.holder a.featureId a.useCase ≠ some a.featureVersionId)
    (h : applyActivation accepts s a timerId = .ok (s', result)) : TellsTruth s s' a result := by
  have refused : result.activated = false ∧ s'.active = s.active → TellsTruth s s' a result := by
    rintro ⟨refused, active⟩
    rw [TellsTruth, refused, FeatureStore.activeMap, active]
    exact rfl
  unfold applyActivation at h
  dsimp only at h
  rw [if_neg other] at h
  obtain ⟨attrs, -, h⟩ := bind_eq_ok.mp h
  split at h
  · exact refused (refusal_eq_ok h)
  · split at h
    · exact refused (refusal_eq_ok h)
    · split at h
      · exact refused (refusal_eq_ok h)
      · next claimed hclaim =>
          obtain ⟨-, active, rfl, numbered⟩ := casClaimSlot_some hclaim
          obtain ⟨activated, hactive⟩ := recordActivation_eq_ok h
          rw [TellsTruth, activated, FeatureStore.activeMap, hactive]
          exact ⟨s.nextSeq, (numbered s.nextSeq _).trans (if_pos rfl)⟩

end Exits

/-- An activation tells the truth exactly when a slot that holds its version already
    holds it in the state the approval implies. -/
theorem activation_tells_truth_iff {accepts : Accepts} {s s' : FeatureStore} {a : Activation}
    {timerId : String} {result : ActivationResult}
    (h : applyActivation accepts s a timerId = .ok (s', result)) :
    TellsTruth s s' a result ↔ HeldAsApproved s a := by
  by_cases held : s.holder a.featureId a.useCase = some a.featureVersionId
  · obtain ⟨state, seq, hrow⟩ := get?_holder held
    unfold applyActivation at h
    dsimp only at h
    rw [if_pos held] at h
    obtain ⟨rfl, rfl⟩ := Prod.mk.inj (Except.ok.inj h)
    simp only [TellsTruth, if_true, FeatureStore.activeMap, HeldAsApproved]
    rw [hrow]
    constructor
    · intro approved row hget _
      obtain ⟨seq', heq⟩ := approved
      obtain rfl := Option.some.inj hget
      exact (ActiveVersion.mk.inj (Option.some.inj heq)).2.2.2.1
    · intro approved
      have := approved _ rfl rfl
      dsimp only at this
      exact ⟨seq, by rw [this]⟩
  · have vacuous : HeldAsApproved s a := by
      intro row hget version
      exact absurd (holder_eq_some.mpr ⟨row, hget, version⟩) held
    exact iff_of_true (tellsTruth_of_other held h) vacuous

/-- A version goes into production. -/
def inProduction : List FeatureAction :=
  [.mintFeatureVersion (version "fv-1"),
    .activate (activation "fv-1" "PRODUCTION" none none) "tmr-1"]

/-- It is deprecated, and activated once more. -/
def outOfProduction : List FeatureAction :=
  inProduction ++ [.deprecateVersion (deprecation "fv-1" "credit" false) "tmr-2"]

def slotAnswer (s : FeatureStore) (a : Activation) : Option (Bool × Option ActivationState) :=
  match applyActivation (fun _ => true) s a "tmr-3" with
  | .ok (s', result) =>
      some (result.activated,
        (s'.active.get? (a.featureId, a.useCase)).map (·.activationState))
  | .error _ => none

theorem activation_tells_truth_iff_inProduction :
    ∃ w s' result, Transition.exec (featureStep fun _ => true) emptyFeatures inProduction = some w ∧
      applyActivation (fun _ => true) w.store (activation "fv-1" "PRODUCTION" none none) "tmr-3" =
        .ok (s', result) ∧ result.activated = true ∧
      (TellsTruth w.store s' (activation "fv-1" "PRODUCTION" none none) result ↔
        HeldAsApproved w.store (activation "fv-1" "PRODUCTION" none none)) := by
  have computed : ((Transition.exec (featureStep fun _ => true) emptyFeatures
      inProduction).any fun w =>
      decide (slotAnswer w.store (activation "fv-1" "PRODUCTION" none none) =
        some (true, some .production))) = true := by
    decide +kernel
  obtain ⟨w, run, h⟩ := (Option.any_eq_true _ _).mp computed
  have answer := of_decide_eq_true h
  unfold slotAnswer at answer
  split at answer
  · next s' result hcall =>
      exact ⟨w, s', result, run, hcall, (Prod.mk.inj (Option.some.inj answer)).1,
        activation_tells_truth_iff hcall⟩
  · cases answer

theorem deprecated_version_activated :
    ¬ ∀ (accepts : Accepts) (w : FeatureWorld) (a : Activation) (timerId : String)
        (s' : FeatureStore) (result : ActivationResult),
      Transition.Reachable (featureStep accepts) FeatureInit w →
        applyActivation accepts w.store a timerId = .ok (s', result) →
          TellsTruth w.store s' a result := by
  have computed : ((Transition.exec (featureStep fun _ => true) emptyFeatures
      outOfProduction).any fun w =>
      decide (slotAnswer w.store (activation "fv-1" "PRODUCTION" none none) =
        some (true, some .deprecated))) = true := by
    decide +kernel
  obtain ⟨w, run, h⟩ := (Option.any_eq_true _ _).mp computed
  have answer := of_decide_eq_true h
  unfold slotAnswer at answer
  split at answer
  · next s' result hcall =>
      obtain ⟨activated, state⟩ := Prod.mk.inj (Option.some.inj answer)
      intro truthful
      have truth := truthful _ w _ _ s' result ⟨_, _, emptyFeatures_init, run⟩ hcall
      rw [TellsTruth, activated] at truth
      obtain ⟨seq, hrow⟩ := truth
      rw [FeatureStore.activeMap] at hrow
      rw [hrow] at state
      cases state
  · cases answer

end FeatureGen.Aggregates
