import FeatureGen.Overlay.Commands

/-! # What the commands can append

Each command and poller is described once: the events it appends, each admissible
in the folded state of its own stream. `step_extends` says it of every step, and
`validLog_of_run` of every log a run leaves.
-/

namespace FeatureGen.Overlay

def FactKey.ofBridge (key : FactKey) : Bool :=
  match key.ref with
  | .bridge _ _ => true
  | _ => false

theorem catalogSourceOf_isSome {lower : String → String} {ref : Ref} {key : FactKey}
    (h : key.ref = refIdentity lower ref) :
    (catalogSourceOf ref).isSome = !key.ofBridge := by
  cases ref <;> simp [FactKey.ofBridge, h, refIdentity, catalogSourceOf]

def Admissible (d : Deployment) (stream : List OverlayEvent) (key : FactKey)
    (actor : IdentityEnvelope) : Payload → Prop
  | .proposed p =>
      ((foldOverlayState stream).status = none ∨
        (foldOverlayState stream).status = some .rejected) ∧
      p.factType = key.factType ∧ key.ref = refIdentity d.lower p.catalogObjectRef ∧
      Indexable key.factType p.proposedValue
  | .partiallyConfirmed byOwner _ _ _ =>
      Awaiting (foldOverlayState stream) ∧ (foldOverlayState stream).partialConfirmers = [] ∧
      byOwner = actor.subject ∧ (∀ p, latestProposed stream = some p → p.proposedBy ≠ byOwner)
  | .confirmed c =>
      (Awaiting (foldOverlayState stream) ∨ (foldOverlayState stream).status = some .verified) ∧
      Indexable key.factType c.value
  | .rejected .. => Awaiting (foldOverlayState stream)
  | .expired _ => (foldOverlayState stream).status = some .verified
  | .staled _ _ => (foldOverlayState stream).status = some .verified

/-- A database whose log is another's with admissible events appended. -/
inductive Extends (d : Deployment) : World → World → Prop
  | same {w w' : World} (events : w'.events = w.events) (seq : w.nextSeq ≤ w'.nextSeq) :
      Extends d w w'
  | append {w : World} {key : FactKey} {actor : IdentityEnvelope} {payload : Payload}
      (admissible : Admissible d (loadFact w.events key) key actor payload) :
      Extends d w (w.append key actor payload)
  | trans {w w' w'' : World} (first : Extends d w w') (second : Extends d w' w'') :
      Extends d w w''

theorem Extends.refl {d : Deployment} {w : World} : Extends d w w := .same rfl le_rfl

theorem Extends.foldl {d : Deployment} {α : Type} {f : World → α → World}
    (next : ∀ w a, Extends d w (f w a)) (l : List α) (w : World) : Extends d w (l.foldl f w) := by
  induction l generalizing w with
  | nil => exact .refl
  | cons a l ih => exact .trans (next w a) (ih (f w a))

theorem appendConfirmed_ok {d : Deployment} {w w' : World} {key : FactKey}
    {actor : IdentityEnvelope} {c : Confirmed} {expiresAt : Instant}
    (h : appendConfirmed d w key actor c expiresAt = .ok w') :
    w' = { w.append key actor (.confirmed c) with
      timers := w.timers ++ [⟨key, w.nextSeq, expiresAt, false⟩] } := by
  obtain ⟨w₁, happend, h⟩ := bind_ok.mp h
  rw [appendOverlayEvent_ok happend] at h
  exact (Except.ok.inj h).symm

section Commands

variable {d : Deployment} {w w' : World}

theorem proposeFact_ok {cmd : ProposeFact} (h : proposeFact d w cmd = .ok w') :
    ∃ evidenceRef, w' = w.append (cmd.key d) cmd.actor (.proposed
        (cmd.payload (cmd.ref.constructed d.lower) (cmd.fingerprint d) evidenceRef)) ∧
      Admissible d (loadFact w.events (cmd.key d)) (cmd.key d) cmd.actor (.proposed
        (cmd.payload (cmd.ref.constructed d.lower) (cmd.fingerprint d) evidenceRef)) := by
  simp only [proposeFact, bind_ok, require_ok, refuse_ok, present_ok] at h
  obtain ⟨_, valid, _, gate, _, _, _, fresh, _, _, evidenceRef, _, _, _, happend⟩ := h
  refine ⟨evidenceRef, appendOverlayEvent_ok happend, not_nonTerminal fresh, rfl, rfl, ?_⟩
  exact indexable_of_gates (schemaAdmits_of_validated valid) gate

theorem rejectFact_ok {cmd : RejectFact} (h : rejectFact d w cmd = .ok w') :
    let stream := loadFact w.events (cmd.key d)
    w' = w.append (cmd.key d) cmd.actor (.rejected cmd.actor.subject cmd.reason cmd.category
        cmd.targetEventId
        (retiredFingerprint d (foldOverlayState stream) (latestProposed stream))) ∧
      Awaiting (foldOverlayState stream) := by
  simp only [rejectFact, bind_ok, require_ok, present_ok] at h
  obtain ⟨_, _, _, _, _, awaiting, _, _, _, _, _, _, happend⟩ := h
  exact ⟨appendOverlayEvent_ok happend, awaiting⟩

theorem confirmFirstSide_ok {cmd : ConfirmFact} {key : FactKey} {state : OverlayState}
    {authority : Authority} (h : confirmFirstSide d w cmd key state authority = .ok w') :
    w' = w.append key cmd.actor (.partiallyConfirmed cmd.actor.subject
      s!"data_owner_{joinSide authority cmd.actor.subject}" state.draftEventId cmd.note) :=
  appendOverlayEvent_ok h

theorem confirmSecondSide_ok {cmd : ConfirmFact} {key : FactKey} {stream : List OverlayEvent}
    {state : OverlayState} {authority : Authority} {first : String}
    (h : confirmSecondSide d w cmd key stream state authority first = .ok w') :
    cmd.actor.subject ≠ first ∧
      (authority.governanceQueue = true → authority.known ≠ [] →
        first ∈ authority.known ∨ cmd.actor.subject ∈ authority.known) ∧
      ∃ value expiresAt, joinValue state (latestProposed stream) = some value ∧
        schemaAdmits .approvedJoin value = true ∧
        (∃ ref, recordedRef d.lower stream = some ref ∧
          sealedReferentCheck d w "join re-confirm blocked" ref .approvedJoin value = .ok ()) ∧
        w' = { w.append key cmd.actor (.confirmed {
            value := value
            confirmedBy := .human (joinConfirmers authority first cmd.actor.subject)
            expiresAt := some expiresAt
            confirmsEventId := casTarget state
            note := cmd.note }) with
          timers := w.timers ++ [⟨key, w.nextSeq, expiresAt, false⟩] } := by
  simp only [confirmSecondSide, bind_ok, require_ok, present_ok] at h
  obtain ⟨_, distinct, _, covered, value, hvalue, _, valid, ref, href, _, check, happend⟩ := h
  refine ⟨distinct, ?_, value, _, hvalue, schemaAdmits_of_validated valid, ⟨ref, href, check⟩,
    appendConfirmed_ok happend⟩
  intro queue known
  by_contra neither
  rw [not_or] at neither
  exact covered ⟨queue, known, neither.1, neither.2⟩

theorem confirmApprovedJoin_ok {cmd : ConfirmFact} {key : FactKey} {stream : List OverlayEvent}
    {state : OverlayState} {authority : Authority}
    (h : confirmApprovedJoin d w cmd key stream state authority = .ok w') :
    (cmd.actor.subject ∈ authority.known ∨
      authority.governanceQueue = true ∧ "platform-admin" ∈ cmd.actor.roleClaims) ∧
    (∀ p, latestProposed stream = some p → p.proposedBy ≠ cmd.actor.subject) ∧
    match state.partialConfirmers.getLast? with
    | none => confirmFirstSide d w cmd key state authority = .ok w'
    | some first => confirmSecondSide d w cmd key stream state authority first.subject = .ok w' := by
  simp only [confirmApprovedJoin, bind_ok, require_ok] at h
  obtain ⟨_, actor, _, proposer, h⟩ := h
  refine ⟨actor, fun p hp => proposer_ne proposer hp, ?_⟩
  split at h
  · simp only [bind_ok] at h
    obtain ⟨_, _, _, _, _, _, h⟩ := h
    split at h
    · next none => simpa [none] using h
    · next first found => simpa [found] using h
  · split at h
    · next none => simpa [none] using h
    · next first found => simpa [found] using h

theorem confirmSingle_ok {cmd : ConfirmFact} {key : FactKey} {stream : List OverlayEvent}
    {state : OverlayState} {authority : Authority}
    (h : confirmSingle d w cmd key stream state authority = .ok w') :
    ∃ value c expiresAt,
      (cmd.value <|> defaultValue state (latestProposed stream)) = some value ∧
      c.value = value ∧ c.confirmedBy = .human (singleConfirmers cmd.factType cmd.actor.subject) ∧
      Indexable cmd.factType value ∧
      (state.status = some .stale ∨ state.status = some .reverify →
        sealedReferentCheck d w "stale re-confirm blocked" (cmd.ref.constructed d.lower)
          cmd.factType value = .ok ()) ∧
      c.expiresAt = some expiresAt ∧
      w' = { w.append key cmd.actor (.confirmed c) with
        timers := w.timers ++ [⟨key, w.nextSeq, expiresAt, false⟩] } := by
  simp only [confirmSingle, bind_ok, require_ok, refuse_ok, present_ok] at h
  obtain ⟨_, _, _, _, _, _, _, _, value, hvalue, _, valid, _, gate, _, _, h⟩ := h
  have indexable := indexable_of_gates (schemaAdmits_of_validated valid) gate
  split at h
  · next reverifying =>
      obtain ⟨_, check, happend⟩ := bind_ok.mp h
      exact ⟨value, _, _, hvalue, rfl, rfl, indexable, fun _ => check, rfl,
        appendConfirmed_ok happend⟩
  · next live =>
      exact ⟨value, _, _, hvalue, rfl, rfl, indexable, fun re => absurd re live, rfl,
        appendConfirmed_ok h⟩

theorem confirmFact_ok {cmd : ConfirmFact} (h : confirmFact d w cmd = .ok w') :
    let stream := loadFact w.events (cmd.key d)
    let state := foldOverlayState stream
    (Awaiting state ∨ state.status = some .verified) ∧
    ∃ authority,
      resolveAuthority w.adapter (cmd.ref.constructed d.lower) cmd.factType = some authority ∧
      ((cmd.factType = .approvedJoin ∧ authority.dual = true ∧ Awaiting state ∧
          confirmApprovedJoin d w cmd (cmd.key d) stream state authority = .ok w') ∨
        (¬ (cmd.factType = .approvedJoin ∧ authority.dual = true) ∧
          confirmSingle d w cmd (cmd.key d) stream state authority = .ok w')) := by
  simp only [confirmFact, bind_ok, require_ok, present_ok] at h
  obtain ⟨_, _, _, _, _, admitted, _, _, authority, hauthority, h⟩ := h
  have statuses := admitted.imp_right verified_of_withinRenewalGrace
  refine ⟨statuses, authority, hauthority, ?_⟩
  split at h
  · next dual =>
      simp only [bind_ok, require_ok] at h
      obtain ⟨_, inPlace, h⟩ := h
      refine Or.inl ⟨dual.1, dual.2, ?_, h⟩
      apply admitted.resolve_right
      intro renewing
      exact inPlace ⟨renewing, verified_of_withinRenewalGrace renewing⟩
  · next single => exact Or.inr ⟨single, h⟩

theorem enterFact_ok {cmd : EnterFact} (h : enterFact d w cmd = .ok w') :
    loadFact w.events (cmd.key d) = [] ∧ Indexable cmd.factType cmd.proposedValue ∧
    ∃ c expiresAt, c.value = cmd.proposedValue ∧
      w' = { (w.append (cmd.key d) cmd.actor (.proposed (cmd.payload d))).append (cmd.key d)
          cmd.actor (.confirmed c) with
        timers := w.timers ++ [⟨cmd.key d, w.nextSeq + 1, expiresAt, false⟩] } := by
  simp only [enterFact, bind_ok, require_ok, refuse_ok, present_ok] at h
  obtain ⟨_, _, _, valid, _, gate, _, _, _, _, _, _, _, _, _, _, _, _, _, empty, draft, hdraft,
    happend⟩ := h
  have hdraft := appendOverlayEvent_ok hdraft
  subst hdraft
  exact ⟨empty, indexable_of_gates (schemaAdmits_of_validated valid) gate, _, _, rfl,
    appendConfirmed_ok happend⟩

end Commands

section Steps

variable {d : Deployment} {w w' : World}

theorem Extends.of_confirmFact {cmd : ConfirmFact} (h : confirmFact d w cmd = .ok w') :
    Extends d w w' := by
  obtain ⟨admitted, authority, _, ⟨isJoin, _, awaiting, hdual⟩ | ⟨_, hsingle⟩⟩ := confirmFact_ok h
  · obtain ⟨_, proposer, hside⟩ := confirmApprovedJoin_ok hdual
    have join : (cmd.key d).factType = .approvedJoin := isJoin
    split at hside
    · next unpartial =>
        rw [confirmFirstSide_ok hside]
        exact .append ⟨awaiting, List.getLast?_eq_none_iff.mp unpartial, rfl, proposer⟩
    · obtain ⟨_, _, value, expiresAt, _, valid, _, rfl⟩ := confirmSecondSide_ok hside
      have indexable : Indexable (cmd.key d).factType value :=
        join ▸ indexable_approvedJoin valid
      exact .trans (.append (show Admissible _ _ _ _ (.confirmed _) from
        ⟨Or.inl awaiting, indexable⟩)) (.same rfl le_rfl)
  · obtain ⟨value, c, expiresAt, _, rfl, _, indexable, _, _, rfl⟩ := confirmSingle_ok hsingle
    have admissible : Admissible d (loadFact w.events (cmd.key d)) (cmd.key d) cmd.actor
        (.confirmed c) := ⟨admitted, indexable⟩
    exact .trans (.append admissible) (.same rfl le_rfl)

theorem Extends.of_enterFact {cmd : EnterFact} (h : enterFact d w cmd = .ok w') :
    Extends d w w' := by
  obtain ⟨empty, indexable, c, expiresAt, hc, rfl⟩ := enterFact_ok h
  have proposed : Admissible d (loadFact w.events (cmd.key d)) (cmd.key d) cmd.actor
      (.proposed (cmd.payload d)) := by
    rw [empty]
    exact ⟨Or.inl rfl, rfl, rfl, indexable⟩
  let draft := w.append (cmd.key d) cmd.actor (.proposed (cmd.payload d))
  have drafted : (foldOverlayState (loadFact draft.events (cmd.key d))).status = some .draft := by
    rw [events_append, loadFact_snoc, empty]
    simp [World.event, foldOverlayState, foldEvent]
  have confirmed : Admissible d (loadFact draft.events (cmd.key d)) (cmd.key d) cmd.actor
      (.confirmed c) := ⟨Or.inl (awaiting_iff.mpr (Or.inl drafted)), hc ▸ indexable⟩
  exact .trans (.append proposed) (.trans (.append confirmed) (.same rfl le_rfl))

theorem Extends.of_applyExpiry (w : World) (timer : ExpiryTimer) :
    Extends d w (applyExpiry w timer) := by
  simp only [applyExpiry]
  split
  · next current =>
      have admissible : Admissible d (loadFact w.events timer.factKey) timer.factKey
          (serviceActor "service:overlay-freshness") (.expired (some timer.confirmedEventId)) :=
        current.1
      exact .append admissible
  · exact .refl

theorem Extends.of_fireExpiry (w : World) (picked : ExpiryTimer) :
    Extends d w (fireExpiry w picked) := by
  unfold fireExpiry
  split
  · exact .trans (.of_applyExpiry w picked) (.same rfl le_rfl)
  · exact .refl

theorem Extends.of_staleOne {actor : IdentityEnvelope} (w : World)
    (dependent : FactKey × String) : Extends d w (staleOne actor w dependent) := by
  simp only [staleOne]
  split
  · next verified =>
      have admissible : Admissible d (loadFact w.events dependent.1) dependent.1 actor
          (.staled dependent.2 (foldOverlayState (loadFact w.events dependent.1)).confirmedEventId) :=
        verified
      exact .append admissible
  · exact .refl

theorem Extends.of_detectCatalogChanges {actor : IdentityEnvelope} {conflictAt : Option ℕ} :
    Extends d w (detectCatalogChanges w actor conflictAt) := by
  cases conflictAt with
  | some n => exact Extends.foldl (fun w a => Extends.of_staleOne w a) _ w
  | none =>
      exact .trans (Extends.foldl (fun w a => Extends.of_staleOne w a) _ w) (.same rfl le_rfl)

theorem Extends.of_projectNext : Extends d w (projectNext w) := by
  unfold projectNext
  split
  · exact .refl
  · split
    · exact .refl
    · exact .same rfl le_rfl

theorem step_extends {a : Action} (h : step d w a = some w') : Extends d w w' := by
  cases a with
  | proposeFact cmd =>
      cases Option.some.inj h
      cases hcmd : proposeFact d w cmd with
      | error refusal => exact .refl
      | ok w' =>
          obtain ⟨evidenceRef, rfl, admissible⟩ := proposeFact_ok hcmd
          exact .append admissible
  | confirmFact cmd =>
      cases Option.some.inj h
      cases hcmd : confirmFact d w cmd with
      | error refusal => exact .refl
      | ok w' => exact .of_confirmFact hcmd
  | rejectFact cmd =>
      cases Option.some.inj h
      cases hcmd : rejectFact d w cmd with
      | error refusal => exact .refl
      | ok w' =>
          obtain ⟨rfl, awaiting⟩ := rejectFact_ok hcmd
          exact .append awaiting
  | enterFact cmd =>
      cases Option.some.inj h
      cases hcmd : enterFact d w cmd with
      | error refusal => exact .refl
      | ok w' => exact .of_enterFact hcmd
  | fireDueOverlayExpiries picked =>
      cases Option.some.inj h
      exact Extends.foldl Extends.of_fireExpiry picked w
  | detectCatalogChanges actor conflictAt =>
      cases Option.some.inj h
      exact .of_detectCatalogChanges
  | project =>
      cases Option.some.inj h
      exact .of_projectNext
  | catalog | sealConfig | tick =>
      cases Option.some.inj h
      exact .same rfl le_rfl
  | skipSeq burned =>
      cases Option.some.inj h
      exact .same rfl (Nat.le_add_right _ _)

end Steps

/-- A log whose events were admissible when they were appended, numbered below `n`. -/
inductive ValidLog (d : Deployment) : List OverlayEvent → ℕ → Prop
  | nil {n : ℕ} (pos : 0 < n) : ValidLog d [] n
  | snoc {log : List OverlayEvent} {e : OverlayEvent} {m n : ℕ} (log_valid : ValidLog d log m)
      (after : m ≤ e.globalSeq) (below : e.globalSeq < n)
      (admissible : Admissible d (loadFact log e.factKey) e.factKey e.actor e.payload) :
      ValidLog d (log ++ [e]) n

section Logs

variable {d : Deployment}

theorem ValidLog.mono {log : List OverlayEvent} {m n : ℕ} (h : ValidLog d log m) (hmn : m ≤ n) :
    ValidLog d log n := by
  cases h with
  | nil pos => exact .nil (lt_of_lt_of_le pos hmn)
  | snoc valid after below admissible =>
      exact .snoc valid after (lt_of_lt_of_le below hmn) admissible

theorem ValidLog.pos {log : List OverlayEvent} {n : ℕ} (h : ValidLog d log n) : 0 < n := by
  cases h with
  | nil pos => exact pos
  | snoc valid after below admissible => omega

theorem ValidLog.lt {log : List OverlayEvent} {n : ℕ} (h : ValidLog d log n) {e : OverlayEvent}
    (he : e ∈ log) : 0 < e.globalSeq ∧ e.globalSeq < n := by
  induction h with
  | nil pos => simp at he
  | snoc valid after below admissible ih =>
      rw [List.mem_append, List.mem_singleton] at he
      cases he with
      | inl earlier =>
          have := ih earlier
          omega
      | inr last =>
          subst last
          have := valid.pos
          omega

theorem ValidLog.of_snoc {log : List OverlayEvent} {e : OverlayEvent} {n : ℕ}
    (h : ValidLog d (log ++ [e]) n) : ∃ m, ValidLog d log m ∧ m ≤ e.globalSeq ∧
      e.globalSeq < n ∧ Admissible d (loadFact log e.factKey) e.factKey e.actor e.payload := by
  generalize hl : log ++ [e] = l at h
  cases h with
  | nil pos => simp at hl
  | snoc valid after below admissible =>
      obtain ⟨rfl, he⟩ := List.append_inj' hl rfl
      cases he
      exact ⟨_, valid, after, below, admissible⟩

theorem ValidLog.admissible {log : List OverlayEvent} {n : ℕ} (h : ValidLog d log n)
    {e : OverlayEvent} (he : e ∈ log) :
    ∃ stream, Admissible d stream e.factKey e.actor e.payload := by
  induction h with
  | nil pos => simp at he
  | snoc valid after below admissible ih =>
      rw [List.mem_append, List.mem_singleton] at he
      cases he with
      | inl earlier => exact ih earlier
      | inr last => exact last ▸ ⟨_, admissible⟩

theorem ValidLog.stream_induction {P : List OverlayEvent → Prop} {log : List OverlayEvent} {n : ℕ}
    (h : ValidLog d log n) (key : FactKey) (start : P [])
    (next : ∀ stream e, e.factKey = key → P stream → Admissible d stream key e.actor e.payload →
      P (stream ++ [e])) : P (loadFact log key) := by
  induction h with
  | nil pos => exact start
  | @snoc log e m n valid after below admissible ih =>
      rw [loadFact_snoc]
      split
      · next here =>
          subst here
          exact next _ e rfl ih admissible
      · exact ih

theorem ValidLog.filter {log : List OverlayEvent} {n : ℕ} (h : ValidLog d log n)
    (keep : FactKey → Bool) : ValidLog d (log.filter fun e => keep e.factKey) n := by
  induction h with
  | nil pos => exact .nil pos
  | @snoc log e m n valid after below admissible ih =>
      rw [List.filter_append]
      cases hk : keep e.factKey with
      | false => simpa [hk] using ih.mono (show m ≤ n by omega)
      | true =>
          have same := loadFact_filter log keep hk
          rw [← same] at admissible
          simpa [hk] using ih.snoc after below admissible

theorem Extends.validLog {w w' : World} (h : Extends d w w')
    (valid : ValidLog d w.events w.nextSeq) : ValidLog d w'.events w'.nextSeq := by
  induction h with
  | same events seq =>
      rw [events]
      exact valid.mono seq
  | append admissible => exact .snoc valid le_rfl (Nat.lt_succ_self _) admissible
  | trans first second ih₁ ih₂ => exact ih₂ (ih₁ valid)

theorem Extends.events_grow {w w' : World} (h : Extends d w w') : w.events <+: w'.events := by
  induction h with
  | same events seq => simp [events]
  | append admissible => exact List.prefix_append _ _
  | trans first second ih₁ ih₂ => exact ih₁.trans ih₂

theorem Init.validLog {w : World} (init : Init w) : ValidLog d w.events w.nextSeq := by
  rw [init.events]
  exact .nil init.nextSeq

theorem validLog_of_run {w₀ w : World} {as : List Action} (init : Init w₀)
    (run : Transition.exec (step d) w₀ as = some w) : ValidLog d w.events w.nextSeq :=
  Transition.exec_induction (P := fun w => ValidLog d w.events w.nextSeq) init.validLog
    (fun _ _ _ valid hstep => (step_extends hstep).validLog valid) run

theorem events_prefix_of_run {w₀ w : World} {as : List Action}
    (run : Transition.exec (step d) w₀ as = some w) : w₀.events <+: w.events :=
  Transition.exec_induction (P := fun w => w₀.events <+: w.events) (List.prefix_refl _)
    (fun _ _ _ grown hstep => grown.trans (step_extends hstep).events_grow) run

end Logs

end FeatureGen.Overlay
