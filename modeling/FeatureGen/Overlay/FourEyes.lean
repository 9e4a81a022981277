import FeatureGen.Overlay.FieldFrames

/-! # Four eyes

A confirmation needs evidence of the same value that its subject did not propose. What is
refused or denied leaves the stores, a key is used once, and a rejected row stays rejected.
-/

namespace FeatureGen.GovernedFields

open Overlay Checks Transition

section FourEyes

variable {ext : Externals}

theorem canonicalHash_str (faithful : ext.Faithful) {value : Json} {s : String}
    (h : canonicalHash ext value = canonicalHash ext (.str s)) : value = .str s := by
  have texts : value.sortKeys.render = (Json.str s).sortKeys.render :=
    String.ofList_injective (faithful h)
  have trees : value.sortKeys = .str s := Json.render_injective texts
  cases value with
  | str t => exact trees
  | null | bool _ | num _ | arr _ | obj _ => simp [Json.sortKeys] at trees

/-- Not a human's, nor the file's. -/
def FieldEvidence.service (e : FieldEvidence) : Prop :=
  e.producer ≠ .human ∧ e.producer ≠ .source

def FieldEvidence.another (subject : String) (e : FieldEvidence) : Prop :=
  e.producer = .human ∧ e.producerRef ≠ subject

/-- Active evidence that is not the subject's own, of the value unless two texts collide. -/
def Seconded (ext : Externals) (db : Db) (subject logicalRef field : String) (value : Json) :
    Prop :=
  ∃ e ∈ readActiveFieldEvidence db logicalRef field,
    (ext.Faithful → e.proposedValue = value) ∧ (e.service ∨ e.another subject)

/-- A confirmation is of the subject, and seconded. -/
def Countersigned (ext : Externals) (db : Db) (subject : String) (p : Proposal) : Prop :=
  p.producer = .human → p.strength = .confirmed → p.fieldName ≠ "business_context" →
    p.producerRef = subject ∧ Seconded ext db subject p.logicalRef p.fieldName p.proposedValue

theorem countersigned_of_derived {db : Db} {subject : String} {p : Proposal} (h : Derived p) :
    Countersigned ext db subject p :=
  fun human _ _ => absurd human h

/-- The key of the command is used. -/
def Used (db : Db) (cmd : Correction) (logicalRef : String) : Prop :=
  ∃ e ∈ db.evidence, cmd.wrote logicalRef e = true

theorem Used.retains {db db' : Db} {cmd : Correction} {logicalRef : String}
    (h : Used db cmd logicalRef) (kept : Retains db db') : Used db' cmd logicalRef := by
  obtain ⟨e, he, wrote⟩ := h
  obtain ⟨l, hl, _⟩ := kept.kept e he
  exact ⟨e.moved l, hl, wrote⟩

theorem used_iff {db : Db} {cmd : Correction} {logicalRef : String} :
    Used db cmd logicalRef ↔ priorRows db cmd logicalRef ≠ [] := by
  rw [priorRows, ne_eq, List.filter_eq_nil_iff]
  simp only [Used, ← Table.mem_rows, not_forall, not_not, exists_prop]

theorem used_appendHumanEvidence {db : Db} {cmd : Correction} {now : ℤ} {logicalRef : String}
    {value : Json} {strength : AssertionStrength} {lifecycle : EvidenceLifecycle}
    {spans : List String} :
    Used (appendHumanEvidence ext db cmd logicalRef value strength lifecycle spans now).1 cmd
      logicalRef := by
  refine ⟨_, mem_recordFieldEvidence.mpr (Or.inr rfl), ?_⟩
  simp [Correction.wrote, Proposal.row, Correction.evidence]

/-- An action is denied, and leaves a trace of it, or it takes effect under its key. -/
inductive Takes (ext : Externals) (db : Db) (cmd : Correction) (logicalRef : String) :
    Db → Effect → Prop
  | denied (reason : String) :
      Takes ext db cmd logicalRef (deny db logicalRef cmd reason).1 (.denied reason)
  | applied {db' : Db} (projected : Bool)
      (evolves : Evolves (Countersigned ext db cmd.actor.subject) (Blocked db.revalidations) db db')
      (used : Used db' cmd logicalRef) : Takes ext db cmd logicalRef db' (.applied projected)

section Actions

variable {source logicalRef : String} {cmd : Correction} {now : ℤ} {db db' kept : Db}
  {effect : Effect}

theorem evolves_appendHumanEvidence {value : Json} {strength : AssertionStrength}
    {lifecycle : EvidenceLifecycle} {spans : List String} {decided : Verdict → Prop}
    (seconded : strength = .confirmed → cmd.field ≠ "business_context" →
      Seconded ext db cmd.actor.subject logicalRef cmd.field value) :
    Evolves (Countersigned ext db cmd.actor.subject) decided kept
      (appendHumanEvidence ext kept cmd logicalRef value strength lifecycle spans now).1 := by
  refine (evolves_recordFieldEvidence kept _ now).mono ?_ fun _ hd => hd
  rintro _ rfl _ confirmed other
  exact ⟨rfl, seconded confirmed other⟩

theorem takes_appendAndResolve {value : Json} {strength : AssertionStrength}
    {spans : List String}
    (first : Evolves (Countersigned ext db cmd.actor.subject) (Blocked db.revalidations) db kept)
    (seconded : strength = .confirmed → cmd.field ≠ "business_context" →
      Seconded ext db cmd.actor.subject logicalRef cmd.field value)
    (h : appendAndResolve ext source logicalRef cmd now kept value strength spans =
      .ok (db', effect)) : Takes ext db cmd logicalRef db' effect := by
  obtain ⟨b, hresolve, h⟩ := bind_eq_ok.mp h
  cases h
  have appended : Evolves (Countersigned ext db cmd.actor.subject) (Blocked db.revalidations) db
      (appendHumanEvidence ext kept cmd logicalRef value strength .active spans now).1 :=
    first.trans (evolves_appendHumanEvidence seconded)
  have resolved : Evolves (Countersigned ext db cmd.actor.subject) (Blocked db.revalidations)
      (appendHumanEvidence ext kept cmd logicalRef value strength .active spans now).1 db' := by
    rw [← appended.revalidations]
    exact evolves_resolveAndProject hresolve
  exact .applied true (appended.trans resolved)
    (used_appendHumanEvidence.retains resolved.toRetains)

theorem takes_setAdvisory (h : setAdvisory ext source logicalRef cmd now db = .ok (db', effect)) :
    Takes ext db cmd logicalRef db' effect := by
  obtain ⟨allowed, h⟩ := check_bind_eq_ok.mp h
  obtain ⟨_, h⟩ := check_bind_eq_ok.mp h
  have advisory : cmd.field = "business_context" := by
    simpa [setAdvisoryFields] using ensure_eq_ok.mp allowed
  exact takes_appendAndResolve (.refl db) (fun _ other => absurd advisory other) h

theorem takes_proposeOverride {policy : FieldPolicy}
    (h : proposeOverride ext source logicalRef cmd now policy db = .ok (db', effect)) :
    Takes ext db cmd logicalRef db' effect := by
  obtain ⟨_, h⟩ := check_bind_eq_ok.mp h
  dsimp only at h
  have superseded : Evolves (Countersigned ext db cmd.actor.subject) (Blocked db.revalidations) db
      (supersedeOwnPriorProposal db logicalRef cmd.field cmd.actor.subject
        (canonicalHash ext (.ofOption cmd.replacementValue))).1 :=
    evolves_supersedeOwnPriorProposal db _ _ _ _
  split at h
  · refine takes_appendAndResolve superseded ?_ h
    intro confirmed
    cases confirmed
  · cases h
    refine .applied false (superseded.trans (evolves_appendHumanEvidence ?_))
      used_appendHumanEvidence
    intro confirmed
    cases confirmed

theorem mem_pendingOverrides {e : FieldEvidence} : e ∈ pendingOverrides ext logicalRef cmd db ↔
    e ∈ readActiveFieldEvidence db logicalRef cmd.field ∧ e.producer = .human ∧
      e.strength = .proposed ∧ canonicalHash ext e.proposedValue =
        canonicalHash ext (.ofOption cmd.replacementValue) := by
  simp [pendingOverrides, FieldEvidence.humanProposal, and_assoc]

theorem exists_of_checkBounds {field : String} {replacement : Option String}
    (h : checkBounds ext field (.ofOption replacement) = .ok ()) :
    ∃ s, replacement = some s := by
  cases replacement with
  | some s => exact ⟨s, rfl⟩
  | none =>
      obtain ⟨text, _⟩ := check_bind_eq_ok.mp h
      have blank : strip "" = "" := by decide
      exact absurd blank (ensure_eq_ok.mp text)

theorem takes_confirmOverride 
    (h : confirmOverride ext source logicalRef cmd now db = .ok (db', effect)) :
    Takes ext db cmd logicalRef db' effect := by
  obtain ⟨bounded, h⟩ := check_bind_eq_ok.mp h
  dsimp only at h
  obtain ⟨_, h⟩ := check_bind_eq_ok.mp h
  split at h
  · cases h
    exact .denied _
  · next several =>
      apply takes_appendAndResolve (.refl db) _ h
      intro _ _
      obtain ⟨s, hs⟩ := exists_of_checkBounds bounded
      simp only [List.all_eq_true, decide_eq_true_eq, not_forall] at several
      obtain ⟨e, he, other⟩ := several
      obtain ⟨active, human, _, same⟩ := mem_pendingOverrides.mp he
      rw [hs] at same ⊢
      exact ⟨e, active, fun faithful => canonicalHash_str faithful same, Or.inr ⟨human, other⟩⟩

theorem mem_selectedEvidence {e : FieldEvidence} (h : e ∈ selectedEvidence logicalRef cmd db) :
    e ∈ readActiveFieldEvidence db logicalRef cmd.field := by
  obtain ⟨id, _, found⟩ := List.mem_filterMap.mp h
  exact List.mem_of_find?_eq_some found

theorem takes_confirmExisting
    (h : confirmExisting ext source logicalRef cmd now db = .ok (db', effect)) :
    Takes ext db cmd logicalRef db' effect := by
  obtain ⟨_, h⟩ := check_bind_eq_ok.mp h
  dsimp only at h
  obtain ⟨_, h⟩ := check_bind_eq_ok.mp h
  split at h
  · cases h
    exact .denied _
  · next others =>
      split at h
      · cases h
        exact .denied _
      · next unsourced =>
          obtain ⟨agree, h⟩ := check_bind_eq_ok.mp h
          dsimp only at h
          obtain ⟨_, h⟩ := check_bind_eq_ok.mp h
          apply takes_appendAndResolve (.refl db) _ h
          intro _ _
          cases hsel : selectedEvidence logicalRef cmd db with
          | nil => simp [hsel] at agree
          | cons e es =>
              have he : e ∈ selectedEvidence logicalRef cmd db := hsel ▸ List.mem_cons_self
              simp only [Bool.not_eq_true, List.any_eq_false, FieldEvidence.proposedBy,
                Bool.and_eq_true, decide_eq_true_eq, not_and] at others unsourced
              refine ⟨e, mem_selectedEvidence he, fun _ => rfl, ?_⟩
              by_cases human : e.producer = .human
              · exact Or.inr ⟨human, others e he human⟩
              · exact Or.inl ⟨human, unsourced e he⟩

theorem ne_rejected_of_turnedDown {r : FieldEvidence}
    (h : FieldEvidence.turnedDown logicalRef cmd r = true) : r.lifecycle ≠ .rejected := by
  simp only [FieldEvidence.turnedDown, Bool.and_eq_true] at h
  exact ne_rejected_of_activeFor h.1

theorem evolves_resolveSurvivors {written : Proposal → Prop}
    (h : resolveSurvivors ext source logicalRef cmd now db = .ok db') :
    Evolves written (Blocked db.revalidations) db db' := by
  unfold resolveSurvivors at h
  split at h
  · exact evolves_staleAndClearField h
  · exact evolves_resolveAndProject h

theorem takes_reject (h : reject ext source logicalRef cmd now db = .ok (db', effect)) :
    Takes ext db cmd logicalRef db' effect := by
  obtain ⟨b, hresolve, h⟩ := bind_eq_ok.mp h
  cases h
  let marked := appendHumanEvidence ext db cmd logicalRef .null .proposed .rejected cmd.selectedIds
    now
  let retired := moveEvidence marked.1 .rejected (FieldEvidence.turnedDown logicalRef cmd)
  let head := rejection ext logicalRef cmd now b marked.2
  have appended : Evolves (Countersigned ext db cmd.actor.subject) (Blocked db.revalidations) db
      marked.1 := by
    apply evolves_appendHumanEvidence
    intro confirmed
    cases confirmed
  have moved : Evolves (Countersigned ext db cmd.actor.subject) (Blocked db.revalidations) marked.1
      retired := evolves_moveEvidence marked.1 fun _ => ne_rejected_of_turnedDown
  have resolved : Evolves (Countersigned ext db cmd.actor.subject) (Blocked db.revalidations)
      retired b := evolves_resolveSurvivors hresolve
  have recorded : Evolves (Countersigned ext db cmd.actor.subject) (Blocked db.revalidations) b
      (recordFieldDecision ext b head).1 := by
    refine (evolves_recordFieldDecision b head).mono (fun _ hp => hp) ?_
    rintro _ rfl _ _
    rfl
  have rest := (moved.trans resolved).trans recorded
  exact .applied false (appended.trans rest) (used_appendHumanEvidence.retains rest.toRetains)

theorem takes_act {policy : FieldPolicy} {action : CorrectionAction}
    (h : act ext source logicalRef cmd now policy db action = .ok (db', effect)) :
    Takes ext db cmd logicalRef db' effect := by
  cases action with
  | proposeOverride => exact takes_proposeOverride h
  | confirmOverride => exact takes_confirmOverride h
  | confirmExisting => exact takes_confirmExisting h
  | setAdvisory => exact takes_setAdvisory h
  | reject => exact takes_reject h

end Actions

section Commands

variable {cmd : Correction} {now : ℤ} {db db' : Db} {response : Response}

theorem applyFieldCorrection_cases
    (h : applyFieldCorrection ext db cmd now = .ok (db', response)) :
    ∃ action policy logicalRef, cmd.knownAction = .ok action ∧ cmd.editablePolicy = .ok policy ∧
      locate ext db cmd = .ok logicalRef ∧
      ((priorRows db cmd logicalRef = [] ∧
          applyNew ext db cmd action policy logicalRef now = .ok (db', response)) ∨
        (priorRows db cmd logicalRef ≠ [] ∧
          replay ext db cmd action logicalRef = .ok (db', response))) := by
  obtain ⟨action, known, h⟩ := bind_eq_ok.mp h
  obtain ⟨policy, editable, h⟩ := bind_eq_ok.mp h
  obtain ⟨logicalRef, located, h⟩ := bind_eq_ok.mp h
  refine ⟨action, policy, logicalRef, known, editable, located, ?_⟩
  split at h
  · next unused => exact Or.inl ⟨unused, h⟩
  · next used => exact Or.inr ⟨used, h⟩

theorem replay_spec {action : CorrectionAction} {logicalRef : String}
    (h : replay ext db cmd action logicalRef = .ok (db', response)) :
    db' = db ∧ response =
      .accepted (successBody ext db logicalRef cmd action false true) := by
  obtain ⟨_, h⟩ := check_bind_eq_ok.mp h
  cases h
  exact ⟨rfl, rfl⟩

theorem applyNew_cases {action : CorrectionAction} {policy : FieldPolicy} {logicalRef : String}
    (h : applyNew ext db cmd action policy logicalRef now = .ok (db', response)) :
    cmd.expectedCas = currentCas ext db logicalRef cmd.field ∧
      ∃ acted effect, act ext (cmd.normSource ext) logicalRef cmd now policy db action =
          .ok (acted, effect) ∧
        conclude ext (cmd.normSource ext) logicalRef cmd now action (acted, effect) =
          .ok (db', response) := by
  obtain ⟨current, h⟩ := check_bind_eq_ok.mp h
  obtain ⟨⟨acted, effect⟩, hact, h⟩ := bind_eq_ok.mp h
  exact ⟨ensure_eq_ok.mp current, acted, effect, hact, h⟩

theorem conclude_denied {source logicalRef reason : String} {action : CorrectionAction}
    (h : conclude ext source logicalRef cmd now action (db, .denied reason) =
      .ok (db', response)) : db' = db ∧ response = .denied reason := by
  cases h
  exact ⟨rfl, rfl⟩

theorem conclude_applied {written : Proposal → Prop} {source logicalRef : String}
    {action : CorrectionAction} {projected : Bool} (hw : ∀ p, Derived p → written p)
    (h : conclude ext source logicalRef cmd now action (db, .applied projected) =
      .ok (db', response)) :
    Evolves written (Blocked db.revalidations) db db' ∧
      response = .accepted (successBody ext db' logicalRef cmd action projected false) := by
  obtain ⟨b, hb, h⟩ := bind_eq_ok.mp h
  cases h
  refine ⟨?_, rfl⟩
  unfold followUp at hb
  split at hb
  · exact (evolves_rederive hb).mono hw fun _ hd => hd
  · cases hb
    exact .refl db

/-- What a command on the asset comes to: a replay, a denial, or a first acceptance. -/
inductive Comes (ext : Externals) (db : Db) (cmd : Correction) (logicalRef : String) :
    Db → Response → Prop
  | replayed (action : CorrectionAction) (used : Used db cmd logicalRef) :
      Comes ext db cmd logicalRef db
        (.accepted (successBody ext db logicalRef cmd action false true))
  | denied (reason : String) :
      Comes ext db cmd logicalRef (deny db logicalRef cmd reason).1 (.denied reason)
  | accepted {db' : Db} (action : CorrectionAction) (projected : Bool)
      (evolves : Evolves (Countersigned ext db cmd.actor.subject) (Blocked db.revalidations) db db')
      (used : Used db' cmd logicalRef) :
      Comes ext db cmd logicalRef db'
        (.accepted (successBody ext db' logicalRef cmd action projected false))

theorem comes_applyNew {action : CorrectionAction}
    {policy : FieldPolicy} {logicalRef : String}
    (h : applyNew ext db cmd action policy logicalRef now = .ok (db', response)) :
    Comes ext db cmd logicalRef db' response := by
  obtain ⟨_, acted, effect, hact, hconclude⟩ := applyNew_cases h
  cases takes_act hact with
  | denied reason =>
      obtain ⟨rfl, rfl⟩ := conclude_denied hconclude
      exact .denied reason
  | applied projected evolves used =>
      obtain ⟨last, shown⟩ : Evolves (Countersigned ext db cmd.actor.subject)
          (Blocked acted.revalidations) acted db' ∧ response =
            .accepted (successBody ext db' logicalRef cmd action projected false) :=
        conclude_applied (fun _ => countersigned_of_derived) hconclude
      subst shown
      rw [evolves.revalidations] at last
      exact .accepted action projected (evolves.trans last) (used.retains last.toRetains)

theorem comes_applyFieldCorrection 
    (h : applyFieldCorrection ext db cmd now = .ok (db', response)) :
    ∃ logicalRef, locate ext db cmd = .ok logicalRef ∧
      Comes ext db cmd logicalRef db' response := by
  obtain ⟨action, policy, logicalRef, _, _, located, ⟨_, new⟩ | ⟨used, old⟩⟩ :=
    applyFieldCorrection_cases h
  · exact ⟨logicalRef, located, comes_applyNew new⟩
  · obtain ⟨rfl, rfl⟩ := replay_spec old
    exact ⟨logicalRef, located, .replayed action (used_iff.mpr used)⟩

theorem applyFieldCorrection_of_used
    (used : ∀ logicalRef, locate ext db cmd = .ok logicalRef → Used db cmd logicalRef)
    (h : applyFieldCorrection ext db cmd now = .ok (db', response)) : db' = db := by
  obtain ⟨action, policy, logicalRef, _, _, located, ⟨unused, _⟩ | ⟨_, old⟩⟩ :=
    applyFieldCorrection_cases h
  · exact absurd unused (used_iff.mp (used logicalRef located))
  · exact (replay_spec old).1

theorem applyFieldCorrection_denied {reason : String}
    (h : applyFieldCorrection ext db cmd now = .ok (db', .denied reason)) :
    db'.evidence = db.evidence ∧ db'.decisions = db.decisions := by
  obtain ⟨logicalRef, _, comes⟩ := comes_applyFieldCorrection h
  cases comes
  exact ⟨rfl, rfl⟩

theorem used_of_applyFieldCorrection {body : Body}
    (h : applyFieldCorrection ext db cmd now = .ok (db', .accepted body)) :
    ∃ logicalRef, locate ext db cmd = .ok logicalRef ∧ Used db' cmd logicalRef := by
  obtain ⟨logicalRef, located, comes⟩ := comes_applyFieldCorrection h
  refine ⟨logicalRef, located, ?_⟩
  cases comes with
  | replayed action used => exact used
  | accepted action projected evolves used => exact used

end Commands

section Steps

variable {cmd : Correction} {now : ℤ} {db db' : Db} {a : Action}

theorem step_cases (h : step ext db a = some db') :
    a.enabled = true ∧ (db' = db ∨ a.perform ext db = .ok db') := by
  unfold step at h
  split at h
  · next enabled =>
      refine ⟨enabled, ?_⟩
      cases hperform : a.perform ext db with
      | error e =>
          rw [hperform] at h
          cases h
          exact Or.inl rfl
      | ok b =>
          rw [hperform] at h
          cases h
          exact Or.inr rfl
  · cases h

/-- What the profile surface writes is only proposed. -/
def Proposed (p : Proposal) : Prop := p.strength = .proposed

theorem evolves_reassert {decided : Verdict → Prop} (db : Db) (call : ProfileProposal)
    (changed : Bool) (now : ℤ) :
    Evolves Proposed decided db (reassert ext db call changed now).1 := by
  unfold reassert
  split
  · exact .refl db
  · split
    · apply evolves_moveEvidence
      intro r hr
      simp only [ProfileProposal.revives, Bool.and_eq_true, decide_eq_true_eq] at hr
      rw [hr.2]
      decide
    · refine (evolves_recordFieldEvidence db _ now).mono ?_ fun _ hd => hd
      rintro _ rfl
      rfl

theorem evolves_proposeProfileField {call : ProfileProposal} {result : Db × Bool}
    {decided : Verdict → Prop} (h : proposeProfileField ext db call now = .ok result) :
    Evolves Proposed decided db result.1 := by
  obtain ⟨_, h⟩ := check_bind_eq_ok.mp h
  obtain rfl := Except.ok.inj h
  exact (evolves_supersedeOwnPriorProposal db _ _ _ _).trans (evolves_reassert _ call _ now)

theorem retains_flagPendingRevalidation (db : Db)
    (logicalRef fieldName reason sourceSnapshotId : String) (now : ℤ) :
    Retains db (flagPendingRevalidation ext db logicalRef fieldName reason sourceSnapshotId
      now).1 := by
  unfold flagPendingRevalidation
  split
  · exact .refl db
  · exact ⟨fun r hr => ⟨r.lifecycle, hr, id⟩, fun _ hd => hd, rfl⟩

theorem evolves_comes {logicalRef : String} {response : Response}
    (h : Comes ext db cmd logicalRef db' response) :
    Evolves (Countersigned ext db cmd.actor.subject) (Blocked db.revalidations) db db' := by
  cases h with
  | replayed action used => exact .refl db
  | denied reason =>
      exact ⟨⟨fun r hr => ⟨r.lifecycle, hr, id⟩, fun _ hd => hd, rfl⟩,
        fun r hr => Or.inl ⟨r, hr, rfl⟩, fun _ hd => Or.inl hd, rfl⟩
  | accepted action projected evolves used => exact evolves

/-- What a call writes as a human's confirmation. -/
def Confirmation (ext : Externals) (db : Db) (a : Action) (p : Proposal) : Prop :=
  p.producer = .human → p.strength = .confirmed → p.fieldName ≠ "business_context" →
    ∃ cmd now, a = .correct cmd now ∧ p.producerRef = cmd.actor.subject ∧
      Seconded ext db p.producerRef p.logicalRef p.fieldName p.proposedValue

theorem confirmation_of_derived {p : Proposal} (h : Derived p) : Confirmation ext db a p :=
  fun human _ _ => absurd human h

theorem confirmation_of_proposed {p : Proposal} (h : Proposed p) : Confirmation ext db a p := by
  intro _ confirmed _
  rw [h] at confirmed
  cases confirmed

theorem confirmation_of_countersigned {p : Proposal}
    (h : Countersigned ext db cmd.actor.subject p) : Confirmation ext db (.correct cmd now) p := by
  intro human confirmed other
  obtain ⟨subject, seconded⟩ := h human confirmed other
  exact ⟨cmd, now, rfl, subject, subject ▸ seconded⟩

theorem evolves_perform (enabled : a.enabled = true)
    (unflagged : ∀ ref field reason snapshot now, a ≠ .flag ref field reason snapshot now)
    (h : a.perform ext db = .ok db') :
    Evolves (Confirmation ext db a) (Blocked db.revalidations) db db' := by
  cases a with
  | record p now =>
      cases h
      refine (evolves_recordFieldEvidence db p now).mono ?_ fun _ hd => hd
      rintro _ rfl
      exact confirmation_of_derived (by simpa [Action.enabled, Derived] using enabled)
  | stale ref field producer keepInput keepConfiguration =>
      cases h
      exact evolves_staleSourceEvidence db ref field producer keepInput keepConfiguration
  | flag ref field reason snapshot now => exact absurd rfl (unflagged ref field reason snapshot now)
  | resolve source refs fields now => exact evolves_resolveAndProject h
  | retire source ref field now => exact evolves_staleAndClearField h
  | correct cmd now =>
      obtain ⟨⟨after, response⟩, happly, rfl⟩ := map_eq_ok.mp h
      obtain ⟨logicalRef, _, comes⟩ := comes_applyFieldCorrection happly
      exact (evolves_comes comes).mono (fun _ => confirmation_of_countersigned) fun _ hd => hd
  | propose call now =>
      obtain ⟨result, hpropose, rfl⟩ := map_eq_ok.mp h
      exact (evolves_proposeProfileField hpropose).mono (fun _ => confirmation_of_proposed)
        fun _ hd => hd

theorem retains_perform (enabled : a.enabled = true)
    (h : a.perform ext db = .ok db') : Retains db db' := by
  by_cases flagged : ∃ ref field reason snapshot now, a = .flag ref field reason snapshot now
  · obtain ⟨ref, field, reason, snapshot, now, rfl⟩ := flagged
    cases h
    exact retains_flagPendingRevalidation db ref field reason snapshot now
  · push Not at flagged
    exact (evolves_perform enabled flagged h).toRetains

theorem retains_step (h : step ext db a = some db') :
    Retains db db' := by
  obtain ⟨enabled, rfl | performed⟩ := step_cases h
  · exact .refl _
  · exact retains_perform enabled performed

theorem retains_exec {as : List Action}
    (run : exec (step ext) db as = some db') : Retains db db' :=
  exec_induction (P := Retains db) (.refl db)
    (fun _ _ _ kept hstep => kept.trans (retains_step hstep)) run

end Steps

/-- The ref that an identity spells. -/
def spelled (ext : Externals)
    (i : String × String × String × Option String × String × Option String) : String :=
  normalizeRef ext.lower i.1 i.2.2.2.1 i.2.2.2.2.1
    (if i.2.2.1 = "column" then i.2.2.2.2.2 else none)

theorem logicalRefOf_retains {db db' : Db} (h : Retains db db') (source objectRef : String)
    (kind : Option String) :
    logicalRefOf ext db' source objectRef kind = logicalRefOf ext db source objectRef kind := by
  have found (db : Db) : (db.graph.find? (·.identifiedBy source objectRef)).map (·.logicalRef ext) =
      ((db.graph.map GraphNode.identity).find? fun i => i.1 = source && i.2.1 = objectRef).map
        (spelled ext) := by
    rw [List.find?_map, Option.map_map]
    rfl
  have same := found db'
  rw [h.identities, ← found db] at same
  unfold logicalRefOf
  cases hnew : db'.graph.find? (·.identifiedBy source objectRef) <;>
    cases hold : db.graph.find? (·.identifiedBy source objectRef) <;>
    simp_all

/-- The asset and the key of two commands are the same. -/
def Correction.Replays (cmd' cmd : Correction) : Prop :=
  cmd'.source = cmd.source ∧ cmd'.objectRef = cmd.objectRef ∧ cmd'.field = cmd.field ∧
    cmd'.idempotencyKey = cmd.idempotencyKey

theorem locate_retains {db db' : Db} {cmd cmd' : Correction} {ref ref' : String}
    (h : Retains db db') (same : cmd'.Replays cmd) (located : locate ext db cmd = .ok ref)
    (located' : locate ext db' cmd' = .ok ref') : ref' = ref := by
  obtain ⟨_, href⟩ := check_bind_eq_ok.mp located
  obtain ⟨_, href'⟩ := check_bind_eq_ok.mp located'
  obtain ⟨source, object, _, _⟩ := same
  rw [Correction.normSource, source, object, logicalRefOf_retains h] at href'
  exact Except.ok.inj (href'.symm.trans href)

def Accepted (ext : Externals) (db : Db) (cmd : Correction) (now : ℤ) : Prop :=
  ∃ db' body, applyFieldCorrection ext db cmd now = .ok (db', .accepted body)

/-- The row is new. -/
def Appended (m : Move Db Action) (r : FieldEvidence) : Prop :=
  r ∈ m.after.evidence ∧ ∀ r₀ ∈ m.before.evidence, r₀.evidenceId ≠ r.evidenceId

/-- A confirmation that a call appends is of a command's subject, for whom it is seconded. -/
def ConfirmsByFourEyes (m : Move Db Action) : Prop :=
  ∀ r, Appended m r → r.producer = .human → r.strength = .confirmed →
    r.fieldName ≠ "business_context" →
    ∃ cmd now, m.action = .correct cmd now ∧ r.producerRef = cmd.actor.subject ∧
      ∃ e ∈ readActiveFieldEvidence m.before r.logicalRef r.fieldName,
        e.proposedValue = r.proposedValue ∧ (e.service ∨ e.another r.producerRef)

/-- A command or proposal that is not accepted appends nothing. -/
def LeavesOnRefusal (ext : Externals) (m : Move Db Action) : Prop :=
  (∀ cmd now, m.action = .correct cmd now → ¬ Accepted ext m.before cmd now →
    m.after.evidence = m.before.evidence ∧ m.after.decisions = m.before.decisions) ∧
  ∀ call now, m.action = .propose call now →
    (∀ result, proposeProfileField ext m.before call now ≠ .ok result) → m.after = m.before

theorem confirmsByFourEyes (faithful : ext.Faithful) {m : Move Db Action}
    (h : step ext m.before m.action = some m.after) : ConfirmsByFourEyes m := by
  intro r new human confirmed other
  obtain ⟨enabled, same | performed⟩ := step_cases h
  · exact absurd rfl (new.2 r (same ▸ new.1))
  · by_cases flagged : ∃ ref field reason snapshot now,
        m.action = .flag ref field reason snapshot now
    · obtain ⟨ref, field, reason, snapshot, now, hflag⟩ := flagged
      rw [hflag] at performed
      have kept : m.after.evidence = m.before.evidence := by
        rw [← Except.ok.inj performed]
        unfold flagPendingRevalidation
        split <;> rfl
      exact absurd rfl (new.2 r (kept ▸ new.1))
    · push Not at flagged
      have evolves := evolves_perform enabled flagged performed
      rcases evolves.appended r new.1 with ⟨r₀, hr₀, hid⟩ | ⟨l, written⟩
      · exact absurd hid (new.2 r₀ hr₀)
      · obtain ⟨cmd, now, haction, subject, e, he, same, second⟩ := written human confirmed other
        exact ⟨cmd, now, haction, subject, e, he, same faithful, second⟩

theorem leavesOnRefusal {m : Move Db Action}
    (h : step ext m.before m.action = some m.after) : LeavesOnRefusal ext m := by
  obtain ⟨_, same | performed⟩ := step_cases h
  · rw [LeavesOnRefusal, same]
    exact ⟨fun _ _ _ _ => ⟨rfl, rfl⟩, fun _ _ _ _ => rfl⟩
  · constructor
    · intro cmd now haction refused
      rw [haction] at performed
      obtain ⟨⟨after, response⟩, happly, hafter⟩ := map_eq_ok.mp performed
      obtain rfl : after = m.after := hafter
      cases response with
      | accepted body => exact absurd ⟨_, body, happly⟩ refused
      | denied reason => exact applyFieldCorrection_denied happly
    · intro call now haction refused
      rw [haction] at performed
      obtain ⟨result, hpropose, _⟩ := map_eq_ok.mp performed
      exact absurd hpropose (refused result)

theorem step_correct {cmd : Correction} {now : ℤ} {response : Response} {db db' after : Db}
    (h : step ext db (.correct cmd now) = some after)
    (happly : applyFieldCorrection ext db cmd now = .ok (db', response)) : after = db' := by
  simpa [step, Action.enabled, Action.perform, happly, Except.map, Except.toOption] using h.symm

theorem replay_leaves {m m' : Move Db Action} {cmd cmd' : Correction}
    {now now' : ℤ} (h : step ext m.before m.action = some m.after)
    (h' : step ext m'.before m'.action = some m'.after) (kept : Retains m.after m'.before)
    (haction : m.action = .correct cmd now) (accepted : Accepted ext m.before cmd now)
    (haction' : m'.action = .correct cmd' now') (same : cmd'.Replays cmd) :
    m'.after = m'.before := by
  obtain ⟨after, body, happly⟩ := accepted
  rw [haction] at h
  obtain rfl := step_correct h happly
  obtain ⟨logicalRef, located, used⟩ := used_of_applyFieldCorrection happly
  have before : Retains m.before m'.before := (retains_step h).trans kept
  have wrote : cmd'.wrote = cmd.wrote := by
    unfold Correction.wrote
    rw [same.2.2.1, same.2.2.2]
  obtain ⟨_, unchanged | performed⟩ := step_cases h'
  · exact unchanged
  · rw [haction'] at performed
    obtain ⟨⟨after', response⟩, happly', rfl⟩ := map_eq_ok.mp performed
    refine applyFieldCorrection_of_used (fun ref located' => ?_) happly'
    obtain rfl := locate_retains before same located located'
    obtain ⟨e, he, hwrote⟩ := used.retains kept
    exact ⟨e, he, by rw [wrote]; exact hwrote⟩

theorem retains_of_history {start : Db} {as : List Action}
    {past mid rest : List (Move Db Action)} {m m' : Move Db Action}
    (h : history (step ext) start as = past ++ m :: (mid ++ m' :: rest)) :
    Retains m.after m'.before := by
  obtain ⟨_, post, _, _, _, hpost⟩ := exists_split_of_history_eq h
  obtain ⟨pre, _, _, hpre, _, _⟩ := exists_split_of_history_eq hpost
  exact retains_exec hpre

/-- Every confirmation is by four eyes, what is refused or denied appends nothing, a command
    under the key of one that was accepted leaves the stores, and a rejected row stays as it is. -/
theorem corrections_by_four_eyes (faithful : ext.Faithful) (start : Db) (as : List Action) :
    (∀ m ∈ history (step ext) start as, ConfirmsByFourEyes m ∧ LeavesOnRefusal ext m) ∧
    (∀ (past : List (Move Db Action)) (m : Move Db Action) (mid : List (Move Db Action))
        (m' : Move Db Action) (rest : List (Move Db Action)),
      history (step ext) start as = past ++ m :: (mid ++ m' :: rest) →
      ∀ cmd now cmd' now', m.action = .correct cmd now → Accepted ext m.before cmd now →
        m'.action = .correct cmd' now' → cmd'.Replays cmd → m'.after = m'.before) ∧
    ∀ (past : List (Move Db Action)) (m : Move Db Action) (rest : List (Move Db Action)),
      history (step ext) start as = past ++ m :: rest →
      ∀ r ∈ m.before.evidence, r.lifecycle = .rejected →
        ∀ m' ∈ m :: rest, r ∈ m'.after.evidence := by
  refine ⟨?_, ?_, ?_⟩
  · intro m hm
    have hstep := step_of_mem_history hm
    exact ⟨confirmsByFourEyes faithful hstep, leavesOnRefusal hstep⟩
  · intro past m mid m' rest h cmd now cmd' now' haction accepted haction' same
    have hm : m ∈ history (step ext) start as := by simp [h]
    have hm' : m' ∈ history (step ext) start as := by simp [h]
    exact replay_leaves (step_of_mem_history hm) (step_of_mem_history hm') (retains_of_history h)
      haction accepted haction' same
  · intro past m rest h r hr rejected m' hm'
    have hm : m ∈ history (step ext) start as := by simp [h]
    have here : r ∈ m.after.evidence :=
      (retains_step (step_of_mem_history hm)).rejected hr rejected
    cases List.mem_cons.mp hm' with
    | inl eq =>
        rw [eq]
        exact here
    | inr hm' =>
        obtain ⟨mid, later, eq⟩ := List.append_of_mem hm'
        rw [eq] at h
        have hm' : m' ∈ history (step ext) start as := by simp [h]
        have kept := (retains_of_history h).trans (retains_step (step_of_mem_history hm'))
        exact kept.rejected here rejected

end FourEyes

def longerId (_ : String) (taken : List String) : String :=
  String.ofList (List.replicate ((taken.map String.length).sum + 1) 'x')

theorem longerId_fresh (kind : String) (taken : List String) : longerId kind taken ∉ taken := by
  intro mem
  have bound : (longerId kind taken).length ≤ (taken.map String.length).sum :=
    List.single_le_sum (fun _ _ => Nat.zero_le _) _ (List.mem_map_of_mem mem)
  simp [longerId] at bound

/-- Texts as their own digests, a registry without concepts. -/
def plainExternals : Externals where
  sha256 := id
  mintId := longerId
  mintId_fresh := longerId_fresh
  lower := id
  iterated := id
  concept := fun _ => none
  str := fun value => String.ofList value.dumps

theorem plainExternals_faithful : plainExternals.Faithful := Function.injective_id

/-- A column of a catalog, and nothing said of it. -/
def bareColumn : Db where
  evidence := .empty
  decisions := .empty
  revalidations := []
  graph := [⟨"core", "public.accounts.balance", "column", none, "accounts", some "balance",
    fun _ => none⟩]
  denials := []

def proposedUnit : ProfileProposal where
  logicalRef := "core::public.accounts.balance"
  field := "unit"
  value := "AED"
  actor := ⟨"ann", []⟩
  note := none

/-- Its confirmation by another subject. -/
def confirmedUnit : Correction where
  source := "core"
  objectRef := "public.accounts.balance"
  field := "unit"
  action := "confirm_override"
  actor := ⟨"ben", []⟩
  idempotencyKey := "k1"
  expectedLatestDecisionId := none
  expectedEvidenceSetHash := "[\"human:proposed:\\\"AED\\\"\"]"
  expectedPolicyVersion := "upload-field-policy-v1"
  selectedEvidenceIds := []
  replacementValue := some "AED"
  note := none

def correctedTwice : List Action :=
  [.propose proposedUnit 0, .correct confirmedUnit 1, .correct confirmedUnit 2]

theorem corrections_by_four_eyes_bareColumn :
    (history (step plainExternals) bareColumn correctedTwice).length = 3 ∧
      ∀ m ∈ history (step plainExternals) bareColumn correctedTwice,
        ConfirmsByFourEyes m ∧ LeavesOnRefusal plainExternals m :=
  ⟨by decide +kernel, (corrections_by_four_eyes plainExternals_faithful bareColumn _).1⟩

end FeatureGen.GovernedFields
