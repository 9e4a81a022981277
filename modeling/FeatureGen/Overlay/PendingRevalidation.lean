import FeatureGen.Overlay.FourEyes

/-! # Pending revalidation

A pending flag blocks every load-bearing value of its field. Nothing clears it, so that an
accepted confirmation of a pending field does not make what it confirms load-bearing.
-/

namespace FeatureGen.GovernedFields

open Overlay Checks Transition

section Pending

variable {ext : Externals}

theorem presentFields_of_active {db : Db} {logicalRef field : String}
    (active : readActiveFieldEvidence db logicalRef field ≠ []) :
    presentFields db logicalRef (some [field]) = [field] := by
  have listed : field ∈ activeFieldNames db logicalRef := by
    obtain ⟨e, he⟩ := List.exists_mem_of_ne_nil _ active
    obtain ⟨mem, hactive⟩ := mem_readActiveFieldEvidence.mp he
    obtain ⟨href, hfield, hlive⟩ := activeFor_iff.mp hactive
    refine List.mem_dedup.mpr (List.mem_map.mpr ⟨e, List.mem_filter.mpr ⟨mem, ?_⟩, hfield⟩)
    simp [href, hlive]
  have once : (activeFieldNames db logicalRef).count field = 1 :=
    List.count_eq_one_of_mem (List.nodup_dedup _) listed
  have only : presentFields db logicalRef (some [field]) =
      (activeFieldNames db logicalRef).filter (· == field) := by
    unfold presentFields
    exact List.filter_congr fun f _ => by rw [Bool.eq_iff_iff]; simp
  rw [only, List.filter_beq, once]
  rfl

theorem resolveAndProject_single {db : Db} {source logicalRef field : String} {now : ℤ}
    (active : readActiveFieldEvidence db logicalRef field ≠ [])
    (generic : sensitivityFields.contains field = false) :
    resolveAndProject ext db source [logicalRef] (some [field]) now =
      resolveGenericField ext db source logicalRef field now := by
  have one : resolveRef ext source (some [field]) now db logicalRef =
      resolveGenericField ext db source logicalRef field now := by
    have sorted : KeySort.sortBy id [field] = [field] := rfl
    unfold resolveRef
    simp only [presentFields_of_active active, sorted, List.filter_cons, List.filter_nil, generic,
      Bool.not_false, if_true, List.foldlM_cons, List.foldlM_nil, List.any_cons, List.any_nil,
      Bool.or_false, Bool.false_eq_true, if_false, bind_pure]
  unfold resolveAndProject
  rw [List.foldlM_cons, one]
  simp only [List.foldlM_nil, bind_pure]

theorem exists_policy {field : String} (hf : field ∈ flaggableFields) :
    ∃ policy, policyFor field = some policy ∧ policy.humanEditable = true ∧
      policy.conflictStrategy = .preferConfirmed ∧
      sensitivityFields.contains field = false ∧ field ≠ "concept" := by
  have all : ∀ f ∈ flaggableFields, (policyFor f).any (fun policy => policy.humanEditable &&
      policy.conflictStrategy = .preferConfirmed && !sensitivityFields.contains f &&
      f ≠ "concept") = true := by
    decide +kernel
  obtain ⟨policy, registered, h⟩ := (Option.any_eq_true _ _).mp (all field hf)
  simp only [Bool.and_eq_true, decide_eq_true_eq, Bool.not_eq_true'] at h
  exact ⟨policy, registered, h.1.1.1, h.1.1.2, h.1.2, h.2⟩

theorem exists_resolution {iterated : List String → List String}
    {evidence : List FieldEvidenceView} {policy : FieldPolicy} {active : List Disqualifier}
    (h : policy.conflictStrategy = .preferConfirmed) :
    ∃ resolution, resolveFieldAuthority iterated evidence policy active = .ok resolution := by
  unfold resolveFieldAuthority operationalOutcome
  split
  · exact ⟨_, rfl⟩
  · split
    · exact ⟨_, rfl⟩
    · unfold selectValue
      split
      · exact ⟨_, rfl⟩
      · rw [h]
        exact ⟨_, rfl⟩

theorem exists_resolved_iff {db : Db} {source logicalRef field : String} {now : ℤ}
    (hf : field ∈ flaggableFields) :
    (∃ db', resolveGenericField ext db source logicalRef field now = .ok db') ↔
      ∃ parts, parseRef logicalRef = .ok parts := by
  obtain ⟨policy, registered, _, prefers, _⟩ := exists_policy hf
  obtain ⟨resolution, resolved⟩ : ∃ resolution, resolutionOf ext db logicalRef field policy =
      .ok resolution := exists_resolution prefers
  simp only [resolveGenericField, registered, resolved, settle, projectDisplay, graphKey,
    resolvedBy]
  cases parseRef logicalRef with
  | error text => simp [Except.map]
  | ok parts => simp [Except.map]

section Confirming

variable {source logicalRef : String} {cmd : Correction} {now : ℤ} {db db' : Db}

theorem active_appended {value : Json} {strength : AssertionStrength} {spans : List String} :
    readActiveFieldEvidence (appendHumanEvidence ext db cmd logicalRef value strength .active
      spans now).1 logicalRef cmd.field ≠ [] := by
  apply List.ne_nil_of_mem
  refine mem_readActiveFieldEvidence.mpr ⟨mem_recordFieldEvidence.mpr (Or.inr rfl), ?_⟩
  simp [activeFor_iff, Proposal.row, Correction.evidence]

theorem effect_of_appendAndResolve {value : Json} {strength : AssertionStrength}
    {spans : List String} {effect : Effect}
    (h : appendAndResolve ext source logicalRef cmd now db value strength spans =
      .ok (db', effect)) : effect = .applied true := by
  obtain ⟨b, _, h⟩ := bind_eq_ok.mp h
  cases h
  rfl

theorem exists_appended_iff (hf : cmd.field ∈ flaggableFields) {value : Json}
    {strength : AssertionStrength} {spans : List String} :
    (∃ db', appendAndResolve ext source logicalRef cmd now db value strength spans =
      .ok (db', .applied true)) ↔ ∃ parts, parseRef logicalRef = .ok parts := by
  obtain ⟨_, _, _, _, generic, _⟩ := exists_policy hf
  have resolved : (∃ b, resolveAndProject ext (appendHumanEvidence ext db cmd logicalRef value
      strength .active spans now).1 source [logicalRef] (some [cmd.field]) now = .ok b) ↔
      ∃ parts, parseRef logicalRef = .ok parts := by
    rw [resolveAndProject_single active_appended generic]
    exact exists_resolved_iff hf
  rw [← resolved]
  constructor
  · intro ⟨db', h⟩
    obtain ⟨b, hresolve, _⟩ := bind_eq_ok.mp h
    exact ⟨b, hresolve⟩
  · intro ⟨b, hresolve⟩
    exact ⟨b, bind_eq_ok.mpr ⟨b, hresolve, rfl⟩⟩

/-- The checks of `_confirm_override`. -/
def OverrideVetted (ext : Externals) (db : Db) (cmd : Correction) (logicalRef : String) : Prop :=
  checkBounds ext cmd.field (.ofOption cmd.replacementValue) = .ok () ∧
    ∃ e ∈ pendingOverrides ext logicalRef cmd db, e.producerRef ≠ cmd.actor.subject

theorem confirmOverride_eq_ok {projected : Bool} :
    confirmOverride ext source logicalRef cmd now db = .ok (db', .applied projected) ↔
      OverrideVetted ext db cmd logicalRef ∧
        appendAndResolve ext source logicalRef cmd now db (.ofOption cmd.replacementValue)
          .confirmed ((pendingOverrides ext logicalRef cmd db).map (·.evidenceId)) =
            .ok (db', .applied projected) := by
  unfold confirmOverride OverrideVetted
  dsimp only
  rw [check_bind_eq_ok, check_bind_eq_ok, ensure_eq_ok]
  split
  · next own =>
      simp only [List.all_eq_true, decide_eq_true_eq] at own
      constructor
      · intro h
        cases h.2.2
      · intro ⟨⟨_, e, he, other⟩, _⟩
        exact absurd (own e he) other
  · next several =>
      simp only [List.all_eq_true, decide_eq_true_eq, not_forall] at several
      obtain ⟨e, he, other⟩ := several
      constructor
      · intro ⟨bounded, _, h⟩
        exact ⟨⟨bounded, e, he, other⟩, h⟩
      · intro ⟨⟨bounded, _⟩, h⟩
        exact ⟨bounded, List.ne_nil_of_mem he, h⟩

/-- The value that `_confirm_existing` confirms. -/
def selectedValue (db : Db) (cmd : Correction) (logicalRef : String) : Json :=
  ((selectedEvidence logicalRef cmd db).head?.map (·.proposedValue)).getD .null

/-- The checks of `_confirm_existing`. -/
def ExistingVetted (ext : Externals) (db : Db) (cmd : Correction) (logicalRef : String) : Prop :=
  cmd.selectedIds ≠ [] ∧
    (selectedEvidence logicalRef cmd db).length = cmd.selectedIds.length ∧
    (∀ e ∈ selectedEvidence logicalRef cmd db,
      e.proposedBy cmd.actor.subject = false ∧ e.producer ≠ .source) ∧
    ((selectedEvidence logicalRef cmd db).map
      fun e => canonicalHash ext e.proposedValue).dedup.length = 1 ∧
    checkBounds ext cmd.field (selectedValue db cmd logicalRef) = .ok ()

theorem confirmExisting_eq_ok {projected : Bool} :
    confirmExisting ext source logicalRef cmd now db = .ok (db', .applied projected) ↔
      ExistingVetted ext db cmd logicalRef ∧
        appendAndResolve ext source logicalRef cmd now db (selectedValue db cmd logicalRef)
          .confirmed cmd.selectedIds = .ok (db', .applied projected) := by
  unfold confirmExisting ExistingVetted
  dsimp only
  rw [check_bind_eq_ok, check_bind_eq_ok, ensure_eq_ok, ensure_eq_ok]
  split
  · next own =>
      obtain ⟨e, he, mine⟩ := List.any_eq_true.mp own
      constructor
      · intro h
        cases h.2.2
      · intro ⟨⟨_, _, others, _⟩, _⟩
        rw [(others e he).1] at mine
        cases mine
  · next others =>
      split
      · next sourced =>
          obtain ⟨e, he, file⟩ := List.any_eq_true.mp sourced
          constructor
          · intro h
            cases h.2.2
          · intro ⟨⟨_, _, unsourced, _⟩, _⟩
            exact absurd (of_decide_eq_true file) (unsourced e he).2
      · next unsourced =>
          simp only [Bool.not_eq_true, List.any_eq_false, decide_eq_true_eq] at others unsourced
          unfold confirmSelected
          dsimp only
          rw [check_bind_eq_ok, check_bind_eq_ok, ensure_eq_ok]
          constructor
          · intro ⟨chosen, known, agree, bounded, h⟩
            exact ⟨⟨chosen, known, fun e he => ⟨by simpa using others e he, unsourced e he⟩, agree,
              bounded⟩, h⟩
          · intro ⟨⟨chosen, known, _, agree, bounded⟩, h⟩
            exact ⟨chosen, known, agree, bounded, h⟩

/-- The checks of the action that a command names. -/
def Vetted (ext : Externals) (db : Db) (cmd : Correction) (logicalRef : String) : Prop :=
  (cmd.knownAction = .ok .confirmOverride ∧ OverrideVetted ext db cmd logicalRef) ∨
    (cmd.knownAction = .ok .confirmExisting ∧ ExistingVetted ext db cmd logicalRef)

/-- A command confirms the field of an asset, on the state before it: the asset is seen and its
    ref can be read, the key is new, the view current, and the checks of the action pass. -/
def Confirmable (ext : Externals) (db : Db) (cmd : Correction) (logicalRef : String) : Prop :=
  locate ext db cmd = .ok logicalRef ∧ (∃ parts, parseRef logicalRef = .ok parts) ∧
    priorRows db cmd logicalRef = [] ∧
    cmd.expectedCas = currentCas ext db logicalRef cmd.field ∧ Vetted ext db cmd logicalRef

/-- A confirmation is accepted, and is no replay. -/
def Confirms (ext : Externals) (db : Db) (cmd : Correction) (now : ℤ) (logicalRef : String)
    (db' : Db) : Prop :=
  locate ext db cmd = .ok logicalRef ∧
    (cmd.knownAction = .ok .confirmOverride ∨ cmd.knownAction = .ok .confirmExisting) ∧
    ∃ body, applyFieldCorrection ext db cmd now = .ok (db', .accepted body) ∧
      body.replayed = false

theorem exists_acted_iff (hf : cmd.field ∈ flaggableFields) {policy : FieldPolicy}
    {action : CorrectionAction} (known : cmd.knownAction = .ok action)
    (confirms : action = .confirmOverride ∨ action = .confirmExisting) :
    (∃ db' projected, act ext source logicalRef cmd now policy db action =
      .ok (db', .applied projected)) ↔
        Vetted ext db cmd logicalRef ∧ ∃ parts, parseRef logicalRef = .ok parts := by
  rcases confirms with rfl | rfl
  · have vetted : Vetted ext db cmd logicalRef ↔ OverrideVetted ext db cmd logicalRef := by
      simp [Vetted, known]
    rw [vetted]
    constructor
    · intro ⟨db', projected, h⟩
      obtain ⟨checked, h⟩ := confirmOverride_eq_ok.mp h
      cases effect_of_appendAndResolve h
      exact ⟨checked, (exists_appended_iff hf).mp ⟨db', h⟩⟩
    · intro ⟨checked, parts⟩
      obtain ⟨db', h⟩ := (exists_appended_iff hf).mpr parts
      exact ⟨db', true, confirmOverride_eq_ok.mpr ⟨checked, h⟩⟩
  · have vetted : Vetted ext db cmd logicalRef ↔ ExistingVetted ext db cmd logicalRef := by
      simp [Vetted, known]
    rw [vetted]
    constructor
    · intro ⟨db', projected, h⟩
      obtain ⟨checked, h⟩ := confirmExisting_eq_ok.mp h
      cases effect_of_appendAndResolve h
      exact ⟨checked, (exists_appended_iff hf).mp ⟨db', h⟩⟩
    · intro ⟨checked, parts⟩
      obtain ⟨db', h⟩ := (exists_appended_iff hf).mpr parts
      exact ⟨db', true, confirmExisting_eq_ok.mpr ⟨checked, h⟩⟩

theorem editablePolicy_of_flaggable (hf : cmd.field ∈ flaggableFields) :
    ∃ policy, cmd.editablePolicy = .ok policy := by
  obtain ⟨policy, registered, editable, _⟩ := exists_policy hf
  exact ⟨policy, by simp [Correction.editablePolicy, registered, editable]⟩

theorem exists_confirms_iff (hf : cmd.field ∈ flaggableFields) :
    (∃ db', Confirms ext db cmd now logicalRef db') ↔ Confirmable ext db cmd logicalRef := by
  constructor
  · intro ⟨db', located, confirming, body, happly, fresh⟩
    obtain ⟨action, policy, ref, known, _, located', ⟨unused, new⟩ | ⟨_, old⟩⟩ :=
      applyFieldCorrection_cases happly
    · rw [located] at located'
      cases located'
      obtain ⟨current, acted, effect, hact, hconclude⟩ := applyNew_cases new
      cases effect with
      | denied reason => cases (conclude_denied hconclude).2
      | applied projected =>
          have confirms : action = .confirmOverride ∨ action = .confirmExisting := by
            rw [known] at confirming
            exact confirming.imp Except.ok.inj Except.ok.inj
          obtain ⟨vetted, parts⟩ := (exists_acted_iff hf known confirms).mp ⟨acted, projected, hact⟩
          exact ⟨located, parts, unused, current, vetted⟩
    · obtain ⟨_, shown⟩ := replay_spec old
      cases shown
      cases fresh
  · intro ⟨located, parts, unused, current, vetted⟩
    obtain ⟨policy, editable⟩ := editablePolicy_of_flaggable hf
    obtain ⟨action, known, confirms⟩ : ∃ action, cmd.knownAction = .ok action ∧
        (action = .confirmOverride ∨ action = .confirmExisting) :=
      vetted.elim (fun h => ⟨_, h.1, Or.inl rfl⟩) fun h => ⟨_, h.1, Or.inr rfl⟩
    obtain ⟨acted, projected, hact⟩ := (exists_acted_iff hf known confirms).mpr ⟨vetted, parts⟩
    obtain ⟨_, _, _, _, _, other⟩ := exists_policy hf
    have followed : followUp ext (cmd.normSource ext) logicalRef cmd now action acted =
        .ok acted := by
      simp [followUp, other]
    have concluded : conclude ext (cmd.normSource ext) logicalRef cmd now action
        (acted, .applied projected) =
          .ok (acted, .accepted (successBody ext acted logicalRef cmd action projected false)) :=
      bind_eq_ok.mpr ⟨acted, followed, rfl⟩
    have new : applyNew ext db cmd action policy logicalRef now =
        .ok (acted, .accepted (successBody ext acted logicalRef cmd action projected false)) :=
      check_bind_eq_ok.mpr ⟨ensure_eq_ok.mpr current, bind_eq_ok.mpr ⟨_, hact, concluded⟩⟩
    refine ⟨acted, located, ?_, successBody ext acted logicalRef cmd action projected false, ?_,
      rfl⟩
    · rw [known]
      exact confirms.imp (congrArg _) (congrArg _)
    · refine bind_eq_ok.mpr ⟨action, known, bind_eq_ok.mpr ⟨policy, editable,
        bind_eq_ok.mpr ⟨logicalRef, located, ?_⟩⟩⟩
      rw [if_pos unused]
      exact new

end Confirming

def Recorded (m : Move Db Action) (logicalRef field : String) (d : FieldDecisionEvent) : Prop :=
  d ∈ m.after.decisions ∧ d ∉ m.before.decisions ∧ d.logicalRef = logicalRef ∧ d.fieldName = field

def ConfirmedRow (m : Move Db Action) (logicalRef field : String) (e : FieldEvidence) : Prop :=
  Appended m e ∧ e.logicalRef = logicalRef ∧ e.fieldName = field ∧ e.producer = .human ∧
    e.strength = .confirmed

def ConfirmsField (ext : Externals) (m : Move Db Action) (logicalRef field : String) : Prop :=
  ∃ cmd now, m.action = .correct cmd now ∧ cmd.field = field ∧
    Confirms ext m.before cmd now logicalRef m.after

def CarriesConfirmed (ext : Externals) (m : Move Db Action) (logicalRef field : String) : Prop :=
  ∃ e d, ConfirmedRow m logicalRef field e ∧ Recorded m logicalRef field d ∧
    d.loadBearingValueHash = some (canonicalHash ext (.str (valueText e.proposedValue)))

/-- While the field is pending nothing load-bearing is recorded of it. A confirmation that finds
    it pending, the first after the flag where the one before consumed it, carries its value and
    consumes the flag. Nothing else does. -/
def BlocksUntilConfirmed (ext : Externals) (history : List (Move Db Action)) : Prop :=
  ∀ m ∈ history, ∀ logicalRef, ∀ field ∈ flaggableFields,
    pending m.before logicalRef field = true →
      (pending m.after logicalRef field = true → ∀ d, Recorded m logicalRef field d →
        d.loadBearingValueHash = none) ∧
      (ConfirmsField ext m logicalRef field →
        CarriesConfirmed ext m logicalRef field ∧ pending m.after logicalRef field = false) ∧
      (pending m.after logicalRef field = false → ConfirmsField ext m logicalRef field)

/-- No confirmation of a pending field passes its checks. -/
def LeavesPending (ext : Externals) (history : List (Move Db Action)) : Prop :=
  ∀ m ∈ history, ∀ logicalRef, ∀ field ∈ flaggableFields,
    pending m.before logicalRef field = true →
      ∀ cmd now, m.action = .correct cmd now → cmd.field = field →
        ¬ Confirmable ext m.before cmd logicalRef

theorem pending_flagPendingRevalidation {db : Db} {logicalRef field : String}
    (flagged : pending db logicalRef field = true)
    (ref name reason snapshot : String) (now : ℤ) :
    pending (flagPendingRevalidation ext db ref name reason snapshot now).1 logicalRef field =
      true := by
  unfold flagPendingRevalidation
  split
  · exact flagged
  · unfold pending at flagged ⊢
    rw [List.any_append, flagged, Bool.true_or]

theorem decisions_flagPendingRevalidation (db : Db) (ref name reason snapshot : String)
    (now : ℤ) : (flagPendingRevalidation ext db ref name reason snapshot now).1.decisions =
      db.decisions := by
  unfold flagPendingRevalidation
  split
  · rfl
  · rfl

theorem blocked_step {m : Move Db Action} {logicalRef field : String}
    (hf : field ∈ flaggableFields) (h : step ext m.before m.action = some m.after)
    (flagged : pending m.before logicalRef field = true) :
    pending m.after logicalRef field = true ∧ ∀ d, Recorded m logicalRef field d →
      d.loadBearingValueHash = none := by
  obtain ⟨enabled, same | performed⟩ := step_cases h
  · refine ⟨same ▸ flagged, fun d recorded => ?_⟩
    exact absurd (same ▸ recorded.1) recorded.2.1
  · by_cases raised : ∃ ref name reason snapshot now, m.action = .flag ref name reason snapshot now
    · obtain ⟨ref, name, reason, snapshot, now, haction⟩ := raised
      rw [haction] at performed
      obtain after := Except.ok.inj performed
      rw [← after]
      refine ⟨pending_flagPendingRevalidation flagged ref name reason snapshot now,
        fun d recorded => ?_⟩
      have here := recorded.1
      rw [← after, decisions_flagPendingRevalidation] at here
      exact absurd here recorded.2.1
    · push Not at raised
      have evolves := evolves_perform enabled raised performed
      refine ⟨(evolves.pending_eq logicalRef field).trans flagged, fun d recorded => ?_⟩
      obtain ⟨here, new, href, hfield⟩ := recorded
      rcases evolves.recorded d here with old | blocked
      · exact absurd old new
      · subst href hfield
        exact blocked hf flagged

/-- A pending field is blocked until it is confirmed exactly where no confirmation of it, while it
    is pending, passes its checks. -/
theorem blocksUntilConfirmed_iff (ext : Externals) (start : Db) (as : List Action) :
    BlocksUntilConfirmed ext (history (step ext) start as) ↔
      LeavesPending ext (history (step ext) start as) := by
  constructor
  · intro blocks m hm logicalRef field hf flagged cmd now haction hfield confirmable
    have hstep := step_of_mem_history hm
    obtain rfl := hfield
    obtain ⟨after, confirms⟩ : ∃ after, Confirms ext m.before cmd now logicalRef after :=
      (exists_confirms_iff hf).mpr confirmable
    obtain ⟨body, happly, fresh⟩ := confirms.2.2
    have here : m.after = after := step_correct (haction ▸ hstep) happly
    have confirmed : ConfirmsField ext m logicalRef cmd.field :=
      ⟨cmd, now, haction, rfl, here ▸ confirms⟩
    have consumed := ((blocks m hm logicalRef cmd.field hf flagged).2.1 confirmed).2
    rw [(blocked_step hf hstep flagged).1] at consumed
    cases consumed
  · intro leaves m hm logicalRef field hf flagged
    obtain ⟨kept, blocked⟩ := blocked_step hf (step_of_mem_history hm) flagged
    refine ⟨fun _ => blocked, ?_, ?_⟩
    · intro ⟨cmd, now, haction, hfield, confirms⟩
      obtain rfl := hfield
      have confirmable : Confirmable ext m.before cmd logicalRef :=
        (exists_confirms_iff hf).mp ⟨m.after, confirms⟩
      exact absurd confirmable (leaves m hm logicalRef cmd.field hf flagged cmd now haction rfl)
    · intro cleared
      rw [kept] at cleared
      cases cleared

end Pending

/-- A confirmed unit, flagged on a re-upload that changed the column's material. -/
def flaggedRun : List Action :=
  [.propose proposedUnit 0, .correct confirmedUnit 1,
    .flag "core::public.accounts.balance" "unit" "material_changed" "s2" 2]

def flaggedColumn : Db := (exec (step plainExternals) bareColumn flaggedRun).getD bareColumn

/-- The unit is confirmed again, from the evidence of its first proposal. -/
def reconfirmedUnit : Correction where
  source := "core"
  objectRef := "public.accounts.balance"
  field := "unit"
  action := "confirm_existing"
  actor := ⟨"cy", []⟩
  idempotencyKey := "k2"
  expectedLatestDecisionId := some "x"
  expectedEvidenceSetHash :=
    "[\"human:confirmed:\\\"AED\\\"\",\"human:proposed:\\\"AED\\\"\"]"
  expectedPolicyVersion := "upload-field-policy-v1"
  selectedEvidenceIds := ["x"]
  replacementValue := none
  note := none

theorem flaggedColumn_checks :
    pending flaggedColumn "core::public.accounts.balance" "unit" = true ∧
    (locate plainExternals flaggedColumn reconfirmedUnit).toOption =
      some "core::public.accounts.balance" ∧
    (parseRef "core::public.accounts.balance").toOption.isSome = true ∧
    (priorRows flaggedColumn reconfirmedUnit "core::public.accounts.balance").isEmpty = true ∧
    reconfirmedUnit.expectedCas =
      currentCas plainExternals flaggedColumn "core::public.accounts.balance" "unit" := by
  decide +kernel

theorem flaggedColumn_vetted :
    reconfirmedUnit.selectedIds ≠ [] ∧
    (selectedEvidence "core::public.accounts.balance" reconfirmedUnit flaggedColumn).length =
      reconfirmedUnit.selectedIds.length ∧
    (∀ e ∈ selectedEvidence "core::public.accounts.balance" reconfirmedUnit flaggedColumn,
      e.proposedBy reconfirmedUnit.actor.subject = false ∧ e.producer ≠ .source) ∧
    ((selectedEvidence "core::public.accounts.balance" reconfirmedUnit flaggedColumn).map
      fun e => canonicalHash plainExternals e.proposedValue).dedup.length = 1 ∧
    (checkBounds plainExternals "unit" (selectedValue flaggedColumn reconfirmedUnit
      "core::public.accounts.balance")).toOption.isSome = true := by
  decide +kernel

theorem flaggedColumn_confirmable : Confirmable plainExternals flaggedColumn reconfirmedUnit
    "core::public.accounts.balance" := by
  obtain ⟨_, located, parts, unused, current⟩ := flaggedColumn_checks
  obtain ⟨chosen, found, others, agree, bounded⟩ := flaggedColumn_vetted
  obtain ⟨_, checked⟩ := isSome_toOption.mp bounded
  exact ⟨toOption_eq_some.mp located, isSome_toOption.mp parts, List.isEmpty_iff.mp unused,
    current, Or.inr ⟨rfl, chosen, found, others, agree, checked⟩⟩

theorem exec_flaggedRun : exec (step plainExternals) bareColumn flaggedRun = some flaggedColumn :=
  rfl

/-- A flagged unit, confirmed again, bears nothing, and stays flagged. -/
theorem reconfirmation_not_consumed : ¬ BlocksUntilConfirmed plainExternals
    (history (step plainExternals) bareColumn (flaggedRun ++ [.correct reconfirmedUnit 3])) := by
  intro blocks
  have flaggable : "unit" ∈ flaggableFields := by decide
  obtain ⟨after, confirms⟩ : ∃ after, Confirms plainExternals flaggedColumn reconfirmedUnit 3
      "core::public.accounts.balance" after :=
    (exists_confirms_iff flaggable).mpr flaggedColumn_confirmable
  obtain ⟨body, happly, _⟩ := confirms.2.2
  have hstep : step plainExternals flaggedColumn (.correct reconfirmedUnit 3) = some after := by
    simp [step, Action.enabled, Action.perform, happly, Except.map, Except.toOption]
  have mem : ⟨flaggedColumn, .correct reconfirmedUnit 3, after⟩ ∈ history (step plainExternals)
      bareColumn (flaggedRun ++ [.correct reconfirmedUnit 3]) :=
    mem_history_of_step exec_flaggedRun hstep
  have flagged := flaggedColumn_checks.1
  have consumed := ((blocks _ mem "core::public.accounts.balance" "unit" flaggable flagged).2.1
    ⟨reconfirmedUnit, 3, rfl, rfl, confirms⟩).2
  rw [(blocked_step flaggable hstep flagged).1] at consumed
  cases consumed

end FeatureGen.GovernedFields
