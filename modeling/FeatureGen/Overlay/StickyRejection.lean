import FeatureGen.Overlay.Log

/-! # Rejections of joins and bridges

A rejection retires the fingerprint of what it rejects, and a proposal with a
retired fingerprint is denied. The key of a fact reads refs without case, padding
and order; the fingerprint reads the value as it is written, but for the order of
a bridge's endpoints. So a rejection lasts against the same value alone.
-/

namespace FeatureGen.Overlay

section Injective

open Json

theorem RefValue.json_inj (a b : RefValue) (h : sortKeys a.json = sortKeys b.json) : a = b := by
  have member := get?_of_sortKeys_eq h
  obtain ⟨source, kind, schema, table, column⟩ := a
  obtain ⟨source', kind', schema', table', column'⟩ := b
  have hsource := member "catalog_source"
  have hkind := member "object_kind"
  have hschema := member "schema"
  have htable := member "table"
  have hcolumn := member "column"
  cases column <;> cases column' <;>
    simp [Members.ofList, Members.get?, sortKeys] at hsource hkind hschema htable hcolumn <;>
    simp_all
  exact ofOption_inj hcolumn

theorem ColumnPair.json_inj (a b : ColumnPair) (h : sortKeys a.json = sortKeys b.json) : a = b := by
  have hfrom := get?_of_sortKeys_eq h "from_col"
  have hto := get?_of_sortKeys_eq h "to_col"
  simp [Members.ofList, Members.get?, sortKeys] at hfrom hto
  cases a
  cases b
  simp_all

/-- The value of a join or a bridge. -/
def FactValue.IsRelation : FactValue → Prop
  | .approvedJoin _ _ _ _ => True
  | .entityBridge _ _ _ => True
  | _ => False

theorem FactValue.json_inj {a b : FactValue} (ha : a.IsRelation) (hb : b.IsRelation)
    (h : sortKeys a.json = sortKeys b.json) : a = b := by
  cases a with
  | approvedJoin fromRef toRef pairs cardinality =>
      cases b with
      | approvedJoin fromRef' toRef' pairs' cardinality' =>
          have hfrom := get?_of_sortKeys_eq h "from_ref"
          have hto := get?_of_sortKeys_eq h "to_ref"
          have hpairs := get?_of_sortKeys_eq h "column_pairs"
          have hcardinality := get?_of_sortKeys_eq h "cardinality"
          simp [Members.ofList, Members.get?] at hfrom hto hpairs hcardinality
          simp only [sortKeys, Json.arr.injEq] at hpairs
          rw [RefValue.json_inj _ _ hfrom, RefValue.json_inj _ _ hto,
            ofList_map_inj ColumnPair.json_inj hpairs, ofOption_inj hcardinality]
      | entityBridge entityId left right =>
          have hfrom := get?_of_sortKeys_eq h "from_ref"
          simp [Members.ofList, Members.get?] at hfrom
      | _ => cases hb
  | entityBridge entityId left right =>
      cases b with
      | approvedJoin fromRef toRef pairs cardinality =>
          have hfrom := get?_of_sortKeys_eq h "from_ref"
          simp [Members.ofList, Members.get?] at hfrom
      | entityBridge entityId' left' right' =>
          have hentity := get?_of_sortKeys_eq h "entity_id"
          have hleft := get?_of_sortKeys_eq h "left_ref"
          have hright := get?_of_sortKeys_eq h "right_ref"
          simp [Members.ofList, Members.get?] at hentity hleft hright
          simp only [sortKeys, Json.str.injEq] at hentity
          rw [hentity, RefValue.json_inj _ _ hleft, RefValue.json_inj _ _ hright]
      | _ => cases hb
  | _ => cases ha

end Injective

/-- The bytes a proposal's fingerprint is the SHA-256 of. -/
def fingerprintBytes (lower : String → String) (value : FactValue) (profileVersion : Option String)
    (thresholds : Option Json.Members) : List ℕ :=
  (fingerprintJson lower value profileVersion thresholds).dumps.map Char.toNat

theorem proposalFingerprint_eq {lower : String → String} {value : FactValue}
    {profileVersion : Option String} {thresholds : Option Json.Members} :
    proposalFingerprint lower value profileVersion thresholds =
      Sha256.hexdigest (fingerprintBytes lower value profileVersion thresholds) := rfl

def Collide (a b : List ℕ) : Prop := a ≠ b ∧ Sha256.hexdigest a = Sha256.hexdigest b

theorem isRelation_canonicalBridgeValue {lower : String → String} {value : FactValue}
    (h : value.IsRelation) : (canonicalBridgeValue lower value).IsRelation := by
  cases value with
  | entityBridge entityId left right =>
      show FactValue.IsRelation (if _ then _ else _)
      split <;> trivial
  | approvedJoin _ _ _ _ => trivial
  | _ => cases h

section Fingerprints

variable {lower : String → String} {a b : FactValue} (profileVersion : Option String)
  (thresholds : Option Json.Members)

theorem fingerprintBytes_eq_iff (ha : a.IsRelation) (hb : b.IsRelation) :
    fingerprintBytes lower a profileVersion thresholds =
        fingerprintBytes lower b profileVersion thresholds ↔
      canonicalBridgeValue lower a = canonicalBridgeValue lower b := by
  constructor
  · intro same
    have codePoints : Function.Injective Char.toNat := fun c c' h =>
      Char.ext (UInt32.toNat_inj.mp h)
    have texts := List.map_injective_iff.mpr codePoints same
    have trees := Json.render_injective texts
    have member := Json.get?_of_sortKeys_eq trees "value"
    simp [Json.Members.ofList, Json.Members.get?] at member
    exact FactValue.json_inj (isRelation_canonicalBridgeValue ha)
      (isRelation_canonicalBridgeValue hb) member
  · intro same
    rw [fingerprintBytes, fingerprintBytes, fingerprintJson, fingerprintJson, same]

theorem proposalFingerprint_eq_iff (ha : a.IsRelation) (hb : b.IsRelation) :
    proposalFingerprint lower a profileVersion thresholds =
        proposalFingerprint lower b profileVersion thresholds ↔
      canonicalBridgeValue lower a = canonicalBridgeValue lower b ∨
        Collide (fingerprintBytes lower a profileVersion thresholds)
          (fingerprintBytes lower b profileVersion thresholds) := by
  rw [← fingerprintBytes_eq_iff profileVersion thresholds ha hb, proposalFingerprint_eq,
    proposalFingerprint_eq]
  constructor
  · intro digests
    by_cases same : fingerprintBytes lower a profileVersion thresholds =
        fingerprintBytes lower b profileVersion thresholds
    · exact Or.inl same
    · exact Or.inr ⟨same, digests⟩
  · rintro (same | collide)
    · rw [same]
    · exact collide.2

end Fingerprints

structure Proposal where
  ref : Ref
  factType : FactType
  useCase : Option String
  value : FactValue
  profileVersion : Option String
  thresholds : Option Json.Members

def ProposeFact.proposal (cmd : ProposeFact) : Proposal :=
  ⟨cmd.ref, cmd.factType, cmd.useCase, cmd.proposedValue, cmd.profileVersion, cmd.thresholds⟩

def Proposal.submit (p : Proposal) (actor : IdentityEnvelope) : ProposeFact where
  actor := actor
  ref := p.ref
  factType := p.factType
  useCase := p.useCase
  proposedValue := p.value
  profileVersion := p.profileVersion
  thresholds := p.thresholds
  evidenceRef := none
  evidence := none
  sourceUploader := none

def Proposal.key (d : Deployment) (p : Proposal) : FactKey :=
  factKey d.lower (p.ref.constructed d.lower) p.factType p.useCase

def Proposal.fingerprint (d : Deployment) (p : Proposal) : String :=
  proposalFingerprint d.lower p.value p.profileVersion p.thresholds

/-- A proposal of a join or a bridge that passes the schema and the write gate. -/
structure Proposal.Gated (d : Deployment) (p : Proposal) : Prop where
  relation : p.factType = .approvedJoin ∨ p.factType = .entityBridge
  valid : validateFactValue d.schemaMessage p.factType p.value p.useCase = .ok ()
  gate : joinWriteError d.lower d.knownEntities (p.ref.constructed d.lower) p.factType p.value = none

/-- The proposal is the fact's latest one, and its value the one under review. -/
def UnderReview (d : Deployment) (stream : List OverlayEvent) (p : Proposal) : Prop :=
  ∃ proposed, latestProposed stream = some proposed ∧
    (∃ (cmd : ProposeFact) (evidenceRef : Option String), cmd.proposal = p ∧
      proposed = cmd.payload (cmd.ref.constructed d.lower) (cmd.fingerprint d) evidenceRef) ∧
    joinValue (foldOverlayState stream) (some proposed) = some p.value

def RejectedIn (d : Deployment) (w₀ : World) (as : List Action) (p : Proposal) : Prop :=
  ∃ m ∈ Transition.history (step d) w₀ as, ∃ cmd : RejectFact,
    m.action = .rejectFact cmd ∧ rejectFact d m.before cmd = .ok m.after ∧
      cmd.key d = p.key d ∧ UnderReview d (loadFact m.before.events (p.key d)) p

/-- Once `p` was rejected and while the fact is, `q` is denied: as sticky, unless
    the catalog gate of bridges denies it first. -/
def RejectionDurable (d : Deployment) (p q : Proposal) : Prop :=
  ∀ w₀ as w, Init w₀ → Transition.exec (step d) w₀ as = some w → RejectedIn d w₀ as p →
    (foldOverlayState (loadFact w.events (p.key d))).status = some .rejected →
    ∀ cmd : ProposeFact, cmd.proposal = q → proposeFact d w cmd =
      .error (.denied ((bridgeGateError w q.factType (q.ref.constructed d.lower)).getD stickyReason))

section Proposals

variable {d : Deployment} {p q : Proposal}

theorem Proposal.Gated.isRelation (h : p.Gated d) : p.value.IsRelation := by
  have admits := schemaAdmits_of_validate h.valid
  rcases h.relation with join | bridge
  · rw [join] at admits
    obtain ⟨fromRef, toRef, pairs, cardinality, hvalue⟩ := approvedJoin_of_schemaAdmits admits
    rw [hvalue]
    trivial
  · rw [bridge] at admits
    obtain ⟨entityId, left, right, hvalue⟩ := entityBridge_of_schemaAdmits admits
    rw [hvalue]
    trivial

theorem validated_of_validate {refusal : String → Refusal} {factType : FactType}
    {value : FactValue} {useCase : Option String}
    (h : validateFactValue d.schemaMessage factType value useCase = .ok ()) :
    validated d refusal factType value useCase = .ok () := by
  rw [validated, h]

theorem proposeFact_sticky {w : World} {cmd : ProposeFact} (gated : cmd.proposal.Gated d)
    (rejected : (foldOverlayState (loadFact w.events (cmd.key d))).status = some .rejected)
    (retired : some (cmd.fingerprint d) ∈ rejectedFingerprints (loadFact w.events (cmd.key d))) :
    proposeFact d w cmd = .error (.denied
      ((bridgeGateError w cmd.factType (cmd.ref.constructed d.lower)).getD stickyReason)) := by
  have valid : ∀ refusal, validated d refusal cmd.factType cmd.proposedValue cmd.useCase = .ok () :=
    fun _ => validated_of_validate gated.valid
  have gate : joinWriteError d.lower d.knownEntities (cmd.ref.constructed d.lower) cmd.factType
      cmd.proposedValue = none := gated.gate
  have terminal : ¬ NonTerminal (foldOverlayState (loadFact w.events (cmd.key d))) := by
    simp [NonTerminal, nonTerminal, rejected]
  cases bridge : bridgeGateError w cmd.factType (cmd.ref.constructed d.lower) with
  | some reason => simp [proposeFact, valid, gate, bridge, refuse, bind, Except.bind]
  | none =>
      simp [proposeFact, valid, gate, bridge, refuse, require, bind, Except.bind, terminal, rejected,
        retired]

theorem proposeFact_accepts (w : World) (cmd : ProposeFact) {authority : Authority}
    (gated : cmd.proposal.Gated d)
    (bridge : bridgeGateError w cmd.factType (cmd.ref.constructed d.lower) = none)
    (terminal : ¬ NonTerminal (foldOverlayState (loadFact w.events (cmd.key d))))
    (unretired : some (cmd.fingerprint d) ∉ rejectedFingerprints (loadFact w.events (cmd.key d)))
    (noEvidence : mintEvidence cmd = .ok none)
    (resolved : resolveAuthority w.adapter (cmd.ref.constructed d.lower) cmd.factType =
      some authority) :
    proposeFact d w cmd = .ok (w.append (cmd.key d) cmd.actor (.proposed
      (cmd.payload (cmd.ref.constructed d.lower) (cmd.fingerprint d) none))) := by
  simp only [proposeFact, bind_ok, require_ok, refuse_ok, present_ok]
  refine ⟨(), validated_of_validate gated.valid, (), gated.gate, (), bridge, (), terminal, (), ?_,
    none, noEvidence, authority, resolved, ?_⟩
  · rintro ⟨_, sticky⟩
    exact unretired (List.contains_iff_mem.mp sticky)
  · exact bind_ok.mpr ⟨(), validated_of_validate gated.valid, rfl⟩

theorem Proposal.Gated.governance (h : p.Gated d) (adapter : CatalogAdapter)
    (unowned : ∀ ref, adapter.ownerOf ref = none) (actor : IdentityEnvelope)
    (admin : "platform-admin" ∈ actor.roleClaims) :
    ∃ authority, resolveAuthority adapter (p.ref.constructed d.lower) p.factType = some authority ∧
      actorIsAuthority authority actor = true := by
  have gate := h.gate
  rcases h.relation with join | bridge
  · rw [join] at gate ⊢
    cases href : p.ref.constructed d.lower with
    | join ref =>
        refine ⟨_, rfl, ?_⟩
        simp [actorIsAuthority, unowned, falsy, admin]
    | _ => simp [joinWriteError, approvedJoinWriteError, href] at gate
  · rw [bridge] at gate ⊢
    cases href : p.ref.constructed d.lower with
    | bridge ref =>
        refine ⟨.governance, by simp [resolveAuthority, unowned], ?_⟩
        simp [actorIsAuthority, Authority.governance, admin]
    | _ => simp [joinWriteError, bridgeWriteError, href] at gate

theorem UnderReview.retired {stream : List OverlayEvent} (h : UnderReview d stream p) :
    retiredFingerprint d (foldOverlayState stream) (latestProposed stream) =
      some (p.fingerprint d) := by
  obtain ⟨proposed, latest, ⟨cmd, evidenceRef, rfl, rfl⟩, reviewed⟩ := h
  rw [latest, retiredFingerprint]
  split
  · next prior hprior =>
      rw [if_neg]
      · rfl
      · rintro ⟨reverifying, differs⟩
        rw [joinValue, if_pos reverifying, hprior] at reviewed
        exact differs reviewed
  · rfl

theorem mem_rejectedFingerprints {stream : List OverlayEvent} {e : OverlayEvent}
    {rejectedBy : String} {reason category : Option String} {target : Option EventId}
    {retired : Option String} (he : e ∈ stream)
    (payload : e.payload = .rejected rejectedBy reason category target retired) :
    retired ∈ rejectedFingerprints stream :=
  List.mem_filterMap.mpr ⟨e, he, by simp [payload]⟩

theorem RejectedIn.mem {w₀ w : World} {as : List Action} (h : RejectedIn d w₀ as p)
    (run : Transition.exec (step d) w₀ as = some w) :
    some (p.fingerprint d) ∈ rejectedFingerprints (loadFact w.events (p.key d)) := by
  obtain ⟨m, mem, cmd, _, accepted, key, review⟩ := h
  obtain ⟨hafter, _⟩ := rejectFact_ok accepted
  rw [key, review.retired] at hafter
  obtain ⟨e, appended, ofKey, payload⟩ : ∃ e ∈ m.after.events, e.factKey = p.key d ∧
      e.payload = .rejected cmd.actor.subject cmd.reason cmd.category cmd.targetEventId
        (some (p.fingerprint d)) := by
    rw [hafter, events_append]
    exact ⟨_, List.mem_append_right _ List.mem_cons_self, rfl, rfl⟩
  obtain ⟨post, rest⟩ := Transition.exists_run_of_mem_history mem run
  have stays : e ∈ loadFact w.events (p.key d) :=
    List.mem_filter.mpr ⟨(events_prefix_of_run rest).subset appended, decide_eq_true ofKey⟩
  exact mem_rejectedFingerprints stays payload

theorem rejectFact_accepts (w : World) (cmd : RejectFact) {authority : Authority}
    (human : cmd.actor.actorKind = .human) (existing : loadFact w.events (cmd.key d) ≠ [])
    (awaiting : Awaiting (foldOverlayState (loadFact w.events (cmd.key d))))
    (target : cmd.targetEventId = casTarget (foldOverlayState (loadFact w.events (cmd.key d))))
    (resolved : resolveAuthority w.adapter (cmd.ref.constructed d.lower) cmd.factType =
      some authority)
    (allowed : actorIsAuthority authority cmd.actor = true) :
    ∃ w', rejectFact d w cmd = .ok w' := by
  simp only [rejectFact, bind_ok, require_ok, present_ok]
  exact ⟨_, (), human, (), existing, (), awaiting, (), target, authority, resolved, (), allowed, rfl⟩

theorem Proposal.Gated.bridgeGateError (h : p.Gated d) {w : World}
    (quiet : ∀ bridge, w.bridgeGate bridge = none) :
    bridgeGateError w p.factType (p.ref.constructed d.lower) = none := by
  have gate := h.gate
  rcases h.relation with join | bridge
  · simp [Overlay.bridgeGateError, join]
  · rw [bridge] at gate ⊢
    cases href : p.ref.constructed d.lower with
    | bridge ref => simp [Overlay.bridgeGateError, quiet]
    | _ => simp [joinWriteError, bridgeWriteError, href] at gate

/-- An overlay over a catalog without owners. -/
def unownedOverlay : World := .fresh (shop none none []) none

def Proposal.rejection (p : Proposal) : RejectFact where
  actor := person "admin" ["platform-admin"]
  ref := p.ref
  factType := p.factType
  useCase := p.useCase
  targetEventId := some 1
  reason := none
  category := none

theorem Proposal.Gated.rejected (h : p.Gated d) : ∃ w,
    Transition.exec (step d) unownedOverlay
        [.proposeFact (p.submit (person "proposer" [])), .rejectFact p.rejection] = some w ∧
      RejectedIn d unownedOverlay
        [.proposeFact (p.submit (person "proposer" [])), .rejectFact p.rejection] p ∧
      (foldOverlayState (loadFact w.events (p.key d))).status = some .rejected ∧
      rejectedFingerprints (loadFact w.events (p.key d)) = [some (p.fingerprint d)] ∧
      w.adapter = unownedOverlay.adapter ∧ w.bridgeGate = unownedOverlay.bridgeGate := by
  obtain ⟨authority, resolved, allowed⟩ := h.governance unownedOverlay.adapter
    (fun ref => by simp [unownedOverlay, World.fresh, shop]) (person "admin" ["platform-admin"])
    (by decide)
  let cmd := p.submit (person "proposer" [])
  let proposed := cmd.payload (cmd.ref.constructed d.lower) (cmd.fingerprint d) none
  let w₁ := unownedOverlay.append (p.key d) cmd.actor (.proposed proposed)
  have propose : proposeFact d unownedOverlay cmd = .ok w₁ :=
    proposeFact_accepts _ _ h (h.bridgeGateError fun _ => rfl)
      (show ¬ NonTerminal (foldOverlayState []) by decide) List.not_mem_nil rfl resolved
  have stream : loadFact w₁.events (p.key d) =
      [unownedOverlay.event (p.key d) cmd.actor (.proposed proposed)] := loadFact_append_self
  have draft : foldOverlayState (loadFact w₁.events (p.key d)) =
      foldEvent {} (unownedOverlay.event (p.key d) cmd.actor (.proposed proposed)) := by
    rw [stream]
    rfl
  obtain ⟨status, draftEventId, _, _⟩ := fold_proposed {}
    (e := unownedOverlay.event (p.key d) cmd.actor (.proposed proposed)) rfl (Or.inl rfl)
  rw [← draft] at status draftEventId
  obtain ⟨w₂, reject⟩ := rejectFact_accepts w₁ p.rejection rfl
    (by
      show loadFact w₁.events (p.key d) ≠ []
      rw [stream]
      exact List.cons_ne_nil _ _)
    (awaiting_iff.mpr (Or.inl status))
    (by
      show some 1 = casTarget (foldOverlayState (loadFact w₁.events (p.key d)))
      rw [casTarget, status, draftEventId]
      rfl)
    resolved allowed
  have review : UnderReview d (loadFact w₁.events (p.key d)) p := by
    refine ⟨proposed, by rw [stream]; rfl, ⟨cmd, none, rfl, rfl⟩, ?_⟩
    rw [joinValue, if_neg (by rw [status]; decide)]
    rfl
  have steps : step d unownedOverlay (.proposeFact cmd) = some w₁ := by
    rw [step, propose]
    rfl
  have rejects : step d w₁ (.rejectFact p.rejection) = some w₂ := by
    rw [step, reject]
    rfl
  have run : Transition.exec (step d) unownedOverlay [.proposeFact cmd] = some w₁ := by
    rw [Transition.exec_single, steps]
  obtain ⟨hafter, _⟩ := rejectFact_ok reject
  have key : p.rejection.key d = p.key d := rfl
  rw [key, review.retired] at hafter
  have stream₂ : loadFact w₂.events (p.key d) = loadFact w₁.events (p.key d) ++
      [w₁.event (p.key d) p.rejection.actor (.rejected p.rejection.actor.subject none none (some 1)
        (some (p.fingerprint d)))] := by
    rw [hafter, loadFact_append_self]
    rfl
  refine ⟨w₂, ?_, ⟨⟨w₁, .rejectFact p.rejection, w₂⟩, Transition.mem_history_of_step run rejects,
    p.rejection, rfl, reject, rfl, review⟩, ?_, ?_, ?_, ?_⟩
  · exact Transition.exec_cons_eq_some.mpr ⟨w₁, steps, by rw [Transition.exec_single, rejects]⟩
  · rw [stream₂, foldOverlayState_snoc]
    rfl
  · rw [stream₂, stream]
    rfl
  · rw [hafter]
    rfl
  · rw [hafter]
    rfl

theorem rejectionDurable_iff_fingerprint (hp : p.Gated d) (hq : q.Gated d)
    (sameKey : p.key d = q.key d) :
    RejectionDurable d p q ↔ p.fingerprint d = q.fingerprint d := by
  constructor
  · intro durable
    by_contra differs
    obtain ⟨w, run, rejected, status, retired, hadapter, hgate⟩ := hp.rejected
    let cmd := q.submit (person "proposer" [])
    obtain ⟨authority, resolved, _⟩ := hq.governance w.adapter
      (fun ref => by rw [hadapter]; simp [unownedOverlay, World.fresh, shop])
      (person "admin" ["platform-admin"]) (by decide)
    have denied := durable _ _ w World.fresh_init run rejected status cmd rfl
    rw [sameKey] at status retired
    have accepted := proposeFact_accepts w cmd hq
      (hq.bridgeGateError fun _ => by rw [hgate]; rfl)
      (by
        show ¬ NonTerminal (foldOverlayState (loadFact w.events (q.key d)))
        simp [NonTerminal, nonTerminal, status])
      (by
        show some (q.fingerprint d) ∉ rejectedFingerprints (loadFact w.events (q.key d))
        rw [retired]
        simpa using Ne.symm differs)
      rfl resolved
    rw [accepted] at denied
    cases denied
  · intro same w₀ as w _ run rejected status cmd hcmd
    have retired := rejected.mem run
    rw [sameKey, same] at retired
    rw [sameKey] at status
    subst hcmd
    exact proposeFact_sticky hq status retired

end Proposals

/-- Two proposals of one value, up to the order of a bridge's endpoints; or a
    collision of SHA-256. -/
def SameProposal (d : Deployment) (p q : Proposal) : Prop :=
  canonicalBridgeValue d.lower p.value = canonicalBridgeValue d.lower q.value ∨
    Collide (fingerprintBytes d.lower p.value p.profileVersion p.thresholds)
      (fingerprintBytes d.lower q.value q.profileVersion q.thresholds)

/-- The rejection of a gated join or bridge is durable against another proposal of
    the fact, and the two have one fingerprint, if and only if they are the same
    proposal. -/
theorem rejection_durable_iff {d : Deployment} {p q : Proposal} (hp : p.Gated d) (hq : q.Gated d)
    (sameKey : p.key d = q.key d) (sameVersion : p.profileVersion = q.profileVersion)
    (sameThresholds : p.thresholds = q.thresholds) :
    (RejectionDurable d p q ↔ SameProposal d p q) ∧
      (p.fingerprint d = q.fingerprint d ↔ SameProposal d p q) := by
  have fingerprints : p.fingerprint d = q.fingerprint d ↔ SameProposal d p q := by
    unfold Proposal.fingerprint SameProposal
    rw [sameVersion, sameThresholds]
    exact proposalFingerprint_eq_iff _ _ hp.isRelation hq.isRelation
  exact ⟨(rejectionDurable_iff_fingerprint hp hq sameKey).trans fingerprints, fingerprints⟩

/-- A bridge between the customers of two sources, in the order it is written. -/
def customerBridge (left right : CatalogObjectRef) : Proposal where
  ref := .bridge ⟨"customer", left, right⟩
  factType := .entityBridge
  useCase := none
  value := .entityBridge "customer" left.value right.value
  profileVersion := none
  thresholds := none

def crmCustomers : CatalogObjectRef := ⟨"crm", "table", "sales", "customers", some "id"⟩

def coreCustomers : CatalogObjectRef := ⟨"core", "table", "sales", "customers", some "id"⟩

theorem customerBridge_gated (left right : CatalogObjectRef)
    (h : left = crmCustomers ∧ right = coreCustomers ∨
      left = coreCustomers ∧ right = crmCustomers) :
    (customerBridge left right).Gated shopDeployment := by
  rcases h with ⟨rfl, rfl⟩ | ⟨rfl, rfl⟩
  · exact ⟨Or.inr rfl, rfl, by decide +kernel⟩
  · exact ⟨Or.inr rfl, rfl, by decide +kernel⟩

/-- Naming a rejected bridge the other way round does not bring it back. -/
theorem rejection_durable_flipped :
    RejectionDurable shopDeployment (customerBridge crmCustomers coreCustomers)
      (customerBridge coreCustomers crmCustomers) :=
  (rejection_durable_iff (customerBridge_gated _ _ (Or.inl ⟨rfl, rfl⟩))
    (customerBridge_gated _ _ (Or.inr ⟨rfl, rfl⟩)) (by decide +kernel) rfl rfl).1.mpr
      (Or.inl (by decide +kernel))

def ordersJoin (orders : String) : Proposal where
  ref := .join { ordersCustomers with fromRef := { ordersRef with table := orders } }
  factType := .approvedJoin
  useCase := none
  value := ApprovedJoinRef.value { ordersCustomers with fromRef := { ordersRef with table := orders } }
  profileVersion := none
  thresholds := none

/-- Another spelling of a rejected join does, under the same key. -/
theorem rejection_undone_by_spelling :
    (ordersJoin "orders").Gated shopDeployment ∧ (ordersJoin " Orders").Gated shopDeployment ∧
      (ordersJoin "orders").key shopDeployment = (ordersJoin " Orders").key shopDeployment ∧
      ¬ RejectionDurable shopDeployment (ordersJoin "orders") (ordersJoin " Orders") := by
  have plain : (ordersJoin "orders").Gated shopDeployment :=
    ⟨Or.inl rfl, rfl, by decide +kernel⟩
  have spelled : (ordersJoin " Orders").Gated shopDeployment :=
    ⟨Or.inl rfl, rfl, by decide +kernel⟩
  have sameKey : (ordersJoin "orders").key shopDeployment =
      (ordersJoin " Orders").key shopDeployment := by decide +kernel
  refine ⟨plain, spelled, sameKey, ?_⟩
  intro durable
  have fingerprints := (rejectionDurable_iff_fingerprint plain spelled sameKey).mp durable
  revert fingerprints
  decide +kernel

end FeatureGen.Overlay
