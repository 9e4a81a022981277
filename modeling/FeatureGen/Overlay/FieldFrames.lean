import Mathlib
import FeatureGen.Overlay.FieldCorrection

/-! # What a call leaves of the stores

No row is lost, a rejected row stays rejected, and the identities of the nodes stay:
`Evolves`, with what is said of the evidence and of the decisions that are new.
-/

namespace FeatureGen.GovernedFields

open Overlay Checks

/-- What tells a node apart. -/
def GraphNode.identity (node : GraphNode) :
    String × String × String × Option String × String × Option String :=
  (node.catalogSource, node.objectRef, node.kind, node.schemaName, node.tableName,
    node.columnName)

/-- Every row is kept, but for its lifecycle, and a rejected row as it is. -/
structure Retains (db db' : Db) : Prop where
  kept : ∀ r ∈ db.evidence, ∃ l, r.moved l ∈ db'.evidence ∧
    (r.lifecycle = .rejected → l = .rejected)
  decisions : ∀ d ∈ db.decisions, d ∈ db'.decisions
  identities : db'.graph.map GraphNode.identity = db.graph.map GraphNode.identity

/-- `written` and `decided` hold of the rows that are new, and no flag is raised or cleared. -/
structure Evolves (written : Proposal → Prop) (decided : Verdict → Prop) (db db' : Db) : Prop
    extends Retains db db' where
  appended : ∀ r ∈ db'.evidence, (∃ r₀ ∈ db.evidence, r₀.evidenceId = r.evidenceId) ∨
    ∃ l, written (r.moved l).toProposal
  recorded : ∀ d ∈ db'.decisions, d ∈ db.decisions ∨ decided d.toVerdict
  revalidations : db'.revalidations = db.revalidations

namespace Retains

variable {db db' db'' : Db}

theorem refl (db : Db) : Retains db db where
  kept := fun r hr => ⟨r.lifecycle, hr, id⟩
  decisions := fun _ hd => hd
  identities := rfl

theorem trans (h : Retains db db') (h' : Retains db' db'') : Retains db db'' where
  kept := by
    intro r hr
    obtain ⟨l, hl, rejected⟩ := h.kept r hr
    obtain ⟨l', hl', rejected'⟩ := h'.kept _ hl
    exact ⟨l', hl', fun hrej => rejected' (rejected hrej)⟩
  decisions := fun d hd => h'.decisions d (h.decisions d hd)
  identities := h'.identities.trans h.identities

theorem rejected (h : Retains db db') {r : FieldEvidence} (hr : r ∈ db.evidence)
    (hrej : r.lifecycle = .rejected) : r ∈ db'.evidence := by
  obtain ⟨l, hl, rejected⟩ := h.kept r hr
  have same : r.moved l = r := by rw [rejected hrej, ← hrej]; rfl
  exact same ▸ hl

end Retains

namespace Evolves

variable {written written' : Proposal → Prop} {decided decided' : Verdict → Prop}
  {db db' db'' : Db}

theorem refl (db : Db) : Evolves written decided db db where
  toRetains := .refl db
  appended := fun r hr => Or.inl ⟨r, hr, rfl⟩
  recorded := fun _ hd => Or.inl hd
  revalidations := rfl

theorem trans (h : Evolves written decided db db') (h' : Evolves written decided db' db'') :
    Evolves written decided db db'' where
  toRetains := h.toRetains.trans h'.toRetains
  appended := by
    intro r hr
    rcases h'.appended r hr with ⟨r₁, hr₁, hid⟩ | new
    · rcases h.appended r₁ hr₁ with ⟨r₀, hr₀, hid₀⟩ | ⟨l, hl⟩
      · exact Or.inl ⟨r₀, hr₀, hid₀.trans hid⟩
      · obtain ⟨l', hl', _⟩ := h'.kept r₁ hr₁
        have same : r₁.moved l' = r := Table.eq_of_key_eq hl' hr hid
        right
        refine ⟨l, ?_⟩
        rw [← same]
        exact hl
    · exact Or.inr new
  recorded := by
    intro d hd
    rcases h'.recorded d hd with hd | new
    · exact h.recorded d hd
    · exact Or.inr new
  revalidations := h'.revalidations.trans h.revalidations

theorem mono (h : Evolves written decided db db') (hw : ∀ p, written p → written' p)
    (hd : ∀ v, decided v → decided' v) : Evolves written' decided' db db' where
  toRetains := h.toRetains
  appended := by
    intro r hr
    rcases h.appended r hr with old | ⟨l, hl⟩
    · exact Or.inl old
    · exact Or.inr ⟨l, hw _ hl⟩
  recorded := fun d hmem => (h.recorded d hmem).imp_right (hd _)
  revalidations := h.revalidations

theorem pending_eq (h : Evolves written decided db db') (logicalRef fieldName : String) :
    pending db' logicalRef fieldName = pending db logicalRef fieldName := by
  rw [pending, pending, h.revalidations]

theorem foldlM {γ : Type} {f : Db → γ → Except Failure Db} {l : List γ}
    (next : ∀ x ∈ l, ∀ b b', b.revalidations = db.revalidations → f b x = .ok b' →
      Evolves written decided b b')
    (h : l.foldlM f db = .ok db') : Evolves written decided db db' :=
  Transition.foldlM_except_induction (P := fun b => Evolves written decided db b)
    (fun x hx b b' hb hf => hb.trans (next x hx b b' hb.revalidations hf)) (refl db) h

theorem foldl {γ : Type} {f : Db → γ → Db} (l : List γ)
    (next : ∀ x ∈ l, ∀ b, Evolves written decided b (f b x)) :
    ∀ db, Evolves written decided db (l.foldl f db) := by
  induction l with
  | nil => exact fun db => refl db
  | cons x l ih =>
      intro db
      have first := next x List.mem_cons_self db
      have rest := ih (fun y hy => next y (List.mem_cons_of_mem x hy)) (f db x)
      exact first.trans rest

end Evolves

section Evidence

variable {ext : Externals} {written : Proposal → Prop} {decided : Verdict → Prop}

theorem mintEvidenceId_fresh (ext : Externals) (db : Db) :
    ∀ r ∈ db.evidence, r.evidenceId ≠ mintEvidenceId ext db := by
  intro r hr same
  have listed : r.evidenceId ∈ db.evidence.rows.map (·.evidenceId) := List.mem_map_of_mem hr
  rw [same] at listed
  exact ext.mintId_fresh "fev" _ listed

theorem mem_recordFieldEvidence {db : Db} {p : Proposal} {now : ℤ} {r : FieldEvidence} :
    r ∈ (recordFieldEvidence ext db p now).1.evidence ↔
      r ∈ db.evidence ∨ r = p.row ext (mintEvidenceId ext db) now := by
  have fresh : ∀ y ∈ db.evidence,
      y.evidenceId ≠ (p.row ext (mintEvidenceId ext db) now).evidenceId :=
    mintEvidenceId_fresh ext db
  exact Table.mem_insertNew.trans (or_congr_right (and_iff_left fresh))

theorem evolves_recordFieldEvidence (db : Db) (p : Proposal) (now : ℤ) :
    Evolves (· = p) decided db (recordFieldEvidence ext db p now).1 where
  kept := fun r hr => ⟨r.lifecycle, mem_recordFieldEvidence.mpr (Or.inl hr), id⟩
  appended := by
    intro r hr
    rcases mem_recordFieldEvidence.mp hr with hr | rfl
    · exact Or.inl ⟨r, hr, rfl⟩
    · exact Or.inr ⟨p.lifecycle, rfl⟩
  decisions := fun _ hd => hd
  recorded := fun _ hd => Or.inl hd
  revalidations := rfl
  identities := rfl

theorem mem_moveEvidence {db : Db} {lifecycle : EvidenceLifecycle} {p : FieldEvidence → Bool}
    {r : FieldEvidence} : r ∈ (moveEvidence db lifecycle p).evidence ↔
      ∃ y ∈ db.evidence, r = if p y then y.moved lifecycle else y := by
  unfold moveEvidence
  rw [Table.mem_updateWhere]

theorem evolves_moveEvidence (db : Db) {lifecycle : EvidenceLifecycle}
    {p : FieldEvidence → Bool} (spared : ∀ r, p r = true → r.lifecycle ≠ .rejected) :
    Evolves written decided db (moveEvidence db lifecycle p) where
  kept := by
    intro r hr
    cases hp : p r with
    | true =>
        have here : r.moved lifecycle ∈ (moveEvidence db lifecycle p).evidence :=
          mem_moveEvidence.mpr ⟨r, hr, by simp [hp]⟩
        exact ⟨lifecycle, here, fun hrej => absurd hrej (spared r hp)⟩
    | false =>
        have here : r ∈ (moveEvidence db lifecycle p).evidence :=
          mem_moveEvidence.mpr ⟨r, hr, by simp [hp]⟩
        exact ⟨r.lifecycle, here, id⟩
  appended := by
    intro r hr
    obtain ⟨y, hy, rfl⟩ := mem_moveEvidence.mp hr
    left
    refine ⟨y, hy, ?_⟩
    split
    · rfl
    · rfl
  decisions := fun _ hd => hd
  recorded := fun _ hd => Or.inl hd
  revalidations := rfl
  identities := rfl

theorem activeFor_iff {logicalRef fieldName : String} {e : FieldEvidence} :
    e.activeFor logicalRef fieldName = true ↔
      e.logicalRef = logicalRef ∧ e.fieldName = fieldName ∧ e.lifecycle = .active := by
  simp [FieldEvidence.activeFor, and_assoc]

theorem mem_readActiveFieldEvidence {db : Db} {logicalRef fieldName : String}
    {e : FieldEvidence} : e ∈ readActiveFieldEvidence db logicalRef fieldName ↔
      e ∈ db.evidence ∧ e.activeFor logicalRef fieldName = true := by
  rw [readActiveFieldEvidence, KeySort.mem_sortBy, List.mem_filter, Table.mem_rows]

theorem ne_rejected_of_activeFor {logicalRef fieldName : String} {e : FieldEvidence}
    (h : e.activeFor logicalRef fieldName = true) : e.lifecycle ≠ .rejected := by
  rw [(activeFor_iff.mp h).2.2]
  decide

theorem evolves_staleSourceEvidence (db : Db) (logicalRef fieldName : String)
    (producer : EvidenceProducer) (keepInputHash : String)
    (keepConfigurationHash : Option String) :
    Evolves written decided db (staleSourceEvidence db logicalRef fieldName producer
      keepInputHash keepConfigurationHash).1 := by
  apply evolves_moveEvidence
  intro r hr
  simp only [FieldEvidence.drifted, Bool.and_eq_true] at hr
  exact ne_rejected_of_activeFor hr.1.1

theorem evolves_supersedeOwnPriorProposal (db : Db)
    (logicalRef field subject keepValueHash : String) :
    Evolves written decided db
      (supersedeOwnPriorProposal db logicalRef field subject keepValueHash).1 := by
  apply evolves_moveEvidence
  intro r hr
  simp only [FieldEvidence.ownPrior, Bool.and_eq_true] at hr
  exact ne_rejected_of_activeFor hr.1.1.1

end Evidence

section Decisions

variable {ext : Externals} {written : Proposal → Prop}

theorem mem_recordFieldDecision {db : Db} {v : Verdict} {d : FieldDecisionEvent} :
    d ∈ (recordFieldDecision ext db v).1.decisions ↔
      d ∈ db.decisions ∨ d = v.row (mintDecisionId ext db) := by
  have fresh : ∀ y ∈ db.decisions,
      y.decisionEventId ≠ (v.row (mintDecisionId ext db)).decisionEventId := by
    intro y hy same
    have listed : y.decisionEventId ∈ db.decisions.rows.map (·.decisionEventId) :=
      List.mem_map_of_mem hy
    rw [same] at listed
    exact ext.mintId_fresh "fde" _ listed
  exact Table.mem_insertNew.trans (or_congr_right (and_iff_left fresh))

theorem evolves_recordFieldDecision (db : Db) (v : Verdict) :
    Evolves written (· = v) db (recordFieldDecision ext db v).1 where
  kept := fun r hr => ⟨r.lifecycle, hr, id⟩
  appended := fun r hr => Or.inl ⟨r, hr, rfl⟩
  decisions := fun _ hd => mem_recordFieldDecision.mpr (Or.inl hd)
  recorded := by
    intro d hd
    rcases mem_recordFieldDecision.mp hd with hd | rfl
    · exact Or.inl hd
    · exact Or.inr rfl
  revalidations := rfl
  identities := rfl

theorem evolves_graph {decided : Verdict → Prop} (db : Db) {f : GraphNode → GraphNode}
    (hf : ∀ node, (f node).identity = node.identity) :
    Evolves written decided db { db with graph := db.graph.map f } where
  kept := fun r hr => ⟨r.lifecycle, hr, id⟩
  appended := fun r hr => Or.inl ⟨r, hr, rfl⟩
  decisions := fun _ hd => hd
  recorded := fun _ hd => Or.inl hd
  revalidations := rfl
  identities := by
    rw [List.map_map]
    exact List.map_congr_left fun node _ => hf node

theorem GraphNode.identity_displaying (node : GraphNode) (fieldName : String)
    (displayValue : Option String) (decisionId : String) :
    (node.displaying fieldName displayValue decisionId).identity = node.identity := by
  unfold GraphNode.displaying
  split <;> split <;> rfl

theorem evolves_projectDisplay {decided : Verdict → Prop} {db db' : Db}
    {source logicalRef fieldName decisionId : String} {displayValue : Option String}
    (h : projectDisplay ext db source logicalRef fieldName displayValue decisionId = .ok db') :
    Evolves written decided db db' := by
  unfold projectDisplay at h
  split at h
  · cases h
  · cases h
    apply evolves_graph
    intro node
    split
    · exact node.identity_displaying fieldName displayValue decisionId
    · rfl

theorem evolves_settle {db db' : Db} {source : String} {r : Resolved} {now : ℤ}
    (h : settle ext db source r now = .ok db') :
    Evolves written (· = r.verdict ext now) db db' :=
  (evolves_recordFieldDecision db _).trans (evolves_projectDisplay h)

/-- The operational fields that a human may edit. -/
def flaggableFields : List String :=
  ["unit", "currency", "authority_role", "temporal_storage_model"]

/-- No load-bearing value, where the field is pending. -/
def Blocked (revalidations : List Revalidation) (v : Verdict) : Prop :=
  v.fieldName ∈ flaggableFields →
    revalidations.any (·.pendingFor v.logicalRef v.fieldName) = true →
      v.loadBearingValueHash = none

theorem barred_of_pending {field : String} {policy : FieldPolicy} (hf : field ∈ flaggableFields)
    (registered : policyFor field = some policy) :
    (barredReason policy [.confirmationPendingRevalidation]).isSome = true := by
  have all : ∀ f ∈ flaggableFields, ∀ p ∈ policyFor f,
      (barredReason p [.confirmationPendingRevalidation]).isSome = true := by
    decide +kernel
  exact all field hf policy registered

theorem loadBearing_of_barred {iterated : List String → List String}
    {evidence : List FieldEvidenceView} {policy : FieldPolicy} {active : List Disqualifier}
    {resolution : FieldResolution} (barred : (barredReason policy active).isSome = true)
    (h : resolveFieldAuthority iterated evidence policy active = .ok resolution) :
    resolution.loadBearingValue = none := by
  obtain ⟨reason, hreason⟩ := Option.isSome_iff_exists.mp barred
  simp only [resolveFieldAuthority, operationalOutcome, hreason, Except.map] at h
  cases h
  rfl

theorem evolves_resolveGenericField {db db' : Db} {source logicalRef fieldName : String} {now : ℤ}
    (h : resolveGenericField ext db source logicalRef fieldName now = .ok db') :
    Evolves written (Blocked db.revalidations) db db' := by
  unfold resolveGenericField at h
  split at h
  · cases h
    exact .refl db
  · next policy registered =>
      split at h
      · cases h
      · next resolution resolved =>
          refine (evolves_settle h).mono (fun _ hp => hp) ?_
          rintro _ rfl hf flagged
          have active : activeDisqualifiersFor db logicalRef fieldName =
              [.confirmationPendingRevalidation] := if_pos flagged
          unfold resolutionOf at resolved
          rw [active] at resolved
          have bears := loadBearing_of_barred (barred_of_pending hf registered) resolved
          simp [Resolved.verdict, resolvedBy, bears]

theorem evolves_resolveSensitivityField {db db' : Db} {source logicalRef : String} {now : ℤ}
    (h : resolveSensitivityField ext db source logicalRef now = .ok db') :
    Evolves written (Blocked db.revalidations) db db' := by
  unfold resolveSensitivityField at h
  dsimp only at h
  split at h
  · cases h
  · next decision _ =>
      let evidence := readActiveFieldEvidence db logicalRef "sensitivity_floor" ++
        readActiveFieldEvidence db logicalRef "sensitivity"
      let verdict := (resolvedSensitivity logicalRef evidence decision).verdict ext now
      have recorded : Evolves written (· = verdict) db (recordFieldDecision ext db verdict).1 :=
        evolves_recordFieldDecision db verdict
      refine (recorded.mono (fun _ hp => hp) ?_).trans ?_
      · rintro _ rfl hf
        have unlisted : "sensitivity" ∉ flaggableFields := by decide
        exact absurd hf unlisted
      · unfold projectSensitivity at h
        split at h
        · cases h
        · cases h
          apply evolves_graph
          intro node
          split
          · rfl
          · rfl

theorem evolves_resolveRef {db db' : Db} {source logicalRef : String}
    {fields : Option (List String)} {now : ℤ}
    (h : resolveRef ext source fields now db logicalRef = .ok db') :
    Evolves written (Blocked db.revalidations) db db' := by
  unfold resolveRef at h
  obtain ⟨b, hb, h⟩ := bind_eq_ok.mp h
  have generic : Evolves written (Blocked db.revalidations) db b :=
    Evolves.foldlM (fun f _ b b' same hf => same ▸ evolves_resolveGenericField hf) hb
  split at h
  · have special : Evolves written (Blocked b.revalidations) b db' :=
      evolves_resolveSensitivityField h
    rw [generic.revalidations] at special
    exact generic.trans special
  · cases h
    exact generic

theorem evolves_resolveAndProject {db db' : Db} {source : String} {logicalRefs : List String}
    {fields : Option (List String)} {now : ℤ}
    (h : resolveAndProject ext db source logicalRefs fields now = .ok db') :
    Evolves written (Blocked db.revalidations) db db' :=
  Evolves.foldlM (fun _ _ _ _ same hf => same ▸ evolves_resolveRef hf) h

theorem evolves_staleAndClearField {db db' : Db} {source logicalRef fieldName : String} {now : ℤ}
    (h : staleAndClearField ext db source logicalRef fieldName now = .ok db') :
    Evolves written (Blocked db.revalidations) db db' := by
  refine (evolves_settle h).mono (fun _ hp => hp) ?_
  rintro _ rfl _ _
  rfl

end Decisions

section Cascade

variable {ext : Externals}

def Derived (p : Proposal) : Prop := p.producer ≠ .human

variable {decided : Verdict → Prop}

theorem evolves_writeProducerField (db : Db) {p : Proposal} (material : Json) (now : ℤ)
    (hp : p.producer ≠ .human) :
    Evolves Derived decided db (writeProducerField ext db p material now).1 := by
  unfold writeProducerField
  have staled : Evolves Derived decided db (staleSourceEvidence db p.logicalRef p.fieldName
      p.producer (fieldInputHash ext p.logicalRef p.fieldName material) none).1 :=
    evolves_staleSourceEvidence db p.logicalRef p.fieldName p.producer _ none
  dsimp only
  split
  · exact staled
  · refine staled.trans ((evolves_recordFieldEvidence _ _ now).mono ?_ fun _ hd => hd)
    rintro _ rfl
    exact hp

theorem evolves_staleAbsentFields (db : Db) (logicalRef : String) (producer : EvidenceProducer)
    (allFields present : List String) :
    Evolves Derived decided db
      (staleAbsentFields db logicalRef producer allFields present) :=
  Evolves.foldl _ (fun _ _ b => evolves_staleSourceEvidence b logicalRef _ producer staleAll none)
    db

theorem derivedProposal_producer {logicalRef producerRef snapshotId : String}
    {winner : FieldEvidenceView} {triple : String × Json × AssertionStrength} :
    (derivedProposal logicalRef producerRef snapshotId winner triple).producer ≠ .human := by
  show EvidenceProducer.taxonomy ≠ .human
  decide

theorem evolves_writeDerived (db : Db) (logicalRef producerRef snapshotId : String)
    (winner : FieldEvidenceView) (triples : List (String × Json × AssertionStrength)) (now : ℤ) :
    Evolves Derived decided db
      (writeDerived ext db logicalRef producerRef snapshotId winner triples now) :=
  Evolves.foldl _ (fun _ _ b => evolves_writeProducerField b _ now derivedProposal_producer) db

theorem evolves_deriveAndWriteConceptCascade {db db' : Db}
    {logicalRef producerRef snapshotId declaredType : String} {now : ℤ}
    (h : deriveAndWriteConceptCascade ext db logicalRef producerRef snapshotId declaredType now =
      .ok db') : Evolves Derived decided db db' := by
  obtain ⟨winner, _, h⟩ := bind_eq_ok.mp h
  obtain ⟨triples, _, h⟩ := bind_eq_ok.mp h
  cases h
  cases winner with
  | none => exact evolves_staleAbsentFields db logicalRef .taxonomy taxonomyFields _
  | some w =>
      exact (evolves_writeDerived db logicalRef producerRef snapshotId w triples now).trans
        (evolves_staleAbsentFields _ logicalRef .taxonomy taxonomyFields _)

theorem evolves_retireDroppedFieldDecisions {db db' : Db} {source logicalRef : String}
    {fields : List String} {now : ℤ}
    (h : retireDroppedFieldDecisions ext db source logicalRef fields now = .ok db') :
    Evolves Derived (Blocked db.revalidations) db db' := by
  refine Evolves.foldlM (fun f _ b b' same hf => ?_) h
  split at hf
  · exact same ▸ evolves_staleAndClearField hf
  · cases hf
    exact .refl b

theorem evolves_rederive {db db' : Db} {source logicalRef : String} {cmd : Correction} {now : ℤ}
    (h : rederive ext source logicalRef cmd now db = .ok db') :
    Evolves Derived (Blocked db.revalidations) db db' := by
  unfold rederive at h
  split at h
  · cases h
  · obtain ⟨b₁, hderive, h⟩ := bind_eq_ok.mp h
    obtain ⟨b₂, hretire, h⟩ := bind_eq_ok.mp h
    have derived : Evolves Derived (Blocked db.revalidations) db b₁ :=
      evolves_deriveAndWriteConceptCascade hderive
    have retired := evolves_retireDroppedFieldDecisions hretire
    have resolved : Evolves Derived (Blocked b₂.revalidations) b₂ db' :=
      evolves_resolveAndProject h
    rw [derived.revalidations] at retired
    rw [retired.revalidations, derived.revalidations] at resolved
    exact (derived.trans retired).trans resolved

end Cascade

end FeatureGen.GovernedFields
