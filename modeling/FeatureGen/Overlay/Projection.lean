import FeatureGen.Lib.Table
import FeatureGen.Overlay.State

/-! # The overlay projection

`OverlayProjection.apply` of `overlay/projection.py` over its three tables. Every
row write is guarded by `updated_seq`; the dependency index is deleted and
inserted again without one. An event of one fact touches that fact's rows alone,
and what it makes of them is `Rows.apply`.
-/

namespace FeatureGen.Overlay

/-- A row of `overlay_proposal`. -/
structure ProposalRow where
  factKey : FactKey
  status : FactStatus
  proposedValue : FactValue
  proposalFingerprint : String
  draftEventId : EventId
  objectRef : String
  catalogSource : String
  factType : FactType
  useCase : Option String
  evidenceRef : Option String
  partialConfirmers : List Confirmer
  targetEventId : Option EventId
  priorValue : Option FactValue
  updatedSeq : ℕ

/-- A row of `overlay_fact_state`. -/
structure StateRow where
  factKey : FactKey
  objectRef : String
  catalogSource : String
  factType : FactType
  useCase : Option String
  status : FactStatus
  value : Option FactValue
  confirmers : List Confirmer
  confirmedAt : Instant
  expiresAt : Option Instant
  priorValue : Option FactValue
  confirmedEventId : EventId
  updatedSeq : ℕ

/-- A row of `overlay_fact_dependency`. -/
structure DependencyRow where
  factKey : FactKey
  referent : Referent

structure Tables where
  proposals : Table ProposalRow.factKey
  factStates : Table StateRow.factKey
  dependencies : List DependencyRow

def Tables.empty : Tables := ⟨Table.empty, Table.empty, []⟩

/-- A write to a proposal row, `WHERE updated_seq < seq`. -/
def ProposalRow.write (seq : ℕ) (f : ProposalRow → ProposalRow) (r : ProposalRow) : ProposalRow :=
  if r.updatedSeq < seq then { f r with factKey := r.factKey, updatedSeq := seq } else r

/-- A write to a state row, `WHERE updated_seq < seq`. -/
def StateRow.write (seq : ℕ) (f : StateRow → StateRow) (r : StateRow) : StateRow :=
  if r.updatedSeq < seq then { f r with factKey := r.factKey, updatedSeq := seq } else r

theorem ProposalRow.write_key {seq : ℕ} {f : ProposalRow → ProposalRow} (r : ProposalRow) :
    (r.write seq f).factKey = r.factKey := by
  unfold ProposalRow.write
  split <;> rfl

theorem StateRow.write_key {seq : ℕ} {f : StateRow → StateRow} (r : StateRow) :
    (r.write seq f).factKey = r.factKey := by
  unfold StateRow.write
  split <;> rfl

theorem ProposalRow.write_of_lt {seq : ℕ} {f : ProposalRow → ProposalRow} {r : ProposalRow}
    (h : r.updatedSeq < seq) :
    r.write seq f = { f r with factKey := r.factKey, updatedSeq := seq } := by
  simp [ProposalRow.write, h]

theorem StateRow.write_of_lt {seq : ℕ} {f : StateRow → StateRow} {r : StateRow}
    (h : r.updatedSeq < seq) :
    r.write seq f = { f r with factKey := r.factKey, updatedSeq := seq } := by
  simp [StateRow.write, h]

theorem ProposalRow.write_of_le {seq : ℕ} {f : ProposalRow → ProposalRow} {r : ProposalRow}
    (h : seq ≤ r.updatedSeq) : r.write seq f = r := by
  simp [ProposalRow.write, Nat.not_lt.mpr h]

theorem StateRow.write_of_le {seq : ℕ} {f : StateRow → StateRow} {r : StateRow}
    (h : seq ≤ r.updatedSeq) : r.write seq f = r := by
  simp [StateRow.write, Nat.not_lt.mpr h]

/-- `_catalog_source`; none where the source raises `KeyError`. -/
def catalogSourceOf : Ref → Option String
  | .object ref => some ref.catalogSource
  | .join ref => some ref.fromRef.catalogSource
  | .bridge _ => none

/-- The proposal row a `PROPOSED` inserts, and puts over an older one. -/
def ProposalRow.opened (e : OverlayEvent) (p : Proposed) (source : String) : ProposalRow where
  factKey := e.factKey
  status := .draft
  proposedValue := p.proposedValue
  proposalFingerprint := p.proposalFingerprint
  draftEventId := e.eventId
  objectRef := p.objectRef
  catalogSource := source
  factType := p.factType
  useCase := p.useCase
  evidenceRef := p.evidenceRef
  partialConfirmers := []
  targetEventId := none
  priorValue := none
  updatedSeq := e.globalSeq

def StateRow.redrafted (r : StateRow) : StateRow :=
  { r with status := .draft, value := none, priorValue := none, expiresAt := none }

def ProposalRow.partially (c : Confirmer) (r : ProposalRow) : ProposalRow :=
  { r with status := .partiallyConfirmed, partialConfirmers := r.partialConfirmers ++ [c] }

/-- The state row a `CONFIRMED` selects from the proposal. -/
def StateRow.confirmed (e : OverlayEvent) (c : Confirmed) (prop : ProposalRow) : StateRow where
  factKey := e.factKey
  objectRef := prop.objectRef
  catalogSource := prop.catalogSource
  factType := prop.factType
  useCase := prop.useCase
  status := .verified
  value := some c.value
  confirmers := c.confirmedBy.confirmerList
  confirmedAt := e.occurredAt
  expiresAt := c.expiresAt
  priorValue := none
  confirmedEventId := e.eventId
  updatedSeq := e.globalSeq

def StateRow.reconfirmed (e : OverlayEvent) (c : Confirmed) (r : StateRow) : StateRow :=
  { r with
    status := .verified
    value := some c.value
    confirmers := c.confirmedBy.confirmerList
    confirmedAt := e.occurredAt
    expiresAt := c.expiresAt
    priorValue := none
    confirmedEventId := e.eventId }

def ProposalRow.verified (eventId : EventId) (r : ProposalRow) : ProposalRow :=
  { r with status := .verified, targetEventId := some eventId, priorValue := none }

def StateRow.expired (r : StateRow) : StateRow :=
  { r with status := .reverify, priorValue := r.value, value := none, expiresAt := none }

def StateRow.staled (r : StateRow) : StateRow :=
  { r with status := .stale, priorValue := r.value, value := none }

/-- The proposal of a fact that left `VERIFIED`, with the retired value. -/
def ProposalRow.retired (status : FactStatus) (target : Option EventId)
    (priorValue : Option FactValue) (r : ProposalRow) : ProposalRow :=
  { r with status := status, priorValue := priorValue, targetEventId := target }

def StateRow.rejected (r : StateRow) : StateRow := { r with status := .rejected, value := none }

def ProposalRow.rejected (r : ProposalRow) : ProposalRow := { r with status := .rejected }

/-- `DELETE` and `INSERT` of one fact's dependency rows. -/
def Tables.indexed (t : Tables) (key : FactKey) (deps : List Referent) : Tables :=
  { t with dependencies :=
      (t.dependencies.filter fun d => d.factKey ≠ key) ++ deps.dedup.map (⟨key, ·⟩) }

def Tables.writeProposal (t : Tables) (e : OverlayEvent) (f : ProposalRow → ProposalRow) : Tables :=
  { t with proposals :=
      t.proposals.update e.factKey (ProposalRow.write e.globalSeq f) ProposalRow.write_key }

def Tables.writeState (t : Tables) (e : OverlayEvent) (f : StateRow → StateRow) : Tables :=
  { t with factStates :=
      t.factStates.update e.factKey (StateRow.write e.globalSeq f) StateRow.write_key }

def Tables.openProposal (t : Tables) (e : OverlayEvent) (p : Proposed) (source : String) : Tables :=
  { t with
    proposals := t.proposals.upsert (ProposalRow.opened e p source)
      (ProposalRow.write e.globalSeq fun _ => ProposalRow.opened e p source)
      ProposalRow.write_key }

def Tables.confirmState (t : Tables) (e : OverlayEvent) (c : Confirmed) : Tables :=
  match t.proposals.get? e.factKey with
  | none => t
  | some prop =>
      { t with
        factStates := t.factStates.upsert (StateRow.confirmed e c prop)
          (StateRow.write e.globalSeq (StateRow.reconfirmed e c)) StateRow.write_key }

/-- The update of the proposal `FROM overlay_fact_state`. -/
def Tables.retireProposal (t : Tables) (e : OverlayEvent) (status : FactStatus)
    (target : Option EventId) : Tables :=
  match t.factStates.get? e.factKey with
  | none => t
  | some s => t.writeProposal e (ProposalRow.retired status target s.priorValue)

/-- `OverlayProjection.apply`; none when it raises. -/
def Tables.apply (t : Tables) (e : OverlayEvent) : Option Tables :=
  match e.payload with
  | .proposed p =>
      if p.factType = .entityBridge then
        (factDependencies p.objectRef .entityBridge p.proposedValue "").map (t.indexed e.factKey)
      else
        (catalogSourceOf p.catalogObjectRef).bind fun source =>
          (factDependencies p.objectRef p.factType p.proposedValue source).map
            (((t.openProposal e p source).writeState e StateRow.redrafted).indexed e.factKey)
  | .partiallyConfirmed byOwner role _ _ =>
      some (t.writeProposal e (ProposalRow.partially ⟨byOwner, role⟩))
  | .confirmed c =>
      let t := (t.confirmState e c).writeProposal e (ProposalRow.verified e.eventId)
      match t.proposals.get? e.factKey with
      | none => some t
      | some prop =>
          (factDependencies prop.objectRef prop.factType c.value prop.catalogSource).map
            (t.indexed e.factKey)
  | .expired target =>
      some ((t.writeState e StateRow.expired).retireProposal e .reverify target)
  | .staled _ target =>
      some ((t.writeState e StateRow.staled).retireProposal e .stale target)
  | .rejected .. =>
      some ((t.writeState e StateRow.rejected).writeProposal e ProposalRow.rejected)

def Tables.dependentsOf (t : Tables) (referent : Referent) : List FactKey :=
  (t.dependencies.filter fun d => d.referent = referent).map (·.factKey)

structure Rows where
  proposal : Option ProposalRow
  factState : Option StateRow

def Tables.rows (t : Tables) (key : FactKey) : Rows :=
  ⟨t.proposals.get? key, t.factStates.get? key⟩

def Rows.apply (r : Rows) (e : OverlayEvent) : Rows :=
  match e.payload with
  | .proposed p =>
      if p.factType = .entityBridge then r
      else
        match catalogSourceOf p.catalogObjectRef with
        | none => r
        | some source =>
            let opened := ProposalRow.opened e p source
            { proposal := some ((r.proposal.map (ProposalRow.write e.globalSeq fun _ => opened)).getD
                opened)
              factState := r.factState.map (StateRow.write e.globalSeq StateRow.redrafted) }
  | .partiallyConfirmed byOwner role _ _ =>
      { r with proposal :=
          r.proposal.map (ProposalRow.write e.globalSeq (ProposalRow.partially ⟨byOwner, role⟩)) }
  | .confirmed c =>
      { proposal := r.proposal.map (ProposalRow.write e.globalSeq (ProposalRow.verified e.eventId))
        factState :=
          match r.proposal with
          | none => r.factState
          | some prop =>
              some ((r.factState.map (StateRow.write e.globalSeq (StateRow.reconfirmed e c))).getD
                (StateRow.confirmed e c prop)) }
  | .expired target =>
      let factState := r.factState.map (StateRow.write e.globalSeq StateRow.expired)
      { proposal :=
          match factState with
          | none => r.proposal
          | some s => r.proposal.map
              (ProposalRow.write e.globalSeq (ProposalRow.retired .reverify target s.priorValue))
        factState := factState }
  | .staled _ target =>
      let factState := r.factState.map (StateRow.write e.globalSeq StateRow.staled)
      { proposal :=
          match factState with
          | none => r.proposal
          | some s => r.proposal.map
              (ProposalRow.write e.globalSeq (ProposalRow.retired .stale target s.priorValue))
        factState := factState }
  | .rejected .. =>
      { proposal := r.proposal.map (ProposalRow.write e.globalSeq ProposalRow.rejected)
        factState := r.factState.map (StateRow.write e.globalSeq StateRow.rejected) }

section Frames

variable {t : Tables} {e : OverlayEvent} {key : FactKey}

@[simp] theorem rows_indexed {k : FactKey} {deps : List Referent} :
    (t.indexed k deps).rows key = t.rows key := rfl

theorem rows_writeProposal {f : ProposalRow → ProposalRow} : (t.writeProposal e f).rows key =
    if e.factKey = key then
      { t.rows key with proposal := (t.rows key).proposal.map (ProposalRow.write e.globalSeq f) }
    else t.rows key := by
  simp only [Tables.rows, Tables.writeProposal, Table.get?_update]
  split <;> rfl

theorem rows_writeState {f : StateRow → StateRow} : (t.writeState e f).rows key =
    if e.factKey = key then
      { t.rows key with factState := (t.rows key).factState.map (StateRow.write e.globalSeq f) }
    else t.rows key := by
  simp only [Tables.rows, Tables.writeState, Table.get?_update]
  split <;> rfl

theorem rows_openProposal {p : Proposed} {source : String} : (t.openProposal e p source).rows key =
    if e.factKey = key then
      { t.rows key with proposal := some (((t.rows key).proposal.map
          (ProposalRow.write e.globalSeq fun _ => ProposalRow.opened e p source)).getD
            (ProposalRow.opened e p source)) }
    else t.rows key := by
  simp only [Tables.rows, Tables.openProposal, Table.get?_upsert]
  show Rows.mk (if e.factKey = key then _ else _) _ = _
  split <;> rfl

theorem rows_confirmState {c : Confirmed} : (t.confirmState e c).rows key =
    if e.factKey = key then
      { t.rows key with factState :=
          match (t.rows key).proposal with
          | none => (t.rows key).factState
          | some prop => some (((t.rows key).factState.map
              (StateRow.write e.globalSeq (StateRow.reconfirmed e c))).getD
                (StateRow.confirmed e c prop)) }
    else t.rows key := by
  unfold Tables.confirmState
  split
  · next none =>
      split
      · next here =>
          subst here
          simp [Tables.rows, none]
      · rfl
  · next prop found =>
      simp only [Tables.rows, Table.get?_upsert]
      show Rows.mk _ (if e.factKey = key then _ else _) = _
      split
      · next here =>
          subst here
          simp [found]
      · rfl

theorem rows_retireProposal {status : FactStatus} {target : Option EventId} :
    (t.retireProposal e status target).rows key =
    if e.factKey = key then
      { t.rows key with proposal :=
          match (t.rows key).factState with
          | none => (t.rows key).proposal
          | some s => (t.rows key).proposal.map
              (ProposalRow.write e.globalSeq (ProposalRow.retired status target s.priorValue)) }
    else t.rows key := by
  unfold Tables.retireProposal
  split
  · next none =>
      split
      · next here =>
          subst here
          simp [Tables.rows, none]
      · rfl
  · next s found =>
      rw [rows_writeProposal]
      split
      · next here =>
          subst here
          simp [Tables.rows, found]
      · rfl

end Frames

theorem rows_apply {t t' : Tables} {e : OverlayEvent} (h : t.apply e = some t') (key : FactKey) :
    t'.rows key = if e.factKey = key then (t.rows key).apply e else t.rows key := by
  cases hp : e.payload with
  | proposed p =>
      by_cases bridge : p.factType = .entityBridge
      · simp only [Tables.apply, hp, bridge, if_true, Option.map_eq_some_iff] at h
        obtain ⟨deps, _, rfl⟩ := h
        simp [Rows.apply, hp, bridge]
      · simp only [Tables.apply, hp, bridge, if_false, Option.bind_eq_some_iff,
          Option.map_eq_some_iff] at h
        obtain ⟨source, hsource, deps, _, rfl⟩ := h
        rw [rows_indexed, rows_writeState, rows_openProposal]
        by_cases here : e.factKey = key
        · simp [here, Rows.apply, hp, bridge, hsource]
        · simp [here]
  | partiallyConfirmed byOwner role draft note =>
      simp only [Tables.apply, hp, Option.some.injEq] at h
      subst h
      rw [rows_writeProposal]
      by_cases here : e.factKey = key <;> simp [here, Rows.apply, hp]
  | confirmed c =>
      have shape : t'.rows key =
          (((t.confirmState e c).writeProposal e (ProposalRow.verified e.eventId))).rows key := by
        simp only [Tables.apply, hp] at h
        split at h
        · cases h
          rfl
        · obtain ⟨deps, _, rfl⟩ := Option.map_eq_some_iff.mp h
          rfl
      rw [shape, rows_writeProposal, rows_confirmState]
      by_cases here : e.factKey = key <;> simp [here, Rows.apply, hp]
  | expired target =>
      simp only [Tables.apply, hp, Option.some.injEq] at h
      subst h
      rw [rows_retireProposal, rows_writeState]
      by_cases here : e.factKey = key <;> simp [here, Rows.apply, hp]
  | staled change target =>
      simp only [Tables.apply, hp, Option.some.injEq] at h
      subst h
      rw [rows_retireProposal, rows_writeState]
      by_cases here : e.factKey = key <;> simp [here, Rows.apply, hp]
  | rejected rejectedBy reason category target retired =>
      simp only [Tables.apply, hp, Option.some.injEq] at h
      subst h
      rw [rows_writeProposal, rows_writeState]
      by_cases here : e.factKey = key <;> simp [here, Rows.apply, hp]

end FeatureGen.Overlay
