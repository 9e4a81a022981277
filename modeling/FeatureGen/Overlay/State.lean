import FeatureGen.Overlay.Identity

/-! # The overlay fact stream and its fold

The six event types of `overlay/facts.py`, and `fold_overlay_state` of
`overlay/state.py`, the authoritative state of one fact.

`fact_dependencies` of `overlay/dependencies.py`: the catalog objects a fact's
value refers to, each under its own source. It is none where the source raises
`KeyError`.
-/

namespace FeatureGen.Overlay

/-- Event ids are minted fresh. -/
abbrev EventId := ℕ

inductive ActorKind where
  | human
  | service
  deriving DecidableEq

/-- What the overlay reads of an `IdentityEnvelope`. -/
structure IdentityEnvelope where
  subject : String
  actorKind : ActorKind
  roleClaims : List String
  deriving DecidableEq

structure Confirmer where
  subject : String
  role : String
  deriving DecidableEq

/-- `OVERLAY_FACT_PROPOSED`. -/
structure Proposed where
  catalogObjectRef : Ref
  objectRef : String
  factType : FactType
  useCase : Option String
  proposedValue : FactValue
  proposalFingerprint : String
  evidenceRef : Option String
  proposedBy : String
  sourceUploader : Option String
  deriving DecidableEq

/-- Who a confirmation rests on: human confirmers, or the declaring source. -/
inductive ConfirmedBy where
  | human (confirmers : List Confirmer)
  | sourceDeclared (originType : String) (roleClaims : List String)
  deriving DecidableEq

/-- `OVERLAY_FACT_CONFIRMED`. -/
structure Confirmed where
  value : FactValue
  confirmedBy : ConfirmedBy
  expiresAt : Option Instant
  confirmsEventId : Option EventId
  note : Option String
  deriving DecidableEq

inductive Payload where
  | proposed (p : Proposed)
  | partiallyConfirmed (byOwner role : String) (draftEventId : Option EventId)
      (note : Option String)
  | confirmed (c : Confirmed)
  | rejected (rejectedBy : String) (reason category : Option String)
      (targetEventId : Option EventId) (retiredFingerprint : Option String)
  | expired (expiresConfirmedEventId : Option EventId)
  | staled (catalogChangeRef : String) (stalesConfirmedEventId : Option EventId)
  deriving DecidableEq

/-- An event of the `overlay_fact` aggregate; its `aggregate_id` is the fact key. -/
structure OverlayEvent where
  eventId : EventId
  globalSeq : ℕ
  factKey : FactKey
  actor : IdentityEnvelope
  occurredAt : Instant
  payload : Payload
  deriving DecidableEq

inductive FactStatus where
  | draft
  | partiallyConfirmed
  | verified
  | rejected
  | stale
  | reverify
  deriving DecidableEq

structure OverlayState where
  status : Option FactStatus := none
  value : Option FactValue := none
  confirmers : List Confirmer := []
  expiresAt : Option Instant := none
  confirmedEventId : Option EventId := none
  draftEventId : Option EventId := none
  proposalFingerprint : Option String := none
  partialConfirmers : List Confirmer := []
  priorValue : Option FactValue := none
  evidenceRef : Option String := none
  objectRef : Option String := none
  factType : Option FactType := none
  useCase : Option String := none
  authorityBasis : Option String := none
  originType : Option String := none
  roleClaims : List String := []

/-- `payload.get("confirmers")` of a confirmation, or none. -/
def ConfirmedBy.confirmerList : ConfirmedBy → List Confirmer
  | .human confirmers => confirmers
  | .sourceDeclared _ _ => []

/-- One iteration of the loop in `fold_overlay_state`. -/
def foldEvent (st : OverlayState) (event : OverlayEvent) : OverlayState :=
  match event.payload with
  | .proposed p =>
      -- a stray proposal of a live fact is ignored
      if st.status = none ∨ st.status = some .rejected then
        { st with
          status := some .draft
          draftEventId := some event.eventId
          proposalFingerprint := some p.proposalFingerprint
          objectRef := some p.objectRef
          factType := some p.factType
          useCase := p.useCase
          evidenceRef := p.evidenceRef
          priorValue := none
          value := none
          confirmers := []
          partialConfirmers := []
          expiresAt := none
          confirmedEventId := none
          authorityBasis := none
          originType := none
          roleClaims := [] }
      else st
  | .partiallyConfirmed byOwner role _ _ =>
      { st with
        status := some .partiallyConfirmed
        partialConfirmers := st.partialConfirmers ++ [⟨byOwner, role⟩] }
  | .confirmed c =>
      let st := { st with
        status := some .verified
        value := some c.value
        expiresAt := c.expiresAt
        confirmedEventId := some event.eventId
        priorValue := none
        partialConfirmers := [] }
      match c.confirmedBy with
      | .sourceDeclared originType roleClaims =>
          { st with
            authorityBasis := some "source_declared"
            originType := some originType
            roleClaims := roleClaims
            confirmers := [] }
      | .human confirmers =>
          { st with
            confirmers := confirmers
            authorityBasis := none
            originType := none
            roleClaims := [] }
  | .rejected .. => { st with status := some .rejected, value := none }
  | .expired _ => { st with status := some .reverify, priorValue := st.value, value := none }
  | .staled _ _ => { st with status := some .stale, priorValue := st.value, value := none }

def foldOverlayState (stream : List OverlayEvent) : OverlayState := stream.foldl foldEvent {}

/-- `load_fact`: the stream of one fact, in the order it was appended. -/
def loadFact (events : List OverlayEvent) (key : FactKey) : List OverlayEvent :=
  events.filter fun e => e.factKey = key

def latestProposed (stream : List OverlayEvent) : Option Proposed :=
  stream.reverse.findSome? fun e =>
    match e.payload with
    | .proposed p => some p
    | _ => none

@[simp] theorem foldOverlayState_nil : foldOverlayState [] = {} := rfl

theorem foldOverlayState_snoc {stream : List OverlayEvent} {e : OverlayEvent} :
    foldOverlayState (stream ++ [e]) = foldEvent (foldOverlayState stream) e := by
  simp [foldOverlayState]

@[simp] theorem loadFact_nil {key : FactKey} : loadFact [] key = [] := rfl

theorem loadFact_snoc {events : List OverlayEvent} {e : OverlayEvent} {key : FactKey} :
    loadFact (events ++ [e]) key =
      if e.factKey = key then loadFact events key ++ [e] else loadFact events key := by
  by_cases h : e.factKey = key <;> simp [loadFact, h]

theorem loadFact_filter (events : List OverlayEvent) (keep : FactKey → Bool) {key : FactKey}
    (h : keep key = true) :
    loadFact (events.filter fun e => keep e.factKey) key = loadFact events key := by
  unfold loadFact
  rw [List.filter_filter]
  apply List.filter_congr
  intro e _
  by_cases here : e.factKey = key <;> simp [here, h]

@[simp] theorem latestProposed_nil : latestProposed [] = none := rfl

theorem latestProposed_snoc {stream : List OverlayEvent} {e : OverlayEvent} :
    latestProposed (stream ++ [e]) =
      match e.payload with
      | .proposed p => some p
      | _ => latestProposed stream := by
  cases h : e.payload <;> simp [latestProposed, h]

section Fold

variable (st : OverlayState) {e : OverlayEvent}

theorem fold_proposed {p : Proposed} (h : e.payload = .proposed p)
    (admitted : st.status = none ∨ st.status = some .rejected) :
    (foldEvent st e).status = some .draft ∧ (foldEvent st e).draftEventId = some e.eventId ∧
      (foldEvent st e).partialConfirmers = [] ∧
      (foldEvent st e).proposalFingerprint = some p.proposalFingerprint := by
  simp [foldEvent, h, admitted]

theorem fold_partial {byOwner role : String} {draft : Option EventId} {note : Option String}
    (h : e.payload = .partiallyConfirmed byOwner role draft note) :
    foldEvent st e = { st with
      status := some .partiallyConfirmed
      partialConfirmers := st.partialConfirmers ++ [⟨byOwner, role⟩] } := by
  simp [foldEvent, h]

theorem fold_confirmed {c : Confirmed} (h : e.payload = .confirmed c) :
    (foldEvent st e).status = some .verified ∧ (foldEvent st e).value = some c.value ∧
      (foldEvent st e).confirmers = c.confirmedBy.confirmerList ∧
      (foldEvent st e).expiresAt = c.expiresAt ∧
      (foldEvent st e).confirmedEventId = some e.eventId ∧
      (foldEvent st e).partialConfirmers = [] ∧
      (foldEvent st e).draftEventId = st.draftEventId := by
  cases hc : c.confirmedBy <;> simp [foldEvent, h, hc, ConfirmedBy.confirmerList]

end Fold

def isProposed (e : OverlayEvent) : Bool :=
  match e.payload with
  | .proposed _ => true
  | _ => false

def confirmation (e : OverlayEvent) : Option Confirmed :=
  match e.payload with
  | .confirmed c => some c
  | _ => none

def isConfirmed (e : OverlayEvent) : Bool :=
  match e.payload with
  | .confirmed _ => true
  | _ => false

def partialConfirmer (e : OverlayEvent) : Option Confirmer :=
  match e.payload with
  | .partiallyConfirmed byOwner role _ _ => some ⟨byOwner, role⟩
  | _ => none

def sinceProposed (stream : List OverlayEvent) : List OverlayEvent :=
  stream.rtakeWhile fun e => !isProposed e

/-- The events after the last proposal or confirmation. -/
def currentCycle (stream : List OverlayEvent) : List OverlayEvent :=
  stream.rtakeWhile fun e => !(isProposed e || isConfirmed e)

theorem confirmation_eq_some {e : OverlayEvent} {c : Confirmed} :
    confirmation e = some c ↔ e.payload = .confirmed c := by
  unfold confirmation
  cases e.payload <;> simp

section Cycles

variable {stream : List OverlayEvent} {e : OverlayEvent}

@[simp] theorem sinceProposed_nil : sinceProposed [] = [] := rfl

@[simp] theorem currentCycle_nil : currentCycle [] = [] := rfl

theorem sinceProposed_snoc : sinceProposed (stream ++ [e]) =
    if isProposed e then [] else sinceProposed stream ++ [e] := by
  rw [sinceProposed, List.rtakeWhile_concat]
  cases isProposed e <;> rfl

theorem currentCycle_snoc : currentCycle (stream ++ [e]) =
    if isProposed e || isConfirmed e then [] else currentCycle stream ++ [e] := by
  rw [currentCycle, List.rtakeWhile_concat]
  cases isProposed e || isConfirmed e <;> rfl

end Cycles

end FeatureGen.Overlay

namespace FeatureGen.Overlay

/-- A catalog object under its source. -/
abbrev Referent := String × String

def tableObj (ref : RefValue) : String :=
  String.intercalate "." ([ref.schema, ref.table].filter (· ≠ ""))

/-- The `column` member inside a format string. -/
def columnText (ref : RefValue) : Option String := ref.column.map fun c => c.getD "None"

def factDependencies (objectRef : String) (factType : FactType) (value : FactValue)
    (catalogSource : String) : Option (List Referent) :=
  match factType, value with
  | .entityBridge, .entityBridge _ left right =>
      (columnText left).bind fun leftColumn => (columnText right).map fun rightColumn =>
        [(left.catalogSource, tableObj left), (right.catalogSource, tableObj right),
          (left.catalogSource, s!"{tableObj left}.{leftColumn}"),
          (right.catalogSource, s!"{tableObj right}.{rightColumn}")]
  | .entityBridge, _ => none
  | .approvedJoin, .approvedJoin fromRef toRef columnPairs _ =>
      some <| (fromRef.catalogSource, tableObj fromRef) :: (toRef.catalogSource, tableObj toRef) ::
        columnPairs.flatMap fun pair =>
          [(fromRef.catalogSource, s!"{tableObj fromRef}.{pair.fromCol}"),
            (toRef.catalogSource, s!"{tableObj toRef}.{pair.toCol}")]
  | .approvedJoin, _ => none
  | .currencyBinding, .currencyColumn cc =>
      (columnText cc).map fun column =>
        [(catalogSource, objectRef), (catalogSource, s!"{tableObj cc}.{column}")]
  | .grain, .grain columns _ =>
      some <| (catalogSource, objectRef) :: columns.map fun c => (catalogSource, s!"{objectRef}.{c}")
  | .availabilityTime, .availabilityTime column _ _ =>
      some [(catalogSource, objectRef), (catalogSource, s!"{objectRef}.{column}")]
  | .availabilityTime, _ => none
  | .scdEffectiveDating, .scdEffectiveDating validFrom validTo _ =>
      some <| [(catalogSource, objectRef), (catalogSource, s!"{objectRef}.{validFrom}")] ++
        if falsy validTo then [] else [(catalogSource, objectRef ++ "." ++ validTo.getD "")]
  | .scdEffectiveDating, _ => none
  | _, _ => some [(catalogSource, objectRef)]

/-- A value the dependency index can read: its type's schema admits it and a
    currency column names its column. -/
def Indexable (factType : FactType) (value : FactValue) : Prop :=
  schemaAdmits factType value = true ∧ ∀ cc, value = .currencyColumn cc → falsy cc.column.join = false

theorem indexable_of_gates {lower : String → String} {knownEntities : List String} {ref : Ref}
    {factType : FactType} {value : FactValue} (admits : schemaAdmits factType value = true)
    (gate : joinWriteError lower knownEntities ref factType value = none) :
    Indexable factType value := by
  refine ⟨admits, ?_⟩
  rintro cc rfl
  cases factType <;> simp [schemaAdmits] at admits
  cases ref with
  | object ref =>
      simp only [joinWriteError, currencyBindingWriteError] at gate
      split at gate
      · cases gate
      · split at gate
        · cases gate
        · next named => simpa using named
  | join ref => simp [joinWriteError, currencyBindingWriteError] at gate
  | bridge ref => simp [joinWriteError, currencyBindingWriteError] at gate

theorem indexable_approvedJoin {value : FactValue}
    (admits : schemaAdmits .approvedJoin value = true) : Indexable .approvedJoin value := by
  refine ⟨admits, ?_⟩
  rintro cc rfl
  simp [schemaAdmits] at admits

theorem Indexable.dependencies {factType : FactType} {value : FactValue}
    (h : Indexable factType value) (notBridge : factType ≠ .entityBridge) (objectRef : String)
    (catalogSource : String) :
    ∃ deps, factDependencies objectRef factType value catalogSource = some deps := by
  obtain ⟨admits, named⟩ := h
  cases factType <;> cases value <;>
    simp_all [schemaAdmits, factDependencies, columnText, falsy]
  next cc =>
    cases hc : cc.column with
    | none => simp [hc] at named
    | some column => simp

end FeatureGen.Overlay
