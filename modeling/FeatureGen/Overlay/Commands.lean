import FeatureGen.Overlay.Lifecycle
import FeatureGen.Lib.Transition

/-! # The overlay commands and pollers

`propose_fact`, `confirm_fact` with its dual-owner path, `reject_fact`,
`enter_fact`, the expiry poller and the drift scan, each a function from the
database before to the database after, and the system in which they interleave
with the projection and with changes of the catalog. A refused command leaves the
database as it was.

The catalog the runs at the end are made over: orders and customers in one source, with
an owner each.
-/

namespace FeatureGen.Overlay

structure ProposeFact where
  actor : IdentityEnvelope
  ref : Ref
  factType : FactType
  useCase : Option String
  proposedValue : FactValue
  profileVersion : Option String
  thresholds : Option Json.Members
  evidenceRef : Option String
  /-- Raw evidence: refused with a text, or minted under a ref. -/
  evidence : Option (Except String String)
  sourceUploader : Option String

def bridgeGateError (w : World) (factType : FactType) (ref : Ref) : Option String :=
  if factType = .entityBridge then
    match ref with
    | .bridge bridge => w.bridgeGate bridge
    | _ => some "entity_bridge requires an EntityBridgeRef"
  else none

def rejectedFingerprints (stream : List OverlayEvent) : List (Option String) :=
  stream.filterMap fun e =>
    match e.payload with
    | .rejected _ _ _ _ retired => some retired
    | _ => none

def statusText : Option FactStatus → String
  | none => "None"
  | some .draft => "DRAFT"
  | some .partiallyConfirmed => "PARTIALLY_CONFIRMED"
  | some .verified => "VERIFIED"
  | some .rejected => "REJECTED"
  | some .stale => "STALE"
  | some .reverify => "REVERIFY"

def NonTerminal (st : OverlayState) : Prop := ∃ s ∈ nonTerminal, st.status = some s

instance {st : OverlayState} : Decidable (NonTerminal st) :=
  inferInstanceAs (Decidable (∃ s ∈ nonTerminal, st.status = some s))

theorem not_nonTerminal {st : OverlayState} (h : ¬ NonTerminal st) :
    st.status = none ∨ st.status = some .rejected := by
  cases hs : st.status with
  | none => exact Or.inl rfl
  | some s =>
      cases s <;> first
        | exact Or.inr rfl
        | exact absurd ⟨_, by simp [nonTerminal], hs⟩ h

def nonTerminalReason (stream : List OverlayEvent) (st : OverlayState) (fp : String) : String :=
  if (latestProposed stream).map (·.proposalFingerprint) = some fp then
    "duplicate of a pending proposal (same fingerprint)"
  else s!"a non-terminal fact already exists (status={statusText st.status}); cannot re-propose"

def stickyReason : String :=
  "fingerprint previously rejected (sticky); change the proposal to re-submit"

def mintEvidence (cmd : ProposeFact) : Except Refusal (Option String) :=
  match cmd.evidenceRef, cmd.evidence with
  | none, some (.error text) => .error (.denied s!"invalid raw evidence: {text}")
  | none, some (.ok evidenceRef) => .ok (some evidenceRef)
  | evidenceRef, _ => .ok evidenceRef

def ProposeFact.payload (cmd : ProposeFact) (ref : Ref) (fp : String)
    (evidenceRef : Option String) : Proposed where
  catalogObjectRef := ref
  objectRef := displayObjectRef ref
  factType := cmd.factType
  useCase := cmd.useCase
  proposedValue := cmd.proposedValue
  proposalFingerprint := fp
  evidenceRef := evidenceRef
  proposedBy := cmd.actor.subject
  sourceUploader := if falsy cmd.sourceUploader then none else cmd.sourceUploader

/-- The key a command addresses. -/
def ProposeFact.key (d : Deployment) (cmd : ProposeFact) : FactKey :=
  factKey d.lower (cmd.ref.constructed d.lower) cmd.factType cmd.useCase

def ProposeFact.fingerprint (d : Deployment) (cmd : ProposeFact) : String :=
  proposalFingerprint d.lower cmd.proposedValue cmd.profileVersion cmd.thresholds

def proposeFact (d : Deployment) (w : World) (cmd : ProposeFact) : Except Refusal World := do
  let ref := cmd.ref.constructed d.lower
  validated d (fun m => .denied s!"invalid fact value: {m}") cmd.factType cmd.proposedValue
    cmd.useCase
  refuse (joinWriteError d.lower d.knownEntities ref cmd.factType cmd.proposedValue)
  refuse (bridgeGateError w cmd.factType ref)
  let key := cmd.key d
  let fp := cmd.fingerprint d
  let existing := loadFact w.events key
  let state := foldOverlayState existing
  require (¬ NonTerminal state) (nonTerminalReason existing state fp)
  require (¬ (state.status = some .rejected ∧ (rejectedFingerprints existing).contains (some fp)))
    stickyReason
  let evidenceRef ← mintEvidence cmd
  let _ ← present "TypeError" (resolveAuthority w.adapter ref cmd.factType)
  appendOverlayEvent d w key cmd.actor (.proposed (cmd.payload ref fp evidenceRef))

structure ConfirmFact where
  actor : IdentityEnvelope
  ref : Ref
  factType : FactType
  useCase : Option String
  targetEventId : Option EventId
  /-- `args["value"]`, when the command has one. -/
  value : Option FactValue
  note : Option String

def ConfirmFact.key (d : Deployment) (cmd : ConfirmFact) : FactKey :=
  factKey d.lower (cmd.ref.constructed d.lower) cmd.factType cmd.useCase

def joinSide (authority : Authority) (subject : String) : String :=
  if authority.subjects.head? = some (some subject) then "from"
  else if authority.subjects.tail.head? = some (some subject) then "to"
  else if authority.subjects.head? = some none then "from"
  else if authority.subjects.tail.head? = some none then "to"
  else "from"

def joinConfirmers (authority : Authority) (first second : String) : List Confirmer :=
  let firstSide := joinSide authority first
  let secondSide := joinSide authority second
  let secondSide := if firstSide = secondSide then (if firstSide = "from" then "to" else "from")
    else secondSide
  [⟨first, s!"data_owner_{firstSide}"⟩, ⟨second, s!"data_owner_{secondSide}"⟩]

def recordedRef (lower : String → String) (stream : List OverlayEvent) : Option Ref :=
  match stream with
  | [] => none
  | e :: _ =>
      match e.payload with
      | .proposed p => some (p.catalogObjectRef.constructed lower)
      | _ => none

def appendConfirmed (d : Deployment) (w : World) (key : FactKey) (actor : IdentityEnvelope)
    (c : Confirmed) (expiresAt : Instant) : Except Refusal World := do
  let confirmed ← appendOverlayEvent d w key actor (.confirmed c)
  return { confirmed with timers := confirmed.timers ++ [⟨key, w.nextSeq, expiresAt, false⟩] }

/-- The first owner's step of `_confirm_approved_join`. -/
def confirmFirstSide (d : Deployment) (w : World) (cmd : ConfirmFact) (key : FactKey)
    (state : OverlayState) (authority : Authority) : Except Refusal World :=
  appendOverlayEvent d w key cmd.actor (.partiallyConfirmed cmd.actor.subject
    s!"data_owner_{joinSide authority cmd.actor.subject}" state.draftEventId cmd.note)

def joinValue (state : OverlayState) (proposed : Option Proposed) : Option FactValue :=
  if state.status = some .reverify ∨ state.status = some .stale then state.priorValue
  else proposed.map (·.proposedValue)

/-- The second owner's step of `_confirm_approved_join`. -/
def confirmSecondSide (d : Deployment) (w : World) (cmd : ConfirmFact) (key : FactKey)
    (stream : List OverlayEvent) (state : OverlayState) (authority : Authority) (first : String) :
    Except Refusal World := do
  require (cmd.actor.subject ≠ first) "this owner already confirmed; awaiting the other owner"
  require (¬ (authority.governanceQueue ∧ authority.known ≠ [] ∧ first ∉ authority.known ∧
    cmd.actor.subject ∉ authority.known)) "a known owner must confirm their side of the join"
  let value ← present "TypeError" (joinValue state (latestProposed stream))
  validated d (fun m => .denied s!"invalid confirmed value: {m}") .approvedJoin value none
  let ref ← present "KeyError" (recordedRef d.lower stream)
  sealedReferentCheck d w "join re-confirm blocked" ref .approvedJoin value
  let expiresAt := w.now + resolveTtl d w.config .approvedJoin key
  appendConfirmed d w key cmd.actor {
    value := value
    confirmedBy := .human (joinConfirmers authority first cmd.actor.subject)
    expiresAt := some expiresAt
    confirmsEventId := casTarget state
    note := cmd.note } expiresAt

def confirmApprovedJoin (d : Deployment) (w : World) (cmd : ConfirmFact) (key : FactKey)
    (stream : List OverlayEvent) (state : OverlayState) (authority : Authority) :
    Except Refusal World := do
  require (cmd.actor.subject ∈ authority.known ∨
    authority.governanceQueue ∧ "platform-admin" ∈ cmd.actor.roleClaims)
    "actor is not an owner of either side of the join"
  require (proposerNeConfirmer stream cmd.actor) "proposer may not confirm (four-eyes, §6.5)"
  if state.status = some .stale ∧ w.config.isSome then
    let ref ← present "KeyError" (recordedRef d.lower stream)
    let value ← present "TypeError"
      (state.priorValue <|> (latestProposed stream).map (·.proposedValue))
    checkReferentsExist d w "stale re-confirm blocked" ref .approvedJoin value
  match state.partialConfirmers.getLast? with
  | none => confirmFirstSide d w cmd key state authority
  | some first => confirmSecondSide d w cmd key stream state authority first.subject

/-- The value a confirmation re-affirms when the command names none. -/
def defaultValue (state : OverlayState) (proposed : Option Proposed) : Option FactValue :=
  if state.status = some .verified then state.value
  else if state.status = some .reverify ∨ state.status = some .stale then state.priorValue
  else proposed.map (·.proposedValue)

def singleConfirmers (factType : FactType) (subject : String) : List Confirmer :=
  match factType with
  | .approvedJoin => [⟨subject, "data_owner_from"⟩, ⟨subject, "data_owner_to"⟩]
  | .policyTag => [⟨subject, "compliance"⟩]
  | _ => [⟨subject, "data_owner"⟩]

def semanticTypes : List FactType := [.entityAssignment, .currencyBinding]

/-- The single-confirmer rest of `confirm_fact`. -/
def confirmSingle (d : Deployment) (w : World) (cmd : ConfirmFact) (key : FactKey)
    (stream : List OverlayEvent) (state : OverlayState) (authority : Authority) :
    Except Refusal World := do
  let ref := cmd.ref.constructed d.lower
  require (actorIsAuthority authority cmd.actor) "actor is not the resolved authority for this fact"
  require (proposerNeConfirmer stream cmd.actor)
    "four-eyes: a proposer may not confirm the same fact"
  require (uploaderNeConfirmer stream cmd.actor)
    ("four-eyes: the uploading principal who declared this value may not confirm it; " ++
      "a different reviewer must confirm")
  require (¬ (cmd.factType ∈ semanticTypes ∧ cmd.value.isSome))
    ("value override denied on a semantic-binding confirm: a value change must go through " ++
      "propose→confirm (correct_binding), never single-party author+approve")
  let value ← present "TypeError" (cmd.value <|> defaultValue state (latestProposed stream))
  validated d (fun m => .denied s!"invalid confirmed value: {m}") cmd.factType value cmd.useCase
  refuse (joinWriteError d.lower d.knownEntities ref cmd.factType value)
  refuse (bridgeGateError w cmd.factType ref)
  if state.status = some .stale ∨ state.status = some .reverify then
    sealedReferentCheck d w "stale re-confirm blocked" ref cmd.factType value
  let expiresAt := w.now + resolveTtl d w.config cmd.factType key
  appendConfirmed d w key cmd.actor {
    value := value
    confirmedBy := .human (singleConfirmers cmd.factType cmd.actor.subject)
    expiresAt := some expiresAt
    confirmsEventId := cmd.targetEventId
    note := cmd.note } expiresAt

def confirmFact (d : Deployment) (w : World) (cmd : ConfirmFact) : Except Refusal World := do
  require (cmd.actor.actorKind = .human) "confirm_fact requires a human authority"
  let key := cmd.key d
  let stream := loadFact w.events key
  require (stream ≠ []) "fact does not exist"
  let state := foldOverlayState stream
  let renewing := withinRenewalGrace w.config state w.now
  require (Awaiting state ∨ renewing)
    s!"fact not awaiting confirmation (status={statusText state.status})"
  require (cmd.targetEventId = casTarget state)
    "stale confirmation: target_event_id has been superseded"
  let authority ← present "TypeError"
    (resolveAuthority w.adapter (cmd.ref.constructed d.lower) cmd.factType)
  if cmd.factType = .approvedJoin ∧ authority.dual then
    require (¬ (renewing ∧ state.status = some .verified))
      ("dual-owner approved_join cannot renew in place; it re-verifies via the " ++
        "expiry/reverify flow")
    confirmApprovedJoin d w cmd key stream state authority
  else confirmSingle d w cmd key stream state authority

structure RejectFact where
  actor : IdentityEnvelope
  ref : Ref
  factType : FactType
  useCase : Option String
  targetEventId : Option EventId
  reason : Option String
  category : Option String

def RejectFact.key (d : Deployment) (cmd : RejectFact) : FactKey :=
  factKey d.lower (cmd.ref.constructed d.lower) cmd.factType cmd.useCase

def retiredFingerprint (d : Deployment) (state : OverlayState) (proposed : Option Proposed) :
    Option String :=
  match state.priorValue with
  | some prior =>
      if (state.status = some .reverify ∨ state.status = some .stale) ∧
          some prior ≠ proposed.map (·.proposedValue) then
        some (proposalFingerprint d.lower prior none none)
      else proposed.map (·.proposalFingerprint)
  | none => proposed.map (·.proposalFingerprint)

def rejectFact (d : Deployment) (w : World) (cmd : RejectFact) : Except Refusal World := do
  require (cmd.actor.actorKind = .human) "reject_fact requires a human authority"
  let key := cmd.key d
  let stream := loadFact w.events key
  require (stream ≠ []) "fact does not exist"
  let state := foldOverlayState stream
  require (Awaiting state) s!"fact not awaiting confirmation (status={statusText state.status})"
  require (cmd.targetEventId = casTarget state)
    "stale rejection: target_event_id has been superseded"
  let authority ← present "TypeError"
    (resolveAuthority w.adapter (cmd.ref.constructed d.lower) cmd.factType)
  require (actorIsAuthority authority cmd.actor) "actor is not the resolved authority for this fact"
  appendOverlayEvent d w key cmd.actor (.rejected cmd.actor.subject cmd.reason cmd.category
    cmd.targetEventId (retiredFingerprint d state (latestProposed stream)))

structure EnterFact where
  actor : IdentityEnvelope
  ref : Ref
  factType : FactType
  useCase : Option String
  proposedValue : FactValue

def EnterFact.key (d : Deployment) (cmd : EnterFact) : FactKey :=
  factKey d.lower (cmd.ref.constructed d.lower) cmd.factType cmd.useCase

def EnterFact.payload (d : Deployment) (cmd : EnterFact) : Proposed where
  catalogObjectRef := cmd.ref.constructed d.lower
  objectRef := displayObjectRef (cmd.ref.constructed d.lower)
  factType := cmd.factType
  useCase := cmd.useCase
  proposedValue := cmd.proposedValue
  proposalFingerprint := proposalFingerprint d.lower cmd.proposedValue none none
  evidenceRef := none
  proposedBy := cmd.actor.subject
  sourceUploader := none

def enterFact (d : Deployment) (w : World) (cmd : EnterFact) : Except Refusal World := do
  require (cmd.actor.actorKind = .human) "self-confirm (enter_fact) requires a human authority"
  let ref := cmd.ref.constructed d.lower
  validated d (fun m => .denied s!"invalid fact value: {m}") cmd.factType cmd.proposedValue
    cmd.useCase
  refuse (joinWriteError d.lower d.knownEntities ref cmd.factType cmd.proposedValue)
  refuse (bridgeGateError w cmd.factType ref)
  let key := cmd.key d
  require (cmd.factType ∉ semanticTypes)
    "governed semantic fact requires the two-party propose/confirm flow (four-eyes)"
  let authority ← present "TypeError" (resolveAuthority w.adapter ref cmd.factType)
  require (¬ authority.governanceQueue)
    "unowned (governance-queue) fact cannot be self-confirmed; use propose/confirm"
  require (¬ authority.dual)
    "dual-owner approved_join cannot be self-confirmed; use the two-task flow"
  require (actorIsAuthority authority cmd.actor) "actor is not the resolved authority for this fact"
  require (loadFact w.events key = []) "fact already exists; use propose/confirm"
  let draft ← appendOverlayEvent d w key cmd.actor (.proposed (cmd.payload d))
  let expiresAt := w.now + resolveTtl d w.config cmd.factType key
  appendConfirmed d draft key cmd.actor {
    value := cmd.proposedValue
    confirmedBy := .human (singleConfirmers cmd.factType cmd.actor.subject)
    expiresAt := some expiresAt
    confirmsEventId := some w.nextSeq
    note := none } expiresAt

def serviceActor (subject : String) : IdentityEnvelope := ⟨subject, .service, ["overlay"]⟩

def applyExpiry (w : World) (timer : ExpiryTimer) : World :=
  let state := foldOverlayState (loadFact w.events timer.factKey)
  if state.status = some .verified ∧ state.confirmedEventId = some timer.confirmedEventId then
    w.append timer.factKey (serviceActor "service:overlay-freshness")
      (.expired (some timer.confirmedEventId))
  else w

def World.markFired (w : World) (timer : ExpiryTimer) : World :=
  { w with timers := w.timers.map fun t => if t = timer then { t with fired := true } else t }

/-- One row of the loop of `fire_due_overlay_expiries`; `picked` is due or skipped. -/
def fireExpiry (w : World) (picked : ExpiryTimer) : World :=
  if picked ∈ w.timers ∧ picked.fired = false ∧ picked.fireAt ≤ w.now then
    (applyExpiry w picked).markFired picked
  else w

/-- `fire_due_overlay_expiries` over the due timers it locks, in the order it
    gets them. -/
def fireDueOverlayExpiries (w : World) (picked : List ExpiryTimer) : World :=
  picked.foldl fireExpiry w

/-- The text `_type_fingerprint` digests. -/
def typeFingerprint (obj : CatalogObject) : String :=
  let dataType := obj.dataType.getD "None"
  match obj.safetyFingerprint with
  | none => s!"{obj.objectKind}|{dataType}"
  | some safety => s!"{obj.objectKind}|{dataType}|{safety}"

inductive ChangeKind where
  | add
  | drop
  | typeChange
  | rename

structure Change where
  objectRef : String
  kind : ChangeKind
  renamedTo : Option String

def loadSnapshot (w : World) : List SnapshotRow :=
  w.snapshot.filter fun r => r.catalogSource = w.adapter.catalogSource

/-- The new name of a dropped object, by its native oid. -/
def renamedTo (w : World) (row : SnapshotRow) : Option String :=
  if falsy row.nativeOid then none
  else
    let known := (loadSnapshot w).map (·.objectRef)
    (w.adapter.fingerprint.find? fun obj =>
      obj.1 ∉ known ∧ obj.2.nativeOid = row.nativeOid).map (·.1)

/-- The drop or the rename of an object the fingerprint no longer has. -/
def gone (w : World) (row : SnapshotRow) : Change :=
  match renamedTo w row with
  | none => ⟨row.objectRef, .drop, none⟩
  | some new => ⟨row.objectRef, .rename, some new⟩

/-- The changes of `detect_catalog_changes` that stale dependents; additions do not. -/
def stalingChanges (w : World) : List Change :=
  ((loadSnapshot w).filter fun row => row.objectRef ∉ w.adapter.refs).map (gone w) ++
    (loadSnapshot w).filterMap fun row =>
      match w.adapter.fingerprint.find? fun obj => obj.1 = row.objectRef with
      | none => none
      | some obj =>
          if typeFingerprint obj.2 ≠ row.typeFingerprint then
            some ⟨row.objectRef, .typeChange, none⟩
          else none

def ChangeKind.name : ChangeKind → String
  | .add => "add"
  | .drop => "drop"
  | .typeChange => "type_change"
  | .rename => "rename"

def staleOne (actor : IdentityEnvelope) (w : World) (dependent : FactKey × String) : World :=
  let state := foldOverlayState (loadFact w.events dependent.1)
  if state.status = some .verified then
    w.append dependent.1 actor (.staled dependent.2 state.confirmedEventId)
  else w

/-- The facts `_stale_dependents` visits, with the change each is visited for. -/
def driftedFacts (w : World) : List (FactKey × String) :=
  (stalingChanges w).flatMap fun change =>
    (w.tables.dependentsOf (w.adapter.catalogSource, change.objectRef)).map fun key =>
      (key, s!"{change.kind.name}:{change.objectRef}")

/-- `_save_snapshot`. -/
def savedSnapshot (w : World) : List SnapshotRow :=
  (w.snapshot.filter fun r => r.catalogSource ≠ w.adapter.catalogSource) ++
    w.adapter.fingerprint.map fun obj =>
      ⟨w.adapter.catalogSource, obj.1, obj.2.nativeOid, typeFingerprint obj.2⟩

/-- `COALESCE(max(global_seq), 0)`. -/
def World.headSeq (w : World) : ℕ := (w.events.map (·.globalSeq)).foldr max 0

/-- `_write_watermark`. -/
def writtenWatermark (w : World) : List Watermark :=
  (w.watermarks.filter fun m => m.catalogSource ≠ w.adapter.catalogSource) ++
    [⟨w.adapter.catalogSource, w.now, w.headSeq⟩]

/-- `detect_catalog_changes`. With `conflictAt`, a concurrent confirm conflicts
    after that many dependents, and neither snapshot nor watermark moves. -/
def detectCatalogChanges (w : World) (actor : IdentityEnvelope) (conflictAt : Option ℕ) : World :=
  match conflictAt with
  | some n => ((driftedFacts w).take n).foldl (staleOne actor) w
  | none =>
      let scanned := (driftedFacts w).foldl (staleOne actor) w
      { scanned with snapshot := savedSnapshot scanned, watermarks := writtenWatermark scanned }

/-- `run_projection` over the next event; it halts before an event it cannot apply. -/
def projectNext (w : World) : World :=
  match w.events.find? fun e => w.checkpointSeq < e.globalSeq with
  | none => w
  | some e =>
      match w.tables.apply e with
      | none => w
      | some tables => { w with tables := tables, checkpointSeq := e.globalSeq }

inductive Action where
  | proposeFact (cmd : ProposeFact)
  | confirmFact (cmd : ConfirmFact)
  | rejectFact (cmd : RejectFact)
  | enterFact (cmd : EnterFact)
  | fireDueOverlayExpiries (picked : List ExpiryTimer)
  | detectCatalogChanges (actor : IdentityEnvelope) (conflictAt : Option ℕ)
  | project
  /-- The registered catalog, its owners and the graph change. -/
  | catalog (adapter : CatalogAdapter) (graphNodes : List Referent)
      (bridgeGate : EntityBridgeRef → Option String)
  | sealConfig (config : OverlayConfig)
  | tick (now : Instant)
  /-- Numbers a rolled back transaction drew from the sequence. -/
  | skipSeq (burned : ℕ)

/-- A refused command changes nothing. -/
def World.after (w : World) : Except Refusal World → World
  | .ok w' => w'
  | .error _ => w

def step (d : Deployment) (w : World) : Action → Option World
  | .proposeFact cmd => some (w.after (proposeFact d w cmd))
  | .confirmFact cmd => some (w.after (confirmFact d w cmd))
  | .rejectFact cmd => some (w.after (rejectFact d w cmd))
  | .enterFact cmd => some (w.after (enterFact d w cmd))
  | .fireDueOverlayExpiries picked => some (fireDueOverlayExpiries w picked)
  | .detectCatalogChanges actor conflictAt => some (detectCatalogChanges w actor conflictAt)
  | .project => some (projectNext w)
  | .catalog adapter graphNodes bridgeGate =>
      some { w with adapter := adapter, graphNodes := graphNodes, bridgeGate := bridgeGate }
  | .sealConfig config => some { w with config := some config }
  | .tick now => some { w with now := now }
  | .skipSeq burned => some { w with nextSeq := w.nextSeq + burned }

/-- An overlay nothing has happened in yet. -/
structure Init (w : World) : Prop where
  events : w.events = []
  nextSeq : 0 < w.nextSeq
  timers : w.timers = []
  tables : w.tables = .empty
  checkpointSeq : w.checkpointSeq = 0
  snapshot : w.snapshot = []

def World.fresh (adapter : CatalogAdapter) (config : Option OverlayConfig) : World where
  now := 0
  config := config
  adapter := adapter
  graphNodes := []
  bridgeGate := fun _ => none
  events := []
  nextSeq := 1
  timers := []
  tables := .empty
  checkpointSeq := 0
  snapshot := []
  watermarks := []

theorem World.fresh_init {adapter : CatalogAdapter} {config : Option OverlayConfig} :
    Init (World.fresh adapter config) := ⟨rfl, Nat.one_pos, rfl, rfl, rfl, rfl⟩

section Shop

def ordersRef : CatalogObjectRef := ⟨"core", "table", "sales", "orders", none⟩

def customersRef : CatalogObjectRef := ⟨"core", "table", "sales", "customers", none⟩

def CatalogObjectRef.value (ref : CatalogObjectRef) : RefValue where
  catalogSource := ref.catalogSource
  objectKind := ref.objectKind
  schema := ref.schema
  table := ref.table
  column := ref.column.map some

def ordersCustomers : ApprovedJoinRef :=
  ⟨ordersRef, customersRef, [⟨"customer_id", "id"⟩], some "N:1"⟩

def ApprovedJoinRef.value (ref : ApprovedJoinRef) : FactValue :=
  .approvedJoin ref.fromRef.value ref.toRef.value ref.columnPairs ref.cardinality

def shop (ordersOwner customersOwner : Option String) (objects : List String) : CatalogAdapter where
  catalogSource := "core"
  getFact := fun _ _ _ => none
  ownerOf := fun ref => if ref.table = "orders" then ordersOwner else customersOwner
  fingerprint := objects.map fun ref => (ref, ⟨"table", none, none, none⟩)
  uploadContext := false

def person (subject : String) (roleClaims : List String) : IdentityEnvelope :=
  ⟨subject, .human, roleClaims⟩

def ApprovedJoinRef.propose (ref : ApprovedJoinRef) (actor : IdentityEnvelope) : ProposeFact where
  actor := actor
  ref := .join ref
  factType := .approvedJoin
  useCase := none
  proposedValue := ref.value
  profileVersion := none
  thresholds := none
  evidenceRef := none
  evidence := none
  sourceUploader := none

def ApprovedJoinRef.confirm (ref : ApprovedJoinRef) (actor : IdentityEnvelope)
    (targetEventId : EventId) : ConfirmFact where
  actor := actor
  ref := .join ref
  factType := .approvedJoin
  useCase := none
  targetEventId := some targetEventId
  value := none
  note := none

def shopDeployment : Deployment := asciiDeployment (fun _ _ => "invalid") []

def shopObjects : List String := ["sales.orders", "sales.customers"]

/-- Alice owns the orders and Bob the customers; no configuration is sealed. -/
def shopOverlay : World := .fresh (shop (some "alice") (some "bob") shopObjects) none

def bothOwnersConfirm : List Action :=
  [.proposeFact (ordersCustomers.propose (person "carol" [])),
    .confirmFact (ordersCustomers.confirm (person "alice" []) 1),
    .confirmFact (ordersCustomers.confirm (person "bob" []) 1)]

end Shop

end FeatureGen.Overlay
