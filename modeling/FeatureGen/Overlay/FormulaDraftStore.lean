import FeatureGen.Lib.Document
import FeatureGen.Lib.KeySort
import FeatureGen.Lib.Transition
import FeatureGen.Overlay.LlmSpend

/-! # Draft requests, withdrawals and regeneration approvals

`overlay/upload/formula_draft_store.py` and `retirement_scope.py` over
`formula_draft` (1090), its legacy retirements (1096), the withdrawals and
regeneration exceptions of 1103 and the partial identity index of 1107. Each
function is one transaction; one that raises writes nothing. The columns' CHECKs
on blank texts are left out.
-/

namespace FeatureGen.FormulaDraftStore

open LlmSpend (Instant)

inductive DraftState where
  | requested
  | authoring
  | criticReview
  | validating
  | admission
  | ready
  /-- Valid formula, unmet capability or requirement: a product result. -/
  | blocked
  /-- The run could not complete: an operational result. -/
  | failed
  | cancelled
  deriving DecidableEq

namespace DraftState

def isTerminal : DraftState → Bool
  | .ready | .blocked | .failed | .cancelled => true
  | .requested | .authoring | .criticReview | .validating | .admission => false

/-- `_NEXT`, the one legal path forward. -/
def next : DraftState → List DraftState
  | .requested => [.authoring]
  | .authoring => [.criticReview]
  | .criticReview => [.validating]
  | .validating => [.admission]
  | .admission => [.ready]
  | .ready | .blocked | .failed | .cancelled => []

/-- `_FROM_ANYWHERE`, reachable from every working state. -/
def fromAnywhere : List DraftState := [.blocked, .failed, .cancelled]

def permitted (s : DraftState) : List DraftState :=
  s.next ++ if s.isTerminal then [] else fromAnywhere

/-- `state NOT IN ('FAILED', 'CANCELLED')`: the rows the identity index covers. -/
def holdsSlot : DraftState → Bool
  | .failed | .cancelled => false
  | .requested | .authoring | .criticReview | .validating | .admission | .ready | .blocked => true

end DraftState

/-- What a withdrawal withdraws: the identity's fields but the authoring configuration. -/
structure AuthoringSubject where
  consideredRevisionId : String
  optionId : String
  planningRequestHash : String
  catalogSnapshotHash : String
  definitionRevision : String

structure FormulaInputs extends AuthoringSubject where
  authoringConfigHash : String

/-- A row of `formula_draft`. -/
structure FormulaDraft where
  formulaDraftId : String
  inputs : FormulaInputs
  formulaIdentityHash : String
  state : DraftState
  authoringRunId : Option String
  formulaContentHash : Option String
  /-- The members of the stored object. -/
  formulaJson : Option (List (String × String))
  blockers : List (List (String × String))
  failureReason : Option String
  requestedBy : String
  requestedAt : String
  updatedAt : Instant

inductive RetirementReason where
  | schemaContractMismatch
  | candidateSuperseded
  | withdrawn
  deriving DecidableEq

/-- A row of `formula_draft_retirement`, the record before 1103. -/
structure Retirement where
  formulaDraftId : String
  reason : RetirementReason
  detail : String
  replacementDraftId : Option String
  retiredBy : String
  deriving DecidableEq

inductive RetirementScope where
  | exactDraft
  | candidateAcrossConfigurations
  deriving DecidableEq

/-- A row of `formula_draft_retirement_tombstone`. -/
structure Tombstone where
  tombstoneId : String
  scope : RetirementScope
  retirementScopeKey : String
  exactFormulaIdentityHash : Option String
  coverageIdentityHash : String
  formulaDraftId : String
  reason : String
  detail : Option String
  replacementDraftId : Option String
  retiredBy : String

structure ExceptionBinding where
  tombstoneId : Option String
  targetFormulaIdentityHash : String
  providerContractHash : String
  strategyIdentityHash : String
  llmSpendAuthorizationId : String
  actorSubject : String
  maxUses : ℤ
  expiresAt : Instant
  deriving DecidableEq

/-- A row of `formula_draft_regeneration_exception`: a coupon. -/
structure RegenerationException where
  exceptionId : String
  binding : ExceptionBinding
  usesConsumed : ℤ
  approvedAt : Instant

/-- The tables, and the clock with the spend ledger. -/
structure Db where
  ledger : LlmSpend.Db
  drafts : Table FormulaDraft.formulaDraftId
  retirements : Table Retirement.formulaDraftId
  tombstones : Table Tombstone.tombstoneId
  exceptions : Table RegenerationException.exceptionId

def Db.now (db : Db) : Instant := db.ledger.now

/-- What a `DraftRetired` cites. -/
inductive RetiredBy where
  /-- The draft's own legacy retirement. -/
  | retirement (formulaDraftId : String) (reason : RetirementReason)
      (replacementDraftId : Option String)
  /-- A withdrawal no exception names. -/
  | tombstone (tombstoneId : String) (scope : RetirementScope) (reason : String)
      (replacementDraftId : Option String)
  /-- A coupon a concurrent request exhausted. -/
  | exhausted (formulaIdentityHash : String)

inductive DraftError where
  | draftRetired (by_ : RetiredBy)
  | draftNotAnAnswer (formulaDraftId : String) (state : DraftState)
  | draftCeilingExhausted (formulaIdentityHash : String) (dead : List String)
  | invalidTransition (formulaDraftId : String) (current : Option DraftState) (target : DraftState)
  | retirementDisagreement
  | valueError (detail : String)
  | checkViolation
  | uniqueViolation
  | foreignKeyViolation

/-- Hashing, and Postgres's reading of an instant. The keys of a hashed payload
    stand in the order canonicalization puts them. -/
structure Externals where
  jcsSha256 : Document ℚ → String
  /-- The first 32 digits of it. -/
  jcsSha256Prefix : Document ℚ → String
  timestamptz : String → Instant

/-- No two canonical payloads are hashed to one text. -/
structure Externals.Faithful (ext : Externals) : Prop where
  whole : Document.Faithful ext.jcsSha256
  short : Document.Faithful ext.jcsSha256Prefix

def FormulaInputs.document (inputs : FormulaInputs) : Document ℚ :=
  .object [
    ("authoring_config_hash", .str inputs.authoringConfigHash),
    ("catalog_snapshot_hash", .str inputs.catalogSnapshotHash),
    ("considered_revision_id", .str inputs.consideredRevisionId),
    ("definition_revision", .str inputs.definitionRevision),
    ("option_id", .str inputs.optionId),
    ("planning_request_hash", .str inputs.planningRequestHash)]

def AuthoringSubject.document (subject : AuthoringSubject) : Document ℚ :=
  .object [
    ("catalog_snapshot_hash", .str subject.catalogSnapshotHash),
    ("considered_revision_id", .str subject.consideredRevisionId),
    ("definition_revision", .str subject.definitionRevision),
    ("option_id", .str subject.optionId),
    ("planning_request_hash", .str subject.planningRequestHash)]

def RetirementScope.value : RetirementScope → String
  | .exactDraft => "EXACT_DRAFT"
  | .candidateAcrossConfigurations => "CANDIDATE_ACROSS_CONFIGURATIONS"

/-- The exception's terms; the expiry is hashed as the text it came as. -/
def ExceptionBinding.document (b : ExceptionBinding) (expiresAt : String)
    (regenerationOrdinal : ℕ) : Document ℚ :=
  .object [
    ("actor_subject", .str b.actorSubject),
    ("expires_at", .str expiresAt),
    ("llm_spend_authorization_id", .str b.llmSpendAuthorizationId),
    ("max_uses", .num b.maxUses),
    ("provider_contract_hash", .str b.providerContractHash),
    ("regeneration_ordinal", .num regenerationOrdinal),
    ("strategy_identity_hash", .str b.strategyIdentityHash),
    ("target_formula_identity_hash", .str b.targetFormulaIdentityHash),
    ("tombstone_id", b.tombstoneId.elim .null .str)]

section Identities

variable (ext : Externals)

def formulaIdentity (inputs : FormulaInputs) : String := ext.jcsSha256 inputs.document

def retirementScopeKey (subject : AuthoringSubject) : String :=
  ext.jcsSha256 subject.document

def coverageIdentity (scope : RetirementScope) (scopeKey : String)
    (identityHash : Option String) : Except DraftError String :=
  match scope, identityHash with
  | .candidateAcrossConfigurations, _ =>
      .ok (ext.jcsSha256
        (.object [("retirement_scope_key", .str scopeKey), ("scope", .str scope.value)]))
  | .exactDraft, some identity =>
      if identity = "" then .error (.valueError "an EXACT_DRAFT tombstone covers one identity")
      else .ok (ext.jcsSha256
        (.object [("formula_identity_hash", .str identity), ("scope", .str scope.value)]))
  | .exactDraft, none =>
      .error (.valueError "an EXACT_DRAFT tombstone covers one identity")

def exceptionId (binding : ExceptionBinding) (expiresAt : String) (regenerationOrdinal : ℕ) :
    String :=
  "exc-" ++ ext.jcsSha256Prefix (binding.document expiresAt regenerationOrdinal)

end Identities

def Tombstone.covers (scopeKey identity : String) (t : Tombstone) : Bool :=
  match t.scope with
  | .candidateAcrossConfigurations => t.retirementScopeKey == scopeKey
  | .exactDraft => t.exactFormulaIdentityHash == some identity

def Tombstone.isCandidateWide (t : Tombstone) : Bool :=
  t.scope == .candidateAcrossConfigurations

/-- Every withdrawal covering an identity, candidate-wide ones first. -/
def coveringTombstones (db : Db) (scopeKey identity : String) : List Tombstone :=
  let covering := db.tombstones.rows.filter (·.covers scopeKey identity)
  covering.filter (·.isCandidateWide) ++ covering.filter (!·.isCandidateWide)

/-- What an approval, or a mint, has to name: every covering withdrawal, or none. -/
def toName (covering : List Tombstone) : List (Option String) :=
  if covering.isEmpty then [none] else covering.map (some ·.tombstoneId)

/-- The lane an exception binds, in `provider_contract_hash` and `strategy_identity_hash`. -/
structure Lane where
  providerContractHash : String
  strategyIdentityHash : String

def RegenerationException.usable (e : RegenerationException) (target : String) (lane : Lane)
    (now : Instant) (covering : Option String) : Bool :=
  e.binding.targetFormulaIdentityHash == target &&
    e.binding.providerContractHash == lane.providerContractHash &&
    e.binding.strategyIdentityHash == lane.strategyIdentityHash &&
    decide (now < e.binding.expiresAt) && decide (e.usesConsumed < e.binding.maxUses) &&
    e.binding.tombstoneId == covering

/-- The oldest unexpired exception with uses left for this exact regeneration. -/
def validExceptionFor (db : Db) (target : String) (lane : Lane) (now : Instant)
    (covering : Option String) (excluding : List String) : Option RegenerationException :=
  (KeySort.sortBy (·.approvedAt) (db.exceptions.rows.filter fun e =>
    e.usable target lane now covering && !excluding.contains e.exceptionId)).head?

/-- One more use, as the conditional UPDATE writes it. -/
def RegenerationException.consumed (e : RegenerationException) : RegenerationException :=
  { e with usesConsumed := e.usesConsumed + 1 }

theorem RegenerationException.consumed_exceptionId (e : RegenerationException) :
    e.consumed.exceptionId = e.exceptionId := rfl

/-- The rows the conditional UPDATE matches. -/
def consumable (exceptionId : String) (e : RegenerationException) : Bool :=
  e.exceptionId == exceptionId && decide (e.usesConsumed < e.binding.maxUses)

/-- Spend one use; `none` is the statement that returned no row. -/
def consumeException (db : Db) (exceptionId : String) : Option Db :=
  if db.exceptions.rows.any (consumable exceptionId) then
    some { db with
      exceptions := db.exceptions.updateWhere (consumable exceptionId)
        RegenerationException.consumed RegenerationException.consumed_exceptionId }
  else none

def perCallWorstCase (maxCalls maxTokens : ℤ) (maxCost : ℚ) : ℤ × ℚ :=
  (-(Int.fdiv (-maxTokens) maxCalls), Decimal.round LlmSpend.contextPrecision (maxCost / maxCalls))

/-- `_money_rides`: unexpired, and room for one call. A coupon's authorization
    exists by its foreign key. -/
def moneyRides (ledger : LlmSpend.Db) (spendAuthorizationId : String) (now : Instant) : Bool :=
  match ledger.authorizations.get? spendAuthorizationId,
      LlmSpend.remainingSpend ledger spendAuthorizationId now with
  | some auth, .ok left =>
      let (callTokens, callCost) := perCallWorstCase auth.maxCalls auth.maxTokens auth.maxCost
      decide (now < auth.expiresAt) && decide (1 ≤ left.calls) &&
        decide (callTokens ≤ left.tokens) && decide (callCost ≤ left.cost)
  | _, _ => false

/-- `_pick_ridable`: the oldest usable coupon whose money rides, and the coupons
    passed over. Each round passes over one more row, so the number of rows is
    fuel enough. -/
def pickRidable (db : Db) (target : String) (lane : Lane) (now : Instant)
    (covering : Option String) : ℕ → List String → Option RegenerationException × List String
  | 0, dead => (none, dead)
  | fuel + 1, dead =>
      match validExceptionFor db target lane now covering dead with
      | none => (none, dead)
      | some coupon =>
          if moneyRides db.ledger coupon.binding.llmSpendAuthorizationId now then
            (some coupon, dead)
          else pickRidable db target lane now covering fuel (dead ++ [coupon.exceptionId])

def pick (db : Db) (target : String) (lane : Lane) (now : Instant) (covering : Option String) :
    Option RegenerationException × List String :=
  pickRidable db target lane now covering (db.exceptions.rows.length + 1) []

structure DraftRequest where
  formulaDraftId : String
  inputs : FormulaInputs
  requestedBy : String
  requestedAt : String
  providerContractHash : Option String
  strategyIdentityHash : Option String
  now : Option Instant

/-- The lane, when both bindings are given and neither is empty. -/
def DraftRequest.lane? (req : DraftRequest) : Option Lane :=
  match req.providerContractHash, req.strategyIdentityHash with
  | some contract, some strategy =>
      if contract ≠ "" ∧ strategy ≠ "" then some ⟨contract, strategy⟩ else none
  | _, _ => none

def DraftRequest.resolvedNow (req : DraftRequest) (db : Db) : Instant := req.now.getD db.now

def retiredBy (t : Tombstone) : DraftError :=
  .draftRetired (.tombstone t.tombstoneId t.scope t.reason t.replacementDraftId)

/-- One covering withdrawal: the coupon that names it, or the refusal. -/
def locateOne (db : Db) (identity : String) (lane : Lane) (now : Instant) (withdrawal : Tombstone) :
    Except DraftError RegenerationException :=
  match pick db identity lane now (some withdrawal.tombstoneId) with
  | (some coupon, _) => .ok coupon
  | (none, []) => .error (retiredBy withdrawal)
  | (none, dead) => .error (.draftCeilingExhausted identity dead)

/-- The coupons the mint will consume, and the plain ones passed over. -/
def locate (db : Db) (identity : String) (lane? : Option Lane) (now : Instant) :
    List Tombstone → Except DraftError (List RegenerationException × List String)
  | [] =>
      match lane? with
      | none => .ok ([], [])
      | some lane =>
          let (picked, dead) := pick db identity lane now none
          .ok (picked.toList, dead)
  | withdrawal :: others =>
      match lane? with
      | none => .error (retiredBy withdrawal)
      | some lane =>
          return (← (withdrawal :: others).mapM (locateOne db identity lane now), [])

def isFailureOf (identity : String) (d : FormulaDraft) : Bool :=
  d.formulaIdentityHash == identity && !d.state.holdsSlot

def isHolderOf (identity : String) (d : FormulaDraft) : Bool :=
  d.formulaIdentityHash == identity && d.state.holdsSlot

/-- The failure a re-attempt follows: the last one updated. -/
def lastFailure (db : Db) (identity : String) : Option FormulaDraft :=
  (KeySort.sortBy (-·.updatedAt) (db.drafts.rows.filter (isFailureOf identity))).head?

/-- The row that holds the identity's slot. -/
def holder (db : Db) (identity : String) : Option FormulaDraft :=
  db.drafts.rows.find? (isHolderOf identity)

/-- Re-spending after a recorded failure needs a coupon, in the lane that spends. -/
def reSpendGate (db : Db) (identity : String) (contract : Option String)
    (covering : List Tombstone) (located : List RegenerationException) (plainDead : List String) :
    Except DraftError Unit :=
  match lastFailure db identity with
  | none => .ok ()
  | some failed =>
      if covering.isEmpty && located.isEmpty && (holder db identity).isNone && contract.isSome then
        if plainDead.isEmpty then .error (.draftNotAnAnswer failed.formulaDraftId failed.state)
        else .error (.draftCeilingExhausted identity plainDead)
      else .ok ()

def DraftRequest.row (req : DraftRequest) (identity : String) (now : Instant) : FormulaDraft where
  formulaDraftId := req.formulaDraftId
  inputs := req.inputs
  formulaIdentityHash := identity
  state := .requested
  authoringRunId := none
  formulaContentHash := none
  formulaJson := none
  blockers := []
  failureReason := none
  requestedBy := req.requestedBy
  requestedAt := req.requestedAt
  updatedAt := now

/-- `(formula_draft_id, created, coupon_spend_authorization_id)`, and what was written. -/
structure Granted where
  db : Db
  formulaDraftId : String
  created : Bool
  ride : Option String

def consumeOne (identity : String) (db : Db) (coupon : RegenerationException) :
    Except DraftError Db :=
  match consumeException db coupon.exceptionId with
  | some db' => .ok db'
  | none => .error (.draftRetired (.exhausted identity))

/-- The INSERT won: every located coupon is consumed with it. -/
def mint (db : Db) (req : DraftRequest) (identity : String)
    (located : List RegenerationException) : Except DraftError Granted :=
  match db.drafts.insert? (req.row identity db.now) with
  | none => .error .uniqueViolation
  | some drafts => do
      let consumed ← located.foldlM (consumeOne identity) { db with drafts := drafts }
      return {
        db := consumed
        formulaDraftId := req.formulaDraftId
        created := true
        ride := located.head?.map (·.binding.llmSpendAuthorizationId) }

/-- The INSERT lost to the row that holds the slot. -/
def answerWith (db : Db) (existing : FormulaDraft) : Except DraftError Granted :=
  match db.retirements.get? existing.formulaDraftId with
  | some r =>
      .error (.draftRetired (.retirement existing.formulaDraftId r.reason r.replacementDraftId))
  | none => .ok ⟨db, existing.formulaDraftId, false, none⟩

def insertOrAnswer (db : Db) (req : DraftRequest) (identity : String)
    (located : List RegenerationException) : Except DraftError Granted :=
  match holder db identity with
  | none => mint db req identity located
  | some existing => answerWith db existing

def requestDraft (ext : Externals) (db : Db) (req : DraftRequest) :
    Except DraftError Granted := do
  let identity := formulaIdentity ext req.inputs
  let scopeKey := retirementScopeKey ext req.inputs.toAuthoringSubject
  let covering := coveringTombstones db scopeKey identity
  let found ← locate db identity req.lane? (req.resolvedNow db) covering
  reSpendGate db identity req.providerContractHash covering found.1 found.2
  insertOrAnswer db req identity found.1

/-- What a transition writes beside the state. -/
structure AdvancePayload where
  authoringRunId : Option String
  formulaContentHash : Option String
  formulaJson : Option (List (String × String))
  blockers : List (List (String × String))
  failureReason : Option String

def FormulaDraft.moved (target : DraftState) (p : AdvancePayload) (now : Instant)
    (d : FormulaDraft) : FormulaDraft :=
  { d with
    state := target
    authoringRunId := p.authoringRunId.or d.authoringRunId
    formulaContentHash := p.formulaContentHash.or d.formulaContentHash
    formulaJson := p.formulaJson.or d.formulaJson
    blockers := if p.blockers.isEmpty then d.blockers else p.blockers
    failureReason := p.failureReason
    updatedAt := now }

theorem FormulaDraft.moved_formulaDraftId (target : DraftState) (p : AdvancePayload)
    (now : Instant) (d : FormulaDraft) :
    (d.moved target p now).formulaDraftId = d.formulaDraftId := rfl

/-- The CHECKs of 1090: a refusal names its blockers, only a failure has a
    reason, and a READY draft carries a formula that is not empty. -/
def FormulaDraft.wellStated (d : FormulaDraft) : Bool :=
  (d.state != .blocked || !d.blockers.isEmpty) &&
    (d.failureReason.isNone == (d.state != .failed)) &&
    (d.state != .ready || (d.formulaContentHash.isSome && d.formulaJson.any (!·.isEmpty)))

def namedByConsumed (db : Db) (identity : String) (withdrawal : Tombstone) : Bool :=
  db.exceptions.rows.any fun e =>
    e.binding.targetFormulaIdentityHash == identity &&
      e.binding.tombstoneId == some withdrawal.tombstoneId && decide (1 ≤ e.usesConsumed)

/-- The withdrawals the fence reads, from the draft's own frozen columns. -/
def withdrawalsOf (ext : Externals) (db : Db) (d : FormulaDraft) :
    List Tombstone :=
  coveringTombstones db (retirementScopeKey ext d.inputs.toAuthoringSubject)
    d.formulaIdentityHash

/-- The fence: a legacy retirement, or a withdrawal no consumed coupon names. -/
def fence (ext : Externals) (db : Db) (d : FormulaDraft) :
    Except DraftError Unit :=
  match db.retirements.get? d.formulaDraftId with
  | some r => .error (.draftRetired (.retirement d.formulaDraftId r.reason r.replacementDraftId))
  | none =>
      match (withdrawalsOf ext db d).find?
          (!namedByConsumed db d.formulaIdentityHash ·) with
      | some withdrawal => .error (retiredBy withdrawal)
      | none => .ok ()

/-- The transition past the fence. The UPDATE repeats the check on the legacy
    retirement; nothing comes between the two here. -/
def move (db : Db) (d : FormulaDraft) (target : DraftState) (p : AdvancePayload) :
    Except DraftError Db :=
  if target ∈ d.state.permitted then
    if (d.moved target p db.now).wellStated then
      .ok { db with
        drafts := db.drafts.update d.formulaDraftId (FormulaDraft.moved target p db.now)
          (FormulaDraft.moved_formulaDraftId target p db.now) }
    else .error .checkViolation
  else .error (.invalidTransition d.formulaDraftId (some d.state) target)

/-- Move one step. -/
def advance (ext : Externals) (db : Db) (formulaDraftId : String)
    (target : DraftState) (p : AdvancePayload) : Except DraftError Db :=
  match db.drafts.get? formulaDraftId with
  | none => .error (.invalidTransition formulaDraftId none target)
  | some d => do
      fence ext db d
      move db d target p

def references (db : Db) (draftId? : Option String) : Bool :=
  draftId?.all fun id => (db.drafts.get? id).isSome

structure Withdrawal where
  formulaDraftId : String
  scope : RetirementScope
  reason : String
  retiredBy : String
  detail : Option String
  replacementDraftId : Option String

def Withdrawal.row (ext : Externals) (w : Withdrawal) (d : FormulaDraft)
    (coverage : String) : Tombstone where
  tombstoneId := ext.jcsSha256
    (.object [("coverage", .str coverage), ("scope", .str w.scope.value)])
  scope := w.scope
  retirementScopeKey := retirementScopeKey ext d.inputs.toAuthoringSubject
  exactFormulaIdentityHash :=
    if w.scope = .exactDraft then some d.formulaIdentityHash else none
  coverageIdentityHash := coverage
  formulaDraftId := w.formulaDraftId
  reason := w.reason
  detail := w.detail
  replacementDraftId := w.replacementDraftId
  retiredBy := w.retiredBy

def sameCoverage (row t : Tombstone) : Bool :=
  t.scope == row.scope && t.coverageIdentityHash == row.coverageIdentityHash

/-- `ON CONFLICT DO NOTHING`, then the stored row is read back and compared. -/
def insertTombstone (db : Db) (row : Tombstone) : Except DraftError (Db × Tombstone) :=
  match db.tombstones.rows.find? (sameCoverage row) with
  | some stored =>
      if stored.reason = row.reason ∧ stored.replacementDraftId = row.replacementDraftId then
        .ok (db, stored)
      else .error .retirementDisagreement
  | none =>
      if references db row.replacementDraftId then
        match db.tombstones.insert? row with
        | none => .error .uniqueViolation
        | some tombstones => .ok ({ db with tombstones := tombstones }, row)
      else .error .foreignKeyViolation

def recordTombstone (ext : Externals) (db : Db) (w : Withdrawal) :
    Except DraftError (Db × Tombstone) :=
  match db.drafts.get? w.formulaDraftId with
  | none => .error (.valueError "the draft does not exist, so there is nothing to withdraw")
  | some d => do
      let coverage ← coverageIdentity ext w.scope
        (retirementScopeKey ext d.inputs.toAuthoringSubject)
        (if w.scope = .exactDraft then some d.formulaIdentityHash else none)
      insertTombstone db (w.row ext d coverage)

def retireFormulaDraft (db : Db) (r : Retirement) : Except DraftError Db :=
  if r.replacementDraftId = some r.formulaDraftId then .error .checkViolation
  else match db.retirements.get? r.formulaDraftId with
    | some recorded => if recorded = r then .ok db else .error .retirementDisagreement
    | none =>
        if references db (some r.formulaDraftId) && references db r.replacementDraftId then
          .ok { db with retirements := db.retirements.insertNew r }
        else .error .foreignKeyViolation

structure Approval where
  targetFormulaIdentityHash : String
  lane : Lane
  actorSubject : String
  llmSpendAuthorizationId : String
  expiresAt : String
  scopeKey : String
  maxUses : ℤ

def Approval.binding (ext : Externals) (a : Approval) (tombstoneId : Option String) :
    ExceptionBinding where
  tombstoneId := tombstoneId
  targetFormulaIdentityHash := a.targetFormulaIdentityHash
  providerContractHash := a.lane.providerContractHash
  strategyIdentityHash := a.lane.strategyIdentityHash
  llmSpendAuthorizationId := a.llmSpendAuthorizationId
  actorSubject := a.actorSubject
  maxUses := a.maxUses
  expiresAt := ext.timestamptz a.expiresAt

def isExhaustedOf (b : ExceptionBinding) (e : RegenerationException) : Bool :=
  e.binding == b && decide (b.maxUses ≤ e.usesConsumed)

def exhaustedBefore (db : Db) (b : ExceptionBinding) : ℕ :=
  db.exceptions.rows.countP (isExhaustedOf b)

/-- The row an approval names one withdrawal with; the ordinal is its generation. -/
def Approval.row (ext : Externals) (a : Approval) (db : Db)
    (tombstoneId : Option String) : RegenerationException where
  exceptionId := exceptionId ext (a.binding ext tombstoneId) a.expiresAt
    (exhaustedBefore db (a.binding ext tombstoneId))
  binding := a.binding ext tombstoneId
  usesConsumed := 0
  approvedAt := db.now

/-- `(exception_ids, any_created)`, and what is written so far. -/
structure Approving where
  db : Db
  exceptionIds : List String
  anyCreated : Bool

/-- The coupon that names one withdrawal. `max_uses` is a positive `smallint`;
    the money is a foreign key of a row that is new. -/
def approveOne (ext : Externals) (a : Approval) (acc : Approving)
    (tombstoneId : Option String) : Except DraftError Approving :=
  let row := a.row ext acc.db tombstoneId
  if 1 ≤ a.maxUses ∧ a.maxUses ≤ 32767 then
    match acc.db.exceptions.get? row.exceptionId with
    | some _ => .ok ⟨acc.db, acc.exceptionIds ++ [row.exceptionId], acc.anyCreated⟩
    | none =>
        if (acc.db.ledger.authorizations.get? a.llmSpendAuthorizationId).isSome then
          .ok ⟨{ acc.db with exceptions := acc.db.exceptions.insertNew row },
            acc.exceptionIds ++ [row.exceptionId], true⟩
        else .error .foreignKeyViolation
  else .error .checkViolation

/-- One approval act binds every withdrawal that covers the identity. -/
def approveRegenerationException (ext : Externals) (db : Db) (a : Approval) :
    Except DraftError Approving :=
  (toName (coveringTombstones db a.scopeKey a.targetFormulaIdentityHash)).foldlM
    (approveOne ext a) ⟨db, [], false⟩

inductive Action where
  | request (req : DraftRequest)
  | advance (formulaDraftId : String) (target : DraftState) (payload : AdvancePayload)
  | recordTombstone (w : Withdrawal)
  | retire (r : Retirement)
  | approve (a : Approval)
  /-- The spend ledger and its clock move; its own rules are `LlmSpend.step`. -/
  | ledger (ledger' : LlmSpend.Db)

/-- A call that raises rolls its transaction back. -/
def settled (db : Db) : Except DraftError Db → Db
  | .ok db' => db'
  | .error _ => db

def step (ext : Externals) (db : Db) : Action → Option Db
  | .request req => some (settled db ((requestDraft ext db req).map (·.db)))
  | .advance id target p => some (settled db (advance ext db id target p))
  | .recordTombstone w => some (settled db ((recordTombstone ext db w).map (·.1)))
  | .retire r => some (settled db (retireFormulaDraft db r))
  | .approve a => some (settled db ((approveRegenerationException ext db a).map (·.db)))
  | .ledger ledger' => some { db with ledger := ledger' }

/-- No draft, withdrawal or approval yet. -/
def Init (db : Db) : Prop :=
  db.drafts.rows = [] ∧ db.retirements.rows = [] ∧ db.tombstones.rows = [] ∧
    db.exceptions.rows = []

end FeatureGen.FormulaDraftStore
