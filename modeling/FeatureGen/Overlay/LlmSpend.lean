import FeatureGen.Lib.Decimal
import FeatureGen.Lib.Table
import FeatureGen.Lib.Transition

/-! # The durable spend ledger

`overlay/upload/llm_spend.py` over the tables of migration 1105: a ceiling is
recorded once, each physical provider call reserves its worst case under it,
and actuals are settled afterwards. An unsettled reservation stops counting
when it expires, by arithmetic and not by a write.

Instants are microseconds. Amounts of money are rationals: Postgres `numeric`
sums are exact, and the one inexact operation is the `Decimal` subtraction in
`remaining_spend`, which Python rounds to 28 digits.
-/

namespace FeatureGen.LlmSpend

abbrev Instant := ℤ

/-- Digits of Python's default decimal context. -/
def contextPrecision : ℕ := 28

/-- A row of `llm_spend_authorization_revision`, append-only. -/
structure SpendAuthorization where
  spendAuthorizationId : String
  maxCalls : ℤ
  maxTokens : ℤ
  maxCost : ℚ
  expiresAt : Instant
  maxCalls_pos : 0 < maxCalls
  maxTokens_pos : 0 < maxTokens
  maxCost_pos : 0 < maxCost

/-- A row of `llm_spend_reservation`, append-only. The proofs are its CHECKs. -/
structure Reservation where
  reservationId : String
  spendAuthorizationId : String
  dispatchRef : Option String
  reservedCalls : ℤ
  reservedTokens : ℤ
  reservedCost : ℚ
  expiresAt : Instant
  calls_pos : 0 < reservedCalls
  tokens_pos : 0 < reservedTokens
  cost_nonneg : 0 ≤ reservedCost

/-- A row of `llm_spend_settlement`, append-only. -/
structure Settlement where
  reservationId : String
  actualCalls : ℤ
  actualTokens : ℤ
  actualCost : ℚ
  settledAt : Instant
  calls_nonneg : 0 ≤ actualCalls
  tokens_nonneg : 0 ≤ actualTokens
  cost_nonneg : 0 ≤ actualCost

/-- `llm_dispatch_outcome.outcome`. -/
inductive DispatchOutcome where
  | responseReceived
  | transportFailed

/-- The spend tables and the clock. Outcome rows have no unique key. -/
structure Db where
  now : Instant
  authorizations : Table SpendAuthorization.spendAuthorizationId
  reservations : Table Reservation.reservationId
  settlements : Table Settlement.reservationId
  outcomes : List (String × DispatchOutcome)

structure SpendRemaining where
  calls : ℤ
  tokens : ℤ
  cost : ℚ

/-- What the reservation's identity hashes. -/
structure ReservationContent where
  a : String
  n : Instant
  c : ℤ
  t : ℤ
  x : ℚ
  d : Option String

/-- The exceptions of the module: its own refusals, and the ones the tables raise. -/
inductive SpendError where
  /-- No authorization row: "no authorization means no provider call". -/
  | noAuthorization (spendAuthorizationId : String)
  | expired (spendAuthorizationId : String) (expiresAt : Instant)
  | cannotCover (spendAuthorizationId : String) (calls tokens : ℤ) (cost : ℚ)
      (left : SpendRemaining)
  | checkViolation
  | uniqueViolation
  | foreignKeyViolation

/-- One of the three columns a ceiling bounds. -/
structure Dimension (R : Type*) [Zero R] [LE R] where
  reserved : Reservation → R
  actual : Settlement → R
  reserved_nonneg : ∀ r, 0 ≤ reserved r
  actual_nonneg : ∀ s, 0 ≤ actual s

def callsDim : Dimension ℤ where
  reserved := (·.reservedCalls)
  actual := (·.actualCalls)
  reserved_nonneg r := r.calls_pos.le
  actual_nonneg s := s.calls_nonneg

def tokensDim : Dimension ℤ where
  reserved := (·.reservedTokens)
  actual := (·.actualTokens)
  reserved_nonneg r := r.tokens_pos.le
  actual_nonneg s := s.tokens_nonneg

def costDim : Dimension ℚ where
  reserved := (·.reservedCost)
  actual := (·.actualCost)
  reserved_nonneg r := r.cost_nonneg
  actual_nonneg s := s.cost_nonneg

/-- `COALESCE(s.actual, r.reserved)` over the left join of the settlement. -/
def charge {R : Type*} [Zero R] [LE R] (dim : Dimension R) (db : Db) (r : Reservation) : R :=
  match db.settlements.get? r.reservationId with
  | some s => dim.actual s
  | none => dim.reserved r

/-- The rows `_committed` sums: settled ones and unexpired ones. -/
def counts (db : Db) (spendAuthorizationId : String) (now : Instant) (r : Reservation) : Bool :=
  r.spendAuthorizationId = spendAuthorizationId ∧
    ((db.settlements.get? r.reservationId).isSome ∨ now < r.expiresAt)

def committedOf {R : Type*} [AddMonoid R] [LE R] (dim : Dimension R) (db : Db)
    (spendAuthorizationId : String) (now : Instant) : R :=
  ((db.reservations.rows.filter (counts db spendAuthorizationId now)).map (charge dim db)).sum

/-- Settled actuals plus unexpired unsettled reservations. -/
def committed (db : Db) (spendAuthorizationId : String) (now : Instant) : ℤ × ℤ × ℚ :=
  (committedOf callsDim db spendAuthorizationId now,
   committedOf tokensDim db spendAuthorizationId now,
   committedOf costDim db spendAuthorizationId now)

def remainingSpend (db : Db) (spendAuthorizationId : String) (now : Instant) :
    Except SpendError SpendRemaining :=
  match db.authorizations.get? spendAuthorizationId with
  | none => .error (.noAuthorization spendAuthorizationId)
  | some auth =>
      let (usedCalls, usedTokens, usedCost) := committed db spendAuthorizationId now
      .ok {
        calls := auth.maxCalls - usedCalls
        tokens := auth.maxTokens - usedTokens
        cost := Decimal.round contextPrecision (auth.maxCost - usedCost) }

def microsPerSecond : ℤ := 1000000

def defaultReservationTtlSeconds : ℤ := 900

/-- `rsv-` and the first 32 hex digits of the content's digest. -/
def reservationId (jcsSha256 : ReservationContent → String) (content : ReservationContent) :
    String :=
  "rsv-" ++ String.ofList ((jcsSha256 content).toList.take 32)

/-- Reserve the worst case of one attempt, or refuse. The authorization row is
    locked from the read to the insert, so the whole call is one step. -/
def reserveSpend (jcsSha256 : ReservationContent → String) (db : Db)
    (spendAuthorizationId : String) (calls tokens : ℤ) (cost : ℚ) (now : Instant)
    (ttlSeconds : ℤ) (dispatchRef : Option String) : Except SpendError Db :=
  match db.authorizations.get? spendAuthorizationId with
  | none => .error (.noAuthorization spendAuthorizationId)
  | some locked =>
      if locked.expiresAt ≤ now then .error (.expired spendAuthorizationId locked.expiresAt)
      else do
        let left ← remainingSpend db spendAuthorizationId now
        if left.calls < calls ∨ left.tokens < tokens ∨ left.cost < cost then
          .error (.cannotCover spendAuthorizationId calls tokens cost left)
        else if h : 0 < calls ∧ 0 < tokens ∧ 0 ≤ cost then
          let row : Reservation := {
            reservationId := reservationId jcsSha256
              ⟨spendAuthorizationId, now, calls, tokens, cost, dispatchRef⟩
            spendAuthorizationId := spendAuthorizationId
            dispatchRef := dispatchRef
            reservedCalls := calls
            reservedTokens := tokens
            reservedCost := cost
            expiresAt := now + ttlSeconds * microsPerSecond
            calls_pos := h.1
            tokens_pos := h.2.1
            cost_nonneg := h.2.2 }
          match db.reservations.insert? row with
          | none => .error .uniqueViolation
          | some reservations => .ok { db with reservations := reservations }
        else .error .checkViolation

/-- Record what an attempt cost. `settled_at` defaults to the database clock. -/
def settleSpend (db : Db) (reservationId : String) (actualCalls actualTokens : ℤ)
    (actualCost : ℚ) : Except SpendError Db :=
  if h : 0 ≤ actualCalls ∧ 0 ≤ actualTokens ∧ 0 ≤ actualCost then
    if (db.settlements.get? reservationId).isSome then .ok db
    else if (db.reservations.get? reservationId).isNone then .error .foreignKeyViolation
    else
      .ok { db with
        settlements := db.settlements.insertNew {
          reservationId := reservationId
          actualCalls := actualCalls
          actualTokens := actualTokens
          actualCost := actualCost
          settledAt := db.now
          calls_nonneg := h.1
          tokens_nonneg := h.2.1
          cost_nonneg := h.2.2 } }
  else .error .checkViolation

/-- The sweep's query: expired unsettled reservations with a dispatch, once for
    each outcome row of that dispatch and once when there is none. -/
def expiredUnsettled (db : Db) (now : Instant) : List (Reservation × Option DispatchOutcome) :=
  db.reservations.rows.flatMap fun r =>
    match r.dispatchRef with
    | none => []
    | some ref =>
        if (db.settlements.get? r.reservationId).isNone ∧ r.expiresAt ≤ now then
          match db.outcomes.filter (·.1 = ref) with
          | [] => [(r, none)]
          | found => found.map fun o => (r, some o.2)
        else []

/-- One row of the sweep: transport failures settle at zero, the rest at worst case. -/
def reconcileOne (db : Db) : Reservation × Option DispatchOutcome → Except SpendError Db
  | (r, some .transportFailed) => settleSpend db r.reservationId 0 0 0
  | (r, _) => settleSpend db r.reservationId r.reservedCalls r.reservedTokens r.reservedCost

def reconcileExpiredSpend (db : Db) (now : Instant) : Except SpendError Db :=
  (expiredUnsettled db now).foldlM reconcileOne db

/-- One committed transaction, or the clock. A caller's `now` was read at or
    before the database's. -/
inductive Action where
  | tick (micros : ℕ)
  | reserve (spendAuthorizationId : String) (calls tokens : ℤ) (cost : ℚ) (now : Instant)
      (ttlSeconds : ℤ) (dispatchRef : Option String)
  | settle (reservationId : String) (actualCalls actualTokens : ℤ) (actualCost : ℚ)
  | reconcile (now : Instant)
  | recordOutcome (dispatchRef : String) (outcome : DispatchOutcome)

/-- A call that raises rolls its transaction back. -/
def settled (db : Db) : Except SpendError Db → Db
  | .ok db' => db'
  | .error _ => db

def step (jcsSha256 : ReservationContent → String) (db : Db) : Action → Option Db
  | .tick micros => some { db with now := db.now + micros }
  | .reserve spendAuthorizationId calls tokens cost now ttlSeconds dispatchRef =>
      if now ≤ db.now then
        some (settled db (reserveSpend jcsSha256 db spendAuthorizationId calls tokens cost now
          ttlSeconds dispatchRef))
      else none
  | .settle reservationId actualCalls actualTokens actualCost =>
      some (settled db (settleSpend db reservationId actualCalls actualTokens actualCost))
  | .reconcile now =>
      if now ≤ db.now then some (settled db (reconcileExpiredSpend db now)) else none
  | .recordOutcome dispatchRef outcome =>
      some { db with outcomes := db.outcomes ++ [(dispatchRef, outcome)] }

/-- Ceilings, and nothing reserved yet. -/
def Init (db : Db) : Prop := db.reservations.rows = [] ∧ db.settlements.rows = []

/-- A settlement's actuals do not exceed the reservation they settle. -/
def SettlesWithin (db : Db) : Action → Prop
  | .settle reservationId actualCalls actualTokens actualCost =>
      ∀ r ∈ db.reservations, r.reservationId = reservationId →
        actualCalls ≤ r.reservedCalls ∧ actualTokens ≤ r.reservedTokens ∧
          actualCost ≤ r.reservedCost
  | _ => True

instance (db : Db) (a : Action) : Decidable (SettlesWithin db a) :=
  match a with
  | .settle .. => inferInstanceAs (Decidable (∀ r ∈ db.reservations, _ → _ ∧ _ ∧ _))
  | .tick .. | .reserve .. | .reconcile .. | .recordOutcome .. => .isTrue trivial

end FeatureGen.LlmSpend
