import FeatureGen.Lib.Decimal
import FeatureGen.Lib.Table

/-! # The worker queue

`runtime/queue.py` over the `queue` table. The general lane claims and settles
rows by id; the dedicated lanes claim with a fence and settle only under it.
Each `UPDATE` is one function of the table and of the transaction's `now()`.

A claim is a `SELECT … FOR UPDATE SKIP LOCKED` inside an `UPDATE`: `selectReady`
is the select with its row lock, and `lease` the update, which the partial
unique index on leased partitions can still refuse.
-/

namespace FeatureGen.Runtime

/-- Microseconds since the epoch. -/
abbrev Instant := ℤ

def microsPerSecond : ℤ := 1000000

inductive QueueStatus where
  | ready
  | leased
  | done
  | dead
  deriving DecidableEq, Repr

/-- A row of `queue`, over the type of its payloads. -/
structure QueueRow (π : Type) where
  id : ℕ
  messageId : String
  partitionKey : String
  handler : String
  payload : π
  payloadHash : Option String
  status : QueueStatus
  leaseOwner : Option String
  leaseExpiresAt : Option Instant
  leaseFence : ℕ
  attempts : ℕ
  maxAttempts : ℕ
  availableAt : Instant
  priority : ℤ
  lastError : Option String

/-- The table and its id sequence. -/
structure Queue (π : Type) where
  rows : Table (QueueRow.id (π := π))
  nextId : ℕ

inductive QueueIdempotencyConflict where
  | disappeared
  | conflicts (messageId : String)

def QueueIdempotencyConflict.message : QueueIdempotencyConflict → String
  | .disappeared => "queue id disappeared during checked insert"
  | .conflicts messageId => s!"queue message '{messageId}' conflicts with its stored identity"

/-- A leased item of the general lane. -/
structure QueueClaim (π : Type) where
  id : ℕ
  messageId : String
  partitionKey : String
  handler : String
  payload : π
  attempts : ℕ
  maxAttempts : ℕ

/-- A leased item of a dedicated lane. -/
structure FencedClaim (π : Type) where
  id : ℕ
  messageId : String
  partitionKey : String
  handler : String
  payload : π
  attempts : ℕ
  maxAttempts : ℕ
  leaseOwner : String
  leaseFence : ℕ
  deriving DecidableEq

def controlSignalHandlers : List String := ["runtime.auto_park", "runtime.repair_exhausted"]
def formulaShadowQueueHandlers : List String := ["recipe_formula_shadow.author.v1"]
def materializationQueueHandlers : List String := ["materialization.compile.v1"]
def formulaDraftQueueHandlers : List String := ["formula_draft.author.v1"]
def generationQueueHandlers : List String := ["generation.v2.build"]
def verificationQueueHandlers : List String := ["verification.v2.run"]

/-- Rows the general lane leaves alone. -/
def dedicatedHandlers : List String :=
  controlSignalHandlers ++ formulaShadowQueueHandlers ++ materializationQueueHandlers ++
    formulaDraftQueueHandlers ++ generationQueueHandlers ++ verificationQueueHandlers

/-- `compute_backoff` at its defaults: one second doubling to an hour, and a
    draw of at most half of it either way. From the 1025th attempt on, the power
    of two no longer fits a float and Python raises. -/
def computeBackoff (attempts : ℕ) (draw : ℚ) : Option ℚ :=
  let n := if 1 ≤ attempts then attempts else 1
  if 1024 ≤ n - 1 then none
  else some (max 0 (min (2 ^ (n - 1)) 3600 + draw))

/-- `make_interval(secs => …)` and `timedelta(seconds=…)`, to the microsecond. -/
def makeInterval (secs : ℚ) : ℤ := Decimal.roundHalfEven (secs * 1000000)

section Ops

variable {π : Type}

def Queue.updateWhere (q : Queue π) (p : QueueRow π → Bool) (f : QueueRow π → QueueRow π)
    (hf : ∀ r, (f r).id = r.id) : Queue π :=
  { q with rows := q.rows.updateWhere p f hf }

def Queue.update (q : Queue π) (id : ℕ) (f : QueueRow π → QueueRow π)
    (hf : ∀ r, (f r).id = r.id) : Queue π :=
  { q with rows := q.rows.update id f hf }

theorem Queue.mem_updateWhere {q : Queue π} {p : QueueRow π → Bool} {f : QueueRow π → QueueRow π}
    {hf : ∀ r, (f r).id = r.id} {r : QueueRow π} :
    r ∈ (q.updateWhere p f hf).rows ↔ ∃ y ∈ q.rows, r = if p y then f y else y :=
  @Table.mem_updateWhere _ _ _ q.rows p f hf r

theorem Queue.mem_update {q : Queue π} {id : ℕ} {f : QueueRow π → QueueRow π}
    {hf : ∀ r, (f r).id = r.id} {r : QueueRow π} :
    r ∈ (q.update id f hf).rows ↔ ∃ y ∈ q.rows, r = if y.id = id then f y else y :=
  @Table.mem_update _ _ _ _ q.rows id f hf r

def defaultMaxAttempts : ℕ := 12

def findMessage (q : Queue π) (messageId : String) : Option (QueueRow π) :=
  q.rows.rows.find? fun r => r.messageId = messageId

/-- The insert both enqueues share. An id is drawn even when the message is a duplicate. -/
def insertReady (q : Queue π) (messageId partitionKey handler : String) (payload : π)
    (payloadHash : Option String) (availableAt : Option Instant) (priority : ℤ) (now : Instant) :
    Queue π × Option ℕ :=
  let drawn := { q with nextId := q.nextId + 1 }
  match findMessage q messageId with
  | some _ => (drawn, none)
  | none =>
      match q.rows.insert? {
          id := q.nextId
          messageId := messageId
          partitionKey := partitionKey
          handler := handler
          payload := payload
          payloadHash := payloadHash
          status := .ready
          leaseOwner := none
          leaseExpiresAt := none
          leaseFence := 0
          attempts := 0
          maxAttempts := defaultMaxAttempts
          availableAt := availableAt.getD now
          priority := priority
          lastError := none } with
      | none => (drawn, none)
      | some rows => ({ drawn with rows := rows }, some q.nextId)

def enqueue (q : Queue π) (messageId partitionKey handler : String) (payload : π)
    (availableAt : Option Instant) (priority : ℤ) (now : Instant) : Queue π × Option ℕ :=
  match insertReady q messageId partitionKey handler payload none availableAt priority now with
  | (q', some id) => (q', some id)
  | (q', none) => (q', (findMessage q' messageId).map (·.id))

/-- `row[3] or _payload_hash(row[4])`: an empty stored hash counts as none. -/
def QueueRow.storedHash (hash : π → String) (row : QueueRow π) : String :=
  match row.payloadHash with
  | none => hash row.payload
  | some stored => if stored = "" then hash row.payload else stored

/-- The same, refusing a message id stored for different work. -/
def enqueueChecked (hash : π → String) (q : Queue π) (messageId partitionKey handler : String)
    (payload : π) (availableAt : Option Instant) (priority : ℤ) (now : Instant) :
    Except QueueIdempotencyConflict (Queue π × ℕ) :=
  match insertReady q messageId partitionKey handler payload (some (hash payload)) availableAt
      priority now with
  | (q', some id) => .ok (q', id)
  | (q', none) =>
      match findMessage q' messageId with
      | none => .error .disappeared
      | some row =>
          if row.partitionKey ≠ partitionKey ∨ row.handler ≠ handler ∨
              row.storedHash hash ≠ hash payload then
            .error (.conflicts messageId)
          else .ok (q', row.id)

/-- `ORDER BY priority, available_at, id`. -/
def claimBefore (r r' : QueueRow π) : Bool :=
  r.priority < r'.priority ∨ (r.priority = r'.priority ∧
    (r.availableAt < r'.availableAt ∨ (r.availableAt = r'.availableAt ∧ r.id < r'.id)))

def firstBy {ρ : Type} (before : ρ → ρ → Bool) : List ρ → Option ρ
  | [] => none
  | r :: rs =>
      match firstBy before rs with
      | none => some r
      | some r' => if before r' r then some r' else some r

def leasedPartitions (q : Queue π) : List String :=
  (q.rows.rows.filter fun r => r.status = .leased).map (·.partitionKey)

/-- The claim's select: the first ready and due row for these handlers that no
    transaction holds locked and whose partition has nothing leased. -/
def selectReady (q : Queue π) (handles : String → Bool) (locked : List ℕ) (now : Instant) :
    Option (QueueRow π) :=
  firstBy claimBefore (q.rows.rows.filter fun r =>
    r.status = .ready ∧ r.availableAt ≤ now ∧ handles r.handler ∧
      r.partitionKey ∉ leasedPartitions q ∧ r.id ∉ locked)

/-- The columns a claim sets. The general lane leaves the fence. -/
def QueueRow.leased (r : QueueRow π) (owner : String) (leaseSeconds : ℚ) (fenced : Bool)
    (now : Instant) : QueueRow π :=
  { r with
    status := .leased
    leaseOwner := some owner
    leaseExpiresAt := some (now + makeInterval leaseSeconds)
    attempts := r.attempts + 1
    leaseFence := if fenced then r.leaseFence + 1 else r.leaseFence }

theorem QueueRow.leased_id (owner : String) (leaseSeconds : ℚ) (fenced : Bool) (now : Instant)
    (r : QueueRow π) : (r.leased owner leaseSeconds fenced now).id = r.id := rfl

/-- The claim's update of a selected row: none on a violation of
    `queue_one_inflight_per_partition`. -/
def lease (q : Queue π) (id : ℕ) (owner : String) (leaseSeconds : ℚ) (fenced : Bool)
    (now : Instant) : Option (Queue π × QueueRow π) :=
  match q.rows.get? id with
  | none => none
  | some row =>
      if ∃ r ∈ q.rows, r.id ≠ id ∧ r.status = .leased ∧ r.partitionKey = row.partitionKey then none
      else
        some (q.update id (·.leased owner leaseSeconds fenced now)
            (QueueRow.leased_id owner leaseSeconds fenced now),
          row.leased owner leaseSeconds fenced now)

/-- `QueueClaim` of a returned row. -/
def QueueRow.claim (row : QueueRow π) : QueueClaim π where
  id := row.id
  messageId := row.messageId
  partitionKey := row.partitionKey
  handler := row.handler
  payload := row.payload
  attempts := row.attempts
  maxAttempts := row.maxAttempts

def QueueRow.fencedClaim (row : QueueRow π) (owner : String) : FencedClaim π where
  id := row.id
  messageId := row.messageId
  partitionKey := row.partitionKey
  handler := row.handler
  payload := row.payload
  attempts := row.attempts
  maxAttempts := row.maxAttempts
  leaseOwner := owner
  leaseFence := row.leaseFence

/-- `claim_one`, for rows no dedicated consumer owns. -/
def claimOne (q : Queue π) (owner : String) (locked : List ℕ) (now : Instant)
    (leaseSeconds : ℚ := 30) : Queue π × Option (QueueClaim π) :=
  match selectReady q (· ∉ dedicatedHandlers) locked now with
  | none => (q, none)
  | some row =>
      match lease q row.id owner leaseSeconds false now with
      | none => (q, none)
      | some (q', row') => (q', some row'.claim)

/-- The claim of every dedicated lane, over the lane's handlers. -/
def claimFenced (handlers : List String) (q : Queue π) (owner : String) (locked : List ℕ)
    (now : Instant) (leaseSeconds : ℚ) : Queue π × Option (FencedClaim π) :=
  match selectReady q (· ∈ handlers) locked now with
  | none => (q, none)
  | some row =>
      match lease q row.id owner leaseSeconds true now with
      | none => (q, none)
      | some (q', row') => (q', some (row'.fencedClaim owner))

def claimRecipeFormulaShadow (q : Queue π) (owner : String) (locked : List ℕ) (now : Instant)
    (leaseSeconds : ℚ := 300) : Queue π × Option (FencedClaim π) :=
  claimFenced formulaShadowQueueHandlers q owner locked now leaseSeconds

/-- No default lease: the only honest one is derived from the compile budget. -/
def claimMaterialization (q : Queue π) (owner : String) (locked : List ℕ) (now : Instant)
    (leaseSeconds : ℚ) : Queue π × Option (FencedClaim π) :=
  claimFenced materializationQueueHandlers q owner locked now leaseSeconds

def claimGeneration (q : Queue π) (owner : String) (locked : List ℕ) (now : Instant)
    (leaseSeconds : ℚ := 300) : Queue π × Option (FencedClaim π) :=
  claimFenced generationQueueHandlers q owner locked now leaseSeconds

def claimVerification (q : Queue π) (owner : String) (locked : List ℕ) (now : Instant)
    (leaseSeconds : ℚ := 120) : Queue π × Option (FencedClaim π) :=
  claimFenced verificationQueueHandlers q owner locked now leaseSeconds

def claimFormulaDraft (q : Queue π) (owner : String) (locked : List ℕ) (now : Instant)
    (leaseSeconds : ℚ := 600) : Queue π × Option (FencedClaim π) :=
  claimFenced formulaDraftQueueHandlers q owner locked now leaseSeconds

def heldBy (claim : FencedClaim π) (now : Instant) (r : QueueRow π) : Bool :=
  r.id = claim.id ∧ r.status = .leased ∧ r.leaseOwner = some claim.leaseOwner ∧
    r.leaseFence = claim.leaseFence ∧ ∃ e ∈ r.leaseExpiresAt, now < e

/-- One guarded update; true when it returned a row. -/
def updateHeld (q : Queue π) (claim : FencedClaim π) (now : Instant)
    (f : QueueRow π → QueueRow π) (hf : ∀ r, (f r).id = r.id) : Queue π × Bool :=
  (q.updateWhere (heldBy claim now) f hf, q.rows.rows.any (heldBy claim now))

def QueueRow.renewed (r : QueueRow π) (until_ : Instant) : QueueRow π :=
  { r with leaseExpiresAt := some until_ }

def QueueRow.completed (r : QueueRow π) : QueueRow π :=
  { r with status := .done, leaseOwner := none, leaseExpiresAt := none }

/-- `available_at` moves only when the row goes back to ready. -/
def QueueRow.failed (r : QueueRow π) (status : QueueStatus) (error : String) (retryAt : Instant) :
    QueueRow π :=
  { r with
    status := status
    lastError := some error
    leaseOwner := none
    leaseExpiresAt := none
    availableAt := if status = .ready then retryAt else r.availableAt }

def renewFenced (q : Queue π) (claim : FencedClaim π) (now : Instant) (leaseSeconds : ℚ) :
    Queue π × Bool :=
  updateHeld q claim now (·.renewed (now + makeInterval leaseSeconds)) fun _ => by rfl

def completeFenced (q : Queue π) (claim : FencedClaim π) (now : Instant) : Queue π × Bool :=
  updateHeld q claim now (·.completed) fun _ => by rfl

/-- The record a dead letter leaves in the metrics log. -/
structure DeadLetter where
  queueId : ℕ
  error : String
  reason : String

def failStatus (claim : FencedClaim π) (permanent : Bool) : QueueStatus :=
  if permanent ∨ claim.maxAttempts ≤ claim.attempts then .dead else .ready

/-- Retry with backoff or dead-letter. The delay is computed before the branch
    is known, so an attempt count past the float range raises in either. -/
def failFenced (permanentReason exhaustedReason : String) (q : Queue π) (claim : FencedClaim π)
    (now : Instant) (error : String) (permanent : Bool) (draw : ℚ) :
    Option (Queue π × Bool × Option DeadLetter) :=
  let status := failStatus claim permanent
  match computeBackoff claim.attempts draw with
  | none => none
  | some delay =>
      let (q', updated) := updateHeld q claim now (·.failed status error (now + makeInterval delay))
        fun _ => by rfl
      let letter : DeadLetter :=
        ⟨claim.id, error, if permanent then permanentReason else exhaustedReason⟩
      some (q', updated, if updated ∧ status = .dead then some letter else none)

def renewRecipeFormulaShadow (q : Queue π) (claim : FencedClaim π) (now : Instant)
    (leaseSeconds : ℚ := 300) : Queue π × Bool :=
  renewFenced q claim now leaseSeconds

def completeRecipeFormulaShadow (q : Queue π) (claim : FencedClaim π) (now : Instant) : Queue π × Bool :=
  completeFenced q claim now

def failRecipeFormulaShadow (q : Queue π) (claim : FencedClaim π) (now : Instant) (error : String)
    (permanent : Bool) (draw : ℚ) : Option (Queue π × Bool × Option DeadLetter) :=
  failFenced "formula_permanent" "formula_retry_exhausted" q claim now error permanent draw

def renewMaterialization (q : Queue π) (claim : FencedClaim π) (now : Instant)
    (leaseSeconds : ℚ) : Queue π × Bool :=
  renewFenced q claim now leaseSeconds

def completeMaterialization (q : Queue π) (claim : FencedClaim π) (now : Instant) : Queue π × Bool :=
  completeFenced q claim now

def failMaterialization (q : Queue π) (claim : FencedClaim π) (now : Instant) (error : String)
    (permanent : Bool) (draw : ℚ) : Option (Queue π × Bool × Option DeadLetter) :=
  failFenced "materialization_permanent" "materialization_retry_exhausted" q claim now error permanent draw

def renewGeneration (q : Queue π) (claim : FencedClaim π) (now : Instant)
    (leaseSeconds : ℚ := 300) : Queue π × Bool :=
  renewFenced q claim now leaseSeconds

def completeGeneration (q : Queue π) (claim : FencedClaim π) (now : Instant) : Queue π × Bool :=
  completeFenced q claim now

def failGeneration (q : Queue π) (claim : FencedClaim π) (now : Instant) (error : String)
    (permanent : Bool) (draw : ℚ) : Option (Queue π × Bool × Option DeadLetter) :=
  failFenced "generation_permanent" "generation_retry_exhausted" q claim now error permanent draw

def renewFormulaDraft (q : Queue π) (claim : FencedClaim π) (now : Instant)
    (leaseSeconds : ℚ := 600) : Queue π × Bool :=
  renewFenced q claim now leaseSeconds

def completeFormulaDraft (q : Queue π) (claim : FencedClaim π) (now : Instant) : Queue π × Bool :=
  completeFenced q claim now

def failFormulaDraft (q : Queue π) (claim : FencedClaim π) (now : Instant) (error : String)
    (permanent : Bool) (draw : ℚ) : Option (Queue π × Bool × Option DeadLetter) :=
  failFenced "formula_draft_permanent" "formula_draft_retry_exhausted" q claim now error permanent draw

/-- `complete`: by id alone. -/
def complete (q : Queue π) (queueId : ℕ) : Queue π :=
  q.update queueId (·.completed) fun _ => by rfl

/-- To the dead-letter state, keeping the error. -/
def QueueRow.killed (r : QueueRow π) (error : String) : QueueRow π :=
  { r with status := .dead, lastError := some error, leaseOwner := none, leaseExpiresAt := none }

/-- What `fail_retryable` makes of a row: dead at the attempt budget, else ready
    after a backoff; none when the backoff overflows. -/
def QueueRow.retried (r : QueueRow π) (error : String) (draw : ℚ) (now : Instant) :
    Option (QueueRow π) :=
  if r.maxAttempts ≤ r.attempts then some (r.killed error)
  else (computeBackoff r.attempts draw).map fun delay =>
    r.failed .ready error (now + makeInterval delay)

/-- Retry with backoff, or dead-letter at the attempt budget; none when the row
    is gone or the backoff overflows. -/
def failRetryable (q : Queue π) (queueId : ℕ) (error : String) (draw : ℚ) (now : Instant) :
    Option (Queue π × Option DeadLetter) :=
  match q.rows.get? queueId with
  | none => none
  | some row =>
      match row.retried error draw now with
      | none => none
      | some row' =>
          some (q.update queueId (fun r => { row' with id := r.id }) fun _ => rfl,
            if row'.status = .dead then some ⟨queueId, error, "retry_exhausted"⟩ else none)

def failPermanent (q : Queue π) (queueId : ℕ) (error : String) : Queue π × DeadLetter :=
  (q.update queueId (·.killed error) fun _ => by rfl, ⟨queueId, error, "poison_permanent"⟩)

/-- The rows a reclaim returns to ready: leased, with the lease run out. -/
def stuck (now : Instant) (r : QueueRow π) : Bool :=
  r.status = .leased ∧ ∃ e ∈ r.leaseExpiresAt, e < now

def QueueRow.released (r : QueueRow π) : QueueRow π :=
  { r with status := .ready, leaseOwner := none, leaseExpiresAt := none }

def reclaimStuckQueue (q : Queue π) (now : Instant) : Queue π × ℕ :=
  (q.updateWhere (stuck now) (·.released) fun _ => by rfl, q.rows.rows.countP (stuck now))

theorem mem_of_firstBy {ρ : Type} {before : ρ → ρ → Bool} {l : List ρ} {r : ρ}
    (h : firstBy before l = some r) : r ∈ l := by
  induction l generalizing r with
  | nil => cases h
  | cons x l ih =>
      simp only [firstBy] at h
      split at h
      · cases h
        exact List.mem_cons_self
      · next best hbest =>
          split_ifs at h <;> cases h
          · exact List.mem_cons_of_mem x (ih hbest)
          · exact List.mem_cons_self

theorem selectReady_some {q : Queue π} {handles : String → Bool} {locked : List ℕ} {now : Instant}
    {row : QueueRow π} (h : selectReady q handles locked now = some row) :
    row ∈ q.rows ∧ row.status = .ready ∧ row.availableAt ≤ now ∧ handles row.handler ∧
      row.partitionKey ∉ leasedPartitions q ∧ row.id ∉ locked := by
  obtain ⟨hmem, hcond⟩ := List.mem_filter.mp (mem_of_firstBy h)
  exact ⟨hmem, of_decide_eq_true hcond⟩

theorem lease_some {q q' : Queue π} {id : ℕ} {owner : String} {leaseSeconds : ℚ} {fenced : Bool}
    {now : Instant} {row' : QueueRow π}
    (h : lease q id owner leaseSeconds fenced now = some (q', row')) :
    ∃ row ∈ q.rows, row.id = id ∧
      (∀ r ∈ q.rows, r.id ≠ id → r.status = .leased → r.partitionKey ≠ row.partitionKey) ∧
      row' = row.leased owner leaseSeconds fenced now ∧
      q'.nextId = q.nextId ∧ ∀ r, r ∈ q'.rows ↔ r = row' ∨ (r ∈ q.rows ∧ r.id ≠ id) := by
  unfold lease at h
  split at h
  · cases h
  · next row hrow =>
      obtain ⟨hmem, hid⟩ := Table.get?_eq_some.mp hrow
      split at h
      · cases h
      next hclash =>
      cases h
      refine ⟨row, hmem, hid, ?_, rfl, rfl, fun r => ?_⟩
      · intro r hr hne hleased hpart
        exact hclash ⟨r, hr, hne, hleased, hpart⟩
      · rw [Queue.mem_update]
        constructor
        · rintro ⟨y, hy, rfl⟩
          by_cases hyid : y.id = id
          · have hyrow : y = row := Table.eq_of_key_eq hy hmem (hyid.trans hid.symm)
            subst hyrow
            left
            rw [if_pos hyid]
          · right
            rw [if_neg hyid]
            exact ⟨hy, hyid⟩
        · rintro (rfl | ⟨hr, hne⟩)
          · exact ⟨row, hmem, by rw [if_pos hid]⟩
          · exact ⟨r, hr, by rw [if_neg hne]⟩

structure Inserted (row : QueueRow π) : Prop where
  status : row.status = .ready
  fence : row.leaseFence = 0
  attempts : row.attempts = 0
  maxAttempts : row.maxAttempts = defaultMaxAttempts

theorem insertReady_rows (q : Queue π) (messageId partitionKey handler : String) (payload : π)
    (payloadHash : Option String) (availableAt : Option Instant) (priority : ℤ) (now : Instant) :
    let q' := (insertReady q messageId partitionKey handler payload payloadHash availableAt
      priority now).1
    q'.rows = q.rows ∨ ∃ row, Inserted row ∧ row.messageId = messageId ∧
      findMessage q messageId = none ∧ q.rows.insert? row = some q'.rows := by
  unfold insertReady
  split
  · exact Or.inl rfl
  · next hnew =>
      split
      · exact Or.inl rfl
      · next rows hins => exact Or.inr ⟨_, ⟨rfl, rfl, rfl, rfl⟩, rfl, hnew, hins⟩

theorem enqueue_rows (q : Queue π) (messageId partitionKey handler : String) (payload : π)
    (availableAt : Option Instant) (priority : ℤ) (now : Instant) :
    (enqueue q messageId partitionKey handler payload availableAt priority now).1 =
      (insertReady q messageId partitionKey handler payload none availableAt priority now).1 := by
  unfold enqueue
  split <;> simp_all

theorem enqueueChecked_ok {hash : π → String} {q q' : Queue π}
    {messageId partitionKey handler : String} {payload : π} {availableAt : Option Instant}
    {priority : ℤ} {now : Instant} {id : ℕ}
    (h : enqueueChecked hash q messageId partitionKey handler payload availableAt priority now =
      .ok (q', id)) :
    q' = (insertReady q messageId partitionKey handler payload (some (hash payload)) availableAt
      priority now).1 := by
  unfold enqueueChecked at h
  split at h
  · next hins => cases h; rw [hins]
  · next hins =>
      split at h
      · cases h
      · split_ifs at h
        cases h
        rw [hins]

theorem mem_reclaimStuckQueue {q : Queue π} {now : Instant} {r : QueueRow π} :
    r ∈ (reclaimStuckQueue q now).1.rows ↔
      ∃ y ∈ q.rows, r = if stuck now y then y.released else y :=
  Queue.mem_updateWhere

end Ops

end FeatureGen.Runtime
