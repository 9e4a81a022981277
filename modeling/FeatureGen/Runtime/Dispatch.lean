import FeatureGen.Lib.Transition
import FeatureGen.Runtime.Queue

/-! # The transactional outbox

`runtime/outbox.py`: rows a step writes in its own transaction, and the relay
that leases a batch, publishes each row and marks it sent, each in its own
transaction. The publisher turns a routed topic into a queue row.

`runtime/dispatch.py`, `runtime/step.py` and `runtime/ledger.py` over the
outbox, the queue and `processed_messages`. A relay is three kinds of
transactions with a crash possible between any two. A consumer runs
`process_one` in one transaction: what it writes stays in its own version of its
row, behind the row's lock, until it commits, and a crash rolls all of it back.

What a handler does is up to the environment; what `process_one` makes of it is
not.
-/

namespace FeatureGen.Runtime

inductive OutboxStatus where
  | pending
  | leased
  | sent
  | dead
  deriving DecidableEq

/-- A row of `outbox`. -/
structure OutboxRow (π : Type) where
  id : ℕ
  messageId : String
  partitionKey : String
  topic : String
  payload : π
  causedByEvent : Option String
  status : OutboxStatus
  leaseOwner : Option String
  leaseExpiresAt : Option Instant
  attempts : ℕ
  maxAttempts : ℕ
  nextAttemptAt : Instant
  lastError : Option String
  sentAt : Option Instant

structure Outbox (π : Type) where
  rows : Table (OutboxRow.id (π := π))
  nextId : ℕ

structure OutboxMessage (π : Type) where
  messageId : String
  partitionKey : String
  topic : String
  payload : π
  causedByEvent : Option String

/-- How the queue publisher of a deployment is built. -/
structure Publisher where
  route : String → Option String
  maxPartitionDepth : Option ℕ
  routeRequired : List String

/-- What publishing one row came to. -/
inductive PublishResult where
  | published
  /-- `BackpressureError`: durable waiting, not a failure. -/
  | backpressure (error : String)
  | failed (error : String)

section Ops

variable {π : Type}

/-- Idempotent on the message id; an id is drawn either way. -/
def insertOutboxMessage (o : Outbox π) (msg : OutboxMessage π) (now : Instant) : Outbox π :=
  let drawn := { o with nextId := o.nextId + 1 }
  match o.rows.rows.find? fun r => r.messageId = msg.messageId with
  | some _ => drawn
  | none =>
      let row : OutboxRow π := {
        id := o.nextId
        messageId := msg.messageId
        partitionKey := msg.partitionKey
        topic := msg.topic
        payload := msg.payload
        causedByEvent := msg.causedByEvent
        status := .pending
        leaseOwner := none
        leaseExpiresAt := none
        attempts := 0
        maxAttempts := defaultMaxAttempts
        nextAttemptAt := now
        lastError := none
        sentAt := none }
      { drawn with rows := o.rows.insertNew row }

def Outbox.update (o : Outbox π) (id : ℕ) (f : OutboxRow π → OutboxRow π)
    (hf : ∀ r, (f r).id = r.id) : Outbox π :=
  { o with rows := o.rows.update id f hf }

/-- Insertion sort by id, as `ORDER BY id` returns them. -/
def insertById (r : OutboxRow π) : List (OutboxRow π) → List (OutboxRow π)
  | [] => [r]
  | r' :: rs => if r.id ≤ r'.id then r :: r' :: rs else r' :: insertById r rs

/-- The relay's first transaction: lease the first pending and due rows. -/
def leaseBatch (o : Outbox π) (owner : String) (leaseSeconds : ℚ) (batch : ℕ) (now : Instant) :
    Outbox π × List (OutboxRow π) :=
  let due := (o.rows.rows.filter fun r => r.status = .pending ∧ r.nextAttemptAt ≤ now).foldr
    insertById []
  let ids := (due.take batch).map (·.id)
  let f := fun r : OutboxRow π => { r with
    status := .leased
    leaseOwner := some owner
    leaseExpiresAt := some (now + makeInterval leaseSeconds) }
  ({ o with rows := o.rows.updateWhere (fun r => r.id ∈ ids) f fun _ => rfl },
    (o.rows.rows.filter fun r => r.id ∈ ids).map f)

/-- `queue_depth` of one partition. -/
def queueDepth (q : Queue π) (partitionKey : String) : ℕ :=
  q.rows.rows.countP fun r =>
    (r.status = .ready ∨ r.status = .leased) ∧ r.partitionKey = partitionKey

def OutboxRow.message (row : OutboxRow π) : OutboxMessage π where
  messageId := row.messageId
  partitionKey := row.partitionKey
  topic := row.topic
  payload := row.payload
  causedByEvent := row.causedByEvent

/-- The publisher `make_queue_publisher` builds. A topic without a route drains,
    unless it is declared to need one. -/
def publish (hash : π → String) (p : Publisher) (q : Queue π) (msg : OutboxMessage π)
    (now : Instant) : Queue π × PublishResult :=
  match p.route msg.topic with
  | none =>
      if msg.topic ∈ p.routeRequired then (q, .failed msg.topic) else (q, .published)
  | some handler =>
      match p.maxPartitionDepth.filter (· ≤ queueDepth q msg.partitionKey) with
      | some depth =>
          (q, .backpressure s!"partition '{msg.partitionKey}' at capacity ({depth})")
      | none =>
          if handler ∈ formulaShadowQueueHandlers then
            match enqueueChecked hash q msg.messageId msg.partitionKey handler msg.payload none 100
              now with
            | .ok (q', _) => (q', .published)
            | .error e => (q, .failed e.message)
          else
            ((enqueue q msg.messageId msg.partitionKey handler msg.payload none 100 now).1,
              .published)

/-- The relay's last transaction on a row, by id alone; none when a backoff overflows. -/
def settleRow (o : Outbox π) (row : OutboxRow π) (result : PublishResult) (leaseSeconds draw : ℚ)
    (now : Instant) : Option (Outbox π) :=
  match result with
  | .published =>
      some (o.update row.id (fun r => { r with status := .sent, sentAt := some now }) fun _ => rfl)
  | .backpressure error =>
      let f := fun r : OutboxRow π => { r with
        status := .pending
        lastError := some error
        leaseOwner := none
        leaseExpiresAt := none
        nextAttemptAt := now + makeInterval leaseSeconds }
      some (o.update row.id f fun _ => rfl)
  | .failed error =>
      let attempts := row.attempts + 1
      if row.maxAttempts ≤ attempts then
        let f := fun r : OutboxRow π => { r with
          status := .dead
          attempts := attempts
          lastError := some error
          leaseOwner := none
          leaseExpiresAt := none }
        some (o.update row.id f fun _ => rfl)
      else
        (computeBackoff attempts draw).map fun delay =>
          let f := fun r : OutboxRow π => { r with
            status := .pending
            attempts := attempts
            lastError := some error
            leaseOwner := none
            leaseExpiresAt := none
            nextAttemptAt := now + makeInterval delay }
          o.update row.id f fun _ => rfl

def reclaimStuckOutbox (o : Outbox π) (now : Instant) : Outbox π × ℕ :=
  let isStuck := fun r : OutboxRow π => decide (r.status = .leased ∧ ∃ e ∈ r.leaseExpiresAt, e < now)
  let f := fun r : OutboxRow π => { r with
    status := .pending, leaseOwner := none, leaseExpiresAt := none }
  ({ o with rows := o.rows.updateWhere isStuck f fun _ => rfl }, o.rows.rows.countP isStuck)

end Ops

end FeatureGen.Runtime

namespace FeatureGen.Runtime.Dispatch

/-- A row of `processed_messages`. -/
structure LedgerRow where
  messageId : String
  aggregate : String
  aggregateId : String
  resultEventId : Option String
  processedSeq : ℕ

abbrev Ledger := Table LedgerRow.messageId

def isProcessed (ledger : Ledger) (messageId : String) : Bool := (ledger.get? messageId).isSome

/-- The lowest checkpoint of all projections, zero when there are none. -/
def processedWatermark (checkpoints : List ℕ) : ℕ := checkpoints.min?.getD 0

def pruneProcessedMessages (ledger : Ledger) (checkpoints : List ℕ) : Ledger :=
  ledger.deleteWhere fun row => row.processedSeq < processedWatermark checkpoints

/-- What `commit_step` writes beside the events themselves. -/
structure StepWrites (π : Type) where
  messages : List (OutboxMessage π)
  ledgerRow : LedgerRow

/-- What running a claimed message comes to, one case for each branch of `process_one`. -/
inductive Handled (π : Type) where
  | timerDone
  | timerDisallowed (error : String)
  | timerFault (error : String)
  | unknownHandler (error : String)
  | timeout (error : String)
  /-- Disposition OK, with what `commit_step` would write. -/
  | ok (messages : List (OutboxMessage π)) (aggregate aggregateId : String)
      (resultEventId : Option String) (processedSeq : ℕ)
  /-- Disposition OK, refused by optimistic concurrency control. -/
  | occ (error : String)
  | retryable (error : Option String)
  | permanent (error : Option String)
  /-- Any other exception, in the handler, its context or the step. -/
  | fault (error : String)

inductive ProcessStatus where
  | ok
  | duplicate
  | retryable
  | permanent

/-- How far a consumer's transaction has got. -/
inductive Phase (π : Type) where
  /-- Its row is selected and locked. -/
  | selected
  /-- Its row is leased, in its own version. -/
  | leased
  /-- The ledger does not know the message. -/
  | unprocessed
  /-- All is written; what remains is the commit. -/
  | ending (status : ProcessStatus) (step : Option (StepWrites π))

structure Consumer (π : Type) where
  worker : ℕ
  owner : String
  /-- The transaction's `now()`. -/
  now : Instant
  /-- The transaction's own version of the row it has locked. -/
  row : QueueRow π
  phase : Phase π

/-- A relay between its lease transaction and its last settlement. -/
structure Relay (π : Type) where
  worker : ℕ
  leaseSeconds : ℚ
  /-- The leased rows still to publish or settle. -/
  rows : List (OutboxRow π)
  /-- What publishing the first of them came to, once it was published. -/
  result : Option PublishResult

structure World (π : Type) where
  now : Instant
  outbox : Outbox π
  queue : Queue π
  ledger : Ledger
  checkpoints : List ℕ
  relays : List (Relay π)
  consumers : List (Consumer π)
  /-- The message of every committed `commit_step`, oldest first. -/
  steps : List String

structure Deployment (π : Type) where
  publisher : Publisher
  payloadHash : π → String
  /-- The payload has a `handler` field. -/
  namesHandler : π → Bool

inductive Action (π : Type) where
  | tick (micros : ℕ)
  | advanceCheckpoints (checkpoints : List ℕ)
  /-- Any other writer of the outbox or the queue. -/
  | write (msg : OutboxMessage π)
  | enqueue (messageId partitionKey handler : String) (payload : π)
      (availableAt : Option Instant) (priority : ℤ)
  | relayLease (worker : ℕ) (owner : String) (leaseSeconds : ℚ) (batch : ℕ)
  /-- Publish the next row; the publisher may also raise before it writes. -/
  | relayPublish (worker : ℕ) (fault : Option String)
  | relaySettle (worker : ℕ) (draw : ℚ)
  /-- The relay is through with its batch, or dies. -/
  | relayStop (worker : ℕ)
  | reclaimOutbox
  | claim (worker : ℕ) (owner : String)
  | lease (worker : ℕ) (leaseSeconds : ℚ)
  | check (worker : ℕ)
  | handle (worker : ℕ) (result : Handled π) (draw : ℚ)
  | commit (worker : ℕ)
  | crash (worker : ℕ)
  | reclaimQueue
  | prune

section System

variable {π : Type}

/-- `_is_timer_command_message`: a `timer.` handler and a `handler` field. -/
def isTimerCommandMessage (namesHandler : π → Bool) (row : QueueRow π) : Bool :=
  "timer.".toList.isPrefixOf row.handler.toList && namesHandler row.payload

/-- `commit_step` up to its commit: its ledger row must be new. -/
def commitStep (ledger : Ledger) (messageId : String) (messages : List (OutboxMessage π))
    (aggregate aggregateId : String) (resultEventId : Option String) (processedSeq : ℕ) :
    Option (StepWrites π) :=
  if isProcessed ledger messageId then none
  else some ⟨messages, ⟨messageId, aggregate, aggregateId, resultEventId, processedSeq⟩⟩

/-- The body of `process_one` once the ledger has been checked: the row it
    leaves, the status it returns and the step it commits. None where a branch
    does not apply to the message, or the backoff overflows. -/
def handleClaim (d : Deployment π) (ledger : Ledger) (row : QueueRow π) (now : Instant)
    (draw : ℚ) (result : Handled π) :
    Option (QueueRow π × ProcessStatus × Option (StepWrites π)) :=
  let retry := fun error => (row.retried error draw now).map fun r => (r, .retryable, none)
  if isTimerCommandMessage d.namesHandler row then
    match result with
    | .timerDone => some (row.completed, .ok, none)
    | .timerDisallowed error => some (row.killed error, .permanent, none)
    | .timerFault error => retry s!"timer command fault: {error}"
    | _ => none
  else
    match result with
    | .unknownHandler error => some (row.killed error, .permanent, none)
    | .timeout error => retry error
    | .ok messages aggregate aggregateId resultEventId processedSeq =>
        match commitStep ledger row.messageId messages aggregate aggregateId resultEventId
          processedSeq with
        | some writes => some (row.completed, .ok, some writes)
        | none => retry "handler fault: UniqueViolation"
    | .occ error => retry s!"OCC: {error}"
    | .retryable error => retry (error.getD "retryable")
    | .permanent error => some (row.killed (error.getD "permanent"), .permanent, none)
    | .fault error => retry s!"handler fault: {error}"
    | _ => none

def consumerOf (consumers : List (Consumer π)) (worker : ℕ) : Option (Consumer π) :=
  consumers.find? fun c => c.worker = worker

def dropConsumer (consumers : List (Consumer π)) (worker : ℕ) : List (Consumer π) :=
  consumers.filter fun c => c.worker ≠ worker

def relayOf (relays : List (Relay π)) (worker : ℕ) : Option (Relay π) :=
  relays.find? fun r => r.worker = worker

def dropRelay (relays : List (Relay π)) (worker : ℕ) : List (Relay π) :=
  relays.filter fun r => r.worker ≠ worker

def lockedRows (consumers : List (Consumer π)) : List ℕ := consumers.map (·.row.id)

/-- A transaction that has leased its row holds the partition's index entry. -/
def holdsPartition (c : Consumer π) (partitionKey : String) : Bool :=
  match c.phase with
  | .selected => false
  | _ => c.row.partitionKey = partitionKey

/-- A consumer's commit: its row and its step become visible together. A ledger
    row that has appeared meanwhile rolls the whole transaction back. -/
def commitConsumer (w : World π) (c : Consumer π) (step : Option (StepWrites π)) : World π :=
  let closed := { w with consumers := dropConsumer w.consumers c.worker }
  let queue := w.queue.update c.row.id (fun r => { c.row with id := r.id }) fun _ => rfl
  match step with
  | none => { closed with queue := queue }
  | some writes =>
      match w.ledger.insert? writes.ledgerRow with
      | none => closed
      | some ledger => { closed with
          queue := queue
          ledger := ledger
          outbox := writes.messages.foldl (fun o msg => insertOutboxMessage o msg c.now) w.outbox
          steps := w.steps ++ [writes.ledgerRow.messageId] }

def step (d : Deployment π) (w : World π) : Action π → Option (World π)
  | .tick micros => some { w with now := w.now + micros }
  | .advanceCheckpoints checkpoints => some { w with checkpoints := checkpoints }
  | .write msg => some { w with outbox := insertOutboxMessage w.outbox msg w.now }
  | .enqueue messageId partitionKey handler payload availableAt priority =>
      let result := enqueue w.queue messageId partitionKey handler payload availableAt priority w.now
      some { w with queue := result.1 }
  | .relayLease worker owner leaseSeconds batch =>
      match relayOf w.relays worker with
      | some _ => none
      | none =>
          let (outbox, rows) := leaseBatch w.outbox owner leaseSeconds batch w.now
          some { w with outbox := outbox, relays := ⟨worker, leaseSeconds, rows, none⟩ :: w.relays }
  | .relayPublish worker fault =>
      match relayOf w.relays worker with
      | some ⟨_, leaseSeconds, row :: rows, none⟩ =>
          let (queue, result) := match fault with
            | some error => (w.queue, .failed error)
            | none => publish d.payloadHash d.publisher w.queue row.message w.now
          let relay : Relay π := ⟨worker, leaseSeconds, row :: rows, some result⟩
          some { w with queue := queue, relays := relay :: dropRelay w.relays worker }
      | _ => none
  | .relaySettle worker draw =>
      match relayOf w.relays worker with
      | some ⟨_, leaseSeconds, row :: rows, some result⟩ =>
          match settleRow w.outbox row result leaseSeconds draw w.now with
          | none => none
          | some outbox =>
              let relay : Relay π := ⟨worker, leaseSeconds, rows, none⟩
              some { w with outbox := outbox, relays := relay :: dropRelay w.relays worker }
      | _ => none
  | .relayStop worker => some { w with relays := dropRelay w.relays worker }
  | .reclaimOutbox => some { w with outbox := (reclaimStuckOutbox w.outbox w.now).1 }
  | .claim worker owner =>
      match consumerOf w.consumers worker with
      | some _ => none
      | none =>
          match selectReady w.queue (· ∉ dedicatedHandlers) (lockedRows w.consumers) w.now with
          | none => some w
          | some row =>
              let consumer : Consumer π := ⟨worker, owner, w.now, row, .selected⟩
              some { w with consumers := consumer :: w.consumers }
  | .lease worker leaseSeconds =>
      match consumerOf w.consumers worker with
      | some c =>
          match c.phase with
          | .selected =>
              -- another transaction's uncommitted index entry makes this one wait
              if w.consumers.any (holdsPartition · c.row.partitionKey) then none
              else
                match Runtime.lease w.queue c.row.id c.owner leaseSeconds false c.now with
                | none => some { w with consumers := dropConsumer w.consumers worker }
                | some (_, row) =>
                    let consumer := { c with row := row, phase := .leased }
                    some { w with consumers := consumer :: dropConsumer w.consumers worker }
          | _ => none
      | none => none
  | .check worker =>
      match consumerOf w.consumers worker with
      | some c =>
          match c.phase with
          | .leased =>
              let consumer :=
                if isProcessed w.ledger c.row.messageId then
                  { c with row := c.row.completed, phase := .ending .duplicate none }
                else { c with phase := .unprocessed }
              some { w with consumers := consumer :: dropConsumer w.consumers worker }
          | _ => none
      | none => none
  | .handle worker result draw =>
      match consumerOf w.consumers worker with
      | some c =>
          match c.phase with
          | .unprocessed =>
              match handleClaim d w.ledger c.row c.now draw result with
              | none => none
              | some (row, status, step) =>
                  let consumer := { c with row := row, phase := .ending status step }
                  some { w with consumers := consumer :: dropConsumer w.consumers worker }
          | _ => none
      | none => none
  | .commit worker =>
      match consumerOf w.consumers worker with
      | some c =>
          match c.phase with
          | .ending _ step => some (commitConsumer w c step)
          | _ => none
      | none => none
  | .crash worker => some { w with consumers := dropConsumer w.consumers worker }
  | .reclaimQueue => some { w with queue := (reclaimStuckQueue w.queue w.now).1 }
  | .prune => some { w with ledger := pruneProcessedMessages w.ledger w.checkpoints }

theorem dropConsumer_of_consumerOf_eq_none {consumers : List (Consumer π)} {worker : ℕ}
    (free : consumerOf consumers worker = none) : dropConsumer consumers worker = consumers := by
  refine List.filter_eq_self.mpr fun c hc => ?_
  simpa using List.find?_eq_none.mp free c hc

/-- `claim_one` is the first two statements of a consumer's transaction with nothing between
    them. What it returns is the version of the row that the transaction then holds. -/
theorem exec_claimOne {d : Deployment π} {w : World π} {worker : ℕ} {owner : String}
    {leaseSeconds : ℚ} {q : Queue π} {claim : QueueClaim π}
    (free : consumerOf w.consumers worker = none)
    (open_ : ∀ c ∈ w.consumers, holdsPartition c claim.partitionKey = false)
    (h : claimOne w.queue owner (lockedRows w.consumers) w.now leaseSeconds = (q, some claim)) :
    ∃ row, row.claim = claim ∧
      Transition.exec (step d) w [.claim worker owner, .lease worker leaseSeconds] =
        some { w with consumers := ⟨worker, owner, w.now, row, .leased⟩ :: w.consumers } := by
  rw [claimOne] at h
  split at h
  · cases h
  · next row selected =>
    split at h
    · cases h
    · next q' row' leased =>
      cases h
      have first : step d w (.claim worker owner) = some { w with
          consumers := ⟨worker, owner, w.now, row, .selected⟩ :: w.consumers } := by
        simp only [step, free, selected]
      have dropped : dropConsumer (⟨worker, owner, w.now, row, .selected⟩ :: w.consumers) worker =
          w.consumers := by
        simpa [dropConsumer] using dropConsumer_of_consumerOf_eq_none free
      have key : row'.partitionKey = row.partitionKey := by
        obtain ⟨found, hfound, same, _, rfl, _⟩ := lease_some leased
        rw [Table.eq_of_key_eq hfound (selectReady_some selected).1 same]
        rfl
      have clear : ((⟨worker, owner, w.now, row, .selected⟩ :: w.consumers).any
          (holdsPartition · row.partitionKey)) = false := by
        refine List.any_eq_false.mpr fun c hc => ?_
        rcases List.mem_cons.mp hc with rfl | hc
        · exact Bool.false_ne_true
        · rw [← key]
          exact Bool.eq_false_iff.mp (open_ c hc)
      refine ⟨row', rfl, Transition.exec_cons_eq_some.mpr ⟨_, first, ?_⟩⟩
      simp [Transition.exec_single, step, consumerOf, -List.any_cons, clear, leased, dropped]

/-- `fail_retryable` in a consumer's transaction, which sees its own version of the row, leaves
    the queue that the consumer's commit leaves. -/
theorem failRetryable_commit {w : World π} {c : Consumer π} {row : QueueRow π} {error : String}
    {draw : ℚ} (held : (w.queue.rows.get? c.row.id).isSome)
    (retried : c.row.retried error draw c.now = some row) :
    failRetryable (w.queue.update c.row.id (fun r => { c.row with id := r.id }) fun _ => rfl)
        c.row.id error draw c.now =
      some ((commitConsumer w { c with row := row } none).queue,
        if row.status = .dead then some ⟨c.row.id, error, "retry_exhausted"⟩ else none) := by
  have kept : row.id = c.row.id := by
    unfold QueueRow.retried at retried
    split at retried
    · cases retried
      rfl
    · obtain ⟨delay, _, rfl⟩ := Option.map_eq_some_iff.mp retried
      rfl
  obtain ⟨r, hr⟩ := Option.isSome_iff_exists.mp held
  have own : (w.queue.update c.row.id (fun r => { c.row with id := r.id }) fun _ => rfl).rows.get?
      c.row.id = some c.row := by
    rw [Queue.update, Table.get?_update, if_pos rfl, hr, Option.map_some, Table.key_of_get? hr]
  rw [failRetryable, own]
  simp only [retried, commitConsumer, kept, Queue.update, Table.update_update]

/-- An empty queue and no open transaction; the ledger and the outbox are arbitrary. -/
def Init (w : World π) : Prop :=
  w.queue.rows.rows = [] ∧ w.consumers = [] ∧ w.steps = []

end System

end FeatureGen.Runtime.Dispatch
