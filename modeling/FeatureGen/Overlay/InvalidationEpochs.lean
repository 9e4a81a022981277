import Mathlib
import FeatureGen.Lib.AppendLog
import FeatureGen.Lib.Transition

/-! # Invalidating contracts

`invalidate_contracts_for` of `overlay/upload/contract/invalidation.py` over the
append-only validation events, statement by statement in transactions at READ
COMMITTED, and the transactions that append other events under the same lock of
the projection's checkpoint.

Two INVALIDATED events that say the same of a contract have a re-clearing event
between them, and what a call has dealt with is covered in its epoch: what holds
between any two statements. An absent id and an empty one say the same.
-/

namespace FeatureGen.ContractInvalidation

/-- A drifted catalog reference. -/
structure ChangedRef where
  catalogSource : String
  reason : String
  objectRef : Option String
  decisionId : Option String
  factId : Option String

/-- A row of `contract_metadata_dependency`. -/
structure MetadataDependency where
  contractId : String
  catalogSource : String
  graphRef : Option String
  logicalRef : Option String
  decisionId : Option String
  factId : Option String

inductive EventType where
  | assessed
  | externalPassed
  | externalFailed
  | invalidated
  | superseded
  deriving DecidableEq

/-- `ASSESSED` and `EXTERNAL_PASSED` start an epoch. -/
def EventType.reclears : EventType → Bool
  | .assessed | .externalPassed => true
  | _ => false

/-- A JSON object of texts. -/
abbrev Payload := List (String × String)

/-- A row of `feature_contract_validation_event`. -/
structure ValidationEvent where
  eventId : String
  contractId : String
  seq : ℕ
  eventType : EventType
  payload : Payload

/-- An event without what the database numbers it with. -/
structure NewEvent where
  contractId : String
  eventType : EventType
  payload : Payload

/-- An affected contract, and what affects it. -/
structure Target where
  contractId : String
  ref : ChangedRef

/-- The condition of `_affected_contract_ids`; `lower` is the database's. -/
def ChangedRef.affects (lower : String → String) (ref : ChangedRef) (row : MetadataDependency) :
    Bool :=
  row.catalogSource = ref.catalogSource ∧
    ((∃ objectRef ∈ ref.objectRef, row.logicalRef.map lower = some (lower objectRef) ∨
        row.graphRef.map lower = some (lower objectRef)) ∨
      (∃ decisionId ∈ ref.decisionId, row.decisionId = some decisionId) ∨
      ∃ factId ∈ ref.factId, row.factId = some factId)

/-- `_affected_contract_ids`. `DISTINCT` leaves the order open. -/
def affectedContractIds (lower : String → String) (dependencies : List MetadataDependency)
    (ref : ChangedRef) : List String :=
  ((dependencies.filter (ref.affects lower)).map (·.contractId)).dedup

/-- A payload says what the ref says; an absent id is compared as an empty one. -/
def ChangedRef.named (ref : ChangedRef) (payload : Payload) : Bool :=
  payload.lookup "reason" = some ref.reason ∧
    (payload.lookup "catalog_source").getD "" = ref.catalogSource ∧
    (payload.lookup "object_ref").getD "" = ref.objectRef.getD "" ∧
    (payload.lookup "decision_id").getD "" = ref.decisionId.getD "" ∧
    (payload.lookup "fact_id").getD "" = ref.factId.getD ""

/-- The seq of a contract's last re-clearing event, 0 for none. -/
def lastReclear (visible : List ValidationEvent) (contractId : String) : ℕ :=
  ((visible.filter fun e => e.contractId = contractId ∧ e.eventType.reclears).map
    (·.seq)).foldr max 0

/-- The second query of `_already_invalidated`. -/
def alreadyInvalidated (visible : List ValidationEvent) (target : Target) (epoch : ℕ) : Bool :=
  visible.any fun e => e.contractId = target.contractId ∧ e.eventType = .invalidated ∧
    epoch < e.seq ∧ target.ref.named e.payload

/-- The payload of an INVALIDATED event. -/
def ChangedRef.payload (ref : ChangedRef) : Payload :=
  [("reason", ref.reason), ("catalog_source", ref.catalogSource)] ++
    (ref.objectRef.map fun id => ("object_ref", id)).toList ++
    (ref.decisionId.map fun id => ("decision_id", id)).toList ++
    (ref.factId.map fun id => ("fact_id", id)).toList

def Target.event (target : Target) : NewEvent :=
  ⟨target.contractId, .invalidated, target.ref.payload⟩

/-- How far a transaction has come. -/
inductive Txn where
  /-- `invalidate_contracts_for` is collecting its targets. -/
  | reading (targets : List Target) (left : List ChangedRef)
  | locking (targets : List Target)
  | testing (done left : List Target) (appended : ℕ)
  /-- It has read the epoch of a target. -/
  | comparing (done : List Target) (target : Target) (left : List Target) (appended epoch : ℕ)
  | inserting (done : List Target) (target : Target) (left : List Target) (appended : ℕ)
  | returned (targets : List Target) (appended : ℕ)
  /-- Another transaction, before it has the lock. -/
  | waiting (events : List NewEvent)
  | appending (events : List NewEvent)

structure World where
  log : AppendLog ValidationEvent
  nextSeq : ℕ
  /-- Who holds the row of the projection's checkpoint. -/
  lock : Option ℕ
  dependencies : List MetadataDependency
  txns : ℕ → Option Txn

/-- What a statement finds that the model leaves open. -/
structure Choice where
  /-- The order in which the database returns contracts. -/
  contractIds : List String
  /-- The id it mints. -/
  eventId : String

inductive Action where
  /-- A confirm records what its contract depends on. -/
  | depend (rows : List MetadataDependency)
  | invalidate (txn : ℕ) (changed : List ChangedRef)
  /-- A transaction that appends other events. -/
  | append (txn : ℕ) (events : List NewEvent)
  | statement (txn : ℕ) (choice : Choice)
  | commit (txn : ℕ)
  | rollback (txn : ℕ)

def World.goes (w : World) (txn : ℕ) (t : Txn) : World :=
  { w with txns := Function.update w.txns txn (some t) }

/-- `lock_checkpoint`: none while another transaction holds the row. -/
def lockCheckpoint (w : World) (txn : ℕ) : Option World :=
  if ∀ holder ∈ w.lock, holder = txn then some { w with lock := some txn } else none

def sameId (e e' : ValidationEvent) : Bool := e.eventId = e'.eventId

/-- The insert of an event: none where it waits, or violates the key and aborts. -/
def insertEvent (w : World) (txn : ℕ) (eventId : String) (event : NewEvent) : Option World :=
  match w.log.insert sameId txn
    ⟨eventId, event.contractId, w.nextSeq, event.eventType, event.payload⟩ with
  | .log log => some { w with log := log, nextSeq := w.nextSeq + 1 }
  | .waits => none
  | .violation => none

/-- The next statement of a transaction; none while it waits. -/
def statement (lower : String → String) (w : World) (txn : ℕ) (choice : Choice) :
    Txn → Option World
  | .reading targets (ref :: left) =>
      if choice.contractIds.Perm (affectedContractIds lower w.dependencies ref) then
        some (w.goes txn (.reading (targets ++ choice.contractIds.map (⟨·, ref⟩)) left))
      else none
  | .reading [] [] => some (w.goes txn (.returned [] 0))
  | .reading targets [] => some (w.goes txn (.locking targets))
  | .locking targets => (lockCheckpoint w txn).map (·.goes txn (.testing [] targets 0))
  | .testing done (target :: left) appended =>
      let epoch := lastReclear (w.log.visible txn) target.contractId
      some (w.goes txn (.comparing done target left appended epoch))
  | .testing done [] appended => some (w.goes txn (.returned done appended))
  | .comparing done target left appended epoch =>
      if alreadyInvalidated (w.log.visible txn) target epoch then
        some (w.goes txn (.testing (done ++ [target]) left appended))
      else some (w.goes txn (.inserting done target left appended))
  | .inserting done target left appended =>
      (insertEvent w txn choice.eventId target.event).map
        (·.goes txn (.testing (done ++ [target]) left (appended + 1)))
  | .waiting events => (lockCheckpoint w txn).map (·.goes txn (.appending events))
  | .appending (event :: events) =>
      (insertEvent w txn choice.eventId event).map (·.goes txn (.appending events))
  | .appending [] => none
  | .returned _ _ => none

/-- The transaction has no statement left. -/
def Txn.finished : Txn → Bool
  | .returned .. => true
  | .appending [] => true
  | _ => false

/-- A transaction is over: its lock is free. -/
def World.ends (w : World) (txn : ℕ) (log : AppendLog ValidationEvent) : World :=
  { w with
    log := log
    lock := w.lock.filter fun holder => holder ≠ txn
    txns := Function.update w.txns txn none }

def step (lower : String → String) (w : World) : Action → Option World
  | .depend rows => some { w with dependencies := w.dependencies ++ rows }
  | .invalidate txn changed =>
      if (w.txns txn).isNone then some (w.goes txn (.reading [] changed)) else none
  | .append txn events =>
      if (w.txns txn).isNone ∧ ∀ e ∈ events, e.eventType ≠ .invalidated then
        some (w.goes txn (.waiting events))
      else none
  | .statement txn choice => (w.txns txn).bind (statement lower w txn choice)
  | .commit txn =>
      if (w.txns txn).any (·.finished) then some (w.ends txn (w.log.commit txn)) else none
  | .rollback txn =>
      if (w.txns txn).isSome then some (w.ends txn (w.log.rollback txn)) else none

structure Init (w : World) : Prop where
  log : w.log = AppendLog.empty
  nextSeq : w.nextSeq = 1
  lock : w.lock = none
  txns : ∀ txn, w.txns txn = none

end FeatureGen.ContractInvalidation

namespace FeatureGen.ContractInvalidation

/-- What a payload says, an absent id being an empty one. -/
def Payload.key (payload : Payload) : Option String × List String :=
  (payload.lookup "reason",
    ["catalog_source", "object_ref", "decision_id", "fact_id"].map fun name =>
      (payload.lookup name).getD "")

/-- Two INVALIDATED events say the same of a contract. -/
structure Repeats (e e' : ValidationEvent) : Prop where
  contractId : e'.contractId = e.contractId
  first : e.eventType = .invalidated
  second : e'.eventType = .invalidated
  key : e'.payload.key = e.payload.key

/-- Events in the order of their seqs; where two say the same, their contract is
    re-cleared between them. -/
def OneEach (log : List ValidationEvent) : Prop :=
  log.Pairwise fun e e' => e.seq < e'.seq ∧ (Repeats e e' →
    ∃ c ∈ log, c.contractId = e.contractId ∧ c.eventType.reclears = true ∧
      e.seq < c.seq ∧ c.seq < e'.seq)

/-- An event says of a contract what a ref says, later than its last re-clearing event. -/
def Covered (log : List ValidationEvent) (target : Target) : Prop :=
  ∃ e ∈ log, e.contractId = target.contractId ∧ e.eventType = .invalidated ∧
    e.payload.key = target.ref.payload.key ∧ lastReclear log target.contractId < e.seq

theorem named_iff {ref : ChangedRef} {payload : Payload} :
    ref.named payload = true ↔ payload.key = ref.payload.key := by
  obtain ⟨catalogSource, reason, objectRef, decisionId, factId⟩ := ref
  cases objectRef <;> cases decisionId <;> cases factId <;>
    simp [ChangedRef.named, ChangedRef.payload, Payload.key, List.lookup]

theorem exists_of_le_lastReclear {log : List ValidationEvent} {contractId : String} {n : ℕ}
    (positive : 0 < n) (h : n ≤ lastReclear log contractId) :
    ∃ c ∈ log, c.contractId = contractId ∧ c.eventType.reclears = true ∧ n ≤ c.seq := by
  have reached : ∀ seqs : List ℕ, n ≤ seqs.foldr max 0 → ∃ s ∈ seqs, n ≤ s := by
    intro seqs
    induction seqs with
    | nil =>
        intro hn
        simp only [List.foldr_nil] at hn
        omega
    | cons s seqs ih =>
        intro hn
        rcases le_max_iff.mp hn with first | later
        · exact ⟨s, List.mem_cons_self, first⟩
        · obtain ⟨s', hs', hle⟩ := ih later
          exact ⟨s', List.mem_cons_of_mem _ hs', hle⟩
  obtain ⟨s, hs, hle⟩ := reached _ h
  obtain ⟨c, hc, rfl⟩ := List.mem_map.mp hs
  obtain ⟨member, kept⟩ := List.mem_filter.mp hc
  obtain ⟨contract, reclears⟩ := of_decide_eq_true kept
  exact ⟨c, member, contract, reclears, hle⟩

theorem lastReclear_append_of_not {log : List ValidationEvent} {e : ValidationEvent}
    {contractId : String} (h : e.eventType.reclears = false) :
    lastReclear (log ++ [e]) contractId = lastReclear log contractId := by
  simp [lastReclear, List.filter_append, h]

theorem alreadyInvalidated_iff {log : List ValidationEvent} {target : Target} :
    alreadyInvalidated log target (lastReclear log target.contractId) = true ↔
      Covered log target := by
  unfold alreadyInvalidated Covered
  rw [List.any_eq_true]
  constructor
  · intro ⟨e, he, h⟩
    obtain ⟨contract, invalidated, later, named⟩ := of_decide_eq_true h
    exact ⟨e, he, contract, invalidated, named_iff.mp named, later⟩
  · intro ⟨e, he, contract, invalidated, key, later⟩
    exact ⟨e, he, decide_eq_true ⟨contract, invalidated, later, named_iff.mpr key⟩⟩

theorem OneEach.sorted {log : List ValidationEvent} (h : OneEach log) :
    log.Pairwise fun e e' => e.seq < e'.seq := h.imp fun both => both.1

theorem OneEach.eq_of_seq {log : List ValidationEvent} (h : OneEach log) {e e' : ValidationEvent}
    (he : e ∈ log) (he' : e' ∈ log) (same : e.seq = e'.seq) : e = e' := by
  by_contra differ
  have apart : log.Pairwise fun a b => a.seq ≠ b.seq := h.sorted.imp fun lt => lt.ne
  have symmetric : Std.Symm fun a b : ValidationEvent => a.seq ≠ b.seq := ⟨fun _ _ ne => ne.symm⟩
  exact apart.forall he he' differ same

theorem OneEach.left {log more : List ValidationEvent} (h : OneEach (log ++ more)) :
    OneEach log := by
  have order := List.pairwise_append.mp h.sorted
  apply (List.pairwise_append.mp h).1.imp_of_mem
  intro e e' he he' both
  refine ⟨both.1, fun repeats => ?_⟩
  obtain ⟨c, hc, contract, reclears, after, before⟩ := both.2 repeats
  refine ⟨c, ?_, contract, reclears, after, before⟩
  rcases List.mem_append.mp hc with kept | dropped
  · exact kept
  · have := order.2.2 e' he' c dropped
    omega

theorem OneEach.append {log : List ValidationEvent} (h : OneEach log) {e : ValidationEvent}
    (positive : ∀ e' ∈ log, 0 < e'.seq) (last : ∀ e' ∈ log, e'.seq < e.seq)
    (fresh : ∀ e' ∈ log, Repeats e' e → e'.seq ≤ lastReclear log e'.contractId) :
    OneEach (log ++ [e]) := by
  have kept : log.Pairwise fun a b => a.seq < b.seq ∧ (Repeats a b →
      ∃ c ∈ log ++ [e], c.contractId = a.contractId ∧ c.eventType.reclears = true ∧
        a.seq < c.seq ∧ c.seq < b.seq) := by
    apply h.imp
    intro a b both
    refine ⟨both.1, fun repeats => ?_⟩
    obtain ⟨c, hc, between⟩ := both.2 repeats
    exact ⟨c, List.mem_append_left _ hc, between⟩
  apply List.pairwise_append.mpr ⟨kept, List.pairwise_singleton _ _, ?_⟩
  intro e' he' new hnew
  obtain rfl := List.mem_singleton.mp hnew
  refine ⟨last e' he', fun repeats => ?_⟩
  obtain ⟨c, hc, contract, reclears, le⟩ :=
    exists_of_le_lastReclear (positive e' he') (fresh e' he' repeats)
  have differ : e'.seq ≠ c.seq := by
    intro same
    obtain rfl := h.eq_of_seq he' hc same
    rw [repeats.first] at reclears
    cases reclears
  exact ⟨c, List.mem_append_left _ hc, contract, reclears, lt_of_le_of_ne le differ, last c hc⟩

theorem Covered.append {log : List ValidationEvent} {target : Target} (h : Covered log target)
    {e : ValidationEvent} (invalidated : e.eventType = .invalidated) :
    Covered (log ++ [e]) target := by
  obtain ⟨e', he', contract, kind, key, later⟩ := h
  refine ⟨e', List.mem_append_left _ he', contract, kind, key, ?_⟩
  rw [lastReclear_append_of_not (by rw [invalidated]; rfl)]
  exact later

def World.writes (w : World) (txn : ℕ) (e : ValidationEvent) : World :=
  { w with
    log := ⟨w.log.committed, w.log.drafts ++ [(txn, e)]⟩
    nextSeq := w.nextSeq + 1 }

/-- The next statement of a transaction, and the world after it. -/
inductive Runs (lower : String → String) (w : World) (txn : ℕ) : Txn → World → Prop
  | read {targets : List Target} {ref : ChangedRef} {left : List ChangedRef}
      {contractIds : List String}
      (affected : contractIds.Perm (affectedContractIds lower w.dependencies ref)) :
      Runs lower w txn (.reading targets (ref :: left))
        (w.goes txn (.reading (targets ++ contractIds.map (⟨·, ref⟩)) left))
  | untouched : Runs lower w txn (.reading [] []) (w.goes txn (.returned [] 0))
  | gathered {targets} :
      Runs lower w txn (.reading targets []) (w.goes txn (.locking targets))
  | locked {targets} (free : ∀ holder ∈ w.lock, holder = txn) :
      Runs lower w txn (.locking targets)
        ({ w with lock := some txn }.goes txn (.testing [] targets 0))
  | epoch {done target left appended} :
      Runs lower w txn (.testing done (target :: left) appended)
        (w.goes txn (.comparing done target left appended
          (lastReclear (w.log.visible txn) target.contractId)))
  | tested {done appended} :
      Runs lower w txn (.testing done [] appended) (w.goes txn (.returned done appended))
  | found {done target left appended epoch}
      (already : alreadyInvalidated (w.log.visible txn) target epoch = true) :
      Runs lower w txn (.comparing done target left appended epoch)
        (w.goes txn (.testing (done ++ [target]) left appended))
  | missing {done target left appended epoch}
      (fresh : alreadyInvalidated (w.log.visible txn) target epoch = false) :
      Runs lower w txn (.comparing done target left appended epoch)
        (w.goes txn (.inserting done target left appended))
  | inserted {done target left appended eventId} :
      Runs lower w txn (.inserting done target left appended)
        ((w.writes txn ⟨eventId, target.contractId, w.nextSeq, .invalidated,
          target.ref.payload⟩).goes txn (.testing (done ++ [target]) left (appended + 1)))
  | waited {events} (free : ∀ holder ∈ w.lock, holder = txn) :
      Runs lower w txn (.waiting events) ({ w with lock := some txn }.goes txn (.appending events))
  | wrote {event events eventId} :
      Runs lower w txn (.appending (event :: events))
        ((w.writes txn ⟨eventId, event.contractId, w.nextSeq, event.eventType,
          event.payload⟩).goes txn (.appending events))

theorem lockCheckpoint_eq_some {w w' : World} {txn : ℕ} (h : lockCheckpoint w txn = some w') :
    (∀ holder ∈ w.lock, holder = txn) ∧ w' = { w with lock := some txn } := by
  unfold lockCheckpoint at h
  split at h
  · rename_i free
    exact ⟨free, (Option.some.inj h).symm⟩
  · cases h

theorem insertEvent_eq_some {w w' : World} {txn : ℕ} {eventId : String} {event : NewEvent}
    (h : insertEvent w txn eventId event = some w') :
    w' = w.writes txn
      ⟨eventId, event.contractId, w.nextSeq, event.eventType, event.payload⟩ := by
  unfold insertEvent at h
  split at h
  · rename_i log inserted
    obtain ⟨-, -, rfl⟩ := AppendLog.insert_eq_log inserted
    exact (Option.some.inj h).symm
  · cases h
  · cases h

theorem statement_cases {lower : String → String} {w w' : World} {txn : ℕ} {choice : Choice}
    {t : Txn} (h : statement lower w txn choice t = some w') : Runs lower w txn t w' := by
  cases t with
  | reading targets left =>
      cases left with
      | cons ref left =>
          simp only [statement] at h
          split at h
          · rename_i affected
            obtain rfl := Option.some.inj h
            exact .read affected
          · cases h
      | nil =>
          cases targets with
          | nil =>
              obtain rfl := Option.some.inj h
              exact .untouched
          | cons target targets =>
              obtain rfl := Option.some.inj h
              exact .gathered
  | locking targets =>
      obtain ⟨v, hlock, rfl⟩ := Option.map_eq_some_iff.mp h
      obtain ⟨free, rfl⟩ := lockCheckpoint_eq_some hlock
      exact .locked free
  | testing done left appended =>
      cases left with
      | nil =>
          obtain rfl := Option.some.inj h
          exact .tested
      | cons target left =>
          obtain rfl := Option.some.inj h
          exact .epoch
  | comparing done target left appended epoch =>
      simp only [statement] at h
      split at h
      · rename_i already
        obtain rfl := Option.some.inj h
        exact .found already
      · rename_i fresh
        obtain rfl := Option.some.inj h
        exact .missing (Bool.not_eq_true _ ▸ fresh)
  | inserting done target left appended =>
      obtain ⟨v, hinsert, rfl⟩ := Option.map_eq_some_iff.mp h
      obtain rfl := insertEvent_eq_some hinsert
      exact .inserted
  | returned targets appended => cases h
  | waiting events =>
      obtain ⟨v, hlock, rfl⟩ := Option.map_eq_some_iff.mp h
      obtain ⟨free, rfl⟩ := lockCheckpoint_eq_some hlock
      exact .waited free
  | appending events =>
      cases events with
      | nil => cases h
      | cons event events =>
          obtain ⟨v, hinsert, rfl⟩ := Option.map_eq_some_iff.mp h
          obtain rfl := insertEvent_eq_some hinsert
          exact .wrote

abbrev EventLog := AppendLog ValidationEvent

structure Holding (log : EventLog) (lock : Option ℕ) (txn : ℕ) (done : List Target)
    (appended : ℕ) : Prop where
  lock : lock = some txn
  count : (log.own txn).length = appended
  covered : ∀ target ∈ done, Covered (log.visible txn) target

/-- What a transaction knows at each point. -/
def Sound (log : EventLog) (lock : Option ℕ) (txn : ℕ) : Txn → Prop
  | .reading .. | .locking _ => log.own txn = []
  | .testing done _ appended => Holding log lock txn done appended
  | .comparing done target _ appended epoch =>
      Holding log lock txn done appended ∧
        epoch = lastReclear (log.visible txn) target.contractId
  | .inserting done target _ appended =>
      Holding log lock txn done appended ∧ ¬ Covered (log.visible txn) target
  | .returned targets appended =>
      Holding log lock txn targets appended ∨ log.own txn = [] ∧ targets = [] ∧ appended = 0
  | .waiting events => log.own txn = [] ∧ ∀ e ∈ events, e.eventType ≠ .invalidated
  | .appending events => lock = some txn ∧ ∀ e ∈ events, e.eventType ≠ .invalidated

structure EpochInv (w : World) : Prop where
  next : 0 < w.nextSeq
  held : w.log.Held w.lock
  numbered : ∀ e ∈ w.log.written, 0 < e.seq ∧ e.seq < w.nextSeq
  one : OneEach w.log.written
  idle : ∀ txn, w.txns txn = none → w.log.own txn = []
  sound : ∀ txn t, w.txns txn = some t → Sound w.log w.lock txn t

variable {w w' : World} {txn other : ℕ} {t : Txn} {log log' : EventLog} {lock lock' : Option ℕ}

theorem Sound.frame (h : Sound log lock other t) (own : log'.own other = log.own other)
    (held : lock = some other → lock' = some other ∧ log'.committed = log.committed) :
    Sound log' lock' other t := by
  have holding (done : List Target) (appended : ℕ) (h : Holding log lock other done appended) :
      Holding log' lock' other done appended ∧ log'.visible other = log.visible other := by
    obtain ⟨lock', committed⟩ := held h.lock
    have visible : log'.visible other = log.visible other := by
      rw [AppendLog.visible, AppendLog.visible, own, committed]
    exact ⟨⟨lock', own ▸ h.count, visible ▸ h.covered⟩, visible⟩
  cases t with
  | reading targets left => exact own.trans h
  | locking targets => exact own.trans h
  | testing done left appended => exact (holding _ _ h).1
  | comparing done target left appended epoch =>
      obtain ⟨kept, visible⟩ := holding _ _ h.1
      exact ⟨kept, by rw [visible]; exact h.2⟩
  | inserting done target left appended =>
      obtain ⟨kept, visible⟩ := holding _ _ h.1
      exact ⟨kept, by rw [visible]; exact h.2⟩
  | returned targets appended =>
      cases h with
      | inl h => exact Or.inl (holding _ _ h).1
      | inr h => exact Or.inr ⟨own.trans h.1, h.2⟩
  | waiting events => exact ⟨own.trans h.1, h.2⟩
  | appending events => exact ⟨(held h.1).1, h.2⟩

theorem EpochInv.goes (inv : EpochInv w) (w' : World) (same : w'.txns = w.txns)
    (next : 0 < w'.nextSeq) (held : w'.log.Held w'.lock)
    (numbered : ∀ e ∈ w'.log.written, 0 < e.seq ∧ e.seq < w'.nextSeq)
    (one : OneEach w'.log.written)
    (others : ∀ other ≠ txn, w'.log.own other = w.log.own other)
    (kept : w'.log.committed = w.log.committed)
    (locks : ∀ other ≠ txn, w.lock = some other → w'.lock = some other)
    (knows : Sound w'.log w'.lock txn t) : EpochInv (w'.goes txn t) := by
  refine ⟨next, held, numbered, one, ?_, ?_⟩
  · intro txn' hnone
    by_cases self : txn' = txn
    · subst self
      simp [World.goes] at hnone
    · simp only [World.goes, Function.update_of_ne self] at hnone
      exact (others txn' self).trans (inv.idle txn' (same ▸ hnone))
  · intro txn' t' hsome
    by_cases self : txn' = txn
    · subst self
      obtain rfl : t = t' := by simpa [World.goes] using hsome
      exact knows
    · simp only [World.goes, Function.update_of_ne self] at hsome
      exact (inv.sound txn' t' (same ▸ hsome)).frame (others txn' self) fun holds =>
        ⟨locks txn' self holds, kept⟩

theorem EpochInv.quiet (inv : EpochInv w) (knows : Sound w.log w.lock txn t) :
    EpochInv (w.goes txn t) :=
  inv.goes w rfl inv.next inv.held inv.numbered inv.one (fun _ _ => rfl) rfl (fun _ _ h => h) knows

theorem EpochInv.locked (inv : EpochInv w) (free : ∀ holder ∈ w.lock, holder = txn)
    (knows : Sound w.log (some txn) txn t) :
    EpochInv ({ w with lock := some txn }.goes txn t) := by
  have held : w.log.Held (some txn) := by
    intro d hd
    exact congrArg some (free d.1 (inv.held d hd)).symm
  apply inv.goes { w with lock := some txn } rfl inv.next held inv.numbered inv.one
    (fun _ _ => rfl) rfl _ knows
  intro other ne holds
  exact absurd (free other holds) ne

theorem written_writes {e : ValidationEvent} :
    (w.writes txn e).log.written = w.log.written ++ [e] := AppendLog.written_insert

theorem EpochInv.writes (inv : EpochInv w) (holds : w.lock = some txn) {e : ValidationEvent}
    (seq : e.seq = w.nextSeq)
    (fresh : ∀ e' ∈ w.log.written, Repeats e' e →
      e'.seq ≤ lastReclear w.log.written e'.contractId)
    (knows : Sound (w.writes txn e).log w.lock txn t) :
    EpochInv ((w.writes txn e).goes txn t) := by
  apply inv.goes (w.writes txn e) rfl (Nat.succ_pos _) _ _ _ _ rfl (fun _ _ h => h) knows
  · have free : ∀ holder ∈ w.lock, holder = txn := by
      rw [holds]
      intro holder same
      exact (Option.some.inj same).symm
    have held := AppendLog.Held.insert (r := e) free inv.held
    simpa only [World.writes, holds] using held
  · intro e' he'
    rw [written_writes] at he'
    simp only [World.writes]
    rcases List.mem_append.mp he' with old | new
    · have := inv.numbered e' old
      omega
    · obtain rfl := List.mem_singleton.mp new
      have := inv.next
      omega
  · rw [written_writes]
    refine inv.one.append (fun e' he' => (inv.numbered e' he').1) (fun e' he' => ?_) fresh
    rw [seq]
    exact (inv.numbered e' he').2
  · intro other ne
    exact AppendLog.own_insert_ne ne

theorem Holding.writes {done : List Target} {target : Target} {appended : ℕ} {e : ValidationEvent}
    (inv : EpochInv w) (h : Holding w.log w.lock txn done appended) (seq : e.seq = w.nextSeq)
    (contract : e.contractId = target.contractId) (invalidated : e.eventType = .invalidated)
    (payload : e.payload = target.ref.payload) :
    Holding (w.writes txn e).log w.lock txn (done ++ [target]) (appended + 1) := by
  have own : (w.writes txn e).log.own txn = w.log.own txn ++ [e] := AppendLog.own_insert_self
  have visible : (w.writes txn e).log.visible txn = w.log.visible txn ++ [e] := by
    rw [AppendLog.visible, own, AppendLog.visible, List.append_assoc]
    rfl
  refine ⟨h.lock, ?_, ?_⟩
  · rw [own, List.length_append, h.count]
    rfl
  · intro target' htarget
    rw [visible]
    rcases List.mem_append.mp htarget with before | this
    · exact (h.covered target' before).append invalidated
    · obtain rfl := List.mem_singleton.mp this
      refine ⟨e, by simp, contract, invalidated, by rw [payload], ?_⟩
      rw [lastReclear_append_of_not (by rw [invalidated]; rfl)]
      rw [inv.held.visible h.lock]
      by_contra! le
      have positive : 0 < e.seq := seq ▸ inv.next
      obtain ⟨c, hc, -, -, above⟩ := exists_of_le_lastReclear positive le
      have := (inv.numbered c hc).2
      omega

theorem EpochInv.statement {lower : String → String} (inv : EpochInv w)
    (current : w.txns txn = some t) (h : Runs lower w txn t w') : EpochInv w' := by
  have sound := inv.sound txn t current
  cases h with
  | read affected => exact inv.quiet sound
  | untouched => exact inv.quiet (Or.inr ⟨sound, rfl, rfl⟩)
  | gathered => exact inv.quiet sound
  | locked free =>
      have nothing : (w.log.own txn).length = 0 := by rw [show w.log.own txn = [] from sound]; rfl
      exact inv.locked free ⟨rfl, nothing, fun target hmem => absurd hmem List.not_mem_nil⟩
  | epoch => exact inv.quiet ⟨sound, rfl⟩
  | tested => exact inv.quiet (Or.inl sound)
  | @found done target left appended epoch already =>
      obtain ⟨holding, rfl⟩ := sound
      refine inv.quiet ⟨holding.lock, holding.count, fun target' hmem => ?_⟩
      rcases List.mem_append.mp hmem with before | this
      · exact holding.covered target' before
      · obtain rfl := List.mem_singleton.mp this
        exact alreadyInvalidated_iff.mp already
  | @missing done target left appended epoch fresh =>
      obtain ⟨holding, rfl⟩ := sound
      refine inv.quiet ⟨holding, fun covered => ?_⟩
      rw [alreadyInvalidated_iff.mpr covered] at fresh
      cases fresh
  | @inserted done target left appended eventId =>
      obtain ⟨holding, fresh⟩ := sound
      refine inv.writes holding.lock rfl ?_ (holding.writes inv rfl rfl rfl rfl)
      intro e' he' repeats
      rw [inv.held.visible holding.lock] at fresh
      by_contra! later
      have contract : e'.contractId = target.contractId := repeats.contractId.symm
      exact fresh ⟨e', he', contract, repeats.first, repeats.key.symm, contract ▸ later⟩
  | waited free => exact inv.locked free ⟨rfl, sound.2⟩
  | @wrote event events eventId =>
      have other := sound.2 event List.mem_cons_self
      refine inv.writes sound.1 rfl (fun e' _ repeats => absurd repeats.second other) ?_
      exact ⟨sound.1, fun e he => sound.2 e (List.mem_cons_of_mem _ he)⟩

theorem EpochInv.ends (inv : EpochInv w) (log : EventLog)
    (kept : ∀ e ∈ log.written, e ∈ w.log.written) (one : OneEach log.written)
    (gone : log.own txn = []) (others : ∀ other ≠ txn, log.own other = w.log.own other)
    (drafts : log.drafts = w.log.drafts.filter fun d => d.1 ≠ txn)
    (committed : w.lock ≠ some txn → log.committed = w.log.committed) :
    EpochInv (w.ends txn log) := by
  refine ⟨inv.next, ?_, fun e he => inv.numbered e (kept e he), one, ?_, ?_⟩
  · intro d hd
    simp only [World.ends, drafts] at hd ⊢
    obtain ⟨old, other⟩ := List.mem_filter.mp hd
    rw [inv.held d old]
    simpa using of_decide_eq_true other
  · intro txn' hnone
    by_cases self : txn' = txn
    · subst self
      exact gone
    · simp only [World.ends, Function.update_of_ne self] at hnone
      exact (others txn' self).trans (inv.idle txn' hnone)
  · intro txn' t' hsome
    by_cases self : txn' = txn
    · subst self
      simp [World.ends] at hsome
    · simp only [World.ends, Function.update_of_ne self] at hsome
      apply (inv.sound txn' t' hsome).frame (others txn' self)
      intro holds
      constructor
      · simpa [World.ends, holds] using self
      · apply committed
        rw [holds]
        exact fun same => self (Option.some.inj same)

theorem EpochInv.commit (inv : EpochInv w) : EpochInv (w.ends txn (w.log.commit txn)) := by
  have same : (w.log.commit txn).written = w.log.written := inv.held.written_commit
  apply inv.ends _ (fun e he => same ▸ he) (same ▸ inv.one) AppendLog.own_commit_self
    (fun other ne => AppendLog.own_commit_ne ne) rfl
  intro holds
  rw [AppendLog.commit_of_own (inv.held.own holds)]

theorem EpochInv.rollback (inv : EpochInv w) : EpochInv (w.ends txn (w.log.rollback txn)) := by
  have kept : (w.log.rollback txn).written <+: w.log.written := inv.held.written_rollback
  refine inv.ends _ (fun e he => kept.subset he) ?_ AppendLog.own_rollback_self
    (fun other ne => AppendLog.own_rollback_ne ne) rfl (fun _ => rfl)
  obtain ⟨more, hmore⟩ := kept
  have one := inv.one
  rw [← hmore] at one
  exact one.left

theorem EpochInv.step {lower : String → String} {a : Action} (inv : EpochInv w)
    (h : step lower w a = some w') : EpochInv w' := by
  cases a with
  | depend rows =>
      obtain rfl := Option.some.inj h
      exact ⟨inv.next, inv.held, inv.numbered, inv.one, inv.idle, inv.sound⟩
  | invalidate txn changed =>
      simp only [ContractInvalidation.step] at h
      split at h
      · rename_i fresh
        obtain rfl := Option.some.inj h
        have none := Option.isNone_iff_eq_none.mp fresh
        exact inv.quiet (inv.idle txn none)
      · cases h
  | append txn events =>
      simp only [ContractInvalidation.step] at h
      split at h
      · rename_i fresh
        obtain rfl := Option.some.inj h
        have none := Option.isNone_iff_eq_none.mp fresh.1
        exact inv.quiet ⟨inv.idle txn none, fresh.2⟩
      · cases h
  | statement txn choice =>
      obtain ⟨t, current, hstatement⟩ := Option.bind_eq_some_iff.mp h
      exact inv.statement current (statement_cases hstatement)
  | commit txn =>
      simp only [ContractInvalidation.step] at h
      split at h
      · obtain rfl := Option.some.inj h
        exact inv.commit
      · cases h
  | rollback txn =>
      simp only [ContractInvalidation.step] at h
      split at h
      · obtain rfl := Option.some.inj h
        exact inv.rollback
      · cases h

theorem EpochInv.init {w : World} (start : Init w) : EpochInv w := by
  have log := start.log
  refine ⟨?_, ?_, ?_, ?_, ?_, ?_⟩
  · rw [start.nextSeq]
    exact Nat.one_pos
  · rw [log]
    exact fun d hd => absurd hd List.not_mem_nil
  · rw [log]
    exact fun e he => absurd he List.not_mem_nil
  · rw [log]
    exact List.Pairwise.nil
  · intro txn _
    rw [log]
    rfl
  · intro txn t hsome
    rw [start.txns txn] at hsome
    cases hsome

end FeatureGen.ContractInvalidation
