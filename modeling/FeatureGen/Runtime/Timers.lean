import FeatureGen.Lib.Json
import FeatureGen.Runtime.Queue

/-! # Durable timers

`runtime/timers.py` over the `timers` table. A timer is scheduled under an
idempotency key, leased by a poller once it is due, and fired: its one effect is
a queue message under the same key. A timer stamped with the version of a gate
task is void once the task is no longer open at that version.
-/

namespace FeatureGen.Runtime

abbrev JsonObject := List (String × Json)

/-- `{**stored, **base}`. -/
def JsonObject.mergedUnder (stored base : JsonObject) : JsonObject :=
  (stored.filter fun member => !base.any fun member' => member'.1 == member.1) ++ base

inductive TimerKind where
  | sla
  | reminder
  | escalation
  | autoPark
  | experimentExpiry
  | businessRepair
  | costBreaker
  | overlayExpiry
  deriving DecidableEq

def TimerKind.text : TimerKind → String
  | .sla => "sla"
  | .reminder => "reminder"
  | .escalation => "escalation"
  | .autoPark => "auto_park"
  | .experimentExpiry => "experiment_expiry"
  | .businessRepair => "business_repair"
  | .costBreaker => "cost_breaker"
  | .overlayExpiry => "overlay_expiry"

inductive TimerStatus where
  | scheduled
  | leased
  | fired
  | cancelled
  deriving DecidableEq

/-- Nothing more happens to a fired or cancelled timer. -/
def TimerStatus.final : TimerStatus → Bool
  | .fired | .cancelled => true
  | .scheduled | .leased => false

/-- A row of `timers`. -/
structure Timer where
  timerId : String
  idempotencyKey : String
  aggregate : String
  aggregateId : String
  taskId : Option String
  kind : TimerKind
  fireAt : Instant
  businessCalendar : Option String
  status : TimerStatus
  leaseOwner : Option String
  leaseExpiresAt : Option Instant
  casTaskVersion : Option ℤ
  payload : JsonObject

structure NewTimer where
  kind : TimerKind
  fireAt : Instant
  idempotencyKey : String
  taskId : Option String
  businessCalendar : Option String
  casTaskVersion : Option ℤ
  payload : JsonObject

def NewTimer.row (timer : NewTimer) (timerId aggregate aggregateId : String) : Timer where
  timerId := timerId
  idempotencyKey := timer.idempotencyKey
  aggregate := aggregate
  aggregateId := aggregateId
  taskId := timer.taskId
  kind := timer.kind
  fireAt := timer.fireAt
  businessCalendar := timer.businessCalendar
  status := .scheduled
  leaseOwner := none
  leaseExpiresAt := none
  casTaskVersion := timer.casTaskVersion
  payload := timer.payload

def Timer.withStatus (status : TimerStatus) (r : Timer) : Timer := { r with status := status }

def Timer.leasedBy (owner : String) (leaseExpiresAt : Instant) (r : Timer) : Timer :=
  { r with status := .leased, leaseOwner := some owner, leaseExpiresAt := some leaseExpiresAt }

theorem Timer.leasedBy_keys (owner : String) (leaseExpiresAt : Instant) (r : Timer) :
    (r.leasedBy owner leaseExpiresAt).timerId = r.timerId ∧
      (r.leasedBy owner leaseExpiresAt).idempotencyKey = r.idempotencyKey := ⟨rfl, rfl⟩

def Timer.guards (r : Timer) (taskId : String) (version : ℤ) : Prop :=
  r.taskId = some taskId ∧ r.casTaskVersion = some version

/-- The table: timer ids are its primary key and idempotency keys are unique. -/
structure Timers where
  rows : Table Timer.timerId
  keys_nodup : (rows.rows.map Timer.idempotencyKey).Nodup

namespace Timers

instance : Membership Timer Timers := ⟨fun t r => r ∈ t.rows⟩

theorem mem_rows {t : Timers} {r : Timer} : r ∈ t.rows ↔ r ∈ t := Iff.rfl

def empty : Timers := ⟨Table.empty, List.nodup_nil⟩

def get? (t : Timers) (timerId : String) : Option Timer := t.rows.get? timerId

def find? (t : Timers) (idempotencyKey : String) : Option Timer :=
  t.rows.rows.find? fun r => r.idempotencyKey = idempotencyKey

theorem find?_eq_some {t : Timers} {idempotencyKey : String} {r : Timer} :
    t.find? idempotencyKey = some r ↔ r ∈ t ∧ r.idempotencyKey = idempotencyKey :=
  find?_key_eq_some t.keys_nodup

theorem find?_eq_none {t : Timers} {idempotencyKey : String} :
    t.find? idempotencyKey = none ↔ ∀ r ∈ t, r.idempotencyKey ≠ idempotencyKey := by
  simp only [find?, List.find?_eq_none, decide_eq_true_eq]
  rfl

/-- `UPDATE timers SET f WHERE p`, for an `f` that leaves both keys alone. -/
def updateWhere (t : Timers) (p : Timer → Bool) (f : Timer → Timer)
    (hf : ∀ r, (f r).timerId = r.timerId ∧ (f r).idempotencyKey = r.idempotencyKey) : Timers where
  rows := t.rows.updateWhere p f fun r => (hf r).1
  keys_nodup := by
    have hkeys : (t.rows.rows.map fun r => if p r then f r else r).map Timer.idempotencyKey =
        t.rows.rows.map Timer.idempotencyKey := by
      rw [List.map_map]
      refine List.map_congr_left fun r _ => ?_
      by_cases hp : p r <;> simp [hp, (hf r).2]
    exact hkeys ▸ t.keys_nodup

theorem mem_updateWhere {t : Timers} {p : Timer → Bool} {f : Timer → Timer}
    {hf : ∀ r, (f r).timerId = r.timerId ∧ (f r).idempotencyKey = r.idempotencyKey} {x : Timer} :
    x ∈ t.updateWhere p f hf ↔ ∃ y ∈ t, x = if p y then f y else y :=
  @Table.mem_updateWhere _ _ _ t.rows p f (fun r => (hf r).1) x

/-- `UPDATE timers SET status WHERE p`. -/
def setStatus (t : Timers) (p : Timer → Bool) (status : TimerStatus) : Timers :=
  t.updateWhere p (Timer.withStatus status) fun _ => ⟨rfl, rfl⟩

theorem mem_setStatus {t : Timers} {p : Timer → Bool} {status : TimerStatus} {x : Timer} :
    x ∈ t.setStatus p status ↔ ∃ y ∈ t, x = if p y then y.withStatus status else y :=
  mem_updateWhere

/-- `INSERT`: none on a unique violation. -/
def insert? (t : Timers) (r : Timer) : Option Timers :=
  if h : r.idempotencyKey ∈ t.rows.rows.map Timer.idempotencyKey then none
  else
    match hins : t.rows.insert? r with
    | none => none
    | some rows => some ⟨rows, by
        rw [(Table.rows_of_insert? hins).1, List.map_append, List.nodup_append]
        refine ⟨t.keys_nodup, List.nodup_singleton _, ?_⟩
        rintro a ha b hb rfl
        rw [List.map_singleton, List.mem_singleton] at hb
        exact h (hb ▸ ha)⟩

theorem mem_insert? {t t' : Timers} {r : Timer} (h : t.insert? r = some t') :
    (∀ x, x ∈ t' ↔ x ∈ t ∨ x = r) ∧
      ∀ x ∈ t, x.timerId ≠ r.timerId ∧ x.idempotencyKey ≠ r.idempotencyKey := by
  unfold insert? at h
  split at h
  · cases h
  · next hkey =>
      split at h
      · cases h
      · next rows hins =>
          cases h
          refine ⟨fun x => Table.mem_insert? hins, fun x hx => ?_⟩
          refine ⟨(Table.rows_of_insert? hins).2 x hx, fun hxr => hkey ?_⟩
          exact hxr ▸ List.mem_map_of_mem hx

/-- `INSERT … ON CONFLICT (idempotency_key) DO NOTHING`: none if only the id is taken. -/
def insertNew (t : Timers) (r : Timer) : Option Timers :=
  match t.find? r.idempotencyKey with
  | some _ => some t
  | none => t.insert? r

theorem insertNew_some {t t' : Timers} {r : Timer} (h : t.insertNew r = some t') :
    (t' = t ∧ ∃ x ∈ t, x.idempotencyKey = r.idempotencyKey) ∨
      (t.insert? r = some t' ∧ ∀ x ∈ t, x.idempotencyKey ≠ r.idempotencyKey) := by
  unfold insertNew at h
  split at h
  · next x hx =>
      cases h
      obtain ⟨hmem, hkey⟩ := find?_eq_some.mp hx
      exact Or.inl ⟨rfl, x, hmem, hkey⟩
  · next hnone => exact Or.inr ⟨h, find?_eq_none.mp hnone⟩

end Timers

/-- `schedule_timer`, with the id it mints; returns the id of the row under the key. -/
def scheduleTimer (t : Timers) (aggregate aggregateId timerId : String) (timer : NewTimer) :
    Option (Timers × String) :=
  match t.find? timer.idempotencyKey with
  | some row => some (t, row.timerId)
  | none => (t.insert? (timer.row timerId aggregate aggregateId)).map fun t' => (t', timerId)

/-- What `poll_due_timers` may claim: due and scheduled, or with an expired lease. -/
def Timer.due (now : Instant) (r : Timer) : Bool :=
  r.kind ≠ .overlayExpiry ∧
    ((r.status = .scheduled ∧ r.fireAt ≤ now) ∨
      (r.status = .leased ∧ ∃ expires ∈ r.leaseExpiresAt, expires < now))

/-- The select of `poll_due_timers`: the first due timers that no transaction holds locked. -/
def selectDue (t : Timers) (locked : List String) (batch : ℕ) (now : Instant) : List String :=
  let due := t.rows.rows.filter fun r => r.due now ∧ r.timerId ∉ locked
  ((due.insertionSort fun r r' => r.fireAt ≤ r'.fireAt).take batch).map (·.timerId)

/-- `poll_due_timers`: the timers it leases. -/
def pollDueTimers (t : Timers) (locked : List String) (owner : String) (leaseSeconds : ℤ)
    (batch : ℕ) (now : Instant) : Timers × List String :=
  let due := selectDue t locked batch now
  let leaseUntil := now + leaseSeconds * microsPerSecond
  (t.updateWhere (fun r => r.timerId ∈ due) (Timer.leasedBy owner leaseUntil)
    (Timer.leasedBy_keys owner leaseUntil), due)

theorem mem_selectDue {t : Timers} {locked : List String} {batch : ℕ} {now : Instant} {r : Timer}
    (hr : r ∈ t) (h : r.timerId ∈ selectDue t locked batch now) :
    r.due now = true ∧ r.timerId ∉ locked := by
  obtain ⟨r', hr', hid⟩ := List.mem_map.mp h
  have hmem := (List.mem_insertionSort _).mp (List.mem_of_mem_take hr')
  obtain ⟨hin, hdue⟩ := List.mem_filter.mp hmem
  obtain rfl := Table.eq_of_key_eq hin hr hid
  simpa using hdue

theorem not_final_of_due {r : Timer} {now : Instant} (h : r.due now = true) :
    r.status.final = false := by
  simp only [Timer.due, decide_eq_true_eq] at h
  rcases h.2 with ⟨scheduled, -⟩ | ⟨leased, -⟩
  · rw [scheduled]
    rfl
  · rw [leased]
    rfl

inductive SuppressedReason where
  | alreadyFired
  | casMismatch
  | taskClosed
  | notFound
  | overlayExpiry

structure TimerFireOutcome where
  timerId : String
  fired : Bool
  suppressedReason : Option SuppressedReason

/-- The handler a timer's message is routed to: the ladder's last rung parks as
    the cost breaker does. -/
def Timer.handler (r : Timer) : String :=
  match r.kind with
  | .autoPark => "runtime.auto_park"
  | kind => s!"timer.{kind.text}"

/-- The stored payload under the reserved keys. -/
def Timer.message (r : Timer) : JsonObject :=
  r.payload.mergedUnder [("timer_id", .str r.timerId), ("kind", .str r.kind.text),
    ("task_id", Json.ofOption r.taskId)]

def defaultPriority : ℤ := 100

/-- The insert of a fired timer's message; a taken message id is left alone. -/
def enqueueFired (q : Queue JsonObject) (r : Timer) (clock : Instant) : Queue JsonObject :=
  (insertReady q r.idempotencyKey s!"{r.aggregate}:{r.aggregateId}" r.handler r.message none none
    defaultPriority clock).1

/-- Why the guard of a timer voids it; none when it may fire. -/
def Timer.guardReason (resolveTaskVersion : String → Option ℤ) (r : Timer) :
    Option SuppressedReason :=
  match r.taskId, r.casTaskVersion with
  | some taskId, some version =>
      match resolveTaskVersion taskId with
      | none => some .taskClosed
      | some current => if current ≠ version then some .casMismatch else none
  | _, _ => none

/-- `fire_timer`. `clock` is the database's `now()`. -/
def fireTimer (resolveTaskVersion : String → Option ℤ) (t : Timers) (q : Queue JsonObject)
    (timerId : String) (clock : Instant) : Timers × Queue JsonObject × TimerFireOutcome :=
  match t.get? timerId with
  | none => (t, q, ⟨timerId, false, some .notFound⟩)
  | some r =>
      if r.kind = .overlayExpiry then (t, q, ⟨timerId, false, some .overlayExpiry⟩)
      else if r.status = .fired then (t, q, ⟨timerId, false, some .alreadyFired⟩)
      else if r.status = .cancelled then (t, q, ⟨timerId, false, some .taskClosed⟩)
      else
        match r.guardReason resolveTaskVersion with
        | some reason =>
            (t.setStatus (fun r => r.timerId = timerId) .cancelled, q, ⟨timerId, false, some reason⟩)
        | none =>
            (t.setStatus (fun r => r.timerId = timerId) .fired, enqueueFired q r clock,
              ⟨timerId, true, none⟩)

def cancelTimersForTask (t : Timers) (taskId : String) : Timers :=
  t.setStatus (fun r => r.taskId = some taskId ∧ (r.status = .scheduled ∨ r.status = .leased))
    .cancelled

def cancelScheduledTimers (t : Timers) (taskId : String) : Timers :=
  t.setStatus (fun r => r.taskId = some taskId ∧ r.status = .scheduled) .cancelled

theorem guardReason_eq_none {resolveTaskVersion : String → Option ℤ} {r : Timer}
    (h : r.guardReason resolveTaskVersion = none) {taskId : String} {version : ℤ}
    (guards : r.guards taskId version) : resolveTaskVersion taskId = some version := by
  simp only [Timer.guardReason, guards.1, guards.2] at h
  split at h
  · cases h
  · next current hresolve =>
      split at h
      · cases h
      · next hsame =>
          rw [hresolve, not_not.mp hsame]

/-- What `fire_timer` does. -/
inductive FireEffect (resolveTaskVersion : String → Option ℤ) (t : Timers) (q : Queue JsonObject)
    (timerId : String) (clock : Instant) : Timers → Queue JsonObject → TimerFireOutcome → Prop where
  /-- The timer is not there, is the overlay's, or is settled. -/
  | suppressed (reason : SuppressedReason)
      (settled : ∀ r, t.get? timerId = some r → r.kind = .overlayExpiry ∨ r.status.final = true) :
      FireEffect resolveTaskVersion t q timerId clock t q ⟨timerId, false, some reason⟩
  | voided (r : Timer) (reason : SuppressedReason) (row : t.get? timerId = some r)
      (unsettled : r.status.final = false)
      (guarded : r.guardReason resolveTaskVersion = some reason) :
      FireEffect resolveTaskVersion t q timerId clock
        (t.setStatus (fun r => r.timerId = timerId) .cancelled) q ⟨timerId, false, some reason⟩
  | fired (r : Timer) (row : t.get? timerId = some r) (unsettled : r.status.final = false)
      (unguarded : r.guardReason resolveTaskVersion = none) :
      FireEffect resolveTaskVersion t q timerId clock
        (t.setStatus (fun r => r.timerId = timerId) .fired) (enqueueFired q r clock)
        ⟨timerId, true, none⟩

theorem fireTimer_effect {resolveTaskVersion : String → Option ℤ} {t : Timers}
    {q : Queue JsonObject} {timerId : String} {clock : Instant} :
    FireEffect resolveTaskVersion t q timerId clock
      (fireTimer resolveTaskVersion t q timerId clock).1
      (fireTimer resolveTaskVersion t q timerId clock).2.1
      (fireTimer resolveTaskVersion t q timerId clock).2.2 := by
  unfold fireTimer
  split
  · next hnone => exact .suppressed .notFound (by simp [hnone])
  · next r hrow =>
      split
      · next hkind => exact .suppressed .overlayExpiry (by simp [hrow, hkind])
      · split
        · next hfired => exact .suppressed .alreadyFired (by simp [hrow, hfired, TimerStatus.final])
        · split
          · next hcancelled =>
              exact .suppressed .taskClosed (by simp [hrow, hcancelled, TimerStatus.final])
          · next hfired hcancelled =>
              have unsettled : r.status.final = false := by
                cases hstatus : r.status <;> simp_all [TimerStatus.final]
              split
              · next reason hguard => exact .voided r reason hrow unsettled hguard
              · next hguard => exact .fired r hrow unsettled hguard

/-- A timer keeps all but its status and lease, and once settled these too. -/
structure Timer.Follows (r r' : Timer) : Prop where
  settled : r.status.final = true → r' = r
  same : r' = { r with
    status := r'.status, leaseOwner := r'.leaseOwner, leaseExpiresAt := r'.leaseExpiresAt }

theorem Timer.Follows.refl (r : Timer) : r.Follows r := ⟨fun _ => rfl, rfl⟩

theorem Timer.Follows.trans {r r' r'' : Timer} (h : r.Follows r') (h' : r'.Follows r'') :
    r.Follows r'' := by
  constructor
  · intro final
    obtain rfl := h.settled final
    exact h'.settled final
  · rw [h'.same, h.same]

theorem Timer.Follows.timerId {r r' : Timer} (h : r.Follows r') : r'.timerId = r.timerId := by
  rw [h.same]

theorem Timer.Follows.withStatus {r : Timer} (unsettled : r.status.final = false)
    (status : TimerStatus) : r.Follows (r.withStatus status) := by
  constructor
  · intro final
    rw [unsettled] at final
    cases final
  · rfl

/-- No timer disappears, and each can have become what it is. -/
def Timers.Follow (t t' : Timers) : Prop := ∀ r ∈ t, ∃ r' ∈ t', r.Follows r'

namespace Timers

theorem Follow.refl (t : Timers) : t.Follow t := fun r hr => ⟨r, hr, .refl r⟩

theorem Follow.trans {t t' t'' : Timers} (h : t.Follow t') (h' : t'.Follow t'') : t.Follow t'' := by
  intro r hr
  obtain ⟨r', hr', follows⟩ := h r hr
  obtain ⟨r'', hr'', follows'⟩ := h' r' hr'
  exact ⟨r'', hr'', follows.trans follows'⟩

theorem follow_updateWhere {t : Timers} {p : Timer → Bool} {f : Timer → Timer}
    {hf : ∀ r, (f r).timerId = r.timerId ∧ (f r).idempotencyKey = r.idempotencyKey}
    (follows : ∀ r ∈ t, p r = true → r.Follows (f r)) : t.Follow (t.updateWhere p f hf) := by
  intro r hr
  refine ⟨_, mem_updateWhere.mpr ⟨r, hr, rfl⟩, ?_⟩
  cases hp : p r with
  | true => simpa using follows r hr hp
  | false => simpa using Timer.Follows.refl r

theorem follow_setStatus {t : Timers} {p : Timer → Bool} (status : TimerStatus)
    (unsettled : ∀ r ∈ t, p r = true → r.status.final = false) :
    t.Follow (t.setStatus p status) :=
  follow_updateWhere fun r hr hp => .withStatus (unsettled r hr hp) status

theorem follow_insert? {t t' : Timers} {r : Timer} (h : t.insert? r = some t') : t.Follow t' :=
  fun x hx => ⟨x, ((mem_insert? h).1 x).mpr (Or.inl hx), .refl x⟩

theorem follow_insertNew {t t' : Timers} {r : Timer} (h : t.insertNew r = some t') :
    t.Follow t' := by
  rcases insertNew_some h with ⟨rfl, -⟩ | ⟨hins, -⟩
  · exact Follow.refl _
  · exact follow_insert? hins

theorem Follow.exists_of_ids {t t' : Timers} (h : t.Follow t')
    (ids : ∀ r' ∈ t', ∃ r ∈ t, r.timerId = r'.timerId) {r' : Timer} (hr' : r' ∈ t') :
    ∃ r ∈ t, r.Follows r' := by
  obtain ⟨r, hr, hid⟩ := ids r' hr'
  obtain ⟨r'', hr'', follows⟩ := h r hr
  obtain rfl := Table.eq_of_key_eq hr' hr'' (hid.symm.trans follows.timerId.symm)
  exact ⟨r, hr, follows⟩

theorem ids_updateWhere {t : Timers} {p : Timer → Bool} {f : Timer → Timer}
    {hf : ∀ r, (f r).timerId = r.timerId ∧ (f r).idempotencyKey = r.idempotencyKey} :
    ∀ r' ∈ t.updateWhere p f hf, ∃ r ∈ t, r.timerId = r'.timerId := by
  intro r' hr'
  obtain ⟨r, hr, rfl⟩ := mem_updateWhere.mp hr'
  refine ⟨r, hr, ?_⟩
  split
  · exact (hf r).1.symm
  · rfl

theorem ids_setStatus {t : Timers} {p : Timer → Bool} {status : TimerStatus} :
    ∀ r' ∈ t.setStatus p status, ∃ r ∈ t, r.timerId = r'.timerId := ids_updateWhere

end Timers

theorem follow_scheduleTimer {t t' : Timers} {aggregate aggregateId timerId id : String}
    {timer : NewTimer} (h : scheduleTimer t aggregate aggregateId timerId timer = some (t', id)) :
    t.Follow t' := by
  unfold scheduleTimer at h
  split at h
  · cases h
    exact .refl t
  · obtain ⟨inserted, hins, heq⟩ := Option.map_eq_some_iff.mp h
    cases heq
    exact Timers.follow_insert? hins

theorem follow_pollDueTimers (t : Timers) (locked : List String) (owner : String)
    (leaseSeconds : ℤ) (batch : ℕ) (now : Instant) :
    t.Follow (pollDueTimers t locked owner leaseSeconds batch now).1 := by
  refine @Timers.follow_updateWhere t _ _ (Timer.leasedBy_keys owner _) ?_
  intro r hr hdue
  have unsettled := not_final_of_due (mem_selectDue hr (of_decide_eq_true hdue)).1
  constructor
  · intro final
    rw [unsettled] at final
    cases final
  · rfl

theorem ids_pollDueTimers (t : Timers) (locked : List String) (owner : String)
    (leaseSeconds : ℤ) (batch : ℕ) (now : Instant) :
    ∀ r' ∈ (pollDueTimers t locked owner leaseSeconds batch now).1,
      ∃ r ∈ t, r.timerId = r'.timerId :=
  @Timers.ids_updateWhere t _ _ (Timer.leasedBy_keys owner _)

theorem FireEffect.follow {resolveTaskVersion : String → Option ℤ} {t t' : Timers}
    {q q' : Queue JsonObject} {timerId : String} {clock : Instant} {outcome : TimerFireOutcome}
    (h : FireEffect resolveTaskVersion t q timerId clock t' q' outcome) : t.Follow t' := by
  have unsettled {r : Timer} (row : t.get? timerId = some r) (unsettled : r.status.final = false) :
      ∀ x ∈ t, decide (x.timerId = timerId) = true → x.status.final = false := by
    intro x hx hid
    obtain ⟨hr, hrid⟩ := Table.get?_eq_some.mp row
    rwa [Table.eq_of_key_eq hx hr ((of_decide_eq_true hid).trans hrid.symm)]
  cases h with
  | suppressed reason settled => exact .refl t
  | voided r reason row inProgress guarded =>
      exact Timers.follow_setStatus .cancelled (unsettled row inProgress)
  | fired r row inProgress unguarded =>
      exact Timers.follow_setStatus .fired (unsettled row inProgress)

theorem FireEffect.ids {resolveTaskVersion : String → Option ℤ} {t t' : Timers}
    {q q' : Queue JsonObject} {timerId : String} {clock : Instant} {outcome : TimerFireOutcome}
    (h : FireEffect resolveTaskVersion t q timerId clock t' q' outcome) :
    ∀ r' ∈ t', ∃ r ∈ t, r.timerId = r'.timerId := by
  cases h with
  | suppressed reason settled => exact fun r' hr' => ⟨r', hr', rfl⟩
  | voided r reason row inProgress guarded => exact Timers.ids_setStatus
  | fired r row inProgress unguarded => exact Timers.ids_setStatus

theorem follow_cancelTimersForTask (t : Timers) (taskId : String) :
    t.Follow (cancelTimersForTask t taskId) := by
  apply Timers.follow_setStatus
  intro r _ hp
  obtain ⟨-, scheduled | leased⟩ := of_decide_eq_true hp
  · rw [scheduled]
    rfl
  · rw [leased]
    rfl

theorem follow_cancelScheduledTimers (t : Timers) (taskId : String) :
    t.Follow (cancelScheduledTimers t taskId) := by
  apply Timers.follow_setStatus
  intro r _ hp
  obtain ⟨-, scheduled⟩ := of_decide_eq_true hp
  rw [scheduled]
  rfl

end FeatureGen.Runtime
