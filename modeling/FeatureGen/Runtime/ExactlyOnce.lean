import FeatureGen.Runtime.Dispatch

/-! # Exactly one step per message

A message's one queue row carries the proof: it is ready while a consumer holds
its lock, and `commit_step` commits together with its `done`, which nothing
reopens. So the row cannot be claimed a second time after a step of it, whatever
the relays re-deliver, whichever leases expire, and however far the ledger has
been pruned meanwhile.
-/

namespace FeatureGen.Runtime.Dispatch

variable {π : Type}

/-- Two versions of one row: what no claim or settlement changes. -/
structure SameRow (r r' : QueueRow π) : Prop where
  id : r.id = r'.id
  messageId : r.messageId = r'.messageId
  handler : r.handler = r'.handler
  payload : r.payload = r'.payload

theorem SameRow.refl (r : QueueRow π) : SameRow r r := ⟨rfl, rfl, rfl, rfl⟩

theorem SameRow.trans {r r' r'' : QueueRow π} (h : SameRow r r') (h' : SameRow r' r'') :
    SameRow r r'' :=
  ⟨h.id.trans h'.id, h.messageId.trans h'.messageId, h.handler.trans h'.handler,
    h.payload.trans h'.payload⟩

theorem SameRow.timer {r r' : QueueRow π} (h : SameRow r r') (namesHandler : π → Bool) :
    isTimerCommandMessage namesHandler r = isTimerCommandMessage namesHandler r' := by
  simp only [isTimerCommandMessage, h.handler, h.payload]

theorem retried_some {r r' : QueueRow π} {error : String} {draw : ℚ} {now : Instant}
    (h : r.retried error draw now = some r') : SameRow r' r ∧ r'.status ≠ .done := by
  unfold QueueRow.retried at h
  split at h
  · cases h
    exact ⟨⟨rfl, rfl, rfl, rfl⟩, by simp [QueueRow.killed]⟩
  · obtain ⟨delay, _, rfl⟩ := Option.map_eq_some_iff.mp h
    exact ⟨⟨rfl, rfl, rfl, rfl⟩, by simp [QueueRow.failed]⟩

theorem commitStep_some {ledger : Ledger} {messageId : String} {messages : List (OutboxMessage π)}
    {aggregate aggregateId : String} {resultEventId : Option String} {processedSeq : ℕ}
    {writes : StepWrites π}
    (h : commitStep ledger messageId messages aggregate aggregateId resultEventId processedSeq =
      some writes) : writes.ledgerRow.messageId = messageId := by
  unfold commitStep at h
  split at h
  · cases h
  · cases h
    rfl

/-- What a transaction may commit: a step of its own message with its row done,
    or no step, and then done only for a timer command or a message `known` to
    the ledger. -/
def Settled (d : Deployment π) (known : Prop) (row : QueueRow π) :
    Option (StepWrites π) → Prop
  | some writes => writes.ledgerRow.messageId = row.messageId ∧ row.status = .done
  | none => row.status = .done → isTimerCommandMessage d.namesHandler row ∨ known

theorem handleClaim_some {d : Deployment π} {ledger : Ledger} {row row' : QueueRow π}
    {now : Instant} {draw : ℚ} {result : Handled π} {status : ProcessStatus}
    {step : Option (StepWrites π)} (known : Prop)
    (h : handleClaim d ledger row now draw result = some (row', status, step)) :
    SameRow row' row ∧ Settled d known row' step := by
  have retry : ∀ error, ((row.retried error draw now).map fun r =>
      (r, ProcessStatus.retryable, (none : Option (StepWrites π)))) = some (row', status, step) →
      SameRow row' row ∧ Settled d known row' step := by
    intro error hmap
    obtain ⟨r, hr, heq⟩ := Option.map_eq_some_iff.mp hmap
    cases heq
    obtain ⟨hsame, hstatus⟩ := retried_some hr
    exact ⟨hsame, fun hdone => absurd hdone hstatus⟩
  have dead : ∀ error, some (row.killed error, ProcessStatus.permanent,
      (none : Option (StepWrites π))) = some (row', status, step) →
      SameRow row' row ∧ Settled d known row' step := by
    intro error heq
    cases heq
    exact ⟨⟨rfl, rfl, rfl, rfl⟩, fun hdone => by simp [QueueRow.killed] at hdone⟩
  unfold handleClaim at h
  split at h
  · next htimer =>
      cases result with
      | timerDone =>
          cases h
          exact ⟨⟨rfl, rfl, rfl, rfl⟩, fun _ => Or.inl htimer⟩
      | timerDisallowed error => exact dead error h
      | timerFault error => exact retry _ h
      | _ => cases h
  · cases result with
    | unknownHandler error => exact dead error h
    | permanent error => exact dead _ h
    | timeout error => exact retry _ h
    | occ error => exact retry _ h
    | retryable error => exact retry _ h
    | fault error => exact retry _ h
    | ok messages aggregate aggregateId resultEventId processedSeq =>
        dsimp only at h
        split at h
        · next writes hwrites =>
            cases h
            exact ⟨⟨rfl, rfl, rfl, rfl⟩, commitStep_some hwrites, rfl⟩
        · exact retry _ h
    | _ => cases h

/-- The message's ledger row was found by a check of this move. -/
def FindsProcessed (m : Transition.Move (World π) (Action π)) (messageId : String) : Prop :=
  ∃ worker c, m.action = .check worker ∧ consumerOf m.before.consumers worker = some c ∧
    c.row.messageId = messageId ∧ isProcessed m.before.ledger messageId

/-- The row a transaction goes on with: its own version or the committed one it
    just leased, fit to be committed if the transaction is ending. -/
structure Advances (d : Deployment π) (w : World π) (known : Prop) (c c' : Consumer π) : Prop where
  worker : c'.worker = c.worker
  row : SameRow c'.row c.row ∨ ∃ r ∈ w.queue.rows, r.id = c.row.id ∧ SameRow c'.row r
  ending : ∀ status written, c'.phase = .ending status written → Settled d known c'.row written

inductive Effect (d : Deployment π) (w : World π) (a : Action π) (w' : World π) : Prop where
  | quiet (rows : w'.queue.rows = w.queue.rows) (consumers : w'.consumers = w.consumers)
      (steps : w'.steps = w.steps)
  | inserted (row : QueueRow π) (new : Inserted row)
      (fresh : findMessage w.queue row.messageId = none)
      (ins : w.queue.rows.insert? row = some w'.queue.rows)
      (consumers : w'.consumers = w.consumers) (steps : w'.steps = w.steps)
  | opened (c : Consumer π) (mem : c.row ∈ w.queue.rows) (ready : c.row.status = .ready)
      (free : c.row.id ∉ lockedRows w.consumers) (phase : c.phase = .selected)
      (rows : w'.queue.rows = w.queue.rows) (consumers : w'.consumers = c :: w.consumers)
      (steps : w'.steps = w.steps)
  | dropped (worker : ℕ) (rows : w'.queue.rows = w.queue.rows)
      (consumers : w'.consumers = dropConsumer w.consumers worker) (steps : w'.steps = w.steps)
  | advanced (c c' : Consumer π) (mem : c ∈ w.consumers)
      (next : Advances d w (FindsProcessed ⟨w, a, w'⟩ c.row.messageId) c c')
      (rows : w'.queue.rows = w.queue.rows)
      (consumers : w'.consumers = c' :: dropConsumer w.consumers c.worker)
      (steps : w'.steps = w.steps)
  | committed (c : Consumer π) (mem : c ∈ w.consumers) (status : ProcessStatus)
      (written : Option (StepWrites π)) (phase : c.phase = .ending status written)
      (rows : ∀ r, r ∈ w'.queue.rows ↔
        ∃ y ∈ w.queue.rows, r = if y.id = c.row.id then { c.row with id := y.id } else y)
      (consumers : w'.consumers = dropConsumer w.consumers c.worker)
      (steps : w'.steps = w.steps ++ (written.map (·.ledgerRow.messageId)).toList)
  | reclaimed (rows : w'.queue.rows = (reclaimStuckQueue w.queue w.now).1.rows)
      (consumers : w'.consumers = w.consumers) (steps : w'.steps = w.steps)

theorem consumerOf_some {consumers : List (Consumer π)} {worker : ℕ} {c : Consumer π}
    (h : consumerOf consumers worker = some c) : c ∈ consumers ∧ c.worker = worker := by
  have hworker := List.find?_some h
  exact ⟨List.mem_of_find?_eq_some h, of_decide_eq_true hworker⟩

theorem Effect.of_insertReady {d : Deployment π} {w w' : World π} {a : Action π}
    {messageId partitionKey handler : String} {payload : π} {payloadHash : Option String}
    {availableAt : Option Instant} {priority : ℤ} {now : Instant}
    (queue : w'.queue = (insertReady w.queue messageId partitionKey handler payload payloadHash
      availableAt priority now).1)
    (consumers : w'.consumers = w.consumers) (steps : w'.steps = w.steps) : Effect d w a w' := by
  cases insertReady_rows w.queue messageId partitionKey handler payload payloadHash availableAt
    priority now with
  | inl same => exact .quiet (queue ▸ same) consumers steps
  | inr new =>
      obtain ⟨row, hrow, hid, hfresh, hins⟩ := new
      exact .inserted row hrow (hid ▸ hfresh) (queue ▸ hins) consumers steps

theorem Effect.of_publish {d : Deployment π} {w w' : World π} {a : Action π}
    {msg : OutboxMessage π} {now : Instant}
    (queue : w'.queue = (publish d.payloadHash d.publisher w.queue msg now).1)
    (consumers : w'.consumers = w.consumers) (steps : w'.steps = w.steps) : Effect d w a w' := by
  unfold publish at queue
  split at queue
  · split at queue <;> exact .quiet (by rw [queue]) consumers steps
  · split at queue
    · exact .quiet (by rw [queue]) consumers steps
    · split at queue
      · split at queue
        · next hok =>
            exact .of_insertReady (queue.trans (enqueueChecked_ok hok)) consumers steps
        · exact .quiet (by rw [queue]) consumers steps
      · exact .of_insertReady (queue.trans (enqueue_rows ..)) consumers steps

theorem Effect.of_commit {d : Deployment π} {w : World π} {a : Action π} {c : Consumer π}
    {status : ProcessStatus} {written : Option (StepWrites π)} (mem : c ∈ w.consumers)
    (phase : c.phase = .ending status written) : Effect d w a (commitConsumer w c written) := by
  unfold commitConsumer
  cases written with
  | none =>
      exact .committed c mem status none phase (fun r => Queue.mem_update) rfl
        (List.append_nil _).symm
  | some writes =>
      dsimp only
      split
      · exact .dropped c.worker rfl rfl rfl
      · exact .committed c mem status (some writes) phase (fun r => Queue.mem_update) rfl rfl

theorem step_effect {d : Deployment π} {w w' : World π} {a : Action π}
    (h : step d w a = some w') : Effect d w a w' := by
  cases a with
  | tick => cases h; exact .quiet rfl rfl rfl
  | advanceCheckpoints => cases h; exact .quiet rfl rfl rfl
  | write => cases h; exact .quiet rfl rfl rfl
  | reclaimOutbox => cases h; exact .quiet rfl rfl rfl
  | relayStop => cases h; exact .quiet rfl rfl rfl
  | prune => cases h; exact .quiet rfl rfl rfl
  | reclaimQueue => cases h; exact .reclaimed rfl rfl rfl
  | crash worker => cases h; exact .dropped worker rfl rfl rfl
  | enqueue => cases h; exact .of_insertReady (enqueue_rows ..) rfl rfl
  | relayLease =>
      simp only [step] at h
      split at h
      · cases h
      · cases h
        exact .quiet rfl rfl rfl
  | relayPublish worker fault =>
      simp only [step] at h
      split at h
      · cases h
        cases fault with
        | some error => exact .quiet rfl rfl rfl
        | none => exact .of_publish rfl rfl rfl
      · cases h
  | relaySettle =>
      simp only [step] at h
      split at h
      · split at h
        · cases h
        · cases h
          exact .quiet rfl rfl rfl
      · cases h
  | claim worker owner =>
      simp only [step] at h
      split at h
      · cases h
      · split at h
        · cases h
          exact .quiet rfl rfl rfl
        · next row hrow =>
            cases h
            obtain ⟨hmem, hready, _, _, _, hfree⟩ := selectReady_some hrow
            exact .opened _ hmem hready hfree rfl rfl rfl rfl
  | lease worker leaseSeconds =>
      simp only [step] at h
      split at h
      · next c hc =>
          obtain ⟨hmem, hworker⟩ := consumerOf_some hc
          split at h
          · split at h
            · cases h
            · split at h
              · cases h
                exact .dropped worker rfl rfl rfl
              · next queue row hlease =>
                  cases h
                  subst hworker
                  obtain ⟨r, hr, hid, _, rfl, _⟩ := lease_some hlease
                  refine .advanced c { c with row := _, phase := .leased } hmem ⟨rfl, ?_, ?_⟩
                    rfl rfl rfl
                  · exact Or.inr ⟨r, hr, hid, rfl, rfl, rfl, rfl⟩
                  · intro status written hphase
                    cases hphase
          · cases h
      · cases h
  | check worker =>
      simp only [step] at h
      split at h
      · next c hc =>
          obtain ⟨hmem, hworker⟩ := consumerOf_some hc
          split at h
          · cases h
            subst hworker
            refine .advanced c _ hmem ?_ rfl rfl rfl
            split
            · next hknown =>
                refine ⟨rfl, Or.inl ⟨rfl, rfl, rfl, rfl⟩, ?_⟩
                intro status written hphase
                cases hphase
                exact fun _ => Or.inr ⟨c.worker, c, rfl, hc, rfl, hknown⟩
            · refine ⟨rfl, Or.inl (SameRow.refl _), ?_⟩
              intro status written hphase
              cases hphase
          · cases h
      · cases h
  | handle worker result draw =>
      simp only [step] at h
      split at h
      · next c hc =>
          obtain ⟨hmem, hworker⟩ := consumerOf_some hc
          split at h
          · split at h
            · cases h
            · next row status written hhandle =>
                cases h
                subst hworker
                obtain ⟨hsame, hsettled⟩ := handleClaim_some _ hhandle
                refine .advanced c { c with row := row, phase := .ending status written } hmem
                  ⟨rfl, Or.inl hsame, ?_⟩ rfl rfl rfl
                intro status' written' hphase
                cases hphase
                exact hsettled
          · cases h
      · cases h
  | commit worker =>
      simp only [step] at h
      split at h
      · next c hc =>
          split at h
          · next status written hphase =>
              cases h
              exact .of_commit (consumerOf_some hc).1 hphase
          · cases h
      · cases h

abbrev Past (π : Type) := List (Transition.Move (World π) (Action π))

/-- Some earlier check found the message in the ledger. -/
def Found (past : Past π) (messageId : String) : Prop := ∃ m ∈ past, FindsProcessed m messageId

structure Inv (d : Deployment π) (past : Past π) (w : World π) : Prop where
  /-- `UNIQUE (message_id)` on the queue. -/
  messages : ∀ r ∈ w.queue.rows, ∀ r' ∈ w.queue.rows, r.messageId = r'.messageId → r = r'
  locks : (lockedRows w.consumers).Nodup
  /-- What a consumer has locked is still ready for everyone else. -/
  own : ∀ c ∈ w.consumers, ∃ r ∈ w.queue.rows, SameRow c.row r ∧ r.status = .ready
  ending : ∀ c ∈ w.consumers, ∀ status written, c.phase = .ending status written →
    Settled d (Found past c.row.messageId) c.row written
  once : ∀ messageId, w.steps.count messageId ≤ 1
  stepped : ∀ messageId ∈ w.steps, ∃ r ∈ w.queue.rows,
    r.messageId = messageId ∧ r.status = .done
  done : ∀ r ∈ w.queue.rows, isTimerCommandMessage d.namesHandler r = false → r.status = .done →
    w.steps.count r.messageId = 1 ∨ Found past r.messageId

theorem Settled.mono {d : Deployment π} {known known' : Prop} {row : QueueRow π}
    {written : Option (StepWrites π)} (h : Settled d known row written) (hk : known → known') :
    Settled d known' row written := by
  cases written with
  | none => exact fun hdone => (h hdone).imp_right hk
  | some writes => exact h

theorem mem_dropConsumer {consumers : List (Consumer π)} {worker : ℕ} {c : Consumer π} :
    c ∈ dropConsumer consumers worker ↔ c ∈ consumers ∧ c.worker ≠ worker := by
  simp [dropConsumer]

theorem Found.mono {past : Past π} {messageId : String} (h : Found past messageId)
    (m : Transition.Move (World π) (Action π)) : Found (past ++ [m]) messageId := by
  obtain ⟨m', hm', hfinds⟩ := h
  exact ⟨m', List.mem_append_left _ hm', hfinds⟩

namespace Inv

variable {d : Deployment π} {past : Past π} {w w' : World π}

theorem init (h : Init w) : Inv d [] w := by
  obtain ⟨hrows, hconsumers, hsteps⟩ := h
  have hnone : ∀ r, r ∉ w.queue.rows := by
    intro r hr
    rw [← Table.mem_rows, hrows] at hr
    simp at hr
  constructor
  · intro r hr
    exact absurd hr (hnone r)
  · simp [lockedRows, hconsumers]
  · simp [hconsumers]
  · simp [hconsumers]
  · simp [hsteps]
  · simp [hsteps]
  · intro r hr
    exact absurd hr (hnone r)

theorem extend (inv : Inv d past w) (m : Transition.Move (World π) (Action π)) :
    Inv d (past ++ [m]) w where
  messages := inv.messages
  locks := inv.locks
  own := inv.own
  ending c hc status written hphase :=
    (inv.ending c hc status written hphase).mono fun found => found.mono m
  once := inv.once
  stepped := inv.stepped
  done r hr htimer hdone := (inv.done r hr htimer hdone).imp_right fun found => found.mono m

theorem shrink (inv : Inv d past w) (rows : w'.queue.rows = w.queue.rows)
    (consumers : w'.consumers.Sublist w.consumers) (steps : w'.steps = w.steps) :
    Inv d past w' where
  messages := by simpa only [rows] using inv.messages
  locks := (consumers.map _).nodup inv.locks
  own := by
    intro c hc
    simpa only [rows] using inv.own c (consumers.subset hc)
  ending c hc := inv.ending c (consumers.subset hc)
  once := by simpa only [steps] using inv.once
  stepped := by simpa only [rows, steps] using inv.stepped
  done := by simpa only [rows, steps] using inv.done

theorem inserted (inv : Inv d past w) {row : QueueRow π} (new : Inserted row)
    (fresh : findMessage w.queue row.messageId = none)
    (ins : w.queue.rows.insert? row = some w'.queue.rows) (consumers : w'.consumers = w.consumers)
    (steps : w'.steps = w.steps) : Inv d past w' := by
  have hfresh : ∀ r ∈ w.queue.rows, r.messageId ≠ row.messageId := by
    intro r hr hsame
    have := List.find?_eq_none.mp fresh r hr
    simp [hsame] at this
  have notDone : row.status ≠ .done := by simp [new.status]
  constructor
  · intro r hr r' hr' hsame
    rcases (Table.mem_insert? ins).mp hr with hr | rfl <;>
      rcases (Table.mem_insert? ins).mp hr' with hr' | rfl
    · exact inv.messages r hr r' hr' hsame
    · exact absurd hsame (hfresh r hr)
    · exact absurd hsame.symm (hfresh r' hr')
    · rfl
  · simpa only [consumers] using inv.locks
  · intro c hc
    obtain ⟨r, hr, hown⟩ := inv.own c (consumers ▸ hc)
    exact ⟨r, (Table.mem_insert? ins).mpr (Or.inl hr), hown⟩
  · simpa only [consumers] using inv.ending
  · simpa only [steps] using inv.once
  · intro messageId hm
    obtain ⟨r, hr, hdone⟩ := inv.stepped messageId (steps ▸ hm)
    exact ⟨r, (Table.mem_insert? ins).mpr (Or.inl hr), hdone⟩
  · intro r hr htimer hdone
    rw [steps]
    rcases (Table.mem_insert? ins).mp hr with hr | rfl
    · exact inv.done r hr htimer hdone
    · exact absurd hdone notDone

theorem opened (inv : Inv d past w) {c : Consumer π} (mem : c.row ∈ w.queue.rows)
    (ready : c.row.status = .ready) (free : c.row.id ∉ lockedRows w.consumers)
    (phase : c.phase = .selected) (rows : w'.queue.rows = w.queue.rows)
    (consumers : w'.consumers = c :: w.consumers) (steps : w'.steps = w.steps) :
    Inv d past w' := by
  constructor
  · simpa only [rows] using inv.messages
  · rw [consumers]
    exact List.nodup_cons.mpr ⟨free, inv.locks⟩
  · intro e he
    rw [rows]
    rcases List.mem_cons.mp (consumers ▸ he) with rfl | he
    · exact ⟨e.row, mem, SameRow.refl _, ready⟩
    · exact inv.own e he
  · intro e he status written hphase
    rcases List.mem_cons.mp (consumers ▸ he) with rfl | he
    · rw [phase] at hphase
      cases hphase
    · exact inv.ending e he status written hphase
  · simpa only [steps] using inv.once
  · simpa only [rows, steps] using inv.stepped
  · simpa only [rows, steps] using inv.done

theorem row_ne (inv : Inv d past w) {c e : Consumer π} (hc : c ∈ w.consumers)
    (he : e ∈ dropConsumer w.consumers c.worker) : e.row.id ≠ c.row.id := by
  obtain ⟨he, hworker⟩ := mem_dropConsumer.mp he
  intro hsame
  apply hworker
  rw [List.inj_on_of_nodup_map inv.locks he hc hsame]

theorem advanced (inv : Inv d past w) {c c' : Consumer π} (mem : c ∈ w.consumers)
    (next : Advances d w (Found past c.row.messageId) c c') (rows : w'.queue.rows = w.queue.rows)
    (consumers : w'.consumers = c' :: dropConsumer w.consumers c.worker)
    (steps : w'.steps = w.steps) : Inv d past w' := by
  obtain ⟨r, hr, hown, hready⟩ := inv.own c mem
  have hsame : SameRow c'.row r := by
    rcases next.row with hrow | ⟨r', hr', hid, hrow⟩
    · exact hrow.trans hown
    · have heq : r' = r := Table.eq_of_key_eq hr' hr (hid.trans hown.id)
      exact heq ▸ hrow
  have hid : c'.row.id = c.row.id := hsame.id.trans hown.id.symm
  constructor
  · simpa only [rows] using inv.messages
  · rw [consumers]
    apply List.nodup_cons.mpr
    constructor
    · intro hlocked
      obtain ⟨e, he, heid⟩ := List.mem_map.mp hlocked
      exact inv.row_ne mem he (heid.trans hid)
    · exact (List.filter_sublist.map _).nodup inv.locks
  · intro e he
    rw [rows]
    rcases List.mem_cons.mp (consumers ▸ he) with rfl | he
    · exact ⟨r, hr, hsame, hready⟩
    · exact inv.own e (mem_dropConsumer.mp he).1
  · intro e he status written hphase
    rcases List.mem_cons.mp (consumers ▸ he) with rfl | he
    · have hmessage : e.row.messageId = c.row.messageId :=
        hsame.messageId.trans hown.messageId.symm
      rw [hmessage]
      exact next.ending status written hphase
    · exact inv.ending e (mem_dropConsumer.mp he).1 status written hphase
  · simpa only [steps] using inv.once
  · simpa only [rows, steps] using inv.stepped
  · simpa only [rows, steps] using inv.done

theorem reclaimed (inv : Inv d past w)
    (rows : w'.queue.rows = (reclaimStuckQueue w.queue w.now).1.rows)
    (consumers : w'.consumers = w.consumers) (steps : w'.steps = w.steps) : Inv d past w' := by
  have back : ∀ r ∈ w'.queue.rows, ∃ y ∈ w.queue.rows,
      r = if stuck w.now y then y.released else y := by
    intro r hr
    exact mem_reclaimStuckQueue.mp (rows ▸ hr)
  have same : ∀ y : QueueRow π, SameRow (if stuck w.now y then y.released else y) y := by
    intro y
    split_ifs <;> exact ⟨rfl, rfl, rfl, rfl⟩
  have kept : ∀ y ∈ w.queue.rows, y.status ≠ .leased → y ∈ w'.queue.rows := by
    intro y hy hstatus
    rw [rows]
    exact mem_reclaimStuckQueue.mpr ⟨y, hy, by simp [stuck, hstatus]⟩
  constructor
  · intro r hr r' hr' hsame
    obtain ⟨y, hy, rfl⟩ := back r hr
    obtain ⟨y', hy', rfl⟩ := back r' hr'
    have heq : y = y' := inv.messages y hy y' hy'
      ((same y).messageId.symm.trans (hsame.trans (same y').messageId))
    rw [heq]
  · simpa only [consumers] using inv.locks
  · intro c hc
    obtain ⟨r, hr, hown, hready⟩ := inv.own c (consumers ▸ hc)
    exact ⟨r, kept r hr (by simp [hready]), hown, hready⟩
  · simpa only [consumers] using inv.ending
  · simpa only [steps] using inv.once
  · intro messageId hm
    obtain ⟨r, hr, hid, hdone⟩ := inv.stepped messageId (steps ▸ hm)
    exact ⟨r, kept r hr (by simp [hdone]), hid, hdone⟩
  · intro r hr htimer hdone
    obtain ⟨y, hy, rfl⟩ := back r hr
    rw [steps, (same y).messageId]
    apply inv.done y hy (((same y).timer d.namesHandler).symm.trans htimer)
    split_ifs at hdone
    · cases hdone
    · exact hdone

theorem committed (inv : Inv d past w) {c : Consumer π} (mem : c ∈ w.consumers)
    {status : ProcessStatus} {written : Option (StepWrites π)}
    (phase : c.phase = .ending status written)
    (rows : ∀ r, r ∈ w'.queue.rows ↔
      ∃ y ∈ w.queue.rows, r = if y.id = c.row.id then { c.row with id := y.id } else y)
    (consumers : w'.consumers = dropConsumer w.consumers c.worker)
    (steps : w'.steps = w.steps ++ (written.map (·.ledgerRow.messageId)).toList) :
    Inv d past w' := by
  obtain ⟨r₀, hr₀, hown, hready⟩ := inv.own c mem
  have settled := inv.ending c mem status written phase
  have hrows : ∀ r, r ∈ w'.queue.rows ↔ r = c.row ∨ (r ∈ w.queue.rows ∧ r.id ≠ c.row.id) := by
    intro r
    rw [rows]
    constructor
    · rintro ⟨y, hy, rfl⟩
      by_cases hid : y.id = c.row.id
      · left
        rw [if_pos hid, hid]
      · right
        rw [if_neg hid]
        exact ⟨hy, hid⟩
    · rintro (rfl | ⟨hr, hid⟩)
      · exact ⟨r₀, hr₀, by rw [if_pos hown.id.symm, ← hown.id]⟩
      · exact ⟨r, hr, by rw [if_neg hid]⟩
  -- no other row has the message, and no step of it has committed
  have other : ∀ r ∈ w.queue.rows, r.id ≠ c.row.id → r.messageId ≠ c.row.messageId := by
    intro r hr hid hsame
    apply hid
    rw [inv.messages r hr r₀ hr₀ (hsame.trans hown.messageId), hown.id]
  have unstepped : c.row.messageId ∉ w.steps := by
    intro hm
    obtain ⟨r, hr, hid, hdone⟩ := inv.stepped _ hm
    rw [inv.messages r hr r₀ hr₀ (hid.trans hown.messageId), hready] at hdone
    cases hdone
  have count : ∀ messageId, w'.steps.count messageId = w.steps.count messageId +
      if written.isSome ∧ messageId = c.row.messageId then 1 else 0 := by
    intro messageId
    cases written with
    | none => simp [steps]
    | some writes =>
        have hid : writes.ledgerRow.messageId = c.row.messageId := settled.1
        rw [steps, List.count_append, Option.map_some, Option.toList_some, hid]
        by_cases hsame : messageId = c.row.messageId
        · simp [hsame]
        · simp [hsame, List.count_eq_zero.mpr]
  constructor
  · intro r hr r' hr' hsame
    rcases (hrows r).mp hr with rfl | ⟨hr, hne⟩ <;> rcases (hrows r').mp hr' with rfl | ⟨hr', hne'⟩
    · rfl
    · exact absurd hsame.symm (other r' hr' hne')
    · exact absurd hsame (other r hr hne)
    · exact inv.messages r hr r' hr' hsame
  · rw [consumers]
    exact (List.filter_sublist.map _).nodup inv.locks
  · intro e he
    have hne := inv.row_ne mem (consumers ▸ he)
    obtain ⟨r, hr, hsame, hstatus⟩ := inv.own e (mem_dropConsumer.mp (consumers ▸ he)).1
    exact ⟨r, (hrows r).mpr (Or.inr ⟨hr, fun hid => hne (hsame.id.trans hid)⟩), hsame, hstatus⟩
  · intro e he
    exact inv.ending e (mem_dropConsumer.mp (consumers ▸ he)).1
  · intro messageId
    rw [count]
    split_ifs with hnew
    · rw [hnew.2, List.count_eq_zero.mpr unstepped]
    · exact inv.once messageId
  · intro messageId hm
    rw [steps, List.mem_append] at hm
    rcases hm with hm | hm
    · obtain ⟨r, hr, hid, hdone⟩ := inv.stepped messageId hm
      refine ⟨r, (hrows r).mpr (Or.inr ⟨hr, ?_⟩), hid, hdone⟩
      intro hsame
      have hr₀r : r = r₀ := Table.eq_of_key_eq hr hr₀ (hsame.trans hown.id)
      rw [hr₀r, hready] at hdone
      cases hdone
    · cases written with
      | none => simp at hm
      | some writes =>
          have hm : messageId = writes.ledgerRow.messageId := by simpa using hm
          exact ⟨c.row, (hrows _).mpr (Or.inl rfl), (hm.trans settled.1).symm, settled.2⟩
  · intro r hr htimer hdone
    rw [count]
    rcases (hrows r).mp hr with rfl | ⟨hr, hne⟩
    · cases written with
      | none =>
          rcases settled hdone with timer | found
          · rw [htimer] at timer
            cases timer
          · exact Or.inr found
      | some writes =>
          left
          simp [List.count_eq_zero.mpr unstepped]
    · rw [if_neg fun hnew => other r hr hne hnew.2]
      exact inv.done r hr htimer hdone

theorem effect {a : Action π} (inv : Inv d past w) (h : Effect d w a w') :
    Inv d (past ++ [⟨w, a, w'⟩]) w' := by
  have inv := inv.extend ⟨w, a, w'⟩
  cases h with
  | quiet rows consumers steps => exact inv.shrink rows (consumers ▸ List.Sublist.refl _) steps
  | inserted row new fresh ins consumers steps => exact inv.inserted new fresh ins consumers steps
  | opened c mem ready free phase rows consumers steps =>
      exact inv.opened mem ready free phase rows consumers steps
  | dropped worker rows consumers steps =>
      exact inv.shrink rows (consumers ▸ List.filter_sublist) steps
  | advanced c c' mem next rows consumers steps =>
      refine inv.advanced mem ⟨next.worker, next.row, ?_⟩ rows consumers steps
      intro status written hphase
      apply (next.ending status written hphase).mono
      intro finds
      exact ⟨_, List.mem_append_right _ List.mem_cons_self, finds⟩
  | committed c mem status written phase rows consumers steps =>
      exact inv.committed mem phase rows consumers steps
  | reclaimed rows consumers steps => exact inv.reclaimed rows consumers steps

end Inv

theorem inv_of_exec {d : Deployment π} {w₀ w : World π} {as : List (Action π)} (start : Init w₀)
    (run : Transition.exec (step d) w₀ as = some w) :
    Inv d (Transition.history (step d) w₀ as) w :=
  Transition.exec_history_induction (Inv.init start)
    (fun _ _ _ _ inv hstep => inv.effect (step_effect hstep)) run

/-- In every run, however workers interleave and crash, at most one `commit_step`
    of a message commits, and a step message's row is done only if exactly one
    did, or a consumer found the message in the ledger. -/
theorem step_effect_exactly_once {d : Deployment π} {w₀ w : World π} {as : List (Action π)}
    (start : Init w₀) (run : Transition.exec (step d) w₀ as = some w) :
    (∀ messageId, w.steps.count messageId ≤ 1) ∧
    ∀ r ∈ w.queue.rows, isTimerCommandMessage d.namesHandler r = false → r.status = .done →
      w.steps.count r.messageId = 1 ∨
      ∃ m ∈ Transition.history (step d) w₀ as, FindsProcessed m r.messageId := by
  have inv := inv_of_exec start run
  exact ⟨inv.once, inv.done⟩

/-- One topic routed to a step handler; its payloads name no handler of their own. -/
def oneRoute : Deployment Unit where
  publisher := {
    route := fun topic => if topic = "RUN_STARTED" then some "run.plan" else none
    maxPartitionDepth := none
    routeRequired := [] }
  payloadHash := fun _ => "44136fa355b3678a1146ad16f7e8649e94fb4fc21fe77e8310c060f61caaff8a"
  namesHandler := fun _ => false

def emptyWorld : World Unit where
  now := 1767225600000000
  outbox := ⟨Table.empty, 1⟩
  queue := ⟨Table.empty, 1⟩
  ledger := Table.empty
  checkpoints := []
  relays := []
  consumers := []
  steps := []

/-- A relay dies after publishing and another publishes again; a consumer dies
    before its commit and another takes over; then the ledger is pruned. -/
def redelivered : List (Action Unit) :=
  [.write ⟨"evt-1", "run:r1", "RUN_STARTED", (), some "evt-1"⟩,
   .relayLease 1 "relay-1" 30 100, .relayPublish 1 none, .relayStop 1,
   .tick 31000000, .reclaimOutbox,
   .claim 3 "worker-3", .lease 3 30, .check 3, .crash 3,
   .relayLease 2 "relay-2" 30 100, .relayPublish 2 none, .relaySettle 2 0,
   .claim 4 "worker-4", .lease 4 30, .check 4,
   .handle 4 (.ok [] "run" "r1" (some "evt-2") 7) 0, .commit 4,
   .advanceCheckpoints [9], .prune]

theorem step_effect_exactly_once_redelivered :
    ∃ w, Transition.exec (step oneRoute) emptyWorld redelivered = some w ∧
      w.steps = ["evt-1"] ∧
      (∀ messageId, w.steps.count messageId ≤ 1) ∧
      ∀ r ∈ w.queue.rows, isTimerCommandMessage oneRoute.namesHandler r = false →
        r.status = .done → w.steps.count r.messageId = 1 ∨
        ∃ m ∈ Transition.history (step oneRoute) emptyWorld redelivered,
          FindsProcessed m r.messageId := by
  have run : ((Transition.exec (step oneRoute) emptyWorld redelivered).any fun w =>
      decide (w.steps = ["evt-1"])) = true := by
    decide +kernel
  obtain ⟨w, hw, hsteps⟩ := Option.any_eq_true _ _ |>.mp run
  exact ⟨w, hw, of_decide_eq_true hsteps, step_effect_exactly_once ⟨rfl, rfl, rfl⟩ hw⟩

end FeatureGen.Runtime.Dispatch
