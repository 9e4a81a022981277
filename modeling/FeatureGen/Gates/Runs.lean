import FeatureGen.Gates.Tasks
import FeatureGen.Lib.Transition

/-! # Runs of the gates

Gate calls and the timer runtime over one store, each call in a transaction of
its own. Tasks, responses and timers only ever advance: a closed task keeps its
status, a response stays, a settled timer is left alone.
-/

namespace FeatureGen.Gates

open FeatureGen.Runtime

structure World where
  now : Instant
  store : Store

inductive Action where
  | tick (micros : ℕ)
  /-- Another command appends to a run's stream. -/
  | runEvent (event : RunEvent)
  /-- Other work is enqueued. -/
  | enqueue (messageId partitionKey handler : String) (payload : JsonObject)
  | openTask (spec : GateTaskSpec) (taskId : String) (timerIds : List String)
  | bumpTaskVersion (taskId : String)
  | cancelTask (taskId : String) (newStatus : TaskStatus)
  | cancelTasksOnRunAdvance (runId : String) (newStatus : TaskStatus)
  | grantTaskDelegation (taskId : String) (principal : Identity) (delegateSubject : String)
      (grantedBy : Identity)
  | submitHumanSignal (signal : Signal) (timerId : String)
  | scheduleTimer (aggregate aggregateId timerId : String) (timer : NewTimer)
  | pollDueTimers (owner : String) (leaseSeconds : ℤ) (batch : ℕ) (now : Instant)
  | fireTimer (timerId : String)
  | cancelTimersForTask (taskId : String)

/-- `_default_task_version`: the version of a task that is open. -/
def defaultTaskVersion (tasks : Table HumanTask.taskId) (taskId : String) : Option ℤ :=
  ((tasks.get? taskId).filter fun t => t.status = .open).map (·.taskVersion)

def Store.fire (s : Store) (timerId : String) (clock : Instant) :
    Timers × Queue JsonObject × TimerFireOutcome :=
  fireTimer (defaultTaskVersion s.tasks) s.timers s.queue timerId clock

/-- The store a call commits; one that raises leaves it alone. -/
def committed (s : Store) : Except Failure Store → Store
  | .error _ => s
  | .ok s' => s'

def step (w : World) : Action → Option World
  | .tick micros => some { w with now := w.now + micros }
  | .runEvent event =>
      some { w with store := { w.store with runEvents := w.store.runEvents ++ [event] } }
  | .enqueue messageId partitionKey handler payload =>
      let queue := (insertReady w.store.queue messageId partitionKey handler payload none none
        defaultPriority w.now).1
      some { w with store := { w.store with queue := queue } }
  | .openTask spec taskId timerIds =>
      some { w with store := committed w.store (openTask w.store spec taskId timerIds w.now) }
  | .bumpTaskVersion taskId =>
      some { w with store := committed w.store (bumpTaskVersion w.store taskId) }
  | .cancelTask taskId newStatus =>
      some { w with store := committed w.store (cancelTask w.store taskId newStatus) }
  | .cancelTasksOnRunAdvance runId newStatus =>
      some { w with store := committed w.store (cancelTasksOnRunAdvance w.store runId newStatus) }
  | .grantTaskDelegation taskId principal delegateSubject grantedBy =>
      let granted := grantTaskDelegation w.store taskId principal delegateSubject grantedBy
      some { w with store := committed w.store granted }
  | .submitHumanSignal signal timerId =>
      let submitted := (submitHumanSignal w.store signal timerId w.now).map Prod.fst
      some { w with store := committed w.store submitted }
  | .scheduleTimer aggregate aggregateId timerId timer =>
      let timers := (scheduleTimer w.store.timers aggregate aggregateId timerId timer).map Prod.fst
      some { w with store := { w.store with timers := timers.getD w.store.timers } }
  | .pollDueTimers owner leaseSeconds batch now =>
      let timers := (pollDueTimers w.store.timers [] owner leaseSeconds batch now).1
      some { w with store := { w.store with timers := timers } }
  | .fireTimer timerId =>
      let (timers, queue, _) := w.store.fire timerId w.now
      some { w with store := { w.store with timers := timers, queue := queue } }
  | .cancelTimersForTask taskId =>
      let timers := Runtime.cancelTimersForTask w.store.timers taskId
      some { w with store := { w.store with timers := timers } }

abbrev GateMove := Transition.Move World Action

/-- A task keeps what it was opened with, and once closed its status. -/
structure HumanTask.Follows (t t' : HumanTask) : Prop where
  taskId : t'.taskId = t.taskId
  spec : t'.spec = t.spec
  closed : t.status ≠ .open → t'.status = t.status

theorem HumanTask.Follows.refl (t : HumanTask) : t.Follows t := ⟨rfl, rfl, fun _ => rfl⟩

theorem HumanTask.Follows.trans {t t' t'' : HumanTask} (h : t.Follows t') (h' : t'.Follows t'') :
    t.Follows t'' := by
  refine ⟨h'.taskId.trans h.taskId, h'.spec.trans h.spec, fun closed => ?_⟩
  rw [h'.closed (by rwa [h.closed closed]), h.closed closed]

/-- Tasks and timers follow their earlier selves. -/
structure Advances (s s' : Store) : Prop where
  tasks : ∀ t ∈ s.tasks, ∃ t' ∈ s'.tasks, t.Follows t'
  timers : s.timers.Follow s'.timers

theorem Advances.refl (s : Store) : Advances s s :=
  ⟨fun t ht => ⟨t, ht, .refl t⟩, .refl s.timers⟩

theorem Advances.trans {s s' s'' : Store} (h : Advances s s') (h' : Advances s' s'') :
    Advances s s'' := by
  refine ⟨fun t ht => ?_, h.timers.trans h'.timers⟩
  obtain ⟨t', ht', follows⟩ := h.tasks t ht
  obtain ⟨t'', ht'', follows'⟩ := h'.tasks t' ht'
  exact ⟨t'', ht'', follows.trans follows'⟩

theorem Advances.of_timers {s s' : Store} (tasks : s'.tasks = s.tasks)
    (timers : s.timers.Follow s'.timers) : Advances s s' :=
  ⟨fun t ht => ⟨t, tasks ▸ ht, .refl t⟩, timers⟩

theorem Advances.follows {s s' : Store} (h : Advances s s') {t t' : HumanTask} (ht : t ∈ s.tasks)
    (ht' : t' ∈ s'.tasks) (hid : t'.taskId = t.taskId) : t.Follows t' := by
  obtain ⟨t'', ht'', follows⟩ := h.tasks t ht
  rwa [Table.eq_of_key_eq ht' ht'' (hid.trans follows.taskId.symm)]

theorem follow_insertLadder {t t' : Timers} {taskId aggregate aggregateId : String}
    {clock : Instant} {rungs : List ((TimerKind × ℤ) × String)}
    (h : insertLadder t taskId aggregate aggregateId clock rungs = some t') : t.Follow t' := by
  induction rungs generalizing t with
  | nil =>
      cases h
      exact .refl _
  | cons first rungs ih =>
      simp only [insertLadder] at h
      split at h
      · cases h
      · next inserted hins => exact (Timers.follow_insert? hins).trans (ih h)

theorem follows_closeTask (tasks : Table HumanTask.taskId) (taskId : String) (status : TaskStatus) :
    ∀ t ∈ tasks, ∃ t' ∈ closeTask tasks taskId status, t.Follows t' := by
  intro t ht
  refine ⟨_, mem_closeTask.mpr ⟨t, ht, rfl⟩, ?_⟩
  split
  · next hp => exact ⟨rfl, rfl, fun closed => absurd hp.2 closed⟩
  · exact .refl t

theorem advances_cancelTask {s s' : Store} {taskId : String} {newStatus : TaskStatus}
    (h : cancelTask s taskId newStatus = .ok s') : Advances s s' := by
  unfold cancelTask at h
  split at h
  · cases h
  · cases h
    exact ⟨follows_closeTask s.tasks taskId newStatus, follow_cancelScheduledTimers _ _⟩

theorem cancelTask_records {s s' : Store} {taskId : String} {newStatus : TaskStatus}
    (h : cancelTask s taskId newStatus = .ok s') :
    s'.responses = s.responses ∧ s'.delegations = s.delegations := by
  unfold cancelTask at h
  split at h
  · cases h
  · cases h
    exact ⟨rfl, rfl⟩

theorem advances_cancelTasksOnRunAdvance {s s' : Store} {runId : String} {newStatus : TaskStatus}
    (h : cancelTasksOnRunAdvance s runId newStatus = .ok s') :
    Advances s s' ∧ s'.responses = s.responses ∧ s'.delegations = s.delegations := by
  apply Transition.foldlM_except_induction
    (P := fun x => Advances s x ∧ x.responses = s.responses ∧ x.delegations = s.delegations)
    _ ⟨.refl s, rfl, rfl⟩ h
  rintro taskId _ x x' ⟨advances, responses, delegations⟩ hcancel
  obtain ⟨responses', delegations'⟩ := cancelTask_records hcancel
  exact ⟨advances.trans (advances_cancelTask hcancel), responses'.trans responses,
    delegations'.trans delegations⟩

theorem advances_setTaskStatus {s : Store} {task : HumanTask} (mem : task ∈ s.tasks)
    (isOpen : task.status = .open) (status : TaskStatus) :
    Advances s (setTaskStatus s task.taskId status) := by
  refine ⟨fun t ht => ?_, follow_cancelScheduledTimers _ _⟩
  refine ⟨_, mem_setTaskStatus.mpr ⟨t, ht, rfl⟩, ?_⟩
  split
  · next hid =>
      obtain rfl := Table.eq_of_key_eq ht mem hid
      exact ⟨rfl, rfl, fun closed => absurd isOpen closed⟩
  · exact .refl t

/-- What `submit_human_signal`'s decision on the quorum does. -/
inductive Settled (s : Store) (task : HumanTask) (timerId : String) (clock : Instant) :
    Store → TaskStatus → Bool → Prop where
  | pending
      (short : ((authoritiesOf (responsesOf s task.taskId)).length : ℤ) <
        task.spec.quorumRequired) :
      Settled s task timerId clock s task.status false
  | answered
      (enough : task.spec.quorumRequired ≤
        ((authoritiesOf (responsesOf s task.taskId)).length : ℤ))
      (agreed : ((authoritiesOf (responsesOf s task.taskId)).map (·.2)).dedup.length = 1) :
      Settled s task timerId clock (setTaskStatus s task.taskId .answered) .answered true
  | conflict (aggregate aggregateId : String) (timers : Timers)
      (enough : task.spec.quorumRequired ≤
        ((authoritiesOf (responsesOf s task.taskId)).length : ℤ))
      (scheduled : (setTaskStatus s task.taskId .conflict).timers.insertNew
        (conflictEscalation task aggregate aggregateId timerId clock) = some timers) :
      Settled s task timerId clock
        { setTaskStatus s task.taskId .conflict with timers := timers } .conflict false

theorem settleQuorum_settled {s s' : Store} {task : HumanTask} {timerId : String} {clock : Instant}
    {status : TaskStatus} {quorumMet : Bool}
    (h : settleQuorum s task timerId clock = .ok (s', status, quorumMet)) :
    Settled s task timerId clock s' status quorumMet := by
  unfold settleQuorum at h
  dsimp only at h
  split at h
  · next short =>
      cases h
      exact .pending short
  · next enough =>
      split at h
      · next agreed =>
          cases h
          exact .answered (not_lt.mp enough) agreed
      · split at h
        · cases h
        · next aggregate aggregateId _ =>
            split at h
            · cases h
            · next timers hins =>
                cases h
                exact .conflict aggregate aggregateId timers (not_lt.mp enough) hins

theorem Settled.records {s s' : Store} {task : HumanTask} {timerId : String} {clock : Instant}
    {status : TaskStatus} {quorumMet : Bool}
    (h : Settled s task timerId clock s' status quorumMet) :
    s'.responses = s.responses ∧ s'.delegations = s.delegations := by
  cases h <;> exact ⟨rfl, rfl⟩

theorem Settled.advances {s s' : Store} {task : HumanTask} {timerId : String} {clock : Instant}
    {status : TaskStatus} {quorumMet : Bool} (mem : task ∈ s.tasks) (isOpen : task.status = .open)
    (h : Settled s task timerId clock s' status quorumMet) : Advances s s' := by
  cases h with
  | pending short => exact .refl s
  | answered enough agreed => exact advances_setTaskStatus mem isOpen .answered
  | conflict aggregate aggregateId timers enough scheduled =>
      refine (advances_setTaskStatus mem isOpen .conflict).trans ?_
      exact .of_timers rfl (Timers.follow_insertNew scheduled)

structure Admitted (s : Store) (signal : Signal) (task : HumanTask) (authority : String) :
    Prop where
  row : s.tasks.get? signal.taskId = some task
  isOpen : task.status = .open
  allowed : signal.response ∈ task.spec.allowedResponses
  authorityOf : authorityOf s task signal.actor signal.onBehalfOf = .ok authority
  sod : gateSodReason s task.spec.gate authority task.spec.runId = none

theorem admit_admitted {s : Store} {signal : Signal} {task : HumanTask} {authority : String}
    (h : screenSignal s signal = .ok (.inr (task, authority))) : Admitted s signal task authority := by
  unfold screenSignal at h
  split at h
  · cases h
  · split at h
    · cases h
    · next row hrow =>
        split at h
        · cases h
        · next isOpen =>
            split at h
            · cases h
            · split at h
              · cases h
              · next allowed =>
                  split at h
                  · cases h
                  · next hauthority =>
                      split at h
                      · cases h
                      · next hsod =>
                          cases h
                          exact ⟨hrow, not_not.mp isOpen, not_not.mp allowed, hauthority, hsod⟩

theorem Admitted.authority_eq {s : Store} {signal : Signal} {task : HumanTask} {authority : String}
    (h : Admitted s signal task authority) :
    authority = signal.onBehalfOf.getD signal.actor.subject := by
  have hauthority := h.authorityOf
  unfold Gates.authorityOf at hauthority
  split at hauthority
  · next principal hprincipal =>
      split at hauthority
      · cases hauthority
      · split at hauthority
        · cases hauthority
        · split at hauthority
          · cases hauthority
          · cases hauthority
            simp [hprincipal]
  · next hnone =>
      split at hauthority
      · cases hauthority
      · cases hauthority
        simp [hnone]

theorem Admitted.eligible {s : Store} {signal : Signal} {task : HumanTask} {authority : String}
    (h : Admitted s signal task authority) :
    (∃ principal grant, signal.onBehalfOf = some principal ∧ grant ∈ s.delegations ∧
      grant.taskId = task.taskId ∧ grant.principal = principal) ∨
    (signal.onBehalfOf = none ∧ checkEligible task.spec signal.actor = .ok ()) := by
  have hauthority := h.authorityOf
  unfold Gates.authorityOf at hauthority
  split at hauthority
  · next principal hprincipal =>
      split at hauthority
      · cases hauthority
      · split at hauthority
        · cases hauthority
        · split at hauthority
          · cases hauthority
          · next grant hgrant =>
              obtain ⟨hmem, hkey⟩ := Table.get?_eq_some.mp hgrant
              simp only [Delegation.key, Prod.mk.injEq] at hkey
              exact Or.inl ⟨principal, grant, hprincipal, hmem, hkey.1, hkey.2.1⟩
  · next hnone =>
      split at hauthority
      · cases hauthority
      · next heligible => exact Or.inr ⟨hnone, heligible⟩

/-- What a submitted signal does: an early result, or a recorded answer and a
    decision on the quorum. -/
inductive Submitted (s : Store) (signal : Signal) (timerId : String) (clock : Instant) :
    Store → SignalResult → Prop where
  | early (result : SignalResult) (uncounted : result.counted = false) :
      Submitted s signal timerId clock s result
  | decided (task : HumanTask) (authority : String) (s' : Store) (status : TaskStatus)
      (quorumMet : Bool) (admits : screenSignal s signal = .ok (.inr (task, authority)))
      (settled : Settled (recordResponse s signal authority).1 task timerId clock s' status
        quorumMet) :
      Submitted s signal timerId clock s'
        ⟨signal.taskId, status, (recordResponse s signal authority).2, quorumMet⟩

theorem admit_early {s : Store} {signal : Signal} {result : SignalResult}
    (h : screenSignal s signal = .ok (.inl result)) : result.counted = false := by
  unfold screenSignal at h
  split at h
  · cases h
  · split at h
    · cases h
    · split at h
      · cases h
        rfl
      · split at h
        · cases h
          rfl
        · split at h
          · cases h
          · split at h
            · cases h
            · split at h <;> cases h

theorem submitHumanSignal_submitted {s s' : Store} {signal : Signal} {timerId : String}
    {clock : Instant} {result : SignalResult}
    (h : submitHumanSignal s signal timerId clock = .ok (s', result)) :
    Submitted s signal timerId clock s' result := by
  unfold submitHumanSignal at h
  split at h
  · cases h
  · next hearly =>
      cases h
      exact .early _ (admit_early hearly)
  · next task authority hadmit =>
      dsimp only at h
      split at h
      · cases h
      · next hsettle =>
          cases h
          exact .decided task authority _ _ _ hadmit (settleQuorum_settled hsettle)

theorem recordResponse_same (s : Store) (signal : Signal) (authority : String) :
    (recordResponse s signal authority).1.tasks = s.tasks ∧
    (recordResponse s signal authority).1.timers = s.timers ∧
    (recordResponse s signal authority).1.delegations = s.delegations ∧
    (recordResponse s signal authority).1.queue = s.queue := by
  unfold recordResponse
  split <;> exact ⟨rfl, rfl, rfl, rfl⟩

theorem Submitted.advances {s s' : Store} {signal : Signal} {timerId : String} {clock : Instant}
    {result : SignalResult} (h : Submitted s signal timerId clock s' result) : Advances s s' := by
  cases h with
  | early _ uncounted => exact .refl s
  | decided task authority _ status quorumMet admits settled =>
      have admitted := admit_admitted admits
      obtain ⟨tasks, timers, -⟩ := recordResponse_same s signal authority
      have mem : task ∈ (recordResponse s signal authority).1.tasks :=
        tasks ▸ Table.mem_of_get? admitted.row
      exact (Advances.of_timers tasks (timers ▸ .refl s.timers)).trans
        (settled.advances mem admitted.isOpen)

/-- The effect of a step on the responses, the grants and the tasks. -/
inductive StoreEffect (w : World) (a : Action) (w' : World) : Prop where
  | quiet (responses : w'.store.responses = w.store.responses)
      (delegations : w'.store.delegations = w.store.delegations)
      (status : ∀ t' ∈ w'.store.tasks, t'.status = .answered ∨ t'.status = .conflict →
        ∃ t ∈ w.store.tasks, t.taskId = t'.taskId ∧ t.status = t'.status)
  | granted (taskId : String) (principal grantedBy : Identity) (delegateSubject : String)
      (action : a = .grantTaskDelegation taskId principal delegateSubject grantedBy)
      (task : HumanTask) (row : w.store.tasks.get? taskId = some task)
      (eligible : checkEligible task.spec principal = .ok ())
      (tasks : w'.store.tasks = w.store.tasks) (responses : w'.store.responses = w.store.responses)
      (delegations : w'.store.delegations = w.store.delegations.insertNew
        ⟨taskId, principal.subject, delegateSubject, grantedBy.subject⟩)
  | submitted (signal : Signal) (timerId : String) (result : SignalResult)
      (action : a = .submitHumanSignal signal timerId)
      (submitted : Submitted w.store signal timerId w.now w'.store result)

theorem StoreEffect.quiet_of_tasks {w w' : World} {a : Action}
    (responses : w'.store.responses = w.store.responses)
    (delegations : w'.store.delegations = w.store.delegations)
    (tasks : w'.store.tasks = w.store.tasks) : StoreEffect w a w' := by
  apply StoreEffect.quiet responses delegations
  intro t' ht' _
  exact ⟨t', tasks ▸ ht', rfl, rfl⟩

theorem cancelTask_status {s s' : Store} {taskId : String} {newStatus : TaskStatus}
    (h : cancelTask s taskId newStatus = .ok s') {t' : HumanTask} (ht' : t' ∈ s'.tasks)
    (decided : t'.status = .answered ∨ t'.status = .conflict) :
    ∃ t ∈ s.tasks, t.taskId = t'.taskId ∧ t.status = t'.status := by
  unfold cancelTask at h
  split at h
  · cases h
  · next hstatus =>
      cases h
      obtain ⟨t, ht, rfl⟩ := mem_closeTask.mp ht'
      split at decided
      · rcases decided with rfl | rfl <;> simp at hstatus
      · next hp => exact ⟨t, ht, by simp [hp], by simp [hp]⟩

theorem cancelTasksOnRunAdvance_status {s s' : Store} {runId : String} {newStatus : TaskStatus}
    (h : cancelTasksOnRunAdvance s runId newStatus = .ok s') :
    ∀ t' ∈ s'.tasks, t'.status = .answered ∨ t'.status = .conflict →
      ∃ t ∈ s.tasks, t.taskId = t'.taskId ∧ t.status = t'.status := by
  apply Transition.foldlM_except_induction
    (P := fun x => ∀ t' ∈ x.tasks, t'.status = .answered ∨ t'.status = .conflict →
      ∃ t ∈ s.tasks, t.taskId = t'.taskId ∧ t.status = t'.status)
    _ (fun t' ht' _ => ⟨t', ht', rfl, rfl⟩) h
  intro taskId _ x x' before hcancel t' ht' decided
  obtain ⟨t, ht, hid, hstatus⟩ := cancelTask_status hcancel ht' decided
  obtain ⟨t₀, ht₀, hid₀, hstatus₀⟩ := before t ht (hstatus ▸ decided)
  exact ⟨t₀, ht₀, hid₀.trans hid, hstatus₀.trans hstatus⟩

theorem openTask_ok {s s' : Store} {spec : GateTaskSpec} {taskId : String}
    {timerIds : List String} {clock : Instant} (h : openTask s spec taskId timerIds clock = .ok s') :
    s'.responses = s.responses ∧ s'.delegations = s.delegations ∧
      s.tasks.insert? ⟨taskId, spec, 1, .open⟩ = some s'.tasks ∧ s.timers.Follow s'.timers := by
  unfold openTask at h
  split at h
  · cases h
  · next tasks hins =>
      split at h
      · cases h
        exact ⟨rfl, rfl, hins, .refl s.timers⟩
      · split at h
        · cases h
        · split at h
          · cases h
          · split at h
            · cases h
            · next timers hladder =>
                cases h
                exact ⟨rfl, rfl, hins, follow_insertLadder hladder⟩

theorem grantTaskDelegation_ok {s s' : Store} {taskId delegateSubject : String}
    {principal grantedBy : Identity}
    (h : grantTaskDelegation s taskId principal delegateSubject grantedBy = .ok s') :
    ∃ task, s.tasks.get? taskId = some task ∧ checkEligible task.spec principal = .ok () ∧
      s'.tasks = s.tasks ∧ s'.responses = s.responses ∧ s'.timers = s.timers ∧
      s'.delegations = s.delegations.insertNew
        ⟨taskId, principal.subject, delegateSubject, grantedBy.subject⟩ := by
  unfold grantTaskDelegation at h
  split at h
  · cases h
  · next task htask =>
      split at h
      · cases h
      · split at h
        · cases h
        · split at h
          · cases h
          · split at h
            · cases h
            · next heligible =>
                cases h
                exact ⟨task, htask, heligible, rfl, rfl, rfl, rfl⟩

theorem bumpTaskVersion_ok {s s' : Store} {taskId : String} (h : bumpTaskVersion s taskId = .ok s') :
    s' = { s with tasks := s.tasks.update taskId .bumped HumanTask.bumped_taskId } := by
  unfold bumpTaskVersion at h
  split at h <;> cases h
  rfl

theorem follows_bumped (s : Store) (taskId : String) :
    ∀ t ∈ s.tasks, ∃ t' ∈ s.tasks.update taskId .bumped HumanTask.bumped_taskId,
      t.Follows t' := by
  intro t ht
  refine ⟨_, Table.mem_update.mpr ⟨t, ht, rfl⟩, ?_⟩
  split
  · exact ⟨rfl, rfl, fun _ => rfl⟩
  · exact .refl t

theorem advances_committed {s : Store} {call : Except Failure Store}
    (ok : ∀ s', call = .ok s' → Advances s s') : Advances s (committed s call) := by
  cases call with
  | error failure => exact .refl s
  | ok s' => exact ok s' rfl

theorem step_advances {w w' : World} {a : Action} (h : step w a = some w') :
    Advances w.store w'.store := by
  cases a with
  | tick micros =>
      cases h
      exact .refl w.store
  | runEvent event =>
      cases h
      exact .of_timers rfl (.refl w.store.timers)
  | enqueue messageId partitionKey handler payload =>
      cases h
      exact .of_timers rfl (.refl w.store.timers)
  | openTask spec taskId timerIds =>
      cases h
      apply advances_committed
      intro s' hopen
      obtain ⟨-, -, hins, timers⟩ := openTask_ok hopen
      exact ⟨fun t ht => ⟨t, (Table.mem_insert? hins).mpr (Or.inl ht), .refl t⟩, timers⟩
  | bumpTaskVersion taskId =>
      cases h
      apply advances_committed
      intro s' hbump
      obtain rfl := bumpTaskVersion_ok hbump
      exact ⟨follows_bumped w.store taskId, .refl w.store.timers⟩
  | cancelTask taskId newStatus =>
      cases h
      exact advances_committed fun s' hcancel => advances_cancelTask hcancel
  | cancelTasksOnRunAdvance runId newStatus =>
      cases h
      exact advances_committed fun s' hcancel => (advances_cancelTasksOnRunAdvance hcancel).1
  | grantTaskDelegation taskId principal delegateSubject grantedBy =>
      cases h
      apply advances_committed
      intro s' hgrant
      obtain ⟨task, -, -, tasks, -, timers, -⟩ := grantTaskDelegation_ok hgrant
      exact .of_timers tasks (timers ▸ .refl w.store.timers)
  | submitHumanSignal signal timerId =>
      cases h
      apply advances_committed
      intro s' hsubmit
      cases hcall : submitHumanSignal w.store signal timerId w.now with
      | error failure => simp [hcall, Except.map] at hsubmit
      | ok returned =>
          simp only [hcall, Except.map, Except.ok.injEq] at hsubmit
          subst hsubmit
          exact (submitHumanSignal_submitted hcall).advances
  | scheduleTimer aggregate aggregateId timerId timer =>
      cases h
      refine .of_timers rfl ?_
      cases hcall : scheduleTimer w.store.timers aggregate aggregateId timerId timer with
      | none => exact .refl w.store.timers
      | some scheduled => exact follow_scheduleTimer hcall
  | pollDueTimers owner leaseSeconds batch now =>
      cases h
      exact .of_timers rfl (follow_pollDueTimers w.store.timers [] owner leaseSeconds batch now)
  | fireTimer timerId =>
      cases h
      exact .of_timers rfl fireTimer_effect.follow
  | cancelTimersForTask taskId =>
      cases h
      exact .of_timers rfl (follow_cancelTimersForTask w.store.timers taskId)

theorem step_effect {w w' : World} {a : Action} (h : step w a = some w') : StoreEffect w a w' := by
  cases a with
  | tick micros =>
      cases h
      exact .quiet_of_tasks rfl rfl rfl
  | runEvent event =>
      cases h
      exact .quiet_of_tasks rfl rfl rfl
  | enqueue messageId partitionKey handler payload =>
      cases h
      exact .quiet_of_tasks rfl rfl rfl
  | openTask spec taskId timerIds =>
      cases h
      cases hcall : openTask w.store spec taskId timerIds w.now with
      | error failure => exact .quiet_of_tasks rfl rfl rfl
      | ok s' =>
          obtain ⟨responses, delegations, hins, -⟩ := openTask_ok hcall
          apply StoreEffect.quiet responses delegations
          intro t' ht' decided
          rcases (Table.mem_insert? hins).mp ht' with old | rfl
          · exact ⟨t', old, rfl, rfl⟩
          · simp at decided
  | bumpTaskVersion taskId =>
      cases h
      cases hcall : bumpTaskVersion w.store taskId with
      | error failure => exact .quiet_of_tasks rfl rfl rfl
      | ok s' =>
          obtain rfl := bumpTaskVersion_ok hcall
          refine .quiet (by rfl) (by rfl) fun t' ht' _ => ?_
          obtain ⟨t, ht, rfl⟩ := (@Table.mem_update _ _ _ _ w.store.tasks taskId _
            HumanTask.bumped_taskId _).mp ht'
          refine ⟨t, ht, ?_, ?_⟩ <;> split <;> rfl
  | cancelTask taskId newStatus =>
      cases h
      cases hcall : cancelTask w.store taskId newStatus with
      | error failure => exact .quiet_of_tasks rfl rfl rfl
      | ok s' =>
          obtain ⟨responses, delegations⟩ := cancelTask_records hcall
          exact .quiet responses delegations fun t' => cancelTask_status hcall
  | cancelTasksOnRunAdvance runId newStatus =>
      cases h
      cases hcall : cancelTasksOnRunAdvance w.store runId newStatus with
      | error failure => exact .quiet_of_tasks rfl rfl rfl
      | ok s' =>
          obtain ⟨-, responses, delegations⟩ := advances_cancelTasksOnRunAdvance hcall
          exact .quiet responses delegations (cancelTasksOnRunAdvance_status hcall)
  | grantTaskDelegation taskId principal delegateSubject grantedBy =>
      cases h
      cases hcall : grantTaskDelegation w.store taskId principal delegateSubject grantedBy with
      | error failure => exact .quiet_of_tasks rfl rfl rfl
      | ok s' =>
          obtain ⟨task, htask, heligible, tasks, responses, -, delegations⟩ :=
            grantTaskDelegation_ok hcall
          exact .granted taskId principal grantedBy delegateSubject rfl task htask heligible tasks
            responses delegations
  | submitHumanSignal signal timerId =>
      cases h
      cases hcall : submitHumanSignal w.store signal timerId w.now with
      | error failure => exact .quiet_of_tasks rfl rfl rfl
      | ok returned =>
          exact .submitted signal timerId returned.2 rfl (submitHumanSignal_submitted hcall)
  | scheduleTimer aggregate aggregateId timerId timer =>
      cases h
      exact .quiet_of_tasks rfl rfl rfl
  | pollDueTimers owner leaseSeconds batch now =>
      cases h
      exact .quiet_of_tasks rfl rfl rfl
  | fireTimer timerId =>
      cases h
      exact .quiet_of_tasks rfl rfl rfl
  | cancelTimersForTask taskId =>
      cases h
      exact .quiet_of_tasks rfl rfl rfl

theorem run_advances {w₀ w : World} {as : List Action} (run : Transition.exec step w₀ as = some w) :
    Advances w₀.store w.store :=
  Transition.exec_induction (P := fun w => Advances w₀.store w.store) (.refl _)
    (fun _ _ _ inv h => inv.trans (step_advances h)) run

end FeatureGen.Gates
