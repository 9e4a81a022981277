import FeatureGen.Aggregates.RunLifecycle
import FeatureGen.Lib.Transition

/-! # Commands, interleaved

Any number of transactions run commands under READ COMMITTED. Every statement
sees the committed events and its transaction's own; an append is four of them:
the read of the head, the check of the expected version, the append lock, which
is held until the transaction ends, and the insert.
-/

namespace FeatureGen.Aggregates

open FeatureGen.Events

inductive Command where
  | reject (runId : String) (reason : Option String)
  | cancel (runId : String) (reason : Option String)
  | withdraw (runId : String) (reason : Option String)
  | park (runId : String) (owner waitingOnFact : Option String)
  | unpark (runId : String)
  | factConfirmedResume (aggregateId : Option String) (factKey : String)
  | selectCandidate (requestId : String) (selections : List Selection)
      (conceptKey : Option String) (candidatesExploredCount : Option ℤ)
  | controlSignals (rows : List ControlRow)

/-- The program of a command, its result dropped. -/
def Command.prog : Command → Prog Unit
  | .reject runId reason => rejectCommand runId reason >>= fun _ => pure ()
  | .cancel runId reason => cancelCommand runId reason >>= fun _ => pure ()
  | .withdraw runId reason => withdrawCommand runId reason >>= fun _ => pure ()
  | .park runId owner waitingOnFact => parkCommand runId owner waitingOnFact >>= fun _ => pure ()
  | .unpark runId => unparkCommand runId >>= fun _ => pure ()
  | .factConfirmedResume aggregateId factKey =>
      factConfirmedResumeCommand aggregateId factKey >>= fun _ => pure ()
  | .selectCandidate requestId selections conceptKey candidatesExploredCount =>
      selectCandidateCommand requestId selections conceptKey candidatesExploredCount >>=
        fun _ => pure ()
  | .controlSignals rows => drainControlSignals 0 rows >>= fun _ => pure ()

/-- How far an append has come, with its expected version. -/
inductive Phase where
  | reading
  | checking (expectedVersion : ℕ)
  | locking (expectedVersion : ℕ)
  | inserting (expectedVersion : ℕ)

/-- A command under way. -/
structure Running where
  prog : Prog Unit
  phase : Phase

/-- A command about to execute its next statement. -/
def Prog.next (prog : Prog Unit) : Running := ⟨prog, .reading⟩

/-- An open transaction: its own uncommitted events and the command it runs. -/
structure Tx where
  events : List Row
  running : Option Running

structure World where
  committed : List Row
  /-- Who holds the append lock. -/
  lock : Option ℕ
  txs : ℕ → Option Tx

/-- What a statement draws. -/
structure Drawn where
  minted : String
  globalSeq : ℕ
  tableVersion : ℕ

inductive Action where
  | begin (tx : ℕ)
  | call (tx : ℕ) (command : Command)
  /-- The transaction's command executes its next statement. -/
  | advance (tx : ℕ) (drawn : Drawn)
  /-- Back to a savepoint that kept this many of its events. -/
  | rollbackToSavepoint (tx kept : ℕ)
  | commit (tx : ℕ)
  /-- The transaction rolls back, or its client dies. -/
  | rollback (tx : ℕ)

def World.set (w : World) (tx : ℕ) (t : Option Tx) : World :=
  { w with txs := Function.update w.txs tx t }

/-- The end of a transaction: its lock goes with it. -/
def World.closed (w : World) (tx : ℕ) : World :=
  { w.set tx none with lock := if w.lock = some tx then none else w.lock }

/-- The next statement of an append. -/
def advanceAppend (accepts : NewEvent Detail → Bool) (w : World) (tx : ℕ) (events : List Row)
    (event : NewEvent Detail) (expected : Option ℕ) (next : Row → Prog Unit) (drawn : Drawn)
    (phase : Phase) : Option World :=
  let at_ (phase : Phase) : Option Tx := some ⟨events, some ⟨.append event expected next, phase⟩⟩
  let raised (error : AppendError) : Option Tx :=
    some ⟨events, some (Prog.next (.done (.error error)))⟩
  match phase with
  | .reading =>
      let head := currentVersion (w.committed ++ events) event.aggregate event.aggregateId
      some (w.set tx (at_ (.checking (expected.getD head))))
  | .checking version =>
      match checkAppend accepts (w.committed ++ events) event version with
      | .ok () => some (w.set tx (at_ (.locking version)))
      | .error error => some (w.set tx (raised error))
  | .locking version =>
      if w.lock = none ∨ w.lock = some tx then
        some { w.set tx (at_ (.inserting version)) with lock := some tx }
      else none
  | .inserting version =>
      let row := event.row version drawn.tableVersion drawn.minted drawn.globalSeq
      -- nobody else has uncommitted rows while this one holds the lock
      match insertEvent (w.committed ++ events) row false with
      | .ok row => some (w.set tx (some ⟨events ++ [row], some (next row).next⟩))
      | .error error => some (w.set tx (raised error))

def step (accepts : NewEvent Detail → Bool) (w : World) : Action → Option World
  | .begin tx =>
      match w.txs tx with
      | none => some (w.set tx (some ⟨[], none⟩))
      | some _ => none
  | .call tx command =>
      match w.txs tx with
      | some ⟨events, none⟩ => some (w.set tx (some ⟨events, some command.prog.next⟩))
      | _ => none
  | .advance tx drawn =>
      match w.txs tx with
      | some ⟨events, some ⟨.done _, _⟩⟩ => some (w.set tx (some ⟨events, none⟩))
      | some ⟨events, some ⟨.select next, _⟩⟩ =>
          some (w.set tx (some ⟨events, some (next (w.committed ++ events)).next⟩))
      | some ⟨events, some ⟨.mint next, _⟩⟩ =>
          some (w.set tx (some ⟨events, some (next drawn.minted).next⟩))
      | some ⟨events, some ⟨.append event expected next, phase⟩⟩ =>
          advanceAppend accepts w tx events event expected next drawn phase
      | _ => none
  | .rollbackToSavepoint tx kept =>
      match w.txs tx with
      | some ⟨events, none⟩ => some (w.set tx (some ⟨events.take kept, none⟩))
      | _ => none
  | .commit tx =>
      match w.txs tx with
      | some ⟨events, none⟩ => some { w.closed tx with committed := w.committed ++ events }
      | _ => none
  | .rollback tx => some (w.closed tx)

@[simp] theorem World.set_txs (w : World) (tx : ℕ) (t : Option Tx) : (w.set tx t).txs tx = t := by
  simp [World.set]

section Solo

variable {accepts : NewEvent Detail → Bool} {draws : Draws} {w : World} {tx : ℕ}
  {events : List Row}

/-- The transaction gets from one world to another by its command's statements alone. -/
def Advances (accepts : NewEvent Detail → Bool) (tx : ℕ) (w w' : World) : Prop :=
  ∃ drawn : List Drawn, Transition.exec (step accepts) w (drawn.map (Action.advance tx)) = some w'

theorem Advances.single {w' : World} (drawn : Drawn)
    (h : step accepts w (.advance tx drawn) = some w') : Advances accepts tx w w' :=
  ⟨[drawn], by rw [List.map_singleton, Transition.exec_single, h]⟩

theorem Advances.trans {w' w'' : World} (h : Advances accepts tx w w')
    (h' : Advances accepts tx w' w'') : Advances accepts tx w w'' := by
  obtain ⟨drawn, run⟩ := h
  obtain ⟨drawn', run'⟩ := h'
  exact ⟨drawn ++ drawn', by
    rw [List.map_append, Transition.exec_append_eq_some]
    exact ⟨w', run, run'⟩⟩

/-- The transaction after an append. -/
def appended (events : List Row) (next : Row → Prog Unit) : Except AppendError Row → Tx
  | .ok row => ⟨events ++ [row], some (next row).next⟩
  | .error error => ⟨events, some (Prog.next (.done (.error error)))⟩

theorem Advances.append {event : NewEvent Detail} {expected : Option ℕ} {next : Row → Prog Unit}
    (ht : w.txs tx = some ⟨events, some (Prog.next (.append event expected next))⟩)
    (free : w.lock = none ∨ w.lock = some tx) :
    ∃ w', Advances accepts tx w w' ∧ w'.committed = w.committed ∧
      (w'.lock = none ∨ w'.lock = some tx) ∧ w'.txs tx =
        some (appended events next (appendEvent accepts draws (w.committed ++ events) event
          (expected.getD (currentVersion (w.committed ++ events) event.aggregate
            event.aggregateId)))) := by
  let log := w.committed ++ events
  let drawn : Drawn := ⟨draws.minted log, draws.globalSeq log, draws.tableVersion log⟩
  let version := expected.getD (currentVersion log event.aggregate event.aggregateId)
  let w₁ := w.set tx (some ⟨events, some ⟨.append event expected next, .checking version⟩⟩)
  have read : Advances accepts tx w w₁ := .single drawn (by
    simp only [step, ht, Prog.next, advanceAppend]
    rfl)
  cases hcheck : checkAppend accepts log event version with
  | error error =>
      refine ⟨w₁.set tx (some ⟨events, some (Prog.next (.done (.error error)))⟩),
        read.trans (.single drawn ?_), rfl, free, ?_⟩
      · have seen : checkAppend accepts (w₁.committed ++ events) event version = .error error := hcheck
        simp only [step, w₁, World.set_txs, advanceAppend] at seen ⊢
        rw [seen]
      · have result : appendEvent accepts draws log event version = .error error := by
          rw [appendEvent, hcheck]
          rfl
        rw [World.set_txs]
        exact congrArg (fun result => some (appended events next result)) result.symm
  | ok _ =>
      let w₂ := w₁.set tx (some ⟨events, some ⟨.append event expected next, .locking version⟩⟩)
      let w₃ : World := { w₂.set tx (some ⟨events, some ⟨.append event expected next,
        .inserting version⟩⟩) with lock := some tx }
      have checked : Advances accepts tx w₁ w₂ := .single drawn (by
        have seen : checkAppend accepts (w₁.committed ++ events) event version = .ok () := hcheck
        simp only [step, w₁, World.set_txs, advanceAppend] at seen ⊢
        rw [seen])
      have locked : Advances accepts tx w₂ w₃ := .single drawn (by
        simp only [step, w₂, World.set_txs, advanceAppend]
        exact if_pos free)
      let row := event.row version drawn.tableVersion drawn.minted drawn.globalSeq
      cases hinsert : insertEvent log row false with
      | error error =>
          refine ⟨w₃.set tx (some ⟨events, some (Prog.next (.done (.error error)))⟩),
            ((read.trans checked).trans locked).trans (.single drawn ?_), rfl,
            Or.inr rfl, ?_⟩
          · have seen : insertEvent (w₃.committed ++ events) row false = .error error := hinsert
            simp only [step, w₃, World.set_txs, advanceAppend, row] at seen ⊢
            rw [seen]
          · have result : appendEvent accepts draws log event version = .error error := by
              rw [appendEvent, hcheck]
              exact hinsert
            rw [World.set_txs]
            exact congrArg (fun result => some (appended events next result)) result.symm
      | ok row' =>
          refine ⟨w₃.set tx (some ⟨events ++ [row'], some (next row').next⟩),
            ((read.trans checked).trans locked).trans (.single drawn ?_), rfl,
            Or.inr rfl, ?_⟩
          · have seen : insertEvent (w₃.committed ++ events) row false = .ok row' := hinsert
            simp only [step, w₃, World.set_txs, advanceAppend, row] at seen ⊢
            rw [seen]
          · have result : appendEvent accepts draws log event version = .ok row' := by
              rw [appendEvent, hcheck]
              exact hinsert
            rw [World.set_txs]
            exact congrArg (fun result => some (appended events next result)) result.symm

/-- Where the append lock is free, a transaction's command comes to its end by its own statements,
    and leaves what its program leaves run in one go. -/
theorem exec_solo {prog : Prog Unit} (ht : w.txs tx = some ⟨events, some prog.next⟩)
    (free : w.lock = none ∨ w.lock = some tx) :
    ∃ w' events', Advances accepts tx w w' ∧ w'.committed = w.committed ∧
      w'.txs tx = some ⟨events', none⟩ ∧
      w.committed ++ events' = (prog.run accepts draws (w.committed ++ events)).2 := by
  induction prog generalizing w events with
  | done result =>
      refine ⟨w.set tx (some ⟨events, none⟩), events, .single ⟨"", 0, 0⟩ ?_, rfl, ?_, rfl⟩
      · simp only [step, ht, Prog.next]
      · exact World.set_txs ..
  | select next ih =>
      have first : Advances accepts tx w
          (w.set tx (some ⟨events, some (next (w.committed ++ events)).next⟩)) :=
        .single ⟨"", 0, 0⟩ (by simp only [step, ht, Prog.next])
      obtain ⟨w', events', rest, same, idle, log⟩ :=
        @ih _ (w.set tx (some ⟨events, some (next (w.committed ++ events)).next⟩)) events
          (World.set_txs ..) free
      exact ⟨w', events', first.trans rest, same, idle, log⟩
  | mint next ih =>
      let minted := draws.minted (w.committed ++ events)
      have first : Advances accepts tx w (w.set tx (some ⟨events, some (next minted).next⟩)) :=
        .single ⟨minted, 0, 0⟩ (by simp only [step, ht, Prog.next])
      obtain ⟨w', events', rest, same, idle, log⟩ :=
        @ih minted (w.set tx (some ⟨events, some (next minted).next⟩)) events
          (World.set_txs ..) free
      exact ⟨w', events', first.trans rest, same, idle, log⟩
  | append event expected next ih =>
      obtain ⟨w₁, first, same, free₁, ht₁⟩ :=
        @Advances.append accepts draws w tx events event expected next ht free
      rw [Prog.run]
      cases hresult : appendEvent accepts draws (w.committed ++ events) event (expected.getD
          (currentVersion (w.committed ++ events) event.aggregate event.aggregateId)) with
      | ok row =>
          rw [hresult] at ht₁
          obtain ⟨w', events', rest, same', idle, log⟩ := ih row ht₁ free₁
          refine ⟨w', events', first.trans rest, same'.trans same, idle, ?_⟩
          rwa [same, ← List.append_assoc] at log
      | error error =>
          rw [hresult] at ht₁
          refine ⟨w₁.set tx (some ⟨events, none⟩), events,
            first.trans (.single ⟨"", 0, 0⟩ ?_), same, World.set_txs .., rfl⟩
          simp only [step, ht₁, appended, Prog.next]

/-- Two open transactions, one of them about to reject a run. -/
def rejecting : World where
  committed := []
  lock := none
  txs tx := if tx = 0 then some ⟨[], some (Command.reject "run-1" none).prog.next⟩
    else some ⟨[], none⟩

theorem exec_solo_rejecting :
    ∃ w' events', Advances (fun _ => true) 0 rejecting w' ∧ w'.committed = rejecting.committed ∧
      w'.txs 0 = some ⟨events', none⟩ ∧
      rejecting.committed ++ events' = ((Command.reject "run-1" none).prog.run (fun _ => true)
        longerIds (rejecting.committed ++ [])).2 :=
  exec_solo (show rejecting.txs 0 = _ from rfl) (Or.inl rfl)

end Solo

end FeatureGen.Aggregates
