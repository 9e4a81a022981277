import FeatureGen.Lib.Table
import FeatureGen.Lib.Transition
import FeatureGen.Projections.Runner

/-! # Appends and projections, interleaved

Any number of transactions append to the log and any number of projections read
it. A statement sees what is committed and its own transaction's writes. A
number drawn from the sequence is gone whatever becomes of its row; the append
lock belongs to the top-level transaction, so neither a lost race nor a
savepoint gives it back; a projection's run holds its checkpoint row, and reads
committed events only.
-/

namespace FeatureGen.Projections

open FeatureGen.Events

/-- An `append_event` that has passed its checks. -/
structure Append (π : Type) where
  event : NewEvent π
  expectedVersion : ℕ
  tableVersion : ℕ
  /-- It has taken the append lock. -/
  locked : Bool

/-- An open transaction. -/
structure Tx (π : Type) where
  id : ℕ
  /-- Its own uncommitted events, oldest first. -/
  events : List (Event π)
  /-- How many of them each open savepoint keeps, innermost first. -/
  savepoints : List ℕ
  append : Option (Append π)

/-- A `run_projection` under way, with its checkpoint row locked. -/
inductive Run (π S : Type) where
  | locked
  | read (rows : List (Event π))
  /-- What it will commit. -/
  | applied (stored : Stored π S)

structure World (π S : Type) where
  /-- The committed events, in commit order. -/
  committed : List (Event π)
  /-- The next value of `global_seq_seq`. -/
  nextSeq : ℕ
  /-- Who holds the append lock. -/
  lock : Option ℕ
  txs : Table (Tx.id (π := π))
  stored : String → Stored π S
  runs : String → Option (Run π S)

structure Deployment (π S : Type) where
  /-- The event registry and the inline-PII check. -/
  accepts : NewEvent π → Bool
  projection : String → Projection π S

inductive Action (π : Type) where
  | begin (tx : ℕ)
  | appendCheck (tx : ℕ) (event : NewEvent π) (expectedVersion tableVersion : ℕ)
  | appendLock (tx : ℕ)
  | appendInsert (tx : ℕ) (eventId : String) (fault : Bool)
  | savepoint (tx : ℕ)
  | rollbackToSavepoint (tx : ℕ)
  | releaseSavepoint (tx : ℕ)
  | commit (tx : ℕ)
  /-- The transaction rolls back, or its client dies. -/
  | rollback (tx : ℕ)
  /-- Other tables draw from the same sequence. -/
  | drawSeq
  | projectLock (name : String)
  | projectRead (name : String) (batch : ℕ)
  | projectApply (name : String)
  | projectCommit (name : String)
  | projectAbort (name : String)

section System

variable {π S : Type}

def Tx.waiting (append : Option (Append π)) (tx : Tx π) : Tx π := { tx with append := append }

theorem Tx.waiting_id (append : Option (Append π)) (tx : Tx π) :
    (tx.waiting append).id = tx.id := rfl

/-- The transaction after an insert: its append is over, whatever came of it. -/
def Tx.inserted (result : Except AppendError (Event π)) (tx : Tx π) : Tx π :=
  match result with
  | .ok row => { tx with events := tx.events ++ [row], append := none }
  | .error _ => { tx with append := none }

theorem Tx.inserted_id (result : Except AppendError (Event π)) (tx : Tx π) :
    (tx.inserted result).id = tx.id := by
  cases result <;> rfl

def Tx.withSavepoints (savepoints : List ℕ) (tx : Tx π) : Tx π :=
  { tx with savepoints := savepoints }

theorem Tx.withSavepoints_id (savepoints : List ℕ) (tx : Tx π) :
    (tx.withSavepoints savepoints).id = tx.id := rfl

/-- Back to a savepoint that kept `kept` events. -/
def Tx.rolledBack (kept : ℕ) (savepoints : List ℕ) (tx : Tx π) : Tx π :=
  { tx with events := tx.events.take kept, savepoints := savepoints }

theorem Tx.rolledBack_id (kept : ℕ) (savepoints : List ℕ) (tx : Tx π) :
    (tx.rolledBack kept savepoints).id = tx.id := rfl

/-- The end of a transaction: its lock goes with it. -/
def World.closed (w : World π S) (tx : ℕ) : World π S :=
  { w with
    lock := if w.lock = some tx then none else w.lock
    txs := w.txs.deleteWhere fun t => t.id = tx }

def World.setRun (w : World π S) (name : String) (run : Option (Run π S)) : World π S :=
  { w with runs := Function.update w.runs name run }

def step (d : Deployment π S) (w : World π S) : Action π → Option (World π S)
  | .begin tx => (w.txs.insert? ⟨tx, [], [], none⟩).map fun txs => { w with txs := txs }
  | .appendCheck tx event expectedVersion tableVersion =>
      match w.txs.get? tx with
      | some ⟨_, events, _, none⟩ =>
          match checkAppend d.accepts (w.committed ++ events) event expectedVersion with
          | .error _ => some w
          | .ok () =>
              let append := some ⟨event, expectedVersion, tableVersion, false⟩
              some { w with txs := w.txs.update tx (Tx.waiting append) (Tx.waiting_id append) }
      | _ => none
  | .appendLock tx =>
      match w.txs.get? tx with
      | some ⟨_, _, _, some ⟨event, expectedVersion, tableVersion, false⟩⟩ =>
          if w.lock = none ∨ w.lock = some tx then
            let append := some ⟨event, expectedVersion, tableVersion, true⟩
            some { w with
              lock := some tx
              txs := w.txs.update tx (Tx.waiting append) (Tx.waiting_id append) }
          else none
      | _ => none
  | .appendInsert tx eventId fault =>
      match w.txs.get? tx with
      | some ⟨_, events, _, some ⟨event, expectedVersion, tableVersion, true⟩⟩ =>
          let row := event.row expectedVersion tableVersion eventId w.nextSeq
          -- another transaction's uncommitted row under the same key makes this one wait
          if ∃ t ∈ w.txs, t.id ≠ tx ∧ ∃ e ∈ t.events, e.position = row.position then none
          else
            let result := insertEvent (w.committed ++ events) row fault
            some { w with
              nextSeq := w.nextSeq + 1
              txs := w.txs.update tx (Tx.inserted result) (Tx.inserted_id result) }
      | _ => none
  | .savepoint tx =>
      match w.txs.get? tx with
      | some ⟨_, events, savepoints, none⟩ =>
          let savepoints := events.length :: savepoints
          some { w with txs :=
            w.txs.update tx (Tx.withSavepoints savepoints) (Tx.withSavepoints_id savepoints) }
      | _ => none
  | .rollbackToSavepoint tx =>
      match w.txs.get? tx with
      | some ⟨_, _, kept :: savepoints, none⟩ =>
          some { w with txs :=
            w.txs.update tx (Tx.rolledBack kept savepoints) (Tx.rolledBack_id kept savepoints) }
      | _ => none
  | .releaseSavepoint tx =>
      match w.txs.get? tx with
      | some ⟨_, _, _ :: savepoints, none⟩ =>
          some { w with txs :=
            w.txs.update tx (Tx.withSavepoints savepoints) (Tx.withSavepoints_id savepoints) }
      | _ => none
  | .commit tx =>
      match w.txs.get? tx with
      | some ⟨_, events, _, none⟩ =>
          some { w.closed tx with committed := w.committed ++ events }
      | _ => none
  | .rollback tx => some (w.closed tx)
  | .drawSeq => some { w with nextSeq := w.nextSeq + 1 }
  | .projectLock name =>
      match w.runs name with
      | none => some (w.setRun name (some .locked))
      | some _ => none
  | .projectRead name batch =>
      match w.runs name with
      | some .locked =>
          let rows := nextEvents w.committed (w.stored name).checkpointSeq batch
          some (w.setRun name (some (.read rows)))
      | _ => none
  | .projectApply name =>
      match w.runs name with
      | some (.read rows) =>
          match applyRows (d.projection name) rows (w.stored name) with
          | none => some (w.setRun name none)
          | some stored =>
              let stored := { stored with headSeq := headSeq w.committed }
              some (w.setRun name (some (.applied stored)))
      | _ => none
  | .projectCommit name =>
      match w.runs name with
      | some (.applied stored) =>
          some { w.setRun name none with stored := Function.update w.stored name stored }
      | _ => none
  | .projectAbort name => some (w.setRun name none)

/-- An empty log nobody writes to or reads yet; the projections' tables are arbitrary. -/
def Init (w : World π S) : Prop :=
  w.committed = [] ∧ 0 < w.nextSeq ∧ w.lock = none ∧ w.txs.rows = [] ∧
    (∀ name, (w.stored name).checkpointSeq = 0 ∧ (w.stored name).applied = []) ∧
    ∀ name, w.runs name = none

/-- One whole `run_projection`. -/
def runProjection (name : String) (batch : ℕ) : List (Action π) :=
  [.projectLock name, .projectRead name batch, .projectApply name, .projectCommit name]

end System

end FeatureGen.Projections
