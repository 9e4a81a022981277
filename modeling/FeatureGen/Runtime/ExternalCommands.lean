import FeatureGen.Lib.Transition
import FeatureGen.Runtime.CostBudget

/-! # External commands

`runtime/external_commands.py` over the `external_commands` table, and the
workers that drive it on their autocommit connections: every claim is one
statement that commits by itself, the integration is called outside any
transaction, and `_finalize` is one transaction. A worker can die, or fall
arbitrarily far behind, between any two of them.

What an integration answers is up to the environment.
-/

namespace FeatureGen.Runtime.External

inductive CommandStatus where
  | pending
  | dispatched
  | succeeded
  | failed
  | staleIgnored
  deriving DecidableEq

def CommandStatus.final : CommandStatus → Bool
  | .succeeded | .failed | .staleIgnored => true
  | .pending | .dispatched => false

/-- A value of a stored result: the integration's own, or one the runtime adds. -/
inductive ResultValue (ρ : Type) where
  | given (value : ρ)
  | bool (value : Bool)
  | text (value : String)

/-- A JSON object, as what each key maps to. -/
abbrev Document (ν : Type) := String → Option ν

/-- A row of `external_commands`. -/
structure ExternalCommand (π ρ : Type) where
  commandId : String
  idempotencyKey : String
  runId : Option String
  integration : String
  requestPayload : π
  expectedRunId : Option String
  expectedStreamVersion : Option ℤ
  expectedTaskId : Option String
  jobHandle : Option String
  dedupSupported : Bool
  status : CommandStatus
  result : Option (Document (ResultValue ρ))
  costUnits : Option StoredCost
  attempts : ℕ
  dispatchedAt : Option Instant
  completedAt : Option Instant
  createdAt : Instant
  nextAttemptAt : Option Instant

structure NewExternalCommand (π : Type) where
  integration : String
  idempotencyKey : String
  requestPayload : π
  expectedRunId : Option String
  expectedStreamVersion : Option ℤ
  expectedTaskId : Option String
  jobHandle : Option String
  dedupSupported : Bool

structure IntegrationResult (ρ : Type) where
  ok : Bool
  result : Document ρ
  costUnits : Option DecimalValue
  jobHandle : Option String
  permanent : Bool

/-- How a dispatch came to its answer. -/
structure DispatchFlags where
  reinvoked : Bool
  residual : Bool
  reconciled : Bool

structure DispatchOutcome where
  commandId : String
  status : CommandStatus
  flags : DispatchFlags

structure ClaimedExternal (π : Type) where
  commandId : String
  integration : String
  payload : π
  jobHandle : Option String
  dedupSupported : Bool

/-- What `_finalize` reads from the environment variables of its process; no
    ceilings when they are malformed. -/
structure FinalizeConfig where
  externalMaxAttempts : ℤ
  ceilings : Option CostCeilings

abbrev Commands (π ρ : Type) := Table (ExternalCommand.commandId (π := π) (ρ := ρ))

structure Store (π ρ : Type) where
  commands : Commands π ρ
  budget : Budget

section Ops

variable {π ρ : Type}

inductive RecordError where
  /-- `HighCostWithoutDedup`. -/
  | highCostWithoutDedup (integration : String)
  /-- The command id is taken. -/
  | uniqueViolation

/-- `record_external_command`: a duplicate returns the original's id. -/
def recordExternalCommand (commands : Commands π ρ) (cmd : NewExternalCommand π)
    (commandId : String) (runId : Option String) (requireDedup : List String) (now : Instant) :
    Except RecordError (Commands π ρ × String) :=
  if cmd.integration ∈ requireDedup ∧ cmd.dedupSupported = false ∧ cmd.jobHandle = none then
    .error (.highCostWithoutDedup cmd.integration)
  else
    match commands.rows.find? fun r => r.idempotencyKey = cmd.idempotencyKey with
    | some row => .ok (commands, row.commandId)
    | none =>
        match commands.insert? {
            commandId := commandId
            idempotencyKey := cmd.idempotencyKey
            runId := runId
            integration := cmd.integration
            requestPayload := cmd.requestPayload
            expectedRunId := cmd.expectedRunId
            expectedStreamVersion := cmd.expectedStreamVersion
            expectedTaskId := cmd.expectedTaskId
            jobHandle := cmd.jobHandle
            dedupSupported := cmd.dedupSupported
            status := .pending
            result := none
            costUnits := none
            attempts := 0
            dispatchedAt := none
            completedAt := none
            createdAt := now
            nextAttemptAt := none } with
        | some commands => .ok (commands, commandId)
        | none => .error .uniqueViolation

/-- The columns a first dispatch sets. -/
def ExternalCommand.dispatched (now : Instant) (row : ExternalCommand π ρ) :
    ExternalCommand π ρ :=
  { row with status := .dispatched, dispatchedAt := some now, attempts := row.attempts + 1 }

theorem ExternalCommand.dispatched_commandId (now : Instant) (row : ExternalCommand π ρ) :
    (row.dispatched now).commandId = row.commandId := rfl

def ExternalCommand.claim (row : ExternalCommand π ρ) : ClaimedExternal π where
  commandId := row.commandId
  integration := row.integration
  payload := row.requestPayload
  jobHandle := row.jobHandle
  dedupSupported := row.dedupSupported

def createdBefore (r r' : ExternalCommand π ρ) : Bool := r.createdAt < r'.createdAt

/-- The oldest due pending row of these integrations that no transaction holds locked. -/
def selectPending (commands : Commands π ρ) (registered locked : List String) (now : Instant) :
    Option (ExternalCommand π ρ) :=
  firstBy createdBefore (commands.rows.filter fun r =>
    r.status = .pending ∧ r.integration ∈ registered ∧
      (∀ due ∈ r.nextAttemptAt, due ≤ now) ∧ r.commandId ∉ locked)

def claimNextPending (commands : Commands π ρ) (registered locked : List String) (now : Instant) :
    Commands π ρ × Option (ClaimedExternal π) :=
  match selectPending commands registered locked now with
  | none => (commands, none)
  | some row =>
      (commands.update row.commandId (ExternalCommand.dispatched now)
        (ExternalCommand.dispatched_commandId now), some (row.dispatched now).claim)

def ExternalCommand.restamped (now : Instant) (row : ExternalCommand π ρ) :
    ExternalCommand π ρ :=
  { row with dispatchedAt := some now }

theorem ExternalCommand.restamped_commandId (now : Instant) (row : ExternalCommand π ρ) :
    (row.restamped now).commandId = row.commandId := rfl

/-- Insertion by dispatch time, as `ORDER BY dispatched_at` returns them. -/
def insertByDispatch (r : ExternalCommand π ρ) :
    List (ExternalCommand π ρ) → List (ExternalCommand π ρ)
  | [] => [r]
  | r' :: rs =>
      if r.dispatchedAt.getD 0 ≤ r'.dispatchedAt.getD 0 then r :: r' :: rs
      else r' :: insertByDispatch r rs

/-- The rows a sweep claims: dispatched longer ago than `staleAfterSeconds`. -/
def selectStale (commands : Commands π ρ) (registered locked : List String)
    (staleAfterSeconds : ℚ) (now : Instant) (limit : ℕ) : List String :=
  let stale := commands.rows.filter fun r =>
    r.status = .dispatched ∧ r.integration ∈ registered ∧
      (∃ sent ∈ r.dispatchedAt, sent < now - makeInterval staleAfterSeconds) ∧
      r.commandId ∉ locked
  ((stale.foldr insertByDispatch []).take limit).map (·.commandId)

/-- `claim_stale_dispatched`: the rows it re-stamps, with their integrations. -/
def claimStaleDispatched (commands : Commands π ρ) (registered locked : List String)
    (staleAfterSeconds : ℚ) (now : Instant) (limit : ℕ) :
    Commands π ρ × List (String × String) :=
  let ids := selectStale commands registered locked staleAfterSeconds now limit
  (commands.updateWhere (fun r => r.commandId ∈ ids) (ExternalCommand.restamped now)
    (ExternalCommand.restamped_commandId now),
    (commands.rows.filter fun r => r.commandId ∈ ids).map fun r => (r.commandId, r.integration))

def flagResidual (result : Document ρ) (residual : Bool) : Document (ResultValue ρ) := fun key =>
  if residual ∧ key = "_residual_duplicate_risk" then some (.bool true)
  else (result key).map .given

/-- The result of a command that ran out of attempts: its own keys win. -/
def deadLettered (result : Document ρ) : Document (ResultValue ρ) := fun key =>
  match result key with
  | some value => some (.given value)
  | none => if key = "_dlq" then some (.text "max_attempts_exhausted") else none

/-- `_record_external_cost`; none on a database error, which rolls the finalize back. -/
def recordExternalCost (b : Budget) (commandId : String) (runId : Option String)
    (costUnits : Option DecimalValue) (ceilings : Option CostCeilings) (now : Instant) :
    Option Budget :=
  match runId, costUnits with
  | some runId, some (.finite delta) =>
      if delta < 0 then some b
      else
        match recordCost b commandId runId delta with
        | .error (.keyError _) => some b
        | .error .numericOverflow => none
        | .ok (b, _) =>
            match ceilings with
            | none => some b
            | some ceilings =>
                match checkCostBreaker b runId ceilings with
                | some ⟨true, some ceiling, _, _⟩ => some (tripCostBreaker b runId ceiling now).1
                | _ => some b
  | _, _ => some b

def ExternalCommand.succeeded (result : Document (ResultValue ρ)) (costUnits : Option StoredCost)
    (jobHandle : Option String) (now : Instant) (row : ExternalCommand π ρ) :
    ExternalCommand π ρ :=
  { row with
    status := .succeeded
    result := some result
    costUnits := costUnits
    completedAt := some now
    jobHandle := jobHandle.or row.jobHandle }

theorem ExternalCommand.succeeded_commandId (result : Document (ResultValue ρ))
    (costUnits : Option StoredCost) (jobHandle : Option String) (now : Instant)
    (row : ExternalCommand π ρ) :
    (row.succeeded result costUnits jobHandle now).commandId = row.commandId := rfl

def ExternalCommand.failed (result : Document (ResultValue ρ)) (now : Instant)
    (row : ExternalCommand π ρ) : ExternalCommand π ρ :=
  { row with status := .failed, result := some result, completedAt := some now }

theorem ExternalCommand.failed_commandId (result : Document (ResultValue ρ)) (now : Instant)
    (row : ExternalCommand π ρ) : (row.failed result now).commandId = row.commandId := rfl

def ExternalCommand.reopened (nextAttemptAt : Instant) (row : ExternalCommand π ρ) :
    ExternalCommand π ρ :=
  { row with status := .pending, nextAttemptAt := some nextAttemptAt }

theorem ExternalCommand.reopened_commandId (nextAttemptAt : Instant) (row : ExternalCommand π ρ) :
    (row.reopened nextAttemptAt).commandId = row.commandId := rfl

/-- The cost column of a result: none inside when there is none, none outside on overflow. -/
def storeCost : Option DecimalValue → Option (Option StoredCost)
  | none => some none
  | some cost => cost.store.map some

/-- `_finalize`, one transaction; none when it raises and rolls back. `clock` is
    the database's `now()`, `draw` the jitter of the backoff. -/
def finalize (s : Store π ρ) (commandId : String) (res : IntegrationResult ρ) (now : Instant)
    (flags : DispatchFlags) (config : FinalizeConfig) (clock : Instant) (draw : ℚ) :
    Option (Store π ρ × DispatchOutcome) :=
  match s.commands.get? commandId with
  | none => none
  | some row =>
      if row.status.final then some (s, ⟨commandId, row.status, flags⟩)
      else if res.ok then
        match storeCost res.costUnits,
          recordExternalCost s.budget commandId row.runId res.costUnits config.ceilings clock with
        | some cost, some budget =>
            let result := flagResidual res.result flags.residual
            some ({
              commands := s.commands.update commandId
                (ExternalCommand.succeeded result cost res.jobHandle now)
                (ExternalCommand.succeeded_commandId result cost res.jobHandle now)
              budget := budget }, ⟨commandId, .succeeded, flags⟩)
        | _, _ => none
      else if res.permanent then
        let result : Document (ResultValue ρ) := fun key => (res.result key).map .given
        some ({ s with
          commands := s.commands.update commandId (ExternalCommand.failed result now)
            (ExternalCommand.failed_commandId result now) }, ⟨commandId, .failed, flags⟩)
      else if config.externalMaxAttempts ≤ row.attempts then
        let result := deadLettered res.result
        some ({ s with
          commands := s.commands.update commandId (ExternalCommand.failed result now)
            (ExternalCommand.failed_commandId result now) }, ⟨commandId, .failed, flags⟩)
      else
        match computeBackoff row.attempts draw with
        | none => none
        | some delay =>
            let nextAttemptAt := now + makeInterval delay
            some ({ s with
              commands := s.commands.update commandId (ExternalCommand.reopened nextAttemptAt)
                (ExternalCommand.reopened_commandId nextAttemptAt) },
              ⟨commandId, .pending, flags⟩)

end Ops

/-- What `dispatch_command` has read of a row. -/
structure DispatchRead (π : Type) where
  commandId : String
  integration : String
  payload : π
  jobHandle : Option String
  dedupSupported : Bool
  status : CommandStatus

/-- How far a worker has got with one command. -/
inductive Phase (π ρ : Type) where
  | idle
  /-- A pending row is claimed, and not yet invoked. -/
  | claimed (claim : ClaimedExternal π)
  /-- `dispatch_command` has read a swept row; its lock is already gone. -/
  | read (row : DispatchRead π)
  /-- The integration has answered; what remains is `_finalize`. -/
  | answered (commandId : String) (res : IntegrationResult ρ) (flags : DispatchFlags)

structure Worker (π ρ : Type) where
  /-- What is left of the last sweep. -/
  swept : List (String × String)
  phase : Phase π ρ

/-- A worker's claim of a pending row; `opening` counts how often the row had
    become pending by then. -/
structure FirstDispatch where
  worker : ℕ
  commandId : String
  opening : ℕ

structure World (π ρ : Type) where
  now : Instant
  store : Store π ρ
  workers : ℕ → Worker π ρ
  /-- The command of every row that became pending, oldest first. -/
  openings : List String
  /-- Every claim of a pending row, oldest first. -/
  firstDispatches : List FirstDispatch

inductive Action (π ρ : Type) where
  | tick (micros : ℕ)
  | record (cmd : NewExternalCommand π) (commandId : String) (runId : Option String)
      (requireDedup : List String)
  /-- A run gets its workflow state row. -/
  | openRun (runId requestId : String) (candidatesExplored : ℤ)
  | claimNextPending (worker : ℕ) (registered locked : List String) (now : Instant)
  /-- The call of `invoke_claimed_external`, or of a first dispatch in `dispatch_command`. -/
  | invoke (worker : ℕ) (res : IntegrationResult ρ)
  | claimStaleDispatched (worker : ℕ) (registered locked : List String)
      (staleAfterSeconds : ℚ) (now : Instant) (limit : ℕ)
  /-- `dispatch_command` of a swept command, as far as its `SELECT … FOR UPDATE`. -/
  | dispatchRead (worker : ℕ) (commandId integration : String)
  /-- Its `UPDATE` of a row it read as pending. -/
  | dispatchClaim (worker : ℕ) (now : Instant)
  /-- Its recovery of a row it read as dispatched; a reconciliation may resolve nothing. -/
  | recover (worker : ℕ) (res : Option (IntegrationResult ρ))
  | finalize (worker : ℕ) (now : Instant) (config : FinalizeConfig) (draw : ℚ)
  | crash (worker : ℕ)

section System

variable {π ρ : Type}

/-- The worker's stage is over, whatever it still had swept. -/
def World.crashed (w : World π ρ) (worker : ℕ) : World π ρ :=
  { w with workers := Function.update w.workers worker ⟨[], .idle⟩ }

def World.setPhase (w : World π ρ) (worker : ℕ) (phase : Phase π ρ) : World π ρ :=
  { w with workers := Function.update w.workers worker ⟨(w.workers worker).swept, phase⟩ }

/-- The worker's claim of a pending row, for the record. -/
def World.firstDispatch (w : World π ρ) (worker : ℕ) (commandId : String) : FirstDispatch :=
  ⟨worker, commandId, w.openings.count commandId⟩

def DispatchRead.claim (row : DispatchRead π) : ClaimedExternal π where
  commandId := row.commandId
  integration := row.integration
  payload := row.payload
  jobHandle := row.jobHandle
  dedupSupported := row.dedupSupported

/-- The answer of a recovery, and how it was come by: a job handle is reconciled,
    and only without one is the integration invoked again. -/
def recoverAnswer (row : DispatchRead π) (res : Option (IntegrationResult ρ)) :
    Option (Phase π ρ) :=
  match row.jobHandle, res with
  | some _, some res => some (.answered row.commandId res ⟨false, false, true⟩)
  | some _, none => some .idle
  | none, some res =>
      some (.answered row.commandId res ⟨true, !row.dedupSupported, false⟩)
  | none, none => none

def step (w : World π ρ) : Action π ρ → Option (World π ρ)
  | .tick micros => some { w with now := w.now + micros }
  | .record cmd commandId runId requireDedup =>
      match recordExternalCommand w.store.commands cmd commandId runId requireDedup w.now with
      | .error _ => some w
      | .ok (commands, _) =>
          let opened := commands.rows.length ≠ w.store.commands.rows.length
          some { w with
            store := { w.store with commands := commands }
            openings := if opened then w.openings ++ [commandId] else w.openings }
  | .openRun runId requestId candidatesExplored =>
      let run : RunWorkflowState := ⟨runId, requestId, 0, candidatesExplored⟩
      let budget := { w.store.budget with runs := w.store.budget.runs.insertNew run }
      some { w with store := { w.store with budget := budget } }
  | .claimNextPending worker registered locked now =>
      match (w.workers worker).phase with
      | .idle =>
          match External.claimNextPending w.store.commands registered locked now with
          | (_, none) => some w
          | (commands, some claim) =>
              some { w.setPhase worker (.claimed claim) with
                store := { w.store with commands := commands }
                firstDispatches := w.firstDispatches ++ [w.firstDispatch worker claim.commandId] }
      | _ => none
  | .invoke worker res =>
      match (w.workers worker).phase with
      | .claimed claim =>
          some (w.setPhase worker (.answered claim.commandId res ⟨false, false, false⟩))
      | _ => none
  | .claimStaleDispatched worker registered locked staleAfterSeconds now limit =>
      match (w.workers worker).phase with
      | .idle =>
          let (commands, swept) := External.claimStaleDispatched w.store.commands registered locked
            staleAfterSeconds now limit
          some { w with
            store := { w.store with commands := commands }
            workers := Function.update w.workers worker ⟨swept, .idle⟩ }
      | _ => none
  | .dispatchRead worker commandId integration =>
      match (w.workers worker).phase with
      | .idle =>
          if (commandId, integration) ∈ (w.workers worker).swept then
            match w.store.commands.get? commandId with
            | none => some (w.crashed worker)
            | some row =>
                if row.status.final then some w
                else some (w.setPhase worker (.read ⟨commandId, integration, row.requestPayload,
                  row.jobHandle, row.dedupSupported, row.status⟩))
          else none
      | _ => none
  | .dispatchClaim worker now =>
      match (w.workers worker).phase with
      | .read row =>
          if row.status = .pending then
            let claimed := w.setPhase worker (.claimed row.claim)
            match w.store.commands.get? row.commandId with
            | none => some claimed
            | some _ =>
                -- the UPDATE matches on the command id alone
                let commands := w.store.commands.update row.commandId
                  (ExternalCommand.dispatched now) (ExternalCommand.dispatched_commandId now)
                some { claimed with
                  store := { w.store with commands := commands }
                  firstDispatches := w.firstDispatches ++ [w.firstDispatch worker row.commandId] }
          else none
      | _ => none
  | .recover worker res =>
      match (w.workers worker).phase with
      | .read row =>
          if row.status = .dispatched then (recoverAnswer row res).map (w.setPhase worker)
          else none
      | _ => none
  | .finalize worker now config draw =>
      match (w.workers worker).phase with
      | .answered commandId res flags =>
          match External.finalize w.store commandId res now flags config w.now draw with
          | none => some (w.crashed worker)
          | some (store, outcome) =>
              some { w.setPhase worker .idle with
                store := store
                openings := if outcome.status = .pending then w.openings ++ [commandId]
                  else w.openings }
      | _ => none
  | .crash worker => some (w.crashed worker)

/-- No command yet and no worker at one; the queue and the clock are arbitrary. -/
def Init (w : World π ρ) : Prop :=
  w.store.commands.rows = [] ∧ w.store.budget.runs.rows = [] ∧ w.store.budget.increments = [] ∧
    (∀ worker, (w.workers worker).phase = .idle ∧ (w.workers worker).swept = []) ∧
    w.openings = [] ∧ w.firstDispatches = []

end System

section Specs

variable {π ρ : Type}

theorem recordExternalCommand_ok {commands commands' : Commands π ρ} {cmd : NewExternalCommand π}
    {commandId id : String} {runId : Option String} {requireDedup : List String} {now : Instant}
    (h : recordExternalCommand commands cmd commandId runId requireDedup now =
      .ok (commands', id)) :
    commands' = commands ∨ ∃ row, commands.insert? row = some commands' ∧
      row.commandId = commandId ∧ row.status = .pending := by
  unfold recordExternalCommand at h
  split at h
  · cases h
  · split at h
    · cases h
      exact Or.inl rfl
    · split at h
      · next hins =>
          cases h
          exact Or.inr ⟨_, hins, rfl, rfl⟩
      · cases h

theorem claimNextPending_some {commands commands' : Commands π ρ}
    {registered locked : List String} {now : Instant} {claim : ClaimedExternal π}
    (h : claimNextPending commands registered locked now = (commands', some claim)) :
    ∃ row ∈ commands, row.status = .pending ∧ claim = (row.dispatched now).claim ∧
      commands' = commands.update row.commandId (ExternalCommand.dispatched now)
        (ExternalCommand.dispatched_commandId now) := by
  unfold claimNextPending at h
  split at h
  · cases h
  · next row hrow =>
      cases h
      obtain ⟨hmem, hcond⟩ := List.mem_filter.mp (mem_of_firstBy hrow)
      simp only [decide_eq_true_eq] at hcond
      exact ⟨row, hmem, hcond.1, rfl, rfl⟩

structure CostDue (b : Budget) (commandId : String) (runId : Option String)
    (costUnits : Option DecimalValue) (i : CostIncrement) : Prop where
  command : i.commandId = commandId
  run : runId = some i.runId
  cost : costUnits = some (.finite i.delta)
  nonneg : 0 ≤ i.delta
  row : (b.runs.get? i.runId).isSome

theorem tripCostBreaker_same (b : Budget) (runId ceiling : String) (now : Instant) :
    (tripCostBreaker b runId ceiling now).1.runs = b.runs ∧
      (tripCostBreaker b runId ceiling now).1.increments = b.increments := ⟨rfl, rfl⟩

theorem recordExternalCost_some {b b' : Budget} {commandId : String} {runId : Option String}
    {costUnits : Option DecimalValue} {ceilings : Option CostCeilings} {now : Instant}
    (h : recordExternalCost b commandId runId costUnits ceilings now = some b') :
    (b.Consistent → b'.Consistent) ∧ ∃ due : Option CostIncrement,
      b'.increments = b.increments ++ due.toList ∧
      ∀ i, due = some i ↔ CostDue b commandId runId costUnits i := by
  have nothing : (∀ i, ¬ CostDue b commandId runId costUnits i) → some b = some b' →
      (b.Consistent → b'.Consistent) ∧ ∃ due : Option CostIncrement,
        b'.increments = b.increments ++ due.toList ∧
        ∀ i, due = some i ↔ CostDue b commandId runId costUnits i := by
    intro hdue heq
    cases heq
    refine ⟨id, none, by simp, fun i => ?_⟩
    simp [hdue i]
  unfold recordExternalCost at h
  split at h
  · next run delta =>
      split at h
      · next hneg =>
          apply nothing _ h
          rintro i ⟨-, -, hcost, hnonneg, -⟩
          cases hcost
          exact absurd hneg (not_lt.mpr hnonneg)
      · next hnonneg =>
          split at h
          · next hrecord =>
              apply nothing _ h
              rintro i ⟨-, hrun, -, -, hrow⟩
              cases hrun
              simp [recordCost_keyError hrecord] at hrow
          · cases h
          · next charged total hrecord =>
              have same : b'.runs = charged.runs ∧ b'.increments = charged.increments := by
                split at h
                · cases h
                  exact ⟨rfl, rfl⟩
                · split at h
                  · next ceiling _ _ _ =>
                      cases h
                      exact tripCostBreaker_same charged run ceiling now
                  · cases h
                    exact ⟨rfl, rfl⟩
              obtain ⟨row, hrow, -, -, hincrements⟩ := recordCost_ok hrecord
              refine ⟨fun inv => ?_, some ⟨commandId, run, delta⟩, ?_, fun i => ?_⟩
              · have hcharged := inv.recordCost hrecord
                rw [Budget.Consistent, same.1, same.2]
                exact hcharged
              · rw [same.2, hincrements, Option.toList_some]
              · constructor
                · intro heq
                  cases heq
                  exact ⟨rfl, rfl, rfl, not_lt.mp hnonneg, by simp [hrow]⟩
                · rintro ⟨hcommand, hrun, hcost, -, -⟩
                  cases hrun
                  cases hcost
                  simp [← hcommand]
  · next hnone =>
      apply nothing _ h
      rintro i ⟨-, hrun, hcost, -, -⟩
      exact hnone _ _ hrun hcost

/-- What a finalize of an open command does: one row gets its new status, and a
    success its cost. -/
structure Settles (s s' : Store π ρ) (row : ExternalCommand π ρ)
    (costUnits : Option DecimalValue) (status : CommandStatus) : Prop where
  kind : status = .succeeded ∨ status = .failed ∨ status = .pending
  commands : ∃ f hf, s'.commands = s.commands.update row.commandId f hf ∧
    (f row).status = status
  budget : s.budget.Consistent → s'.budget.Consistent
  increments : ∃ due : Option CostIncrement,
    s'.budget.increments = s.budget.increments ++ due.toList ∧
    ∀ i, due = some i ↔ status = .succeeded ∧
      CostDue s.budget row.commandId row.runId costUnits i

theorem Settles.of_commands {s : Store π ρ} {row : ExternalCommand π ρ}
    {costUnits : Option DecimalValue} {status : CommandStatus}
    {f : ExternalCommand π ρ → ExternalCommand π ρ} {hf : ∀ r, (f r).commandId = r.commandId}
    (hstatus : (f row).status = status) (kind : status = .failed ∨ status = .pending) :
    Settles s { s with commands := s.commands.update row.commandId f hf } row costUnits status := by
  have hs : status ≠ .succeeded := by
    rintro rfl
    simp at kind
  exact ⟨Or.inr kind, ⟨f, hf, rfl, hstatus⟩, id, none, by simp, fun i => by simp [hs]⟩

theorem finalize_some {s s' : Store π ρ} {commandId : String} {res : IntegrationResult ρ}
    {now clock : Instant} {flags : DispatchFlags} {config : FinalizeConfig} {draw : ℚ}
    {outcome : DispatchOutcome}
    (h : finalize s commandId res now flags config clock draw = some (s', outcome)) :
    ∃ row, s.commands.get? commandId = some row ∧
      ((row.status.final = true ∧ s' = s ∧ outcome.status = row.status) ∨
        (row.status.final = false ∧ Settles s s' row res.costUnits outcome.status)) := by
  unfold finalize at h
  split at h
  · cases h
  · next row hrow =>
      refine ⟨row, hrow, ?_⟩
      obtain rfl := Table.key_of_get? hrow
      split at h
      · next hfinal =>
          cases h
          exact Or.inl ⟨hfinal, rfl, rfl⟩
      · next hopen =>
          refine Or.inr ⟨by simpa using hopen, ?_⟩
          split at h
          · split at h
            · next cost budget hcost hbudget =>
                cases h
                obtain ⟨hconsistent, due, hdue, hiff⟩ := recordExternalCost_some hbudget
                have hid := @ExternalCommand.succeeded_commandId π ρ
                exact ⟨Or.inl rfl, ⟨_, hid _ cost _ now, rfl, rfl⟩, hconsistent, due, hdue,
                  fun i => by simp [hiff]⟩
            · cases h
          · split at h
            · cases h
              exact Settles.of_commands rfl (Or.inl rfl)
            · split at h
              · cases h
                exact Settles.of_commands rfl (Or.inl rfl)
              · split at h
                · cases h
                · cases h
                  exact Settles.of_commands rfl (Or.inr rfl)

end Specs

end FeatureGen.Runtime.External
