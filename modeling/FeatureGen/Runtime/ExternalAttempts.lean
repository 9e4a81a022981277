import Mathlib
import FeatureGen.Runtime.ExternalAccounting

/-! # The attempts of external commands

`_finalize` gives a command up once its row has spent `_external_max_attempts()`
attempts. Claiming a pending row spends one; a recovery that invokes again spends
none, and the row stays 'dispatched' when that invocation dies too. The attempts
bound the invocations of a command as long as each recovery invokes in place of
a worker that died between its claim and its call.
-/

namespace FeatureGen.Runtime.External

variable {π ρ : Type}

/-- The command a worker has claimed and not yet invoked. -/
def Phase.uninvoked : Phase π ρ → Option String
  | .claimed claim => some claim.commandId
  | _ => none

/-- The command `dispatch_command` invokes again: one read as dispatched, without a job handle. -/
def Phase.recoverable : Phase π ρ → Option String
  | .read row => if row.status = .dispatched ∧ row.jobHandle = none then some row.commandId else none
  | _ => none

def firstInvoked (w : World π ρ) : Action π ρ → Option String
  | .invoke worker _ => (w.workers worker).phase.uninvoked
  | _ => none

def reinvoked (w : World π ρ) : Action π ρ → Option String
  | .recover worker _ => (w.workers worker).phase.recoverable
  | _ => none

/-- The command an action calls `IntegrationCaller.invoke` for. -/
def invoked (w : World π ρ) (a : Action π ρ) : Option String :=
  (firstInvoked w a).or (reinvoked w a)

/-- The command whose worker dies between its claim and its call. -/
def abandoned (w : World π ρ) : Action π ρ → Option String
  | .crash worker => (w.workers worker).phase.uninvoked
  | _ => none

/-- How often moves did this for a command. -/
def times (what : World π ρ → Action π ρ → Option String) (past : List (ExternalMove π ρ))
    (commandId : String) : ℕ :=
  (past.filterMap fun m => what m.before m.action).count commandId

/-- What keeps the invocations within the attempts. -/
structure AttemptsCover (maxAttempts : ℤ) (past : List (ExternalMove π ρ)) (w : World π ρ)
    (a : Action π ρ) : Prop where
  /-- A recovery invokes again in place of a worker that died between its claim and its call. -/
  recovery : ∀ commandId, reinvoked w a = some commandId →
    times reinvoked past commandId < times abandoned past commandId
  /-- `dispatch_command` claims no row that has spent its attempts. -/
  unspent : ∀ worker now read, a = .dispatchClaim worker now →
    (w.workers worker).phase = .read read →
    ∀ row ∈ w.store.commands, row.commandId = read.commandId → (row.attempts : ℤ) < maxAttempts

def ReadsLimit (maxAttempts : ℤ) (as : List (Action π ρ)) : Prop :=
  ∀ worker now config draw, .finalize worker now config draw ∈ as →
    config.externalMaxAttempts = maxAttempts

@[simp] theorem times_nil {what : World π ρ → Action π ρ → Option String} {commandId : String} :
    times what [] commandId = 0 := rfl

theorem times_snoc {what : World π ρ → Action π ρ → Option String}
    {past : List (ExternalMove π ρ)} {m : ExternalMove π ρ} {commandId : String} :
    times what (past ++ [m]) commandId =
      times what past commandId + if what m.before m.action = some commandId then 1 else 0 := by
  rw [times, times, List.filterMap_append, List.count_append]
  congr 1
  cases h : what m.before m.action with
  | none => simp [h]
  | some id => by_cases hid : id = commandId <;> simp [h, hid]

theorem times_invoked {past : List (ExternalMove π ρ)} {commandId : String} :
    times invoked past commandId =
      times firstInvoked past commandId + times reinvoked past commandId := by
  induction past using List.reverseRecOn with
  | nil => rfl
  | append_singleton past m ih =>
      rw [times_snoc, times_snoc, times_snoc, ih]
      have : invoked m.before m.action = some commandId ↔
          (firstInvoked m.before m.action = some commandId ∧ reinvoked m.before m.action = none) ∨
          (firstInvoked m.before m.action = none ∧
            reinvoked m.before m.action = some commandId) := by
        cases m.action <;> simp [invoked, firstInvoked, reinvoked]
      have apart : firstInvoked m.before m.action = none ∨ reinvoked m.before m.action = none := by
        cases m.action <;> simp [firstInvoked, reinvoked]
      rcases apart with h | h <;> simp [h] at this ⊢ <;> simp [this] <;> omega

inductive AttemptsEffect (w : World π ρ) (a : Action π ρ) (w' : World π ρ) : Prop where
  /-- A row becomes pending again only where a finalize finds attempts left. -/
  | kept
      (rows : ∃ p f hf, w'.store.commands = w.store.commands.updateWhere p f hf ∧
        ∀ r ∈ w.store.commands, p r = true → (f r).attempts = r.attempts ∧
          ((f r).status = .pending → r.status = .pending ∨ ∃ worker now config draw,
            a = .finalize worker now config draw ∧
            (r.attempts : ℤ) < config.externalMaxAttempts))
      (firstDispatches : w'.firstDispatches = w.firstDispatches)
  | recorded (row : ExternalCommand π ρ)
      (rows : w.store.commands.insert? row = some w'.store.commands)
      (attempts : row.attempts = 0)
      (firstDispatches : w'.firstDispatches = w.firstDispatches)
  | claimed (worker : ℕ) (row : ExternalCommand π ρ) (now : Instant)
      (mem : row ∈ w.store.commands)
      (unspent : row.status = .pending ∨ ∃ read, a = .dispatchClaim worker now ∧
        (w.workers worker).phase = .read read ∧ row.commandId = read.commandId)
      (rows : w'.store.commands = w.store.commands.update row.commandId
        (ExternalCommand.dispatched now) (ExternalCommand.dispatched_commandId now))
      (firstDispatches :
        w'.firstDispatches = w.firstDispatches ++ [w.firstDispatch worker row.commandId])

theorem AttemptsEffect.same {w w' : World π ρ} {a : Action π ρ}
    (commands : w'.store.commands = w.store.commands)
    (firstDispatches : w'.firstDispatches = w.firstDispatches) : AttemptsEffect w a w' := by
  apply AttemptsEffect.kept _ firstDispatches
  rw [commands]
  exact ⟨fun _ => false, id, fun _ => rfl, (Table.updateWhere_eq_self fun _ _ => rfl).symm,
    fun r _ h => by simp at h⟩

theorem recordExternalCommand_attempts {commands commands' : Commands π ρ}
    {cmd : NewExternalCommand π} {commandId id : String} {runId : Option String}
    {requireDedup : List String} {now : Instant}
    (h : recordExternalCommand commands cmd commandId runId requireDedup now =
      .ok (commands', id)) :
    commands' = commands ∨ ∃ row, commands.insert? row = some commands' ∧ row.attempts = 0 := by
  unfold recordExternalCommand at h
  split at h
  · cases h
  · split at h
    · cases h
      exact Or.inl rfl
    · split at h
      · next hins =>
          cases h
          exact Or.inr ⟨_, hins, rfl⟩
      · cases h

theorem finalize_attempts {s s' : Store π ρ} {commandId : String} {res : IntegrationResult ρ}
    {now clock : Instant} {flags : DispatchFlags} {config : FinalizeConfig} {draw : ℚ}
    {outcome : DispatchOutcome}
    (h : finalize s commandId res now flags config clock draw = some (s', outcome)) :
    s'.commands = s.commands ∨ ∃ row f hf, s.commands.get? commandId = some row ∧
      s'.commands = s.commands.update commandId f hf ∧
      (∀ r, (f r).attempts = r.attempts) ∧
      ((∀ r, (f r).status ≠ .pending) ∨ (row.attempts : ℤ) < config.externalMaxAttempts) := by
  unfold finalize at h
  split at h
  · cases h
  · next row hrow =>
      split at h
      · cases h
        exact Or.inl rfl
      · right
        split at h
        · split at h
          · next cost budget _ _ =>
              cases h
              refine ⟨row, _, ExternalCommand.succeeded_commandId _ cost res.jobHandle now, hrow,
                rfl, fun r => rfl, Or.inl fun r => ?_⟩
              simp [ExternalCommand.succeeded]
          · cases h
        · split at h
          · cases h
            refine ⟨row, _, ExternalCommand.failed_commandId _ now, hrow, rfl, fun r => rfl,
              Or.inl fun r => ?_⟩
            simp [ExternalCommand.failed]
          · split at h
            · cases h
              refine ⟨row, _, ExternalCommand.failed_commandId _ now, hrow, rfl, fun r => rfl,
                Or.inl fun r => ?_⟩
              simp [ExternalCommand.failed]
            · next hleft =>
                split at h
                · cases h
                · cases h
                  exact ⟨row, _, ExternalCommand.reopened_commandId _, hrow, rfl, fun r => rfl,
                    Or.inr (not_le.mp hleft)⟩

theorem step_attempts {w w' : World π ρ} {a : Action π ρ} (h : step w a = some w') :
    AttemptsEffect w a w' := by
  cases a with
  | tick micros =>
      cases h
      exact .same rfl rfl
  | crash worker =>
      cases h
      exact .same rfl rfl
  | record cmd commandId runId requireDedup =>
      simp only [step] at h
      split at h
      · cases h
        exact .same rfl rfl
      · next commands id hrecord =>
          cases h
          rcases recordExternalCommand_attempts hrecord with rfl | ⟨row, hins, hfresh⟩
          · exact .same rfl rfl
          · exact .recorded row hins hfresh rfl
  | openRun runId requestId candidatesExplored =>
      cases h
      exact .same rfl rfl
  | claimNextPending worker registered locked now =>
      simp only [step] at h
      split at h
      · split at h
        · cases h
          exact .same rfl rfl
        · next commands claim hclaim =>
            cases h
            obtain ⟨row, hmem, hpending, rfl, rfl⟩ := claimNextPending_some hclaim
            exact .claimed worker row now hmem (Or.inl hpending) rfl rfl
      · cases h
  | invoke worker res =>
      simp only [step] at h
      split at h
      · cases h
        exact .same rfl rfl
      · cases h
  | claimStaleDispatched worker registered locked staleAfterSeconds now limit =>
      simp only [step] at h
      split at h
      · cases h
        exact .kept ⟨_, _, ExternalCommand.restamped_commandId now, rfl,
          fun r _ _ => ⟨rfl, Or.inl⟩⟩ rfl
      · cases h
  | dispatchRead worker commandId integration =>
      simp only [step] at h
      split at h
      · split at h
        · split at h
          · cases h
            exact .same rfl rfl
          · split at h <;> cases h <;> exact .same rfl rfl
        · cases h
      · cases h
  | dispatchClaim worker now =>
      simp only [step] at h
      split at h
      · next read hphase =>
          split at h
          · split at h
            · cases h
              exact .same rfl rfl
            · next row hrow =>
                cases h
                obtain ⟨hmem, hid⟩ := Table.get?_eq_some.mp hrow
                refine .claimed worker row now hmem (Or.inr ⟨read, rfl, hphase, hid⟩) ?_ ?_ <;>
                  simp [hid]
          · cases h
      · cases h
  | recover worker res =>
      simp only [step] at h
      split at h
      · split at h
        · obtain ⟨phase, -, rfl⟩ := Option.map_eq_some_iff.mp h
          exact .same rfl rfl
        · cases h
      · cases h
  | finalize worker now config draw =>
      simp only [step] at h
      split at h
      · next commandId res flags hphase =>
          split at h
          · cases h
            exact .same rfl rfl
          · next store outcome hfinalize =>
              cases h
              rcases finalize_attempts hfinalize with same | ⟨row, f, hf, hrow, hrows, hkept, hopen⟩
              · exact .same same rfl
              · refine .kept ⟨_, f, hf, hrows, fun r hr hp => ⟨hkept r, fun hpending => ?_⟩⟩ rfl
                rcases hopen with settled | left
                · exact absurd hpending (settled r)
                · obtain ⟨hmem, hid⟩ := Table.get?_eq_some.mp hrow
                  obtain rfl := Table.eq_of_key_eq hr hmem ((of_decide_eq_true hp).trans hid.symm)
                  exact Or.inr ⟨worker, now, config, draw, rfl, left⟩
      · cases h

def World.uninvoked (w : World π ρ) (worker : ℕ) : Option String :=
  (w.workers worker).phase.uninvoked

def claimEnded (w : World π ρ) : Action π ρ → Option (ℕ × String)
  | .invoke worker _ => (w.uninvoked worker).map fun commandId => (worker, commandId)
  | .crash worker => (w.uninvoked worker).map fun commandId => (worker, commandId)
  | _ => none

theorem claimEnded_snd (w : World π ρ) (a : Action π ρ) :
    (claimEnded w a).map Prod.snd = (firstInvoked w a).or (abandoned w a) := by
  cases a <;> simp [claimEnded, firstInvoked, abandoned, World.uninvoked, Function.comp_def]

/-- The effect of a step on what the workers hold uninvoked. -/
inductive ClaimEffect (w : World π ρ) (a : Action π ρ) (w' : World π ρ) : Prop where
  | quiet (held : w'.uninvoked = w.uninvoked) (ended : claimEnded w a = none)
      (firstDispatches : w'.firstDispatches = w.firstDispatches)
  | taken (worker : ℕ) (commandId : String) (free : w.uninvoked worker = none)
      (held : w'.uninvoked = Function.update w.uninvoked worker (some commandId))
      (ended : claimEnded w a = none)
      (firstDispatches :
        w'.firstDispatches = w.firstDispatches ++ [w.firstDispatch worker commandId])
  | ended (worker : ℕ) (commandId : String) (holds : w.uninvoked worker = some commandId)
      (held : w'.uninvoked = Function.update w.uninvoked worker none)
      (ended : claimEnded w a = some (worker, commandId))
      (firstDispatches : w'.firstDispatches = w.firstDispatches)

def ReadsRows (w : World π ρ) : Prop :=
  ∀ worker read, (w.workers worker).phase = .read read →
    ∃ row ∈ w.store.commands, row.commandId = read.commandId

@[simp] theorem uninvoked_setPhase (w : World π ρ) (worker : ℕ) (phase : Phase π ρ) :
    (w.setPhase worker phase).uninvoked =
      Function.update w.uninvoked worker phase.uninvoked := by
  funext other
  by_cases h : other = worker <;> simp [World.uninvoked, World.setPhase, Function.update, h]

@[simp] theorem uninvoked_crashed (w : World π ρ) (worker : ℕ) :
    (w.crashed worker).uninvoked = Function.update w.uninvoked worker none := by
  funext other
  by_cases h : other = worker <;>
    simp [World.uninvoked, World.crashed, Function.update, h, Phase.uninvoked]

theorem update_uninvoked_of_none {w : World π ρ} {worker : ℕ} (h : w.uninvoked worker = none) :
    Function.update w.uninvoked worker none = w.uninvoked := by
  rw [← h, Function.update_eq_self]

theorem step_claims {w w' : World π ρ} {a : Action π ρ} (reads : ReadsRows w)
    (h : step w a = some w') : ClaimEffect w a w' := by
  have quiet {worker : ℕ} {phase : Phase π ρ} (free : w.uninvoked worker = none)
      (still : phase.uninvoked = none) :
      Function.update w.uninvoked worker phase.uninvoked = w.uninvoked := by
    rw [still, update_uninvoked_of_none free]
  cases a with
  | tick micros =>
      cases h
      exact .quiet rfl rfl rfl
  | crash worker =>
      cases h
      cases hheld : w.uninvoked worker with
      | none =>
          refine .quiet ?_ (by simp [claimEnded, hheld]) rfl
          rw [uninvoked_crashed, update_uninvoked_of_none hheld]
      | some commandId =>
          exact .ended worker commandId hheld (uninvoked_crashed w worker)
            (by simp [claimEnded, hheld]) rfl
  | record cmd commandId runId requireDedup =>
      simp only [step] at h
      split at h <;> cases h <;> exact .quiet rfl rfl rfl
  | openRun runId requestId candidatesExplored =>
      cases h
      exact .quiet rfl rfl rfl
  | claimNextPending worker registered locked now =>
      simp only [step] at h
      split at h
      · next hphase =>
          split at h
          · cases h
            exact .quiet rfl rfl rfl
          · next commands claim hclaim =>
              cases h
              refine .taken worker claim.commandId (by simp [World.uninvoked, hphase, Phase.uninvoked])
                ?_ rfl rfl
              exact uninvoked_setPhase w worker (.claimed claim)
      · cases h
  | invoke worker res =>
      simp only [step] at h
      split at h
      · next claim hphase =>
          cases h
          have holds : w.uninvoked worker = some claim.commandId := by
            simp [World.uninvoked, hphase, Phase.uninvoked]
          exact .ended worker claim.commandId holds (uninvoked_setPhase w worker _)
            (by simp [claimEnded, holds]) rfl
      · cases h
  | claimStaleDispatched worker registered locked staleAfterSeconds now limit =>
      simp only [step] at h
      split at h
      · next hphase =>
          cases h
          refine .quiet ?_ rfl rfl
          funext other
          by_cases hother : other = worker <;>
            simp [World.uninvoked, Function.update, hother, hphase]
      · cases h
  | dispatchRead worker commandId integration =>
      simp only [step] at h
      split at h
      · next hphase =>
          have free : w.uninvoked worker = none := by
            simp [World.uninvoked, hphase, Phase.uninvoked]
          split at h
          · split at h
            · cases h
              refine .quiet ?_ rfl rfl
              rw [uninvoked_crashed, update_uninvoked_of_none free]
            · split at h
              · cases h
                exact .quiet rfl rfl rfl
              · cases h
                refine .quiet ?_ rfl rfl
                rw [uninvoked_setPhase, quiet free rfl]
          · cases h
      · cases h
  | dispatchClaim worker now =>
      simp only [step] at h
      split at h
      · next read hphase =>
          have free : w.uninvoked worker = none := by
            simp [World.uninvoked, hphase, Phase.uninvoked]
          split at h
          · split at h
            · next hrow =>
                -- no row disappears between the SELECT and the UPDATE
                obtain ⟨row, hmem, hid⟩ := reads worker read hphase
                exact absurd hid (Table.get?_eq_none.mp hrow row hmem)
            · cases h
              refine .taken worker read.commandId free ?_ rfl rfl
              exact uninvoked_setPhase w worker (.claimed read.claim)
          · cases h
      · cases h
  | recover worker res =>
      simp only [step] at h
      split at h
      · next read hphase =>
          have free : w.uninvoked worker = none := by
            simp [World.uninvoked, hphase, Phase.uninvoked]
          split at h
          · obtain ⟨phase, hanswer, rfl⟩ := Option.map_eq_some_iff.mp h
            refine .quiet ?_ rfl rfl
            rw [uninvoked_setPhase, quiet free]
            unfold recoverAnswer at hanswer
            split at hanswer <;> cases hanswer <;> rfl
          · cases h
      · cases h
  | finalize worker now config draw =>
      simp only [step] at h
      split at h
      · next commandId res flags hphase =>
          have free : w.uninvoked worker = none := by
            simp [World.uninvoked, hphase, Phase.uninvoked]
          split at h
          · cases h
            refine .quiet ?_ rfl rfl
            rw [uninvoked_crashed, update_uninvoked_of_none free]
          · cases h
            refine .quiet ?_ rfl rfl
            exact (uninvoked_setPhase w worker .idle).trans (quiet free rfl)
      · cases h

theorem row_kept {w w' : World π ρ} {a : Action π ρ} (h : step w a = some w')
    {row : ExternalCommand π ρ} (mem : row ∈ w.store.commands) :
    ∃ row' ∈ w'.store.commands, row'.commandId = row.commandId := by
  have updated {p f hf} (rows : w'.store.commands = w.store.commands.updateWhere p f hf) :
      ∃ row' ∈ w'.store.commands, row'.commandId = row.commandId := by
    rw [rows]
    refine ⟨_, Table.mem_updateWhere.mpr ⟨row, mem, rfl⟩, ?_⟩
    by_cases hp : p row <;> simp [hp, hf]
  cases step_attempts h with
  | kept rows firstDispatches =>
      obtain ⟨p, f, hf, hrows, -⟩ := rows
      exact updated hrows
  | recorded new rows attempts firstDispatches =>
      exact ⟨row, (Table.mem_insert? rows).mpr (Or.inl mem), rfl⟩
  | claimed worker r now _ unspent rows firstDispatches => exact updated rows

theorem ReadsRows.step {w w' : World π ρ} {a : Action π ρ} (inv : ReadsRows w)
    (h : step w a = some w') : ReadsRows w' := by
  -- only `dispatch_command`'s own SELECT takes a worker to a row it has read
  have later {worker : ℕ} {read : DispatchRead π}
      (old : (w.workers worker).phase = .read read) :
      ∃ row ∈ w'.store.commands, row.commandId = read.commandId := by
    obtain ⟨row, hmem, hid⟩ := inv worker read old
    obtain ⟨row', hmem', hid'⟩ := row_kept h hmem
    exact ⟨row', hmem', hid'.trans hid⟩
  intro other read hphase
  have moved {worker : ℕ} {entry : Worker π ρ}
      (workers : w'.workers = Function.update w.workers worker entry)
      (fresh : entry.phase = .read read →
        ∃ row ∈ w'.store.commands, row.commandId = read.commandId) :
      ∃ row ∈ w'.store.commands, row.commandId = read.commandId := by
    rw [workers] at hphase
    by_cases hother : other = worker
    · subst hother
      rw [Function.update_self] at hphase
      exact fresh hphase
    · rw [Function.update_of_ne hother] at hphase
      exact later hphase
  cases a with
  | tick micros =>
      cases h
      exact later hphase
  | crash worker =>
      cases h
      exact moved rfl (by simp)
  | record cmd commandId runId requireDedup =>
      simp only [External.step] at h
      split at h <;> cases h <;> exact later hphase
  | openRun runId requestId candidatesExplored =>
      cases h
      exact later hphase
  | claimNextPending worker registered locked now =>
      simp only [External.step] at h
      split at h
      · split at h <;> cases h
        · exact later hphase
        · exact moved rfl (by simp)
      · cases h
  | invoke worker res =>
      simp only [External.step] at h
      split at h
      · cases h
        exact moved rfl (by simp)
      · cases h
  | claimStaleDispatched worker registered locked staleAfterSeconds now limit =>
      simp only [External.step] at h
      split at h
      · cases h
        exact moved rfl (by simp)
      · cases h
  | dispatchRead worker commandId integration =>
      simp only [External.step] at h
      split at h
      · split at h
        · split at h
          · cases h
            exact moved rfl (by simp)
          · next row hrow =>
              split at h <;> cases h
              · exact later hphase
              · obtain ⟨hmem, hid⟩ := Table.get?_eq_some.mp hrow
                refine moved rfl fun hread => ?_
                cases hread
                exact ⟨row, hmem, hid⟩
        · cases h
      · cases h
  | dispatchClaim worker now =>
      simp only [External.step] at h
      split at h
      · split at h
        · split at h <;> cases h <;> exact moved rfl (by simp)
        · cases h
      · cases h
  | recover worker res =>
      simp only [External.step] at h
      split at h
      · split at h
        · obtain ⟨phase, hanswer, rfl⟩ := Option.map_eq_some_iff.mp h
          refine moved rfl fun hread => ?_
          unfold recoverAnswer at hanswer
          split at hanswer <;> cases hanswer <;> cases hread
        · cases h
      · cases h
  | finalize worker now config draw =>
      simp only [External.step] at h
      split at h
      · split at h <;> cases h <;> exact moved rfl (by simp)
      · cases h

def endedClaims (past : List (ExternalMove π ρ)) : List (ℕ × String) :=
  past.filterMap fun m => claimEnded m.before m.action

def World.claims (w : World π ρ) : List (ℕ × String) :=
  w.firstDispatches.map fun d => (d.worker, d.commandId)

def World.claimsOf (w : World π ρ) (commandId : String) : ℕ :=
  (w.firstDispatches.map (·.commandId)).count commandId

theorem endedClaims_snoc {past : List (ExternalMove π ρ)} {m : ExternalMove π ρ}
    {claim : ℕ × String} : (endedClaims (past ++ [m])).count claim =
      (endedClaims past).count claim +
        if claimEnded m.before m.action = some claim then 1 else 0 := by
  rw [endedClaims, endedClaims, List.filterMap_append, List.count_append]
  congr 1
  cases h : claimEnded m.before m.action with
  | none => simp [h]
  | some c => by_cases hc : c = claim <;> simp [h, hc]

structure ClaimsSpent (maxAttempts : ℤ) (past : List (ExternalMove π ρ)) (w : World π ρ) :
    Prop where
  reads : ReadsRows w
  claimed : ∀ commandId, 0 < w.claimsOf commandId →
    ∃ row ∈ w.store.commands, row.commandId = commandId
  attempts : ∀ row ∈ w.store.commands, row.attempts = w.claimsOf row.commandId
  bounded : ∀ row ∈ w.store.commands, (row.attempts : ℤ) ≤ maxAttempts
  left : ∀ row ∈ w.store.commands, row.status = .pending → (row.attempts : ℤ) < maxAttempts
  ended : ∀ worker commandId, (endedClaims past).count (worker, commandId) +
    (if w.uninvoked worker = some commandId then 1 else 0) = w.claims.count (worker, commandId)
  recovered : ∀ commandId, times reinvoked past commandId ≤ times abandoned past commandId

namespace ClaimsSpent

variable {maxAttempts : ℤ} {past : List (ExternalMove π ρ)} {w w' : World π ρ} {a : Action π ρ}

theorem init (start : Init w) : ClaimsSpent maxAttempts [] w := by
  obtain ⟨commands, -, -, idle, -, firstDispatches⟩ := start
  have none : ∀ row, row ∉ w.store.commands := by
    intro row hrow
    rw [← Table.mem_rows, commands] at hrow
    cases hrow
  constructor
  · intro worker read hphase
    rw [(idle worker).1] at hphase
    cases hphase
  · intro commandId hpos
    simp [World.claimsOf, firstDispatches] at hpos
  · intro row hrow
    exact absurd hrow (none row)
  · intro row hrow
    exact absurd hrow (none row)
  · intro row hrow
    exact absurd hrow (none row)
  · intro worker commandId
    simp [endedClaims, World.claims, firstDispatches, World.uninvoked, (idle worker).1,
      Phase.uninvoked]
  · intro commandId
    exact le_rfl

theorem claimsOf_claimed {worker : ℕ} {claimedId : String}
    (h : w'.firstDispatches = w.firstDispatches ++ [w.firstDispatch worker claimedId])
    (commandId : String) :
    w'.claimsOf commandId = w.claimsOf commandId + if claimedId = commandId then 1 else 0 := by
  rw [World.claimsOf, h, List.map_append, List.count_append, ← World.claimsOf]
  congr 1
  by_cases hid : claimedId = commandId <;> simp [World.firstDispatch, hid]

theorem rows_step (inv : ClaimsSpent maxAttempts past w) (positive : 1 ≤ maxAttempts)
    (cover : AttemptsCover maxAttempts past w a) (limit : ReadsLimit maxAttempts [a])
    (h : step w a = some w') :
    (∀ commandId, 0 < w'.claimsOf commandId →
      ∃ row ∈ w'.store.commands, row.commandId = commandId) ∧
    ∀ row ∈ w'.store.commands, row.attempts = w'.claimsOf row.commandId ∧
      (row.attempts : ℤ) ≤ maxAttempts ∧ (row.status = .pending → (row.attempts : ℤ) < maxAttempts)
    := by
  have later {commandId : String} (old : 0 < w.claimsOf commandId) :
      ∃ row ∈ w'.store.commands, row.commandId = commandId := by
    obtain ⟨row, hmem, hid⟩ := inv.claimed commandId old
    obtain ⟨row', hmem', hid'⟩ := row_kept h hmem
    exact ⟨row', hmem', hid'.trans hid⟩
  cases step_attempts h with
  | kept rows firstDispatches =>
      have same : w'.claimsOf = w.claimsOf := by
        funext commandId
        rw [World.claimsOf, firstDispatches, World.claimsOf]
      obtain ⟨p, f, hf, hrows, hkept⟩ := rows
      rw [same, hrows]
      constructor
      · intro commandId hpos
        rw [← hrows]
        exact later hpos
      · intro row' hrow'
        obtain ⟨row, hrow, rfl⟩ := Table.mem_updateWhere.mp hrow'
        have old := inv.attempts row hrow
        have bounded := inv.bounded row hrow
        have left := inv.left row hrow
        cases hp : p row with
        | false => simpa using ⟨old, bounded, left⟩
        | true =>
            obtain ⟨attempts, reopened⟩ := hkept row hrow hp
            simp only [if_true, hf, attempts]
            refine ⟨old, bounded, fun hpending => ?_⟩
            rcases reopened hpending with pending | ⟨worker, now, config, draw, rfl, hlt⟩
            · exact left pending
            · rwa [limit worker now config draw (by simp)] at hlt
  | recorded new rows attempts firstDispatches =>
      have same : w'.claimsOf = w.claimsOf := by
        funext commandId
        rw [World.claimsOf, firstDispatches, World.claimsOf]
      rw [same]
      refine ⟨fun commandId => later, fun row hrow => ?_⟩
      rcases (Table.mem_insert? rows).mp hrow with old | rfl
      · exact ⟨inv.attempts row old, inv.bounded row old, inv.left row old⟩
      · have unclaimed : w.claimsOf row.commandId = 0 := by
          by_contra hpos
          obtain ⟨r, hr, hid⟩ := inv.claimed row.commandId (Nat.pos_of_ne_zero hpos)
          exact (Table.rows_of_insert? rows).2 r hr hid
        rw [attempts, unclaimed]
        omega
  | claimed worker row now mem unspent rows firstDispatches =>
      have room : (row.attempts : ℤ) < maxAttempts := by
        rcases unspent with pending | ⟨read, rfl, hphase, hid⟩
        · exact inv.left row mem pending
        · exact cover.unspent worker now read rfl hphase row mem hid
      constructor
      · intro commandId hpos
        rw [claimsOf_claimed firstDispatches] at hpos
        by_cases hid : row.commandId = commandId
        · obtain ⟨row', hmem', hid'⟩ := row_kept h mem
          exact ⟨row', hmem', hid'.trans hid⟩
        · simp only [hid, if_false] at hpos
          exact later hpos
      · intro row' hrow'
        rw [rows, Table.mem_update] at hrow'
        obtain ⟨y, hy, rfl⟩ := hrow'
        have old := inv.attempts y hy
        rw [claimsOf_claimed firstDispatches]
        by_cases hid : y.commandId = row.commandId
        · obtain rfl := Table.eq_of_key_eq hy mem hid
          simp [ExternalCommand.dispatched]
          omega
        · simp only [hid, if_false, Ne.symm hid, Nat.add_zero]
          exact ⟨old, inv.bounded y hy, inv.left y hy⟩

theorem ended_step (inv : ClaimsSpent maxAttempts past w) (h : step w a = some w') (worker : ℕ)
    (commandId : String) :
    (endedClaims (past ++ [⟨w, a, w'⟩])).count (worker, commandId) +
      (if w'.uninvoked worker = some commandId then 1 else 0) =
        w'.claims.count (worker, commandId) := by
  have old := inv.ended worker commandId
  rw [endedClaims_snoc]
  cases step_claims inv.reads h with
  | quiet held ended firstDispatches =>
      simp only [held, ended, World.claims, firstDispatches] at old ⊢
      simpa using old
  | taken taker takenId free held ended firstDispatches =>
      have claims : w'.claims = w.claims ++ [(taker, takenId)] := by
        simp [World.claims, firstDispatches, World.firstDispatch]
      rw [claims, List.count_append, ← old, held, ended]
      by_cases hworker : worker = taker
      · subst hworker
        by_cases hid : takenId = commandId <;> simp [free, hid]
      · simp [hworker, Ne.symm hworker]
  | ended holder heldId holds held ended firstDispatches =>
      simp only [held, ended, World.claims, firstDispatches] at old ⊢
      rw [← old]
      by_cases hworker : worker = holder
      · subst hworker
        by_cases hid : heldId = commandId <;> simp [holds, hid]
      · simp [hworker, Ne.symm hworker]

theorem step (inv : ClaimsSpent maxAttempts past w) (positive : 1 ≤ maxAttempts)
    (cover : AttemptsCover maxAttempts past w a) (limit : ReadsLimit maxAttempts [a])
    (h : External.step w a = some w') : ClaimsSpent maxAttempts (past ++ [⟨w, a, w'⟩]) w' := by
  obtain ⟨claimed, rows⟩ := inv.rows_step positive cover limit h
  refine ⟨inv.reads.step h, claimed, fun row hrow => (rows row hrow).1,
    fun row hrow => (rows row hrow).2.1, fun row hrow => (rows row hrow).2.2,
    inv.ended_step h, fun commandId => ?_⟩
  have old := inv.recovered commandId
  rw [times_snoc, times_snoc]
  by_cases hre : reinvoked w a = some commandId
  · have := cover.recovery commandId hre
    simp only [hre, if_true]
    omega
  · simp only [hre, if_false]
    omega

theorem times_ended (past : List (ExternalMove π ρ)) (commandId : String) :
    times firstInvoked past commandId + times abandoned past commandId =
      ((endedClaims past).map Prod.snd).count commandId := by
  induction past using List.reverseRecOn with
  | nil => rfl
  | append_singleton past m ih =>
      have ended := claimEnded_snd m.before m.action
      have apart : firstInvoked m.before m.action = none ∨ abandoned m.before m.action = none := by
        cases m.action <;> simp [firstInvoked, abandoned]
      rw [times_snoc, times_snoc, endedClaims, List.filterMap_append, List.map_append,
        List.count_append, ← endedClaims, ← ih]
      have last : ((List.filterMap (fun m => claimEnded m.before m.action) [m]).map
          Prod.snd).count commandId =
          if (claimEnded m.before m.action).map Prod.snd = some commandId then 1 else 0 := by
        cases hended : claimEnded m.before m.action with
        | none => simp [hended]
        | some claim => by_cases hid : claim.2 = commandId <;> simp [hended, hid]
      rw [last, ended]
      rcases apart with h | h <;> simp only [h, Option.none_or, Option.or_none] <;> simp <;> omega

theorem times_invoked_le (inv : ClaimsSpent maxAttempts past w) (commandId : String) :
    times invoked past commandId ≤ w.claimsOf commandId := by
  have ended : (endedClaims past).Subperm w.claims := by
    rw [List.subperm_ext_iff]
    rintro ⟨worker, claimedId⟩ -
    have := inv.ended worker claimedId
    omega
  have claims : (w.claims.map Prod.snd).count commandId = w.claimsOf commandId := by
    rw [World.claims, List.map_map, World.claimsOf]
    rfl
  obtain ⟨part, perm, sub⟩ := ended
  have within := (sub.map Prod.snd).count_le commandId
  rw [(perm.map Prod.snd).count_eq] at within
  have split := times_ended past commandId
  have covered := inv.recovered commandId
  rw [times_invoked]
  omega

end ClaimsSpent

theorem claimsSpent_of_exec {maxAttempts : ℤ} {w₀ w : World π ρ} {as : List (Action π ρ)}
    (positive : 1 ≤ maxAttempts) (start : Init w₀) (limit : ReadsLimit maxAttempts as)
    (covered : Transition.AlongPast step (AttemptsCover maxAttempts) w₀ as)
    (run : Transition.exec step w₀ as = some w) :
    ClaimsSpent maxAttempts (Transition.history step w₀ as) w := by
  have guarded : Transition.AlongPast step
      (fun past w a => AttemptsCover maxAttempts past w a ∧ ReadsLimit maxAttempts [a]) w₀ as := by
    intro past m rest hsplit
    refine ⟨covered past m rest hsplit, ?_⟩
    intro worker now config draw hmem
    have mem : m ∈ Transition.history step w₀ as := by simp [hsplit]
    rw [List.mem_singleton] at hmem
    exact limit worker now config draw (hmem ▸ Transition.action_mem_of_mem_history mem)
  exact Transition.exec_history_induction_alongPast (ClaimsSpent.init start)
    (fun _ _ _ _ inv guard h => inv.step positive guard.1 guard.2 h) guarded run

/-- No command is invoked more often than `_external_max_attempts()` over a run
    in which each recovery invokes in place of a worker that died between its
    claim and its call, and no `dispatch_command` claims a row without attempts
    left. -/
theorem invocations_bounded_of_attempts_cover {maxAttempts : ℤ} {w₀ w : World π ρ}
    {as : List (Action π ρ)} (positive : 1 ≤ maxAttempts) (start : Init w₀)
    (limit : ReadsLimit maxAttempts as)
    (covered : Transition.AlongPast step (AttemptsCover maxAttempts) w₀ as)
    (run : Transition.exec step w₀ as = some w) (commandId : String) :
    (times invoked (Transition.history step w₀ as) commandId : ℤ) ≤ maxAttempts := by
  have inv := claimsSpent_of_exec positive start limit covered run
  have within := inv.times_invoked_le commandId
  rcases Nat.eq_zero_or_pos (w.claimsOf commandId) with none | some
  · omega
  · obtain ⟨row, hrow, rfl⟩ := inv.claimed commandId some
    have attempts := inv.attempts row hrow
    have bounded := inv.bounded row hrow
    omega

/-- Ten minutes later the row is swept and invoked again, and the worker dies. -/
def sweptAndLost (now : Instant) : List (Action Unit Unit) :=
  [.claimStaleDispatched 1 ["sandbox"] [] 300 now 100, .dispatchRead 1 "cmd-1" "sandbox",
    .recover 1 (some retryable), .crash 1]

/-- One claim, and a worker that dies in its call and in each of ten recoveries. -/
def alwaysLost : List (Action Unit Unit) :=
  [.record sandboxCommand "cmd-1" (some "run-1") ["sandbox"],
    .claimNextPending 1 ["sandbox"] [] 0, .invoke 1 retryable, .crash 1] ++
    (List.range 10).flatMap fun k => sweptAndLost ((k + 1) * 600000000)

theorem invocations_exceed_max_attempts :
    ∃ w, Init emptyWorld ∧ Transition.exec step emptyWorld alwaysLost = some w ∧
      ReadsLimit 10 alwaysLost ∧
      times invoked (Transition.history step emptyWorld alwaysLost) "cmd-1" = 11 ∧
      w.store.commands.rows.map (·.attempts) = [1] := by
  have run : ((Transition.exec step emptyWorld alwaysLost).any fun w =>
      decide (times invoked (Transition.history step emptyWorld alwaysLost) "cmd-1" = 11 ∧
        w.store.commands.rows.map (·.attempts) = [1])) = true := by
    decide +kernel
  obtain ⟨w, hw, hcounts⟩ := Option.any_eq_true _ _ |>.mp run
  obtain ⟨calls, attempts⟩ := of_decide_eq_true hcounts
  refine ⟨w, ⟨rfl, rfl, rfl, fun _ => ⟨rfl, rfl⟩, rfl, rfl⟩, hw, ?_, calls, attempts⟩
  intro worker now config draw hmem
  simp [alwaysLost, sweptAndLost] at hmem

theorem invocations_bounded_recovered :
    ∃ w, Transition.exec step emptyWorld recovered = some w ∧
      w.store.commands.rows.map (·.attempts) = [1] ∧
      (times invoked (Transition.history step emptyWorld recovered) "cmd-1" : ℤ) ≤ 10 := by
  have run : ((Transition.exec step emptyWorld recovered).any fun w =>
      decide (w.store.commands.rows.map (·.attempts) = [1])) = true := by
    decide +kernel
  obtain ⟨w, hw, attempts⟩ := Option.any_eq_true _ _ |>.mp run
  have limit : ReadsLimit 10 recovered := by
    intro worker now config draw hmem
    simp [recovered] at hmem
    simp [hmem, defaultConfig]
  have covered : Transition.AlongPast step (AttemptsCover 10) emptyWorld recovered := by
    intro past m rest hsplit
    have mem : m ∈ Transition.history step emptyWorld recovered := by simp [hsplit]
    constructor
    · intro commandId hre
      have computed : ∀ i < (Transition.history step emptyWorld recovered).length,
          ∀ c ∈ ((Transition.history step emptyWorld recovered)[i]?.bind
              fun m => reinvoked m.before m.action),
            times reinvoked ((Transition.history step emptyWorld recovered).take i) c <
              times abandoned ((Transition.history step emptyWorld recovered).take i) c := by
        decide +kernel
      have covered := computed past.length (by simp [hsplit]) commandId (by simp [hsplit, hre])
      simpa [hsplit] using covered
    · intro worker now read haction
      have := Transition.action_mem_of_mem_history mem
      simp [haction, recovered] at this
  exact ⟨w, hw, of_decide_eq_true attempts,
    invocations_bounded_of_attempts_cover (by norm_num) ⟨rfl, rfl, rfl, fun _ => ⟨rfl, rfl⟩, rfl, rfl⟩
      limit covered hw "cmd-1"⟩

end FeatureGen.Runtime.External
