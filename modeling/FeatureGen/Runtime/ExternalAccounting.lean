import FeatureGen.Runtime.ExternalCommands

/-! # Accounting for external commands

What a run of workers does to the commands and to the budget. Two facts need no
assumption: a cost is charged exactly when a move takes its command into
'succeeded', and a row that is not pending has been claimed since it last
became so. The rest depends on the one claim that is not a guarded statement,
`dispatch_command`'s update of a row it has read as pending: as long as the row
still is when the update runs, a final status is kept, and nothing is charged
or claimed twice.
-/

namespace FeatureGen.Runtime.External

variable {π ρ : Type}

/-- `dispatch_command` updates a row it has read as pending only while it is. -/
def ClaimsPending (w : World π ρ) : Action π ρ → Prop
  | .dispatchClaim worker _ => ∀ read, (w.workers worker).phase = .read read →
      ∀ row ∈ w.store.commands, row.commandId = read.commandId → row.status = .pending
  | _ => True

abbrev ExternalMove (π ρ : Type) := Transition.Move (World π ρ) (Action π ρ)

/-- The move takes a command into 'succeeded' with a valid cost and a run row to
    charge it to. -/
def Charges (m : ExternalMove π ρ) (i : CostIncrement) : Prop :=
  ∃ worker now config draw res flags row row',
    m.action = .finalize worker now config draw ∧
    (m.before.workers worker).phase = .answered i.commandId res flags ∧
    m.before.store.commands.get? i.commandId = some row ∧ row.status ≠ .succeeded ∧
    m.after.store.commands.get? i.commandId = some row' ∧ row'.status = .succeeded ∧
    CostDue m.before.store.budget i.commandId row.runId res.costUnits i

/-- The move leaves every succeeded or failed command what it is. -/
def KeepsFinal (m : ExternalMove π ρ) : Prop :=
  ∀ row ∈ m.before.store.commands, row.status = .succeeded ∨ row.status = .failed →
    ∃ row' ∈ m.after.store.commands, row'.commandId = row.commandId ∧ row'.status = row.status

structure AccountedOnce (past : List (ExternalMove π ρ)) (w : World π ρ) : Prop where
  final : ∀ m ∈ past, KeepsFinal m
  /-- A cost is added exactly when its command reaches 'succeeded' with it… -/
  charged : ∀ i, i ∈ w.store.budget.increments ↔ ∃ m ∈ past, Charges m i
  /-- … once for each command … -/
  once : (w.store.budget.increments.map (·.commandId)).Nodup
  /-- … to the counter of its run. -/
  totals : w.store.budget.Consistent
  /-- Each time a row becomes pending, one worker at most claims it. -/
  heldOnce : (w.firstDispatches.map fun d => (d.commandId, d.opening)).Nodup

/-- The effect of a step on the commands, the budget and the claims. -/
inductive Effect (w : World π ρ) (a : Action π ρ) (w' : World π ρ) : Prop where
  /-- At most a sweep's stamps or a new run row. -/
  | quiet
      (rows : ∃ p f hf, w'.store.commands = w.store.commands.updateWhere p f hf ∧
        ∀ r, (f r).status = r.status)
      (budget : w.store.budget.Consistent → w'.store.budget.Consistent)
      (increments : w'.store.budget.increments = w.store.budget.increments)
      (openings : w'.openings = w.openings)
      (firstDispatches : w'.firstDispatches = w.firstDispatches)
  | recorded (row : ExternalCommand π ρ)
      (rows : w.store.commands.insert? row = some w'.store.commands)
      (pending : row.status = .pending)
      (budget : w'.store.budget = w.store.budget)
      (openings : w'.openings = w.openings ++ [row.commandId])
      (firstDispatches : w'.firstDispatches = w.firstDispatches)
  | claimed (worker : ℕ) (row : ExternalCommand π ρ) (now : Instant)
      (mem : row ∈ w.store.commands)
      (pending : ClaimsPending w a → row.status = .pending)
      (rows : w'.store.commands = w.store.commands.update row.commandId
        (ExternalCommand.dispatched now) (ExternalCommand.dispatched_commandId now))
      (budget : w'.store.budget = w.store.budget)
      (openings : w'.openings = w.openings)
      (firstDispatches :
        w'.firstDispatches = w.firstDispatches ++ [w.firstDispatch worker row.commandId])
  | settled (row : ExternalCommand π ρ) (status : CommandStatus)
      (worker : ℕ) (now : Instant) (config : FinalizeConfig) (draw : ℚ)
      (res : IntegrationResult ρ) (flags : DispatchFlags)
      (action : a = .finalize worker now config draw)
      (phase : (w.workers worker).phase = .answered row.commandId res flags)
      (mem : row ∈ w.store.commands) (unsettled : row.status.final = false)
      (settles : Settles w.store w'.store row res.costUnits status)
      (openings : w'.openings =
        if status = .pending then w.openings ++ [row.commandId] else w.openings)
      (firstDispatches : w'.firstDispatches = w.firstDispatches)

theorem rows_unchanged (commands : Commands π ρ) : ∃ p f hf,
    commands = commands.updateWhere p f hf ∧ ∀ r, (f r).status = r.status :=
  ⟨fun _ => false, id, fun _ => rfl, (Table.updateWhere_eq_self fun _ _ => rfl).symm, fun _ => rfl⟩

theorem Effect.same {w w' : World π ρ} {a : Action π ρ} (store : w'.store = w.store)
    (openings : w'.openings = w.openings)
    (firstDispatches : w'.firstDispatches = w.firstDispatches) : Effect w a w' := by
  apply Effect.quiet
  · rw [store]
    exact rows_unchanged w.store.commands
  · rw [store]
    exact id
  · rw [store]
  · exact openings
  · exact firstDispatches

theorem consistent_openRun {b : Budget} (inv : b.Consistent) (run : RunWorkflowState)
    (fresh : run.costUnits = 0) :
    Budget.Consistent { b with runs := b.runs.insertNew run } := by
  constructor
  · intro r hr
    rcases Table.mem_insertNew.mp hr with old | ⟨rfl, new⟩
    · exact inv.1 r old
    · have none : b.increments.filter (fun i => i.runId = r.runId) = [] := by
        rw [List.filter_eq_nil_iff]
        intro i hi hrun
        obtain ⟨y, hy, hyrun⟩ := inv.2 i hi
        exact new y hy (hyrun.trans (of_decide_eq_true hrun))
      simp [totalCharged, none, fresh]
  · intro i hi
    obtain ⟨r, hr, hrun⟩ := inv.2 i hi
    exact ⟨r, Table.mem_insertNew.mpr (Or.inl hr), hrun⟩

theorem step_effect {w w' : World π ρ} {a : Action π ρ} (h : step w a = some w') :
    Effect w a w' := by
  cases a with
  | tick micros =>
      cases h
      exact .same rfl rfl rfl
  | crash worker =>
      cases h
      exact .same rfl rfl rfl
  | record cmd commandId runId requireDedup =>
      simp only [step] at h
      split at h
      · cases h
        exact .same rfl rfl rfl
      · next commands id hrecord =>
          cases h
          rcases recordExternalCommand_ok hrecord with rfl | ⟨row, hins, rfl, hpending⟩
          · exact .same rfl (by simp) rfl
          · refine .recorded row hins hpending rfl ?_ rfl
            simp [(Table.rows_of_insert? hins).1]
  | openRun runId requestId candidatesExplored =>
      cases h
      exact .quiet (rows_unchanged w.store.commands) (fun inv => consistent_openRun inv _ rfl)
        rfl rfl rfl
  | claimNextPending worker registered locked now =>
      simp only [step] at h
      split at h
      · split at h
        · cases h
          exact .same rfl rfl rfl
        · next commands claim hclaim =>
            cases h
            obtain ⟨row, hmem, hpending, rfl, rfl⟩ := claimNextPending_some hclaim
            exact .claimed worker row now hmem (fun _ => hpending) rfl rfl rfl rfl
      · cases h
  | invoke worker res =>
      simp only [step] at h
      split at h
      · cases h
        exact .same rfl rfl rfl
      · cases h
  | claimStaleDispatched worker registered locked staleAfterSeconds now limit =>
      simp only [step] at h
      split at h
      · cases h
        exact .quiet ⟨_, _, ExternalCommand.restamped_commandId now, rfl, fun _ => rfl⟩ id
          rfl rfl rfl
      · cases h
  | dispatchRead worker commandId integration =>
      simp only [step] at h
      split at h
      · split at h
        · split at h
          · cases h
            exact .same rfl rfl rfl
          · split at h <;> cases h <;> exact .same rfl rfl rfl
        · cases h
      · cases h
  | dispatchClaim worker now =>
      simp only [step] at h
      split at h
      · next read hphase =>
          split at h
          · split at h
            · cases h
              exact .same rfl rfl rfl
            · next row hrow =>
                cases h
                obtain ⟨hmem, hid⟩ := Table.get?_eq_some.mp hrow
                refine .claimed worker row now hmem (fun guard => guard read hphase row hmem hid)
                  ?_ rfl rfl ?_ <;> simp [hid]
          · cases h
      · cases h
  | recover worker res =>
      simp only [step] at h
      split at h
      · split at h
        · obtain ⟨phase, -, rfl⟩ := Option.map_eq_some_iff.mp h
          exact .same rfl rfl rfl
        · cases h
      · cases h
  | finalize worker now config draw =>
      simp only [step] at h
      split at h
      · next commandId res flags hphase =>
          split at h
          · cases h
            exact .same rfl rfl rfl
          · next store outcome hfinalize =>
              cases h
              obtain ⟨row, hrow, hcases⟩ := finalize_some hfinalize
              obtain ⟨hmem, rfl⟩ := Table.get?_eq_some.mp hrow
              rcases hcases with ⟨hfinal, rfl, hstatus⟩ | ⟨hopen, hsettles⟩
              · refine .same rfl ?_ rfl
                have hne : row.status ≠ .pending := by
                  intro hpending
                  simp [hpending, CommandStatus.final] at hfinal
                simp [hstatus, hne]
              · exact .settled row outcome.status worker now config draw res flags rfl hphase hmem
                  hopen hsettles rfl rfl
      · cases h

theorem not_charges {m : ExternalMove π ρ}
    (h : ∀ row ∈ m.before.store.commands, ∀ row' ∈ m.after.store.commands,
      row'.commandId = row.commandId → row'.status = .succeeded → row.status = .succeeded)
    (i : CostIncrement) : ¬ Charges m i := by
  rintro ⟨_, _, _, _, _, _, row, row', -, -, hrow, hopen, hrow', hsucceeded, -⟩
  obtain ⟨hmem, hid⟩ := Table.get?_eq_some.mp hrow
  obtain ⟨hmem', hid'⟩ := Table.get?_eq_some.mp hrow'
  exact hopen (h row hmem row' hmem' (hid'.trans hid.symm) hsucceeded)

theorem step_charges {w w' : World π ρ} {a : Action π ρ} (h : step w a = some w') :
    ∃ due : Option CostIncrement,
      w'.store.budget.increments = w.store.budget.increments ++ due.toList ∧
      ∀ i, due = some i ↔ Charges ⟨w, a, w'⟩ i := by
  have nothing (increments : w'.store.budget.increments = w.store.budget.increments)
      (none : ∀ i, ¬ Charges ⟨w, a, w'⟩ i) : ∃ due : Option CostIncrement,
        w'.store.budget.increments = w.store.budget.increments ++ due.toList ∧
        ∀ i, due = some i ↔ Charges ⟨w, a, w'⟩ i :=
    ⟨.none, by simp [increments], fun i => by simp [none i]⟩
  cases step_effect h with
  | quiet rows budget increments openings firstDispatches =>
      obtain ⟨p, f, hf, hrows, hstatus⟩ := rows
      apply nothing increments
      apply not_charges
      intro row hmem row' hmem' hid hsucceeded
      rw [hrows, Table.mem_updateWhere] at hmem'
      obtain ⟨y, hy, rfl⟩ := hmem'
      have hsame : y.commandId = row.commandId := by
        by_cases hp : p y <;> simpa [hp, hf] using hid
      obtain rfl := Table.eq_of_key_eq hy hmem hsame
      by_cases hp : p y <;> simpa [hp, hstatus] using hsucceeded
  | recorded new rows pending budget openings firstDispatches =>
      apply nothing (by rw [budget])
      apply not_charges
      intro row hmem row' hmem' hid hsucceeded
      rcases (Table.mem_insert? rows).mp hmem' with old | rfl
      · rwa [Table.eq_of_key_eq hmem old hid.symm]
      · rw [pending] at hsucceeded
        cases hsucceeded
  | claimed worker r now mem pending rows budget openings firstDispatches =>
      apply nothing (by rw [budget])
      apply not_charges
      intro row hmem row' hmem' hid hsucceeded
      rw [rows, Table.mem_update] at hmem'
      obtain ⟨y, hy, rfl⟩ := hmem'
      by_cases hp : y.commandId = r.commandId
      · simp [hp, ExternalCommand.dispatched] at hsucceeded
      · simp only [hp, if_false] at hid hsucceeded
        rwa [Table.eq_of_key_eq hmem hy hid.symm]
  | settled row status worker now config draw res flags action phase mem unsettled settles _ _ =>
      obtain ⟨f, hf, hrows, hstatus⟩ := settles.commands
      obtain ⟨due, hdue, hiff⟩ := settles.increments
      refine ⟨due, hdue, fun i => (hiff i).trans ?_⟩
      have before := Table.get?_key mem
      have after : w'.store.commands.get? row.commandId = some (f row) := by
        rw [hrows, Table.get?_update, if_pos rfl, before, Option.map_some]
      constructor
      · rintro ⟨hsucceeded, hcost⟩
        obtain hid := hcost.command
        rw [← hid] at phase before after hcost
        have hne : row.status ≠ .succeeded := by
          intro hrow
          simp [hrow, CommandStatus.final] at unsettled
        exact ⟨worker, now, config, draw, res, flags, row, f row, action, phase, before, hne,
          after, hstatus.trans hsucceeded, hcost⟩
      · rintro ⟨worker', now', config', draw', res', flags', r, r', haction, hphase, hr, -, hr',
          hsucceeded, hcost⟩
        obtain ⟨rfl, -⟩ : worker' = worker ∧ now' = now ∧ config' = config ∧ draw' = draw := by
          simpa using haction.symm.trans action
        obtain ⟨hid, rfl, rfl⟩ : i.commandId = row.commandId ∧ res' = res ∧ flags' = flags := by
          simpa using hphase.symm.trans phase
        rw [hid] at hr hr' hcost
        obtain rfl := Option.some.inj (before.symm.trans hr)
        obtain rfl := Option.some.inj (after.symm.trans hr')
        exact ⟨hstatus.symm.trans hsucceeded, hcost⟩

/-- Facts of every run, whatever the claims find. -/
structure Recorded (past : List (ExternalMove π ρ)) (w : World π ρ) : Prop where
  charged : ∀ i, i ∈ w.store.budget.increments ↔ ∃ m ∈ past, Charges m i
  totals : w.store.budget.Consistent
  current : ∀ row ∈ w.store.commands, row.status ≠ .staleIgnored
  /-- A dispatched row has been claimed since it last became pending. -/
  taken : ∀ row ∈ w.store.commands, row.status = .dispatched → ∃ d ∈ w.firstDispatches,
    d.commandId = row.commandId ∧ d.opening = w.openings.count row.commandId

namespace Recorded

variable {past : List (ExternalMove π ρ)} {w w' : World π ρ} {a : Action π ρ}

theorem init (start : Init w) : Recorded [] w := by
  obtain ⟨commands, runs, increments, -, -, -⟩ := start
  have none : ∀ row, row ∉ w.store.commands := by
    intro row hrow
    rw [← Table.mem_rows, commands] at hrow
    cases hrow
  refine ⟨fun i => by simp [increments], ⟨?_, by simp [increments]⟩,
    fun row hrow => absurd hrow (none row), fun row hrow => absurd hrow (none row)⟩
  intro run hrun
  rw [← Table.mem_rows, runs] at hrun
  cases hrun

theorem charged_step (inv : Recorded past w) (h : step w a = some w') (i : CostIncrement) :
    i ∈ w'.store.budget.increments ↔ ∃ m ∈ past ++ [⟨w, a, w'⟩], Charges m i := by
  obtain ⟨due, hdue, hiff⟩ := step_charges h
  rw [hdue, List.mem_append, inv.charged i, Option.mem_toList, hiff i]
  simp [or_and_right, exists_or]

theorem totals_effect (inv : Recorded past w) (h : Effect w a w') :
    w'.store.budget.Consistent := by
  cases h with
  | quiet rows budget increments openings firstDispatches => exact budget inv.totals
  | recorded row rows pending budget openings firstDispatches =>
      rw [budget]
      exact inv.totals
  | claimed worker r now mem pending rows budget openings firstDispatches =>
      rw [budget]
      exact inv.totals
  | settled row status _ _ _ _ _ _ _ _ mem unsettled settles openings firstDispatches =>
      exact settles.budget inv.totals

theorem rows_effect (inv : Recorded past w) (h : Effect w a w') :
    ∀ row ∈ w'.store.commands, row.status ≠ .staleIgnored ∧
      (row.status = .dispatched → ∃ d ∈ w'.firstDispatches,
        d.commandId = row.commandId ∧ d.opening = w'.openings.count row.commandId) := by
  intro row' hrow'
  cases h with
  | quiet rows budget increments openings firstDispatches =>
      obtain ⟨p, f, hf, hrows, hsame⟩ := rows
      rw [hrows, Table.mem_updateWhere] at hrow'
      obtain ⟨y, hy, rfl⟩ := hrow'
      have hid : (if p y then f y else y).commandId = y.commandId := by
        by_cases hp : p y <;> simp [hp, hf]
      have hstatus : (if p y then f y else y).status = y.status := by
        by_cases hp : p y <;> simp [hp, hsame]
      rw [firstDispatches, openings, hid, hstatus]
      exact ⟨inv.current y hy, inv.taken y hy⟩
  | recorded new rows pending budget openings firstDispatches =>
      rcases (Table.mem_insert? rows).mp hrow' with old | rfl
      · have hne : new.commandId ≠ row'.commandId :=
          Ne.symm ((Table.rows_of_insert? rows).2 row' old)
        rw [firstDispatches, openings, List.count_append]
        refine ⟨inv.current row' old, fun hstatus => ?_⟩
        simpa [hne] using inv.taken row' old hstatus
      · simp [pending]
  | claimed worker r now mem pending rows budget openings firstDispatches =>
      rw [rows, Table.mem_update] at hrow'
      obtain ⟨y, hy, rfl⟩ := hrow'
      rw [firstDispatches, openings]
      by_cases hid : y.commandId = r.commandId
      · simp only [hid, if_true]
        refine ⟨nofun, fun _ => ⟨_, List.mem_append_right _ List.mem_cons_self, ?_⟩⟩
        simp [World.firstDispatch, hid, ExternalCommand.dispatched]
      · simp only [hid, if_false]
        refine ⟨inv.current y hy, fun hstatus => ?_⟩
        obtain ⟨d, hd, hkey⟩ := inv.taken y hy hstatus
        exact ⟨d, List.mem_append_left _ hd, hkey⟩
  | settled row status _ _ _ _ _ _ _ _ mem unsettled settles openings firstDispatches =>
      obtain ⟨f, hf, hrows, hnew⟩ := settles.commands
      rw [hrows, Table.mem_update] at hrow'
      obtain ⟨y, hy, rfl⟩ := hrow'
      rw [firstDispatches, openings]
      by_cases hid : y.commandId = row.commandId
      · obtain rfl := Table.eq_of_key_eq hy mem hid
        simp only [if_true, hnew]
        rcases settles.kind with rfl | rfl | rfl <;> simp
      · simp only [hid, if_false]
        refine ⟨inv.current y hy, fun hstatus => ?_⟩
        obtain ⟨d, hd, hcommand, hopening⟩ := inv.taken y hy hstatus
        refine ⟨d, hd, hcommand, ?_⟩
        split
        · simp [hopening, Ne.symm hid]
        · exact hopening

theorem step (inv : Recorded past w) (h : External.step w a = some w') :
    Recorded (past ++ [⟨w, a, w'⟩]) w' := by
  have heffect := step_effect h
  exact ⟨inv.charged_step h, inv.totals_effect heffect,
    fun row hrow => (inv.rows_effect heffect row hrow).1,
    fun row hrow => (inv.rows_effect heffect row hrow).2⟩

end Recorded

/-- Facts of a run whose claims all find their row pending. -/
structure Once (w : World π ρ) : Prop where
  once : (w.store.budget.increments.map (·.commandId)).Nodup
  /-- A charged command has succeeded. -/
  succeeded : ∀ i ∈ w.store.budget.increments, ∃ row ∈ w.store.commands,
    row.commandId = i.commandId ∧ row.status = .succeeded
  heldOnce : (w.firstDispatches.map fun d => (d.commandId, d.opening)).Nodup
  bounded : ∀ d ∈ w.firstDispatches, d.opening ≤ w.openings.count d.commandId
  /-- Nobody has claimed a pending row since it last became pending. -/
  unclaimed : ∀ row ∈ w.store.commands, row.status = .pending → ∀ d ∈ w.firstDispatches,
    d.commandId = row.commandId → d.opening < w.openings.count row.commandId

theorem keepsFinal_step {w w' : World π ρ} {a : Action π ρ} (guard : ClaimsPending w a)
    (h : Effect w a w') : KeepsFinal ⟨w, a, w'⟩ := by
  intro row hrow hstatus
  dsimp only at hrow ⊢
  cases h with
  | quiet rows budget increments openings firstDispatches =>
      obtain ⟨p, f, hf, hrows, hsame⟩ := rows
      refine ⟨_, hrows ▸ Table.mem_updateWhere.mpr ⟨row, hrow, rfl⟩, ?_⟩
      by_cases hp : p row <;> simp [hp, hf, hsame]
  | recorded new rows pending budget openings firstDispatches =>
      exact ⟨row, (Table.mem_insert? rows).mpr (Or.inl hrow), rfl, rfl⟩
  | claimed worker r now mem pending rows budget openings firstDispatches =>
      have hne : row.commandId ≠ r.commandId := by
        intro hid
        rw [Table.eq_of_key_eq hrow mem hid, pending guard] at hstatus
        simp at hstatus
      exact ⟨row, rows ▸ Table.mem_update.mpr ⟨row, hrow, by simp [hne]⟩, rfl, rfl⟩
  | settled r status _ _ _ _ _ _ _ _ mem unsettled settles openings firstDispatches =>
      obtain ⟨f, hf, hrows, hnew⟩ := settles.commands
      have hne : row.commandId ≠ r.commandId := by
        intro hid
        rw [Table.eq_of_key_eq hrow mem hid] at hstatus
        rcases hstatus with h | h <;> simp [h, CommandStatus.final] at unsettled
      exact ⟨row, hrows ▸ Table.mem_update.mpr ⟨row, hrow, by simp [hne]⟩, rfl, rfl⟩

namespace Once

variable {w w' : World π ρ} {a : Action π ρ}

theorem init (start : Init w) : Once w := by
  obtain ⟨commands, -, increments, -, -, firstDispatches⟩ := start
  refine ⟨by simp [increments], by simp [increments], by simp [firstDispatches],
    by simp [firstDispatches], ?_⟩
  simp [firstDispatches]

theorem charges_effect (inv : Once w) (guard : ClaimsPending w a) (h : Effect w a w') :
    (w'.store.budget.increments.map (·.commandId)).Nodup ∧
    ∀ i ∈ w'.store.budget.increments, ∃ row ∈ w'.store.commands,
      row.commandId = i.commandId ∧ row.status = .succeeded := by
  have still : ∀ i ∈ w.store.budget.increments, ∃ row ∈ w'.store.commands,
      row.commandId = i.commandId ∧ row.status = .succeeded := by
    intro i hi
    obtain ⟨row, hrow, hid, hstatus⟩ := inv.succeeded i hi
    obtain ⟨row', hrow', hid', hstatus'⟩ := keepsFinal_step guard h row hrow (Or.inl hstatus)
    exact ⟨row', hrow', hid'.trans hid, hstatus'.trans hstatus⟩
  cases h with
  | quiet rows budget increments openings firstDispatches =>
      rw [increments]
      exact ⟨inv.once, still⟩
  | recorded row rows pending budget openings firstDispatches =>
      rw [budget]
      exact ⟨inv.once, still⟩
  | claimed worker row now mem pending rows budget openings firstDispatches =>
      rw [budget]
      exact ⟨inv.once, still⟩
  | settled row status _ _ _ _ _ _ _ _ mem unsettled settles openings firstDispatches =>
      obtain ⟨due, hdue, hiff⟩ := settles.increments
      rw [hdue]
      cases due with
      | none =>
          rw [Option.toList_none, List.append_nil]
          exact ⟨inv.once, still⟩
      | some i =>
          obtain ⟨hsucceeded, hcost⟩ := (hiff i).mp rfl
          obtain ⟨f, hf, hrows, hnew⟩ := settles.commands
          have uncharged : ∀ j ∈ w.store.budget.increments, j.commandId ≠ i.commandId := by
            intro j hj hij
            obtain ⟨r, hr, hid, hstatus⟩ := inv.succeeded j hj
            rw [Table.eq_of_key_eq hr mem (hid.trans (hij.trans hcost.command))] at hstatus
            simp [hstatus, CommandStatus.final] at unsettled
          constructor
          · rw [List.map_append, List.nodup_append]
            refine ⟨inv.once, List.nodup_singleton _, ?_⟩
            intro x hx y hy
            obtain ⟨j, hj, rfl⟩ := List.mem_map.mp hx
            obtain rfl := List.mem_singleton.mp hy
            exact uncharged j hj
          · intro j hj
            rcases List.mem_append.mp hj with old | new
            · exact still j old
            · obtain rfl := List.mem_singleton.mp new
              refine ⟨f row, hrows ▸ Table.mem_update.mpr ⟨row, mem, by simp⟩, ?_, ?_⟩
              · rw [hf, hcost.command]
              · rw [hnew, hsucceeded]

theorem claims_effect (inv : Once w) (guard : ClaimsPending w a) (h : Effect w a w') :
    (w'.firstDispatches.map fun d => (d.commandId, d.opening)).Nodup ∧
    (∀ d ∈ w'.firstDispatches, d.opening ≤ w'.openings.count d.commandId) ∧
    ∀ row ∈ w'.store.commands, row.status = .pending → ∀ d ∈ w'.firstDispatches,
      d.commandId = row.commandId → d.opening < w'.openings.count row.commandId := by
  cases h with
  | quiet rows budget increments openings firstDispatches =>
      obtain ⟨p, f, hf, hrows, hsame⟩ := rows
      rw [firstDispatches, openings]
      refine ⟨inv.heldOnce, inv.bounded, fun row' hrow' => ?_⟩
      rw [hrows, Table.mem_updateWhere] at hrow'
      obtain ⟨y, hy, rfl⟩ := hrow'
      have hid : (if p y then f y else y).commandId = y.commandId := by
        by_cases hp : p y <;> simp [hp, hf]
      have hstatus : (if p y then f y else y).status = y.status := by
        by_cases hp : p y <;> simp [hp, hsame]
      rw [hid, hstatus]
      exact inv.unclaimed y hy
  | recorded new rows pending budget openings firstDispatches =>
      rw [firstDispatches, openings]
      refine ⟨inv.heldOnce, fun d hd => ?_, fun row' hrow' hstatus d hd hid => ?_⟩
      · have := inv.bounded d hd
        rw [List.count_append]
        omega
      · have hbound := inv.bounded d hd
        rw [List.count_append]
        rcases (Table.mem_insert? rows).mp hrow' with old | rfl
        · have := inv.unclaimed row' old hstatus d hd hid
          omega
        · rw [hid] at hbound
          simp
          omega
  | claimed worker row now mem pending rows budget openings firstDispatches =>
      rw [firstDispatches, openings]
      have unheld : ∀ d ∈ w.firstDispatches, d.commandId = row.commandId →
          d.opening < w.openings.count row.commandId := inv.unclaimed row mem (pending guard)
      refine ⟨?_, fun d hd => ?_, fun row' hrow' hstatus d hd hid => ?_⟩
      · rw [List.map_append, List.nodup_append]
        refine ⟨inv.heldOnce, List.nodup_singleton _, ?_⟩
        intro x hx y hy
        obtain ⟨d, hd, rfl⟩ := List.mem_map.mp hx
        obtain rfl := List.mem_singleton.mp hy
        intro heq
        obtain ⟨hcommand, hopening⟩ := Prod.mk.inj heq
        have hlt := unheld d hd hcommand
        simp only [World.firstDispatch] at hopening
        omega
      · rcases List.mem_append.mp hd with old | last
        · exact inv.bounded d old
        · obtain rfl := List.mem_singleton.mp last
          exact le_rfl
      · rw [rows, Table.mem_update] at hrow'
        obtain ⟨y, hy, rfl⟩ := hrow'
        by_cases hy' : y.commandId = row.commandId
        · simp [hy', ExternalCommand.dispatched] at hstatus
        · simp only [hy', if_false] at hstatus hid ⊢
          rcases List.mem_append.mp hd with old | last
          · exact inv.unclaimed y hy hstatus d old hid
          · obtain rfl := List.mem_singleton.mp last
            exact absurd hid.symm hy'
  | settled row status _ _ _ _ _ _ _ _ mem unsettled settles openings firstDispatches =>
      obtain ⟨f, hf, hrows, hnew⟩ := settles.commands
      have grows : ∀ commandId, w.openings.count commandId ≤ w'.openings.count commandId := by
        intro commandId
        rw [openings]
        split
        · rw [List.count_append]
          omega
        · exact le_rfl
      rw [firstDispatches]
      refine ⟨inv.heldOnce, fun d hd => (inv.bounded d hd).trans (grows _), ?_⟩
      intro row' hrow' hstatus d hd hid
      rw [hrows, Table.mem_update] at hrow'
      obtain ⟨y, hy, rfl⟩ := hrow'
      by_cases hy' : y.commandId = row.commandId
      · obtain rfl := Table.eq_of_key_eq hy mem hy'
        simp only [if_true, hnew, hf] at hstatus hid ⊢
        have hbound := inv.bounded d hd
        rw [openings, if_pos hstatus, List.count_append, List.count_singleton_self]
        rw [hid] at hbound
        omega
      · simp only [hy', if_false] at hstatus hid ⊢
        exact (inv.unclaimed y hy hstatus d hd hid).trans_le (grows _)

theorem effect (inv : Once w) (guard : ClaimsPending w a) (h : Effect w a w') : Once w' := by
  obtain ⟨once, succeeded⟩ := inv.charges_effect guard h
  obtain ⟨heldOnce, bounded, unclaimed⟩ := inv.claims_effect guard h
  exact ⟨once, succeeded, heldOnce, bounded, unclaimed⟩

end Once

section Runs

variable {w₀ w : World π ρ} {as : List (Action π ρ)}

theorem recorded_of_exec (start : Init w₀) (run : Transition.exec step w₀ as = some w) :
    Recorded (Transition.history step w₀ as) w :=
  Transition.exec_history_induction (Recorded.init start) (fun _ _ _ _ inv h => inv.step h) run

theorem once_of_exec (start : Init w₀) (guarded : Transition.Along step ClaimsPending w₀ as)
    (run : Transition.exec step w₀ as = some w) : Once w :=
  Transition.exec_induction_along (Once.init start)
    (fun _ _ _ inv guard h => inv.effect guard (step_effect h)) guarded run

theorem firstDispatches_mono (run : Transition.exec step w₀ as = some w) :
    w₀.firstDispatches <+: w.firstDispatches := by
  apply Transition.exec_induction (P := fun s => w₀.firstDispatches <+: s.firstDispatches)
    (List.prefix_refl _) _ run
  intro s a s' inv h
  cases step_effect h with
  | claimed worker row now mem pending rows budget openings firstDispatches =>
      rw [firstDispatches]
      exact inv.trans (List.prefix_append _ _)
  | quiet _ _ _ _ firstDispatches => rwa [firstDispatches]
  | recorded _ _ _ _ _ firstDispatches => rwa [firstDispatches]
  | settled _ _ _ _ _ _ _ _ _ _ _ _ _ _ firstDispatches => rwa [firstDispatches]

theorem dispatchClaim_some {w' : World π ρ} {worker : ℕ} {now : Instant} {read : DispatchRead π}
    {row : ExternalCommand π ρ} (phase : (w.workers worker).phase = .read read)
    (hrow : w.store.commands.get? read.commandId = some row)
    (h : step w (.dispatchClaim worker now) = some w') :
    w'.store.commands = w.store.commands.update read.commandId (ExternalCommand.dispatched now)
      (ExternalCommand.dispatched_commandId now) ∧
    w'.firstDispatches = w.firstDispatches ++ [w.firstDispatch worker read.commandId] := by
  simp only [step, phase, hrow] at h
  split at h
  · cases h
    exact ⟨rfl, rfl⟩
  · cases h

theorem claimsPending_of_accounted {past : List (ExternalMove π ρ)} {m : ExternalMove π ρ}
    (h : step m.before m.action = some m.after) (inv : Recorded past m.before)
    (final : KeepsFinal m)
    (heldOnce : (m.after.firstDispatches.map fun d => (d.commandId, d.opening)).Nodup) :
    ClaimsPending m.before m.action := by
  obtain ⟨before, action, after⟩ := m
  dsimp only at h inv heldOnce ⊢
  cases action with
  | dispatchClaim worker now =>
      intro read hphase row hmem hid
      obtain ⟨rows, firstDispatches⟩ :=
        dispatchClaim_some hphase (Table.get?_eq_some.mpr ⟨hmem, hid⟩) h
      have overwritten : ¬ (row.status = .succeeded ∨ row.status = .failed) := by
        intro hfinal
        obtain ⟨row', hrow', hid', hstatus⟩ := final row hmem hfinal
        rw [rows, Table.mem_update] at hrow'
        obtain ⟨y, hy, rfl⟩ := hrow'
        have hy' : y.commandId = read.commandId := by
          by_contra hne
          simp only [hne, if_false] at hid'
          exact hne (hid'.trans hid)
        rw [if_pos hy'] at hstatus
        rw [← hstatus] at hfinal
        simp [ExternalCommand.dispatched] at hfinal
      cases hstatus : row.status with
      | pending => rfl
      | succeeded => exact absurd (Or.inl hstatus) overwritten
      | failed => exact absurd (Or.inr hstatus) overwritten
      | staleIgnored => exact absurd hstatus (inv.current row hmem)
      | dispatched =>
          obtain ⟨d, hd, hcommand, hopening⟩ := inv.taken row hmem hstatus
          rw [firstDispatches, List.map_append, List.nodup_append] at heldOnce
          have := heldOnce.2.2 _ (List.mem_map_of_mem hd) _ (List.mem_singleton_self _)
          simp [World.firstDispatch, hcommand, hopening, hid] at this
  | _ => trivial

/-- External effects are accounted exactly once over a run exactly when each of
    its `dispatch_command`s that has read a pending row updates it while it is
    still pending. -/
theorem accountedOnce_iff_claims_pending (start : Init w₀)
    (run : Transition.exec step w₀ as = some w) :
    AccountedOnce (Transition.history step w₀ as) w ↔
      Transition.Along step ClaimsPending w₀ as := by
  constructor
  · intro accounted m hm
    obtain ⟨pre, post, rfl, hpre⟩ := Transition.exists_split_of_mem_history hm
    have hstep := Transition.step_of_mem_history hm
    obtain ⟨t, ht, hrest⟩ := Transition.exec_append_eq_some.mp run
    obtain rfl := Option.some.inj (hpre.symm.trans ht)
    obtain ⟨after, hafter, hpost⟩ := Transition.exec_cons_eq_some.mp hrest
    obtain rfl := Option.some.inj (hstep.symm.trans hafter)
    have sub := (firstDispatches_mono hpost).sublist.map fun d => (d.commandId, d.opening)
    exact claimsPending_of_accounted hstep (recorded_of_exec start hpre) (accounted.final m hm)
      (sub.nodup accounted.heldOnce)
  · intro guarded
    have recorded := recorded_of_exec start run
    have once := once_of_exec start guarded run
    refine ⟨fun m hm => ?_, recorded.charged, once.once, recorded.totals, once.heldOnce⟩
    exact keepsFinal_step (guarded m hm) (step_effect (Transition.step_of_mem_history hm))

end Runs

def emptyStore : Store Unit Unit where
  commands := Table.empty
  budget := ⟨Table.empty, ⟨Table.empty, 1⟩, []⟩

def emptyWorld : World Unit Unit where
  now := 0
  store := emptyStore
  workers := fun _ => ⟨[], .idle⟩
  openings := []
  firstDispatches := []

def sandboxCommand : NewExternalCommand Unit where
  integration := "sandbox"
  idempotencyKey := "key-1"
  requestPayload := ()
  expectedRunId := none
  expectedStreamVersion := none
  expectedTaskId := none
  jobHandle := none
  dedupSupported := true

def success : IntegrationResult Unit := ⟨true, fun _ => none, some (.finite 5), none, false⟩

def retryable : IntegrationResult Unit := ⟨false, fun _ => none, none, none, false⟩

def defaultConfig : FinalizeConfig := ⟨10, some ⟨none, none, none⟩⟩

/-- Worker 1 is slow; worker 2 sweeps its row, and reads it as pending after
    worker 1's answer has reopened it. Before worker 2 updates it, worker 1 claims
    it again and succeeds; then worker 2 does. -/
def overtaken : List (Action Unit Unit) :=
  [.openRun "run-1" "req-1" 0,
   .record sandboxCommand "cmd-1" (some "run-1") ["sandbox"],
   .claimNextPending 1 ["sandbox"] [] 0,
   .claimStaleDispatched 2 ["sandbox"] [] 300 301000000 100,
   .invoke 1 retryable, .finalize 1 301000000 defaultConfig 0,
   .dispatchRead 2 "cmd-1" "sandbox",
   .claimNextPending 1 ["sandbox"] [] 303000000,
   .invoke 1 success, .finalize 1 303000000 defaultConfig 0,
   .dispatchClaim 2 301000000,
   .invoke 2 success, .finalize 2 301000000 defaultConfig 0]

theorem overtaken_charges_twice :
    ∃ w, Init emptyWorld ∧ Transition.exec step emptyWorld overtaken = some w ∧
      w.store.budget.increments = [⟨"cmd-1", "run-1", 5⟩, ⟨"cmd-1", "run-1", 5⟩] ∧
      w.store.budget.runs.rows.map (·.costUnits) = [10] ∧
      ¬ AccountedOnce (Transition.history step emptyWorld overtaken) w := by
  have run : ((Transition.exec step emptyWorld overtaken).any fun w =>
      decide (w.store.budget.increments = [⟨"cmd-1", "run-1", 5⟩, ⟨"cmd-1", "run-1", 5⟩] ∧
        w.store.budget.runs.rows.map (·.costUnits) = [10])) = true := by
    decide +kernel
  obtain ⟨w, hw, hcharged⟩ := Option.any_eq_true _ _ |>.mp run
  obtain ⟨increments, totals⟩ := of_decide_eq_true hcharged
  refine ⟨w, ⟨rfl, rfl, rfl, fun _ => ⟨rfl, rfl⟩, rfl, rfl⟩, hw, increments, totals, ?_⟩
  intro accounted
  have once := accounted.once
  simp [increments] at once

/-- Worker 1 dies after its claim; worker 2 recovers the command. -/
def recovered : List (Action Unit Unit) :=
  [.openRun "run-1" "req-1" 0,
   .record sandboxCommand "cmd-1" (some "run-1") ["sandbox"],
   .claimNextPending 1 ["sandbox"] [] 0, .crash 1,
   .claimStaleDispatched 2 ["sandbox"] [] 300 301000000 100,
   .dispatchRead 2 "cmd-1" "sandbox",
   .recover 2 (some success), .finalize 2 301000000 defaultConfig 0]

theorem accountedOnce_iff_claims_pending_recovered :
    ∃ w, Transition.exec step emptyWorld recovered = some w ∧
      w.store.budget.runs.rows.map (·.costUnits) = [5] ∧
      (AccountedOnce (Transition.history step emptyWorld recovered) w ↔
        Transition.Along step ClaimsPending emptyWorld recovered) := by
  have run : ((Transition.exec step emptyWorld recovered).any fun w =>
      decide (w.store.budget.runs.rows.map (·.costUnits) = [5])) = true := by
    decide +kernel
  obtain ⟨w, hw, totals⟩ := Option.any_eq_true _ _ |>.mp run
  exact ⟨w, hw, of_decide_eq_true totals,
    accountedOnce_iff_claims_pending ⟨rfl, rfl, rfl, fun _ => ⟨rfl, rfl⟩, rfl, rfl⟩ hw⟩

end FeatureGen.Runtime.External
