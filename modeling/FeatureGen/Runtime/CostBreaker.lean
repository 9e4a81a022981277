import FeatureGen.Aggregates.Resume
import FeatureGen.Aggregates.TerminalRuns
import FeatureGen.Lib.Checks
import FeatureGen.Runtime.ExternalCommands

/-! # The cost breaker

A recorded cost that breaches a ceiling asks through the queue for its run to be
parked (`runtime/cost_budget.py`), and the poller of control signals in
`runtime/worker.py` parks it. Each call is a transaction of its own.

A run can leave the park and breach again. The message that asked for it cannot:
its id names the run and the ceiling, and a drained message keeps it.
-/

namespace FeatureGen.CostBreaker

open FeatureGen.Runtime FeatureGen.Aggregates FeatureGen.Events

structure Setup where
  ceilings : CostCeilings
  /-- No detector finds a secret in the text. -/
  clean : String → Bool
  draws : Draws

structure World where
  now : Instant
  budget : Budget
  log : List Row

inductive Action where
  | tick (micros : ℕ)
  /-- A run of an open request, and its workflow state row. -/
  | createRun (runId requestId : String) (candidatesExplored : ℤ)
  | recordCost (commandId : String) (runId : Option String) (costUnits : Option DecimalValue)
  | drain
  | command (command : Command)

/-- The rows a poll locks, `ORDER BY priority, available_at, id`. -/
def selectSignals (q : Queue AutoPark) (now : Instant) : List (QueueRow AutoPark) :=
  (q.rows.rows.filter fun r =>
    r.status = .ready ∧ r.availableAt ≤ now ∧ r.handler ∈ controlSignalHandlers).insertionSort
      fun r r' => claimBefore r' r = false

/-- The breaker's payload names neither an owner nor a fact. -/
def control (row : QueueRow AutoPark) : ControlRow :=
  ⟨row.handler, some row.payload.runId, none, none⟩

/-- What becomes of a polled row. -/
def settleSignal (q : Queue AutoPark) (row : QueueRow AutoPark) : Queue AutoPark :=
  if row.handler = "runtime.auto_park" ∧ row.payload.runId ≠ "" then complete q row.id
  else (failPermanent q row.id s!"no consumer wired for {row.handler} (SP-0.5 follow-up)").1

/-- The log a program commits; none when it raises and rolls back. -/
def committed {α : Type} : Except AppendError α × List Row → Option (List Row)
  | (.ok _, log) => some log
  | (.error _, _) => none

/-- `drain_control_signals`. -/
def drain (setup : Setup) (w : World) : Option World :=
  let rows := selectSignals w.budget.queue w.now
  let result := (drainControlSignals 0 (rows.map control)).run (accepts setup.clean)
    setup.draws w.log
  (committed result).map fun log =>
    { w with
      budget := { w.budget with queue := rows.foldl settleSignal w.budget.queue }
      log := log }

/-- `create_run_command`, under an id of its own. -/
def createRun (runId requestId : String) : Prog CommandResult := do
  let runEvent ← appendFirst (newEvent "run" runId
    (.runCreated runId (some requestId) none none none) (some requestId) none (some runId))
  let added ← append (newEvent "request" requestId (.candidateAdded requestId runId)
    (some requestId) none (some runId))
  return .ok runId [runEvent.eventId, added.eventId]

/-- The log a program leaves; none when it raises and rolls back. -/
def World.commit {α : Type} (setup : Setup) (w : World) (prog : Prog α) : Option World :=
  (committed (prog.run (accepts setup.clean) setup.draws w.log)).map fun log =>
    { w with log := log }

def step (setup : Setup) (w : World) : Action → Option World
  | .tick micros => some { w with now := w.now + micros }
  | .createRun runId requestId candidatesExplored =>
      let run : RunWorkflowState := ⟨runId, requestId, 0, candidatesExplored⟩
      (w.commit setup (createRun runId requestId)).map fun w =>
        { w with budget := { w.budget with runs := w.budget.runs.insertNew run } }
  | .recordCost commandId runId costUnits =>
      (External.recordExternalCost w.budget commandId runId costUnits (some setup.ceilings)
        w.now).map fun budget => { w with budget := budget }
  | .drain => drain setup w
  -- the poller is the only caller of `_park_run`
  | .command (.controlSignals _) => none
  | .command command => w.commit setup command.prog

structure Init (w : World) : Prop where
  runs : w.budget.runs.rows = []
  queue : w.budget.queue.rows.rows = []
  increments : w.budget.increments = []
  log : w.log = []

/-- The run has ended or is parked. -/
def Halted (log : List Row) (runId : String) : Prop :=
  runIsTerminal log runId = true ∨ runIsParked log runId = true

def Signalled (q : Queue AutoPark) (runId : String) : Prop :=
  ∃ r ∈ q.rows, r.status = .ready ∧ r.handler = "runtime.auto_park" ∧ r.payload.runId = runId

def AtCeiling (ceilings : CostCeilings) (b : Budget) (run : RunWorkflowState) : Prop :=
  (∃ limit ∈ ceilings.perRun, limit ≤ run.costUnits) ∨
    ∃ limit ∈ ceilings.perRequest, limit ≤ requestCost b run.requestId

abbrev BreakerMove := Transition.Move World Action

/-- The step records a cost that leaves the run or its request at a ceiling, and
    the run goes on. -/
structure Breaches (setup : Setup) (m : BreakerMove) (runId : String) : Prop where
  recorded : ∃ i, i.runId = runId ∧ m.after.budget.increments = m.before.budget.increments ++ [i]
  atCeiling : ∃ run ∈ m.after.budget.runs, run.runId = runId ∧
    AtCeiling setup.ceilings m.after.budget run
  goesOn : ¬ Halted m.after.log runId

/-- The run's message is ready, and the next drain parks the run, whatever
    happens before it. -/
def ParkedNext (setup : Setup) (w : World) (runId : String) : Prop :=
  Signalled w.budget.queue runId ∧
    ∀ as v, (∀ a ∈ as, a ≠ .drain) → Transition.exec (step setup) w as = some v →
      ∃ v', step setup v .drain = some v' ∧ Halted v'.log runId

/-- The ceiling a breach is put down to. -/
def firstBreached (ceilings : CostCeilings) (runCost : ℚ) : String :=
  if ∃ limit ∈ ceilings.perRun, limit ≤ runCost then "per_run" else "per_request"

/-- The cost a step records. -/
def Action.cost : Action → ℚ
  | .recordCost _ _ (some (.finite delta)) => delta
  | _ => 0

/-- The run's message is still to be drained, or there never was one for the ceiling. -/
def CanSignal (setup : Setup) (w : World) (runId : String) (delta : ℚ) : Prop :=
  Signalled w.budget.queue runId ∨ ∀ run ∈ w.budget.runs, run.runId = runId →
    let ceiling := firstBreached setup.ceilings (roundCost (run.costUnits + delta))
    findMessage w.budget.queue s!"cost-breaker:{runId}:{ceiling}" = none

section Parking

variable {clean : String → Bool} {draws : Draws} {log : List Row}

theorem wellFormed_run {α : Type} {prog : Prog α} (h : WellFormed clean log)
    (permitted : prog.Appends Permitted) :
    WellFormed clean (prog.run (accepts clean) draws log).2 := by
  induction prog generalizing log with
  | done result => exact h
  | select next ih => exact ih log h (permitted log)
  | mint next ih => exact ih (draws.minted log) h (permitted (draws.minted log))
  | append event expected next ih =>
      simp only [Prog.run]
      split
      · next row hrow =>
          obtain ⟨hchecked, hinserted⟩ := Checks.check_bind_eq_ok.mp hrow
          obtain ⟨accepted, hhead⟩ := checkAppend_ok hchecked
          have heq := insertEvent_ok hinserted
          rw [← hhead, streamHead_eq h.contiguous, ← currentVersion_eq h.contiguous] at heq
          rw [heq]
          exact ih _ (h.headRow permitted.1.1 accepted) (permitted.2 _)
      · exact h

theorem halted_parked (h : WellFormed clean log) {runId : String}
    {owner waitingOnFact : Option String}
    (accepted : Payload.accepted clean (.runParked runId owner waitingOnFact) = true) :
    let log' := log ++ [headRow draws log (runEvent runId (.runParked runId owner waitingOnFact))]
    Halted log' runId ∧ ∀ other, Halted log other → Halted log' other := by
  intro log'
  have wellFormed : WellFormed clean log' := h.headRow (placed_runEvent rfl) accepted
  have loaded (other : String) : loadStream log' "run" other =
      loadStream log "run" other ++ if runId = other then
        [headRow draws log (runEvent runId (.runParked runId owner waitingOnFact))] else [] := by
    rw [loadStream_eq wellFormed.contiguous, loadStream_eq h.contiguous, Streams.ofKey_append,
      Streams.ofKey_single]
    congr 2
    simp [stream, headRow, NewEvent.row, runEvent, newEvent]
  constructor
  · right
    rw [runIsParked, loaded runId, if_pos rfl, List.foldl_append]
    rfl
  · intro other halted
    by_cases same : runId = other
    · subst same
      right
      rw [runIsParked, loaded runId, if_pos rfl, List.foldl_append]
      rfl
    · simpa [Halted, runIsTerminal, runIsParked, loaded other, same] using halted

theorem run_parkRun (h : WellFormed clean log) {runId : String}
    {owner waitingOnFact : Option String}
    (accepted : Payload.accepted clean (.runParked runId owner waitingOnFact) = true) :
    ∃ log', (parkRun runId owner waitingOnFact).run (accepts clean) draws log = (.ok (), log') ∧
      WellFormed clean log' ∧ Halted log' runId ∧
      ∀ other, Halted log other → Halted log' other := by
  by_cases terminal : runIsTerminal log runId = true
  · refine ⟨log, ?_, h, Or.inl terminal, fun _ halted => halted⟩
    simp [parkRun, visibleEvents, bind, pure, Prog.bind, Prog.run, terminal]
  by_cases parked : runIsParked log runId = true
  · refine ⟨log, ?_, h, Or.inr parked, fun _ halted => halted⟩
    simp [parkRun, visibleEvents, bind, pure, Prog.bind, Prog.run, terminal, parked]
  · obtain ⟨halts, keeps⟩ := @halted_parked clean draws log h runId owner waitingOnFact accepted
    refine ⟨_, ?_, h.headRow (placed_runEvent rfl) accepted, halts, keeps⟩
    have command : (parkRun runId owner waitingOnFact).run (accepts clean) draws log =
        (parkCommand runId owner waitingOnFact >>= fun _ => pure ()).run (accepts clean) draws
          log := by
      simp [parkRun, visibleEvents, bind, pure, Prog.bind, Prog.run, terminal, parked]
    rw [command, Prog.run_bind, parkCommand, @run_append clean draws log h _
      (runEvent runId (.runParked runId owner waitingOnFact)) accepted]
    rfl

/-- A message the poller can park a run for. -/
structure Parkable (clean : String → Bool) (row : QueueRow AutoPark) : Prop where
  handler : row.handler = "runtime.auto_park"
  accepted : Payload.accepted clean (.runParked row.payload.runId none none) = true

theorem Parkable.runId_ne {row : QueueRow AutoPark} (h : Parkable clean row) :
    row.payload.runId ≠ "" := by
  have accepted := h.accepted
  simp only [Payload.accepted, Payload.ids, List.all_cons, List.all_nil, Bool.and_true,
    decide_eq_true_eq] at accepted
  exact accepted.1

theorem run_drainControlSignals (h : WellFormed clean log) {rows : List (QueueRow AutoPark)}
    (parkable : ∀ row ∈ rows, Parkable clean row) (parked : ℕ) :
    ∃ n log', (drainControlSignals parked (rows.map control)).run (accepts clean) draws log =
        (.ok n, log') ∧ WellFormed clean log' ∧
      (∀ row ∈ rows, Halted log' row.payload.runId) ∧
      ∀ other, Halted log other → Halted log' other := by
  induction rows generalizing log parked with
  | nil => exact ⟨parked, log, rfl, h, by simp, fun _ halted => halted⟩
  | cons row rows ih =>
      have first := parkable row List.mem_cons_self
      obtain ⟨log₁, hfirst, wellFormed, halts, keeps⟩ := @run_parkRun clean draws log h
        row.payload.runId none none first.accepted
      obtain ⟨n, log', hrest, wellFormed', halts', keeps'⟩ := ih wellFormed
        (fun row' hrow => parkable row' (List.mem_cons_of_mem _ hrow)) (parked + 1)
      refine ⟨n, log', ?_, wellFormed', ?_, fun other halted => keeps' other (keeps other halted)⟩
      · have call : drainControlSignals parked ((row :: rows).map control) =
            parkRun row.payload.runId none none >>= fun _ =>
              drainControlSignals (parked + 1) (rows.map control) := by
          simp [drainControlSignals, control, Option.filter, first.runId_ne, first.handler]
        rw [call, Prog.run_bind, hfirst]
        exact hrest
      · intro row' hrow
        rcases List.mem_cons.mp hrow with rfl | later
        · exact keeps' _ halts
        · exact halts' row' later

end Parking

section Queue

variable {q : Queue AutoPark} {now : Instant}

theorem mem_selectSignals {r : QueueRow AutoPark} : r ∈ selectSignals q now ↔
    r ∈ q.rows ∧ r.status = .ready ∧ r.availableAt ≤ now ∧ r.handler ∈ controlSignalHandlers := by
  rw [selectSignals, List.mem_insertionSort, List.mem_filter, decide_eq_true_eq]
  exact Iff.rfl

/-- Settling leaves what a row asks for, and when. -/
structure SameRequest (r r' : QueueRow AutoPark) : Prop where
  id : r'.id = r.id
  handler : r'.handler = r.handler
  payload : r'.payload = r.payload
  availableAt : r'.availableAt = r.availableAt

theorem mem_settleSignal {row r' : QueueRow AutoPark} (h : r' ∈ (settleSignal q row).rows) :
    ∃ r ∈ q.rows, SameRequest r r' := by
  unfold settleSignal at h
  split at h
  · obtain ⟨r, hr, rfl⟩ := Queue.mem_update.mp h
    refine ⟨r, hr, ?_⟩
    split <;> exact ⟨rfl, rfl, rfl, rfl⟩
  · obtain ⟨r, hr, rfl⟩ := Queue.mem_update.mp h
    refine ⟨r, hr, ?_⟩
    split <;> exact ⟨rfl, rfl, rfl, rfl⟩

theorem settleSignal_nextId (row : QueueRow AutoPark) :
    (settleSignal q row).nextId = q.nextId := by
  unfold settleSignal
  split <;> rfl

theorem mem_settled {rows : List (QueueRow AutoPark)} {r' : QueueRow AutoPark}
    (h : r' ∈ (rows.foldl settleSignal q).rows) : ∃ r ∈ q.rows, SameRequest r r' := by
  induction rows generalizing q with
  | nil => exact ⟨r', h, rfl, rfl, rfl, rfl⟩
  | cons row rows ih =>
      obtain ⟨r₁, hr₁, same₁⟩ := ih h
      obtain ⟨r, hr, same⟩ := mem_settleSignal hr₁
      exact ⟨r, hr, same₁.id.trans same.id, same₁.handler.trans same.handler,
        same₁.payload.trans same.payload, same₁.availableAt.trans same.availableAt⟩

theorem settled_nextId (rows : List (QueueRow AutoPark)) :
    (rows.foldl settleSignal q).nextId = q.nextId := by
  induction rows generalizing q with
  | nil => rfl
  | cons row rows ih => exact (ih (q := settleSignal q row)).trans (settleSignal_nextId row)

theorem tripCostBreaker_queue {b : Budget} (fresh : ∀ r ∈ b.queue.rows, r.id < b.queue.nextId)
    (runId ceiling : String) :
    let q' := (tripCostBreaker b runId ceiling now).1.queue
    q'.nextId = b.queue.nextId + 1 ∧
      ∃ row : QueueRow AutoPark, row.id = b.queue.nextId ∧ row.status = .ready ∧
        row.handler = "runtime.auto_park" ∧ row.payload.runId = runId ∧ row.availableAt = now ∧
        ∀ r, r ∈ q'.rows ↔ r ∈ b.queue.rows ∨
          (findMessage b.queue s!"cost-breaker:{runId}:{ceiling}" = none ∧ r = row) := by
  unfold tripCostBreaker insertReady
  cases taken : findMessage b.queue s!"cost-breaker:{runId}:{ceiling}" with
  | some other =>
      refine ⟨rfl, ⟨b.queue.nextId, "", "", "runtime.auto_park", ⟨runId, "", ""⟩, none, .ready,
        none, none, 0, 0, 0, now, 0, none⟩, rfl, rfl, rfl, rfl, rfl, fun r => ?_⟩
      simp
  | none =>
      dsimp only
      split
      · next refused =>
          obtain ⟨r, hr, hid⟩ := Table.insert?_eq_none.mp refused
          have := fresh r hr
          have : r.id = b.queue.nextId := hid
          omega
      · next rows inserted =>
          refine ⟨rfl, _, ?_, ?_, ?_, ?_, ?_, fun r => (Table.mem_insert? inserted).trans
            (or_congr_right (and_iff_right rfl).symm)⟩
          all_goals rfl

end Queue

section Recording

variable {b b' : Budget} {ceilings : CostCeilings} {now : Instant}

theorem recordExternalCost_cases {commandId : String} {runId : Option String}
    {costUnits : Option DecimalValue}
    (h : External.recordExternalCost b commandId runId costUnits (some ceilings) now = some b') :
    b' = b ∨ ∃ id delta total b₁, runId = some id ∧ costUnits = some (.finite delta) ∧
      recordCost b commandId id delta = .ok (b₁, total) ∧
      (b' = b₁ ∧ (∀ ceiling runCost total,
          checkCostBreaker b₁ id ceilings ≠ some ⟨true, some ceiling, runCost, total⟩) ∨
        ∃ ceiling runCost total,
          checkCostBreaker b₁ id ceilings = some ⟨true, some ceiling, runCost, total⟩ ∧
          b' = (tripCostBreaker b₁ id ceiling now).1) := by
  unfold External.recordExternalCost at h
  split at h
  · next id delta =>
      split_ifs at h
      · exact Or.inl (Option.some.inj h).symm
      split at h
      · exact Or.inl (Option.some.inj h).symm
      · cases h
      · next b₁ total hrecord =>
          refine Or.inr ⟨id, delta, total, b₁, rfl, rfl, hrecord, ?_⟩
          dsimp only at h
          split at h
          · next ceiling runCost requestTotal hcheck =>
              exact Or.inr ⟨ceiling, runCost, requestTotal, hcheck, (Option.some.inj h).symm⟩
          · next quiet =>
              exact Or.inl ⟨(Option.some.inj h).symm, quiet⟩
  · exact Or.inl (Option.some.inj h).symm

theorem checkCostBreaker_of_atCeiling {runId : String} {run : RunWorkflowState}
    (hrun : b.runs.get? runId = some run) (breach : AtCeiling ceilings b run) :
    ∃ runCost total, checkCostBreaker b runId ceilings =
      some ⟨true, some (firstBreached ceilings run.costUnits), runCost, total⟩ := by
  refine ⟨run.costUnits, requestCost b run.requestId, ?_⟩
  unfold checkCostBreaker firstBreached
  rw [hrun]
  dsimp only
  by_cases own : ∃ limit ∈ ceilings.perRun, limit ≤ run.costUnits
  · rw [if_pos own, if_pos own]
  · have whole := breach.resolve_left own
    rw [if_neg own, if_neg own, if_pos whole]

theorem recordCost_queue {commandId runId : String} {delta total : ℚ}
    (h : recordCost b commandId runId delta = .ok (b', total)) : b'.queue = b.queue := by
  unfold recordCost at h
  split at h
  · cases h
  · split at h
    · cases h
    · cases h
      rfl

end Recording

section Runs

variable {setup : Setup} {w w' : World} {a : Action}

theorem committed_eq_some {α : Type} {result : Except AppendError α × List Row} {log : List Row}
    (h : committed result = some log) : result.2 = log := by
  obtain ⟨outcome, log'⟩ := result
  cases outcome with
  | ok value => exact Option.some.inj h
  | error error => cases h

theorem World.commit_eq_some {α : Type} {prog : Prog α} (h : w.commit setup prog = some w') :
    w' = { w with log := (prog.run (accepts setup.clean) setup.draws w.log).2 } := by
  obtain ⟨log, hlog, rfl⟩ := Option.map_eq_some_iff.mp h
  rw [committed_eq_some hlog]

/-- What holds of every state a run of the system reaches. -/
structure Inv (setup : Setup) (w : World) : Prop where
  wellFormed : WellFormed setup.clean w.log
  runs : ∀ run ∈ w.budget.runs,
    Payload.accepted setup.clean (.runParked run.runId none none) = true
  fresh : ∀ r ∈ w.budget.queue.rows, r.id < w.budget.queue.nextId
  parkable : ∀ r ∈ w.budget.queue.rows, Parkable setup.clean r
  due : ∀ r ∈ w.budget.queue.rows, r.availableAt ≤ w.now

theorem appends_createRun (runId requestId : String) :
    (createRun runId requestId).Appends Permitted := by
  apply Prog.Appends.bind
  · exact ⟨⟨fun runId' hrun => by obtain rfl := Option.some.inj hrun; exact ⟨rfl, rfl, rfl⟩,
      fun governed => by cases governed⟩, fun _ => trivial⟩
  · intro runEvent
    exact (appends_append (permitted_other rfl)).bind fun _ => appends_pure _

theorem accepted_of_createRun {runId requestId : String}
    (h : w.commit setup (createRun runId requestId) = some w') :
    Payload.accepted setup.clean (.runParked runId none none) = true := by
  obtain ⟨log, hlog, -⟩ := Option.map_eq_some_iff.mp h
  have accepted : Payload.accepted setup.clean (.runCreated runId (some requestId) none none none) =
      true := by
    by_contra refused
    simp [createRun, appendFirst, bind, pure, Prog.bind, Prog.run, appendEvent, checkAppend,
      accepts, newEvent, refused, committed, Except.bind] at hlog
  simp only [Payload.accepted, Payload.ids, Payload.texts, List.all_append, decide_eq_true_eq,
    List.all_cons, List.all_nil, Bool.and_eq_true] at accepted ⊢
  tauto

theorem Inv.init (h : Init w) : Inv setup w := by
  constructor
  · rw [h.log]
    exact WellFormed.nil
  · intro run hrun
    rw [← Table.mem_rows, h.runs] at hrun
    cases hrun
  all_goals
    intro r hr
    rw [← Table.mem_rows, h.queue] at hr
    cases hr

theorem Inv.commit {α : Type} {prog : Prog α} (inv : Inv setup w)
    (permitted : prog.Appends Permitted) (h : w.commit setup prog = some w') : Inv setup w' := by
  rw [World.commit_eq_some h]
  exact ⟨wellFormed_run inv.wellFormed permitted, inv.runs, inv.fresh, inv.parkable, inv.due⟩

theorem Inv.recordCost {commandId : String} {runId : Option String}
    {costUnits : Option DecimalValue} (inv : Inv setup w)
    (h : step setup w (.recordCost commandId runId costUnits) = some w') : Inv setup w' := by
  obtain ⟨b', hrecord, rfl⟩ := Option.map_eq_some_iff.mp h
  rcases recordExternalCost_cases hrecord with rfl | ⟨id, delta, total, b₁, -, -, hcost, hchecked⟩
  · exact inv
  have queue := recordCost_queue hcost
  obtain ⟨run, hrun, -, hruns, -⟩ := recordCost_ok hcost
  obtain ⟨hmem, hid⟩ := Table.get?_eq_some.mp hrun
  have runs : ∀ r ∈ b₁.runs,
      Payload.accepted setup.clean (.runParked r.runId none none) = true := by
    intro r hr
    rw [hruns, Table.mem_update] at hr
    obtain ⟨y, hy, rfl⟩ := hr
    split
    · exact inv.runs y hy
    · exact inv.runs y hy
  rcases hchecked with ⟨rfl, -⟩ | ⟨ceiling, runCost, requestTotal, -, rfl⟩
  · exact ⟨inv.wellFormed, runs, queue ▸ inv.fresh, queue ▸ inv.parkable, queue ▸ inv.due⟩
  · have fresh : ∀ r ∈ b₁.queue.rows, r.id < b₁.queue.nextId := queue ▸ inv.fresh
    obtain ⟨next, row, hrowId, -, hhandler, hpayload, havailable, hrows⟩ :=
      @tripCostBreaker_queue w.now b₁ fresh id ceiling
    refine ⟨inv.wellFormed, runs, ?_, ?_, ?_⟩
    · intro r hr
      rcases (hrows r).mp hr with old | ⟨-, rfl⟩
      · have := fresh r old
        dsimp only
        omega
      · dsimp only
        omega
    · intro r hr
      rcases (hrows r).mp hr with old | ⟨-, rfl⟩
      · exact inv.parkable r (queue ▸ old)
      · exact ⟨hhandler, by rw [hpayload, ← hid]; exact inv.runs run hmem⟩
    · intro r hr
      rcases (hrows r).mp hr with old | ⟨-, rfl⟩
      · exact inv.due r (queue ▸ old)
      · exact havailable.le

theorem Inv.drain (inv : Inv setup w) :
    ∃ w', step setup w .drain = some w' ∧ Inv setup w' ∧
      ∀ runId, Signalled w.budget.queue runId → Halted w'.log runId := by
  have parkable : ∀ row ∈ selectSignals w.budget.queue w.now, Parkable setup.clean row :=
    fun row hrow => inv.parkable row (mem_selectSignals.mp hrow).1
  obtain ⟨n, log', hrun, wellFormed, halts, -⟩ := @run_drainControlSignals setup.clean setup.draws
    w.log inv.wellFormed _ parkable 0
  refine ⟨{ w with
    budget := { w.budget with
      queue := (selectSignals w.budget.queue w.now).foldl settleSignal w.budget.queue }
    log := log' }, ?_, ?_, ?_⟩
  · simp only [step, CostBreaker.drain, hrun]
    rfl
  · constructor
    · exact wellFormed
    · exact inv.runs
    · intro r' hr'
      obtain ⟨r, hr, same⟩ := mem_settled hr'
      rw [settled_nextId, same.id]
      exact inv.fresh r hr
    · intro r' hr'
      obtain ⟨r, hr, same⟩ := mem_settled hr'
      have old := inv.parkable r hr
      exact ⟨same.handler.trans old.handler, by rw [same.payload]; exact old.accepted⟩
    · intro r' hr'
      obtain ⟨r, hr, same⟩ := mem_settled hr'
      rw [same.availableAt]
      exact inv.due r hr
  · rintro runId ⟨r, hr, hready, hhandler, rfl⟩
    apply halts r
    rw [mem_selectSignals]
    exact ⟨hr, hready, inv.due r hr, by rw [hhandler]; decide⟩

theorem Inv.step (inv : Inv setup w) (h : step setup w a = some w') : Inv setup w' := by
  cases a with
  | tick micros =>
      obtain rfl := Option.some.inj h
      refine ⟨inv.wellFormed, inv.runs, inv.fresh, inv.parkable, fun r hr => ?_⟩
      exact (inv.due r hr).trans (Int.le_add_of_nonneg_right (Int.natCast_nonneg micros))
  | createRun runId requestId candidatesExplored =>
      obtain ⟨w₁, hcommit, rfl⟩ := Option.map_eq_some_iff.mp h
      have inv₁ := inv.commit (appends_createRun runId requestId) hcommit
      refine ⟨inv₁.wellFormed, fun run hrun => ?_, inv₁.fresh, inv₁.parkable, inv₁.due⟩
      rcases Table.mem_insertNew.mp hrun with old | ⟨rfl, -⟩
      · exact inv₁.runs run old
      · exact accepted_of_createRun hcommit
  | recordCost commandId runId costUnits => exact inv.recordCost h
  | drain =>
      obtain ⟨w₁, hdrain, inv₁, -⟩ := inv.drain
      obtain rfl := Option.some.inj (hdrain.symm.trans h)
      exact inv₁
  | command command =>
      cases command with
      | controlSignals rows => cases h
      | _ => exact inv.commit (Command.permitted _) h

theorem signalled_step {runId : String} (inv : Inv setup w) (h : step setup w a = some w')
    (between : a ≠ .drain) (signalled : Signalled w.budget.queue runId) :
    Signalled w'.budget.queue runId := by
  cases a with
  | tick micros =>
      obtain rfl := Option.some.inj h
      exact signalled
  | createRun runId requestId candidatesExplored =>
      obtain ⟨w₁, hcommit, rfl⟩ := Option.map_eq_some_iff.mp h
      rw [World.commit_eq_some hcommit]
      exact signalled
  | recordCost commandId id costUnits =>
      obtain ⟨b', hrecord, rfl⟩ := Option.map_eq_some_iff.mp h
      rcases recordExternalCost_cases hrecord with
        rfl | ⟨id, delta, total, b₁, -, -, hcost, hchecked⟩
      · exact signalled
      have queue := recordCost_queue hcost
      rcases hchecked with ⟨rfl, -⟩ | ⟨ceiling, runCost, requestTotal, -, rfl⟩
      · exact queue ▸ signalled
      · obtain ⟨-, row, -, -, -, -, -, hrows⟩ :=
          @tripCostBreaker_queue w.now b₁ (queue ▸ inv.fresh) id ceiling
        obtain ⟨r, hr, asks⟩ := signalled
        exact ⟨r, (hrows r).mpr (Or.inl (queue ▸ hr)), asks⟩
  | drain => exact absurd rfl between
  | command command =>
      cases command with
      | controlSignals rows => cases h
      | _ =>
          rw [World.commit_eq_some h]
          exact signalled

theorem Inv.parkedNext_iff (inv : Inv setup w) {runId : String} :
    ParkedNext setup w runId ↔ Signalled w.budget.queue runId := by
  constructor
  · exact fun parked => parked.1
  · intro signalled
    refine ⟨signalled, fun as v between run => ?_⟩
    have kept : Inv setup v ∧ Signalled v.budget.queue runId := by
      apply @Transition.exec_induction_along _ _ _ (fun _ a => a ≠ Action.drain)
        (fun v => Inv setup v ∧ Signalled v.budget.queue runId) _ _ _ ⟨inv, signalled⟩
      · intro v a v' hv notDrain hstep
        exact ⟨hv.1.step hstep, signalled_step hv.1 hstep notDrain hv.2⟩
      · exact Transition.along_of_forall fun a ha _ => between a ha
      · exact run
    obtain ⟨v', hdrain, -, halts⟩ := kept.1.drain
    exact ⟨v', hdrain, halts runId kept.2⟩

theorem recorded_of_step {runId : String} {i : CostIncrement} (h : step setup w a = some w')
    (recorded : w'.budget.increments = w.budget.increments ++ [i]) (hi : i.runId = runId) :
    ∃ commandId total b₁, recordCost w.budget commandId runId a.cost = .ok (b₁, total) ∧
      w'.log = w.log ∧
      (w'.budget = b₁ ∧ (∀ ceiling runCost total,
          checkCostBreaker b₁ runId setup.ceilings ≠ some ⟨true, some ceiling, runCost, total⟩) ∨
        ∃ ceiling runCost total,
          checkCostBreaker b₁ runId setup.ceilings = some ⟨true, some ceiling, runCost, total⟩ ∧
          w'.budget = (tripCostBreaker b₁ runId ceiling w.now).1) := by
  have moved : w'.budget.increments ≠ w.budget.increments := by
    rw [recorded]
    simp
  cases a with
  | recordCost commandId id costUnits =>
      obtain ⟨b', hrecord, rfl⟩ := Option.map_eq_some_iff.mp h
      rcases recordExternalCost_cases hrecord with
        rfl | ⟨id, delta, total, b₁, rfl, rfl, hcost, hchecked⟩
      · exact absurd rfl moved
      · obtain ⟨-, -, -, -, hincrements⟩ := recordCost_ok hcost
        have increments : b'.increments = b₁.increments := by
          rcases hchecked with ⟨rfl, -⟩ | ⟨_, _, _, -, rfl⟩ <;> rfl
        have heq := List.append_cancel_left (recorded.symm.trans (increments.trans hincrements))
        obtain rfl := (List.cons.inj heq).1
        obtain rfl : id = runId := hi
        exact ⟨commandId, total, b₁, hcost, rfl, hchecked⟩
  | tick micros =>
      obtain rfl := Option.some.inj h
      exact absurd rfl moved
  | createRun id requestId candidatesExplored =>
      obtain ⟨w₁, hcommit, rfl⟩ := Option.map_eq_some_iff.mp h
      rw [World.commit_eq_some hcommit] at moved
      exact absurd rfl moved
  | drain =>
      obtain ⟨log, -, rfl⟩ := Option.map_eq_some_iff.mp h
      exact absurd rfl moved
  | command command =>
      cases command with
      | controlSignals rows => cases h
      | _ =>
          rw [World.commit_eq_some h] at moved
          exact absurd rfl moved

theorem signalled_iff_canSignal {runId : String} (inv : Inv setup w)
    (h : step setup w a = some w') (breach : Breaches setup ⟨w, a, w'⟩ runId) :
    Signalled w'.budget.queue runId ↔ CanSignal setup w runId a.cost := by
  obtain ⟨i, hi, recorded⟩ := breach.recorded
  obtain ⟨commandId, total, b₁, hcost, -, hchecked⟩ := recorded_of_step h recorded hi
  obtain ⟨run, hrun, htotal, hruns, -⟩ := recordCost_ok hcost
  obtain ⟨hmem, hid⟩ := Table.get?_eq_some.mp hrun
  have queue := recordCost_queue hcost
  have runs : w'.budget.runs = b₁.runs := by
    rcases hchecked with ⟨heq, -⟩ | ⟨_, _, _, -, heq⟩
    · rw [heq]
    · rw [heq]
      rfl
  have charged : b₁.runs.get? runId = some (run.charged total) := by
    rw [hruns, Table.get?_update, if_pos rfl, hrun]
    rfl
  have atCeiling : AtCeiling setup.ceilings b₁ (run.charged total) := by
    obtain ⟨run', hrun', hid', hceiling⟩ := breach.atCeiling
    have same : b₁.runs.get? runId = some run' := Table.get?_eq_some.mpr ⟨runs ▸ hrun', hid'⟩
    obtain rfl := Option.some.inj (same.symm.trans charged)
    simpa only [AtCeiling, requestCost, runs] using hceiling
  obtain ⟨runCost, requestTotal, tripped⟩ := checkCostBreaker_of_atCeiling charged atCeiling
  have ceiling : firstBreached setup.ceilings (run.charged total).costUnits =
      firstBreached setup.ceilings (roundCost (run.costUnits + a.cost)) := by
    rw [← numericCost_some htotal]
    rfl
  rcases hchecked with ⟨-, quiet⟩ | ⟨named, _, _, hcheck, heq⟩
  · exact absurd tripped (quiet _ _ _)
  obtain rfl : named = firstBreached setup.ceilings (roundCost (run.costUnits + a.cost)) := by
    rw [← ceiling]
    exact Option.some.inj (CostBreakerOutcome.mk.inj
      (Option.some.inj (hcheck.symm.trans tripped))).2.1
  obtain ⟨-, row, -, hready, hhandler, hpayload, -, hrows⟩ := @tripCostBreaker_queue w.now b₁
    (queue ▸ inv.fresh) runId (firstBreached setup.ceilings (roundCost (run.costUnits + a.cost)))
  rw [queue] at hrows
  rw [heq]
  constructor
  · rintro ⟨r, hr, asks⟩
    rcases (hrows r).mp hr with old | ⟨free, -⟩
    · exact Or.inl ⟨r, old, asks⟩
    · right
      intro run' hrun' hid'
      obtain rfl := Table.eq_of_key_eq hrun' hmem (hid'.trans hid.symm)
      exact free
  · rintro (⟨r, hr, asks⟩ | free)
    · exact ⟨r, (hrows r).mpr (Or.inl hr), asks⟩
    · exact ⟨row, (hrows row).mpr (Or.inr ⟨free run hmem hid, rfl⟩), hready, hhandler, hpayload⟩

end Runs

/-- Every breach of a history is followed by a parking exactly when each found the message
    of its run still to be drained, or the id of its ceiling's message free. -/
theorem breaker_holds_iff {setup : Setup} {w₀ : World} {as : List Action} (start : Init w₀) :
    (∀ m ∈ Transition.history (step setup) w₀ as, ∀ runId, Breaches setup m runId →
        ParkedNext setup m.after runId) ↔
      ∀ m ∈ Transition.history (step setup) w₀ as, ∀ runId, Breaches setup m runId →
        CanSignal setup m.before runId m.action.cost := by
  have exactly : ∀ m ∈ Transition.history (step setup) w₀ as, ∀ runId, Breaches setup m runId →
      (ParkedNext setup m.after runId ↔ CanSignal setup m.before runId m.action.cost) := by
    intro m hm runId breach
    have reached := Transition.reachable_of_mem_history start hm
    have inv : Inv setup m.before := reached.induction (fun _ => Inv.init)
      fun _ _ _ inv hstep => inv.step hstep
    have hstep := Transition.step_of_mem_history hm
    rw [(inv.step hstep).parkedNext_iff, signalled_iff_canSignal inv hstep breach]
  constructor
  · intro holds m hm runId breach
    exact (exactly m hm runId breach).mp (holds m hm runId breach)
  · intro free m hm runId breach
    exact (exactly m hm runId breach).mpr (free m hm runId breach)

def tenUnits : Setup where
  ceilings := ⟨some 10, none, none⟩
  clean _ := true
  draws := longerIds

def noRuns : World := ⟨0, ⟨⟨[], List.nodup_nil⟩, ⟨⟨[], List.nodup_nil⟩, 1⟩, []⟩, []⟩

theorem init_noRuns : Init noRuns := ⟨rfl, rfl, rfl, rfl⟩

/-- A run spends its ten units, and is parked for it. -/
def spent : List Action :=
  [.createRun "run-1" "req-1" 0, .recordCost "cmd-1" (some "run-1") (some (.finite 10)), .drain]

def oneMore : Action := .recordCost "cmd-2" (some "run-1") (some (.finite 1))

/-- It is sent on, and spends one more. -/
def spentAgain : List Action := spent ++ [.command (.unpark "run-1")] ++ [oneMore]

theorem breaker_holds_iff_spent :
    ((Transition.exec (step tenUnits) noRuns spent).any fun w => runIsParked w.log "run-1") = true ∧
      ((∀ m ∈ Transition.history (step tenUnits) noRuns spent, ∀ runId, Breaches tenUnits m runId →
          ParkedNext tenUnits m.after runId) ↔
        ∀ m ∈ Transition.history (step tenUnits) noRuns spent, ∀ runId, Breaches tenUnits m runId →
          CanSignal tenUnits m.before runId m.action.cost) :=
  ⟨by decide +kernel, breaker_holds_iff init_noRuns⟩

/-- The second breach finds the first one's message in its way. -/
def breachedAgain (w w' : World) : Bool :=
  w'.budget.increments = w.budget.increments ++ [⟨"cmd-2", "run-1", 1⟩] ∧
    w'.budget.runs.rows = [⟨"run-1", "req-1", 11, 0⟩] ∧
    runIsTerminal w'.log "run-1" = false ∧ runIsParked w'.log "run-1" = false ∧
    w'.budget.queue.rows.rows.all fun r => r.status = .done

theorem second_breach_not_parked :
    ¬ ∀ (setup : Setup) (w₀ : World) (as : List Action), Init w₀ →
      ∀ m ∈ Transition.history (step setup) w₀ as, ∀ runId, Breaches setup m runId →
        ParkedNext setup m.after runId := by
  intro holds
  have run : ((Transition.exec (step tenUnits) noRuns
      (spent ++ [.command (.unpark "run-1")])).any fun w =>
        (step tenUnits w oneMore).any (breachedAgain w)) = true := by
    decide +kernel
  obtain ⟨w, hrun, stepped⟩ := (Option.any_eq_true _ _).mp run
  obtain ⟨w', hstep, breached⟩ := (Option.any_eq_true _ _).mp stepped
  obtain ⟨hincrements, hruns, hterminal, hparked, hdone⟩ := of_decide_eq_true breached
  have breach : Breaches tenUnits ⟨w, oneMore, w'⟩ "run-1" := by
    refine ⟨⟨_, rfl, hincrements⟩, ⟨⟨"run-1", "req-1", 11, 0⟩, ?_, rfl, ?_⟩, ?_⟩
    · rw [← Table.mem_rows, hruns]
      exact List.mem_singleton_self _
    · exact Or.inl ⟨10, rfl, by norm_num⟩
    · simp [Halted, hterminal, hparked]
  have recorded : ⟨w, oneMore, w'⟩ ∈ Transition.history (step tenUnits) noRuns spentAgain :=
    Transition.mem_history_of_step hrun hstep
  obtain ⟨⟨r, hr, hready, -⟩, -⟩ := holds tenUnits noRuns _ init_noRuns _ recorded "run-1" breach
  have := of_decide_eq_true (List.all_eq_true.mp hdone r hr)
  rw [hready] at this
  cases this

end FeatureGen.CostBreaker
