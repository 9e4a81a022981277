import FeatureGen.Runtime.Queue

/-! # The durable cost budget

`runtime/cost_budget.py`: a run's spend is a counter on its workflow state row,
and a breached ceiling parks the run through one queue message. Amounts are
`numeric(18,4)` columns, so every total is rounded to four digits.
-/

namespace FeatureGen.Runtime

/-- Four digits after the point, half away from zero. -/
def roundCost (q : ℚ) : ℚ :=
  if 0 ≤ q then ⌊q * 10000 + 1 / 2⌋ / 10000 else -(⌊-q * 10000 + 1 / 2⌋ / 10000)

/-- What a `numeric(18,4)` column stores; none when it overflows. -/
def numericCost (q : ℚ) : Option ℚ :=
  if |roundCost q| < 10 ^ 14 then some (roundCost q) else none

/-- A Python `Decimal`. -/
inductive DecimalValue where
  | finite (value : ℚ)
  | infinite (negative : Bool)
  | nan

/-- A stored cost: unlike an infinity, a NaN fits the column. -/
inductive StoredCost where
  | finite (value : ℚ)
  | nan

def DecimalValue.store : DecimalValue → Option StoredCost
  | .finite value => (numericCost value).map .finite
  | .infinite _ => none
  | .nan => some .nan

/-- A row of `run_workflow_state`. -/
structure RunWorkflowState where
  runId : String
  requestId : String
  costUnits : ℚ
  candidatesExplored : ℤ
  deriving DecidableEq

/-- `CostCeilings`; an unset ceiling is none. -/
structure CostCeilings where
  perRun : Option ℚ
  perRequest : Option ℚ
  maxCandidates : Option ℤ

structure CostBreakerOutcome where
  tripped : Bool
  ceiling : Option String
  runCost : ℚ
  requestCost : ℚ

structure AutoPark where
  runId : String
  reason : String
  ceiling : String

/-- One committed `record_cost`. -/
structure CostIncrement where
  commandId : String
  runId : String
  delta : ℚ
  deriving DecidableEq

structure Budget where
  runs : Table RunWorkflowState.runId
  queue : Queue AutoPark
  /-- Every cost added to a run so far, oldest first. -/
  increments : List CostIncrement

inductive CostError where
  /-- `KeyError`: the run has no row. -/
  | keyError (runId : String)
  | numericOverflow

def RunWorkflowState.charged (total : ℚ) (run : RunWorkflowState) : RunWorkflowState :=
  { run with costUnits := total }

theorem RunWorkflowState.charged_runId (total : ℚ) (run : RunWorkflowState) :
    (run.charged total).runId = run.runId := rfl

/-- `record_cost`, called for one external command. -/
def recordCost (b : Budget) (commandId runId : String) (delta : ℚ) :
    Except CostError (Budget × ℚ) :=
  match b.runs.get? runId with
  | none => .error (.keyError runId)
  | some run =>
      match numericCost (run.costUnits + delta) with
      | none => .error .numericOverflow
      | some total =>
          .ok ({ b with
            runs := b.runs.update runId (RunWorkflowState.charged total)
              (RunWorkflowState.charged_runId total)
            increments := b.increments ++ [⟨commandId, runId, delta⟩] }, total)

/-- The sum over a request's runs. -/
def requestCost (b : Budget) (requestId : String) : ℚ :=
  ((b.runs.rows.filter fun run => run.requestId = requestId).map (·.costUnits)).sum

/-- `check_cost_breaker`: which ceiling is breached; none when the run has no row. -/
def checkCostBreaker (b : Budget) (runId : String) (ceilings : CostCeilings) :
    Option CostBreakerOutcome :=
  match b.runs.get? runId with
  | none => none
  | some run =>
      let requestTotal := requestCost b run.requestId
      let outcome := fun tripped ceiling =>
        some (CostBreakerOutcome.mk tripped ceiling run.costUnits requestTotal)
      if ∃ limit ∈ ceilings.perRun, limit ≤ run.costUnits then outcome true "per_run"
      else if ∃ limit ∈ ceilings.perRequest, limit ≤ requestTotal then
        outcome true "per_request"
      else if ∃ limit ∈ ceilings.maxCandidates, limit ≤ run.candidatesExplored then
        outcome true "max_candidates"
      else outcome false none

/-- `trip_cost_breaker`: one park message for each run and ceiling. -/
def tripCostBreaker (b : Budget) (runId ceiling : String) (now : Instant) : Budget × Bool :=
  let result := insertReady b.queue s!"cost-breaker:{runId}:{ceiling}" s!"run:{runId}"
    "runtime.auto_park" ⟨runId, "cost_ceiling", ceiling⟩ none none 100 now
  ({ b with queue := result.1 }, result.2.isSome)

theorem recordCost_ok {b b' : Budget} {commandId runId : String} {delta total : ℚ}
    (h : recordCost b commandId runId delta = .ok (b', total)) :
    ∃ run, b.runs.get? runId = some run ∧ numericCost (run.costUnits + delta) = some total ∧
      b'.runs = b.runs.update runId (RunWorkflowState.charged total)
        (RunWorkflowState.charged_runId total) ∧
      b'.increments = b.increments ++ [⟨commandId, runId, delta⟩] := by
  unfold recordCost at h
  split at h
  · cases h
  · next run hrun =>
      split at h
      · cases h
      · next stored hstored =>
          cases h
          exact ⟨run, hrun, hstored, rfl, rfl⟩

theorem recordCost_keyError {b : Budget} {commandId runId missing : String} {delta : ℚ}
    (h : recordCost b commandId runId delta = .error (.keyError missing)) :
    b.runs.get? runId = none := by
  unfold recordCost at h
  split at h
  · next hrun => exact hrun
  · split at h <;> cases h

def totalCharged (increments : List CostIncrement) (runId : String) : ℚ :=
  (increments.filter fun i => i.runId = runId).foldl (fun total i => roundCost (total + i.delta)) 0

theorem totalCharged_append (increments : List CostIncrement) (i : CostIncrement)
    (runId : String) : totalCharged (increments ++ [i]) runId =
      if i.runId = runId then roundCost (totalCharged increments runId + i.delta)
      else totalCharged increments runId := by
  by_cases hrun : i.runId = runId <;> simp [totalCharged, List.filter_append, hrun]

theorem numericCost_some {q stored : ℚ} (h : numericCost q = some stored) :
    stored = roundCost q := by
  unfold numericCost at h
  split at h
  · exact (Option.some.inj h).symm
  · cases h

/-- Every run's counter is the sum of what it was charged. -/
def Budget.Consistent (b : Budget) : Prop :=
  (∀ run ∈ b.runs, run.costUnits = totalCharged b.increments run.runId) ∧
  ∀ i ∈ b.increments, ∃ run ∈ b.runs, run.runId = i.runId

theorem Budget.Consistent.recordCost {b b' : Budget} {commandId runId : String} {delta total : ℚ}
    (inv : b.Consistent) (h : recordCost b commandId runId delta = .ok (b', total)) :
    b'.Consistent := by
  obtain ⟨run, hrun, htotal, hruns, hincrements⟩ := recordCost_ok h
  obtain ⟨hmem, hid⟩ := Table.get?_eq_some.mp hrun
  constructor
  · intro r hr
    rw [hruns, Table.mem_update] at hr
    obtain ⟨y, hy, rfl⟩ := hr
    rw [hincrements, totalCharged_append]
    by_cases hkey : y.runId = runId
    · obtain rfl : y = run := Table.eq_of_key_eq hy hmem (hkey.trans hid.symm)
      have hcost := inv.1 y hy
      rw [hid] at hcost
      simp [RunWorkflowState.charged, hid, numericCost_some htotal, ← hcost]
    · simp [hkey, Ne.symm hkey, inv.1 y hy]
  · intro i hi
    rw [hincrements, List.mem_append, List.mem_singleton] at hi
    have charged : ∀ r ∈ b.runs, ∃ r' ∈ b'.runs, r'.runId = r.runId := by
      intro r hr
      refine ⟨_, hruns ▸ Table.mem_update.mpr ⟨r, hr, rfl⟩, ?_⟩
      by_cases hkey : r.runId = runId <;> simp [hkey, RunWorkflowState.charged]
    cases hi with
    | inl old =>
        obtain ⟨r, hr, hri⟩ := inv.2 i old
        obtain ⟨r', hr', hsame⟩ := charged r hr
        exact ⟨r', hr', hsame.trans hri⟩
    | inr new =>
        subst new
        obtain ⟨r', hr', hsame⟩ := charged run hmem
        exact ⟨r', hr', hsame.trans hid⟩

end FeatureGen.Runtime
