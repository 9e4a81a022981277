import Mathlib
import FeatureGen.Aggregates.RunLifecycle

/-! # Waking the runs parked on a fact

`fact_confirmed_resume_command` finds its runs by two queries over all events,
while a run's parking is a fold of its stream. The two agree as long as a run
waits once: it was never unparked before, and has not moved on to another fact.
-/

namespace FeatureGen.Aggregates

open FeatureGen.Events

def waitsOn (visible : List Row) (runId : String) : Option String :=
  let parks := (loadStream visible "run" runId).filter fun e => e.detail.payload.parks false
  parks.getLast?.bind fun e => e.detail.payload.waitingOn

structure Waiting (visible : List Row) (factKey runId : String) : Prop where
  parked : runIsParked visible runId = true
  waits : waitsOn visible runId = some factKey
  isOpen : runIsTerminal visible runId = false

def everUnparked (visible : List Row) (runId : String) : Bool :=
  (loadStream visible "run" runId).any fun e => e.detail.payload.unparks

def everParkedOn (visible : List Row) (factKey runId : String) : Bool :=
  (loadStream visible "run" runId).any fun e => e.detail.payload.waitingOn = some factKey

def Resumed (factKey : String) (runs : List String) (log log' : List Row) : Prop :=
  ∃ new, log' = log ++ new ∧ (new.map fun e => (stream e, e.detail.payload)) =
    runs.flatMap fun runId => [(("run", runId), .factConfirmedResume runId factKey),
      (("run", runId), .runUnparked runId)]

/-- What runs that ever waited on the fact must not have done since. -/
structure WaitsOnce (log : List Row) (factKey : String) : Prop where
  /-- A run unparked once does not wait on the fact again. -/
  unparked : ∀ runId, everUnparked log runId = true → runIsTerminal log runId = true ∨
    runIsParked log runId = false ∨ waitsOn log runId ≠ some factKey
  /-- A run still parked has neither moved on to another fact nor ended. -/
  parked : ∀ runId, everParkedOn log factKey runId = true → everUnparked log runId = false →
    waitsOn log runId = some factKey ∧ runIsTerminal log runId = false

section Resume

variable {clean : String → Bool} {draws : Draws} {log : List Row} {factKey : String}

theorem WellFormed.mem_loadStream (h : WellFormed clean log) {e : Row} {runId : String} :
    e ∈ loadStream log "run" runId ↔ e ∈ log ∧ stream e = ("run", runId) := by
  rw [loadStream_eq h.contiguous, Streams.mem_ofKey]

theorem Payload.run?_of_unparks {payload : Payload} (h : payload.unparks = true) :
    ∃ runId, payload.run? = some runId := by
  cases payload <;> simp_all [Payload.unparks, Payload.run?]

theorem Payload.of_waitingOn {payload : Payload} (h : payload.waitingOn = some factKey) :
    ∃ runId owner, payload = .runParked runId owner (some factKey) := by
  cases payload <;> simp_all [Payload.waitingOn]

theorem WellFormed.exists_runId_iff (h : WellFormed clean log) {p : Payload → Bool}
    (ofRun : ∀ payload, p payload = true → ∃ runId, payload.run? = some runId) {runId : String} :
    (∃ e ∈ log, p e.detail.payload = true ∧ e.detail.runId = some runId) ↔
      (loadStream log "run" runId).any (fun e => p e.detail.payload) = true := by
  simp only [List.any_eq_true, h.mem_loadStream]
  constructor
  · rintro ⟨e, he, hp, hrunId⟩
    obtain ⟨runId', hrun⟩ := ofRun _ hp
    obtain ⟨hstream, hcolumn⟩ := h.placed e he runId' hrun
    obtain rfl := Option.some.inj (hcolumn.symm.trans hrunId)
    exact ⟨e, ⟨he, hstream⟩, hp⟩
  · rintro ⟨e, ⟨he, hstream⟩, hp⟩
    obtain ⟨runId', hrun⟩ := ofRun _ hp
    obtain ⟨hstream', hcolumn⟩ := h.placed e he runId' hrun
    obtain rfl := (Prod.mk.inj (hstream'.symm.trans hstream)).2
    exact ⟨e, he, hp, hcolumn⟩

theorem WellFormed.mem_runsParkedOnFact (h : WellFormed clean log) {runId : String} :
    runId ∈ runsParkedOnFact log factKey ↔
      everParkedOn log factKey runId = true ∧ everUnparked log runId = false := by
  have waited := @WellFormed.exists_runId_iff clean log h
    (fun payload => payload.waitingOn = some factKey) (by
      intro payload hwaiting
      obtain ⟨runId, owner, rfl⟩ := Payload.of_waitingOn (of_decide_eq_true hwaiting)
      exact ⟨runId, rfl⟩) runId
  have unparked := @WellFormed.exists_runId_iff clean log h Payload.unparks
    (fun _ => Payload.run?_of_unparks) runId
  rw [everParkedOn, everUnparked, ← waited, ← Bool.not_eq_true, ← unparked]
  simp [runsParkedOnFact, and_assoc]

theorem Payload.parks_true {payload : Payload} (stays : payload.unparks = false) :
    payload.parks true = true := by
  cases payload <;> simp [Payload.parks, Payload.unparks] at stays ⊢

theorem Payload.parks_of_parks {payload : Payload} {parked : Bool}
    (parks : payload.parks false = true) : payload.parks parked = true := by
  cases payload <;> simp [Payload.parks] at parks ⊢

theorem foldl_parks {payloads : List Payload} (parked : Bool)
    (stays : ∀ payload ∈ payloads, payload.unparks = false)
    (parks : parked = true ∨ ∃ payload ∈ payloads, payload.parks false = true) :
    payloads.foldl Payload.parks parked = true := by
  induction payloads generalizing parked with
  | nil => simpa using parks
  | cons payload payloads ih =>
      rw [List.foldl_cons]
      apply ih _ fun payload' h => stays payload' (List.mem_cons_of_mem _ h)
      rcases parks with rfl | ⟨payload', hmem, hparks⟩
      · exact Or.inl (Payload.parks_true (stays payload List.mem_cons_self))
      · rcases List.mem_cons.mp hmem with rfl | later
        · exact Or.inl (Payload.parks_of_parks hparks)
        · exact Or.inr ⟨payload', later, hparks⟩

theorem runIsParked_of_everParkedOn {runId : String} (parkedOn : everParkedOn log factKey runId = true)
    (unparked : everUnparked log runId = false) : runIsParked log runId = true := by
  have fold : runIsParked log runId =
      ((loadStream log "run" runId).map (·.detail.payload)).foldl Payload.parks false := by
    rw [runIsParked, List.foldl_map]
  rw [fold]
  apply foldl_parks
  · intro payload hpayload
    obtain ⟨e, he, rfl⟩ := List.mem_map.mp hpayload
    simpa using List.any_eq_false.mp unparked e he
  · obtain ⟨e, he, hwaiting⟩ := List.any_eq_true.mp parkedOn
    obtain ⟨runId', owner, heq⟩ := Payload.of_waitingOn (of_decide_eq_true hwaiting)
    exact Or.inr ⟨_, List.mem_map_of_mem he, by rw [heq]; rfl⟩

theorem everParkedOn_of_waitsOn {runId : String} (waits : waitsOn log runId = some factKey) :
    everParkedOn log factKey runId = true := by
  obtain ⟨e, hlast, hwaiting⟩ := Option.bind_eq_some_iff.mp waits
  have he := List.mem_of_getLast? hlast
  exact List.any_eq_true.mpr ⟨e, (List.mem_filter.mp he).1, decide_eq_true hwaiting⟩

theorem WellFormed.runsParkedOnFact_iff (h : WellFormed clean log) :
    (∀ runId, runId ∈ runsParkedOnFact log factKey ↔ Waiting log factKey runId) ↔
      WaitsOnce log factKey := by
  constructor
  · intro exactly
    constructor
    · intro runId hunparked
      by_contra hwaiting
      push Not at hwaiting
      obtain ⟨hopen, hparked, hwaits⟩ := hwaiting
      have woken := (exactly runId).mpr ⟨by simpa using hparked, hwaits, by simpa using hopen⟩
      have never := (h.mem_runsParkedOnFact.mp woken).2
      rw [hunparked] at never
      cases never
    · intro runId hparkedOn hunparked
      obtain ⟨-, hwaits, hopen⟩ := (exactly runId).mp (h.mem_runsParkedOnFact.mpr ⟨hparkedOn, hunparked⟩)
      exact ⟨hwaits, hopen⟩
  · intro once runId
    rw [h.mem_runsParkedOnFact]
    constructor
    · rintro ⟨hparkedOn, hunparked⟩
      obtain ⟨hwaits, hopen⟩ := once.parked runId hparkedOn hunparked
      exact ⟨runIsParked_of_everParkedOn hparkedOn hunparked, hwaits, hopen⟩
    · rintro ⟨hparked, hwaits, hopen⟩
      refine ⟨everParkedOn_of_waitsOn hwaits, ?_⟩
      by_contra hunparked
      rcases once.unparked runId (by simpa using hunparked) with terminal | unparked | other
      · rw [hopen] at terminal
        cases terminal
      · rw [hparked] at unparked
        cases unparked
      · exact other hwaits

theorem WellFormed.accepted_of_mem (h : WellFormed clean log) {runId : String}
    (mem : runId ∈ runsParkedOnFact log factKey) :
    Payload.accepted clean (.factConfirmedResume runId factKey) = true ∧
      Payload.accepted clean (.runUnparked runId) = true := by
  obtain ⟨e, he, hwaiting⟩ := List.any_eq_true.mp (h.mem_runsParkedOnFact.mp mem).1
  obtain ⟨hlog, hstream⟩ := h.mem_loadStream.mp he
  obtain ⟨runId', owner, heq⟩ := Payload.of_waitingOn (of_decide_eq_true hwaiting)
  obtain ⟨hstream', -⟩ := h.placed e hlog runId' (by rw [heq]; rfl)
  obtain rfl := (Prod.mk.inj (hstream'.symm.trans hstream)).2
  have accepted := h.accepted e hlog
  simp only [heq, Payload.accepted, Payload.ids, Payload.texts, List.all_append,
    decide_eq_true_eq, List.all_cons, List.all_nil, Bool.and_eq_true, Option.toList_some] at accepted
  obtain ⟨⟨nonempty, -⟩, ⟨cleanRun, -⟩, -, cleanFact, -⟩ := accepted
  simp [Payload.accepted, Payload.ids, Payload.texts, nonempty, cleanRun, cleanFact]

theorem run_append (h : WellFormed clean log) {α : Type} {event : NewEvent Detail}
    (accepted : accepts clean event = true) (next : Row → Prog α) :
    (append event >>= next).run (accepts clean) draws log =
      (next (headRow draws log event)).run (accepts clean) draws
        (log ++ [headRow draws log event]) := by
  change (Prog.append event none fun row => (pure row : Prog Row).bind next).run _ _ _ = _
  simp only [Prog.run, Option.getD_none, appendEvent_head h.contiguous accepted]
  rfl

theorem run_resumeRuns (h : WellFormed clean log) {runs : List String} (produced : List String)
    (accepted : ∀ runId ∈ runs, Payload.accepted clean (.factConfirmedResume runId factKey) = true ∧
      Payload.accepted clean (.runUnparked runId) = true) :
    ∃ produced', ∃ log', (resumeRuns factKey produced runs).run (accepts clean) draws log =
      (.ok produced', log') ∧ Resumed factKey runs log log' := by
  induction runs generalizing log produced with
  | nil => exact ⟨produced, log, rfl, [], by simp, rfl⟩
  | cons runId runs ih =>
      obtain ⟨resumes, unparks⟩ := accepted runId List.mem_cons_self
      let resume := headRow draws log (runEvent runId (.factConfirmedResume runId factKey))
      let unpark := headRow draws (log ++ [resume]) (runEvent runId (.runUnparked runId))
      have resumed : WellFormed clean (log ++ [resume]) := h.headRow (placed_runEvent rfl) resumes
      have unparked : WellFormed clean (log ++ [resume] ++ [unpark]) :=
        resumed.headRow (placed_runEvent rfl) unparks
      obtain ⟨produced', log', hrun, new, rfl, hnew⟩ := ih unparked
        (produced ++ [resume.eventId, unpark.eventId]) fun runId' hmem =>
        accepted runId' (List.mem_cons_of_mem _ hmem)
      refine ⟨produced', _, ?_, resume :: unpark :: new, rfl, ?_⟩
      · rw [resumeRuns, @run_append clean draws log h _
          (runEvent runId (.factConfirmedResume runId factKey)) resumes,
          @run_append clean draws _ resumed _ (runEvent runId (.runUnparked runId)) unparks, hrun]
        simp only [List.append_assoc, List.cons_append, List.nil_append]
      · rw [List.map_cons, List.map_cons, hnew]
        rfl

theorem Resumed.mem_iff {runs runs' : List String} {log' : List Row}
    (h : Resumed factKey runs log log') (h' : Resumed factKey runs' log log') {runId : String} :
    runId ∈ runs ↔ runId ∈ runs' := by
  obtain ⟨new, heq, hnew⟩ := h
  obtain ⟨new', heq', hnew'⟩ := h'
  obtain rfl := List.append_cancel_left (heq.symm.trans heq')
  have mem (l : List String) : (("run", runId), Payload.runUnparked runId) ∈
      (l.flatMap fun runId => [(("run", runId), .factConfirmedResume runId factKey),
        (("run", runId), .runUnparked runId)]) ↔ runId ∈ l := by
    simp [List.mem_flatMap]
  rw [← mem runs, ← mem runs', ← hnew, ← hnew']

theorem run_factConfirmedResume (h : WellFormed clean log) (aggregateId : Option String) :
    Resumed factKey (runsParkedOnFact log factKey) log
      ((factConfirmedResumeCommand aggregateId factKey).run (accepts clean) draws log).2 := by
  obtain ⟨produced, log', hrun, resumed⟩ := @run_resumeRuns clean draws log factKey h
    (runsParkedOnFact log factKey) [] fun _ => h.accepted_of_mem
  have command : (factConfirmedResumeCommand aggregateId factKey).run (accepts clean) draws log =
      (resumeRuns factKey [] (runsParkedOnFact log factKey) >>= fun produced =>
        pure (.ok ((aggregateId.filter fun id => id ≠ "").getD factKey) produced)).run
          (accepts clean) draws log := rfl
  rw [command, Prog.run_bind, hrun]
  exact resumed

end Resume

/-- A confirmed fact resumes and unparks exactly the runs that wait on it, if and only
    if every run waits on it once. -/
theorem resumes_waiting_iff {clean : String → Bool} {draws : Draws} {log : List Row}
    {aggregateId : Option String} {factKey : String} (h : WellFormed clean log) :
    (∃ runs, runs.Nodup ∧ (∀ runId, runId ∈ runs ↔ Waiting log factKey runId) ∧
      Resumed factKey runs log
        ((factConfirmedResumeCommand aggregateId factKey).run (accepts clean) draws log).2) ↔
      WaitsOnce log factKey := by
  have command := @run_factConfirmedResume clean draws log factKey h aggregateId
  rw [← h.runsParkedOnFact_iff]
  constructor
  · rintro ⟨runs, -, waiting, resumed⟩ runId
    rw [← waiting runId, ← resumed.mem_iff command]
  · intro waiting
    exact ⟨_, List.nodup_dedup _, waiting, command⟩

/-- A run parks on the fact, is unparked by an operator, and parks on it again;
    another waits for the first time. -/
def parkings : List (NewEvent Detail) :=
  [runEvent "run-1" (.runParked "run-1" (some "ops") (some "overlay:1")),
    runEvent "run-2" (.runParked "run-2" (some "ops") (some "overlay:1")),
    runEvent "run-1" (.runUnparked "run-1"),
    runEvent "run-1" (.runParked "run-1" (some "ops") (some "overlay:1"))]

def firstParkings : List (NewEvent Detail) := parkings.take 2

theorem wellFormed_parkings : WellFormed (fun _ => true) (appendAll longerIds [] parkings) := by
  apply WellFormed.nil.appendAll
  intro event hevent
  simp only [parkings, List.mem_cons, List.not_mem_nil, or_false] at hevent
  rcases hevent with rfl | rfl | rfl | rfl
  all_goals exact ⟨placed_runEvent rfl, by decide⟩

theorem wellFormed_firstParkings :
    WellFormed (fun _ => true) (appendAll longerIds [] firstParkings) := by
  apply WellFormed.nil.appendAll
  intro event hevent
  simp only [firstParkings, parkings, List.take, List.mem_cons, List.not_mem_nil, or_false] at hevent
  rcases hevent with rfl | rfl
  all_goals exact ⟨placed_runEvent rfl, by decide⟩

/-- The run that waits again is not woken. -/
theorem second_wait_not_resumed :
    ¬ ∃ runs, runs.Nodup ∧
      (∀ runId, runId ∈ runs ↔ Waiting (appendAll longerIds [] parkings) "overlay:1" runId) ∧
      Resumed "overlay:1" runs (appendAll longerIds [] parkings)
        ((factConfirmedResumeCommand none "overlay:1").run (accepts fun _ => true) longerIds
          (appendAll longerIds [] parkings)).2 := by
  rintro ⟨runs, -, waiting, resumed⟩
  have waits : Waiting (appendAll longerIds [] parkings) "overlay:1" "run-1" :=
    ⟨by decide +kernel, by decide +kernel, by decide +kernel⟩
  have woken := (resumed.mem_iff (run_factConfirmedResume wellFormed_parkings none)).mp
    ((waiting "run-1").mpr waits)
  have queried : runsParkedOnFact (appendAll longerIds [] parkings) "overlay:1" = ["run-2"] := by
    decide +kernel
  rw [queried] at woken
  simp at woken

/-- Before that, both are. -/
theorem resumes_waiting_iff_firstParkings :
    runsParkedOnFact (appendAll longerIds [] firstParkings) "overlay:1" = ["run-1", "run-2"] ∧
      ((∃ runs, runs.Nodup ∧
        (∀ runId, runId ∈ runs ↔
          Waiting (appendAll longerIds [] firstParkings) "overlay:1" runId) ∧
        Resumed "overlay:1" runs (appendAll longerIds [] firstParkings)
          ((factConfirmedResumeCommand none "overlay:1").run (accepts fun _ => true) longerIds
            (appendAll longerIds [] firstParkings)).2) ↔
        WaitsOnce (appendAll longerIds [] firstParkings) "overlay:1") :=
  ⟨by decide +kernel, resumes_waiting_iff wellFormed_firstParkings⟩

end FeatureGen.Aggregates
