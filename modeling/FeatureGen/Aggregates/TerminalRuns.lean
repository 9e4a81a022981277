import Mathlib
import FeatureGen.Aggregates.Interleaving

/-! # Terminal runs stay as they are

An append is optimistic about the head it has read, not about the one its
command decided on. So what a command writes to a run is safe exactly where the
head its append reads is not terminal yet: from there on the version check and
the key of a stream position keep the stream as it was read.
-/

namespace FeatureGen.Aggregates

open FeatureGen.Events

/-- Events a terminal run must not get any more. -/
def Payload.governed : Payload → Bool
  | .runParked .. | .runUnparked .. | .factConfirmedResume .. => true
  | payload => payload.terminal

/-- A run ends at most once, and is neither parked nor woken after. -/
structure TerminalFinal (stream : List Row) : Prop where
  unique : (stream.filter fun e => e.detail.payload.terminal).length ≤ 1
  last : ∀ before e after, stream = before ++ e :: after → e.detail.payload.terminal = true →
    ∀ e' ∈ after, e'.detail.payload.governed = false

/-- No governed event comes after a terminal one. -/
def Final (stream : List Row) : Prop :=
  stream.Pairwise fun e e' => e.detail.payload.terminal = true → e'.detail.payload.governed = false

/-- An append of a governed event reads the head of a run that has not ended. -/
def openHead (w : World) : Action → Bool
  | .advance tx _ =>
      match w.txs tx with
      | some ⟨events, some ⟨.append event none _, .reading⟩⟩ =>
          !event.detail.payload.governed ||
            !runIsTerminal (w.committed ++ events) event.aggregateId
      | _ => true
  | _ => true

section Streams

theorem Payload.governed_of_terminal {payload : Payload} (h : payload.terminal = true) :
    payload.governed = true := by
  cases payload <;> simp [Payload.terminal, Payload.governed] at h ⊢

theorem Payload.run?_of_governed {payload : Payload} (h : payload.governed = true) :
    ∃ runId, payload.run? = some runId := by
  cases payload <;> simp [Payload.terminal, Payload.governed, Payload.run?] at h ⊢

theorem Final.terminalFinal {stream : List Row} (h : Final stream) : TerminalFinal stream := by
  constructor
  · have pairs := List.Pairwise.filter (fun e => e.detail.payload.terminal) h
    have terminal (e : Row) (he : e ∈ stream.filter fun e => e.detail.payload.terminal) :
        e.detail.payload.terminal = true := (List.mem_filter.mp he).2
    generalize stream.filter (fun e => e.detail.payload.terminal) = ends at pairs terminal ⊢
    rcases ends with - | ⟨e, - | ⟨e', ends⟩⟩
    · simp
    · simp
    · have second := (List.pairwise_cons.mp pairs).1 e' (by simp) (terminal e (by simp))
      rw [Payload.governed_of_terminal (terminal e' (by simp))] at second
      cases second
  · rintro before e after rfl hterminal e' he'
    have tail := (List.pairwise_append.mp h).2.1
    exact (List.pairwise_cons.mp tail).1 e' he' hterminal

theorem Final.append_single {stream : List Row} {e : Row} (h : Final stream)
    (isOpen : e.detail.payload.governed = true → ∀ x ∈ stream, x.detail.payload.terminal = false) :
    Final (stream ++ [e]) := by
  refine List.pairwise_append.mpr ⟨h, List.pairwise_singleton .., ?_⟩
  intro x hx y hy hterminal
  obtain rfl := List.mem_singleton.mp hy
  by_contra hgoverned
  have := isOpen (by simpa using hgoverned) x hx
  rw [hterminal] at this
  cases this

end Streams

/-- A log commands may have left, in which ended runs are final. -/
structure LogSound (clean : String → Bool) (log : List Row) : Prop where
  wellFormed : WellFormed clean log
  final : ∀ runId, Final (Streams.ofKey stream log ("run", runId))

def target (visible : List Row) (event : NewEvent Detail) : List Row :=
  Streams.ofKey stream visible (event.aggregate, event.aggregateId)

/-- The appends of the commands: governed events go to the head of their run. -/
def Permitted (event : NewEvent Detail) (expected : Option ℕ) : Prop :=
  Placed event ∧ (event.detail.payload.governed = true → expected = none)

/-- Up to a version that was read the run had not ended. -/
def OpenUpTo (visible : List Row) (event : NewEvent Detail) (version : ℕ) : Prop :=
  event.detail.payload.governed = true → version ≤ (target visible event).length ∧
    ∀ e ∈ (target visible event).take version, e.detail.payload.terminal = false

/-- What has been found out about an append under way. -/
def PhaseSound (clean : String → Bool) (visible : List Row) (holds : Prop)
    (event : NewEvent Detail) : Phase → Prop
  | .reading => True
  | .checking version => OpenUpTo visible event version
  | .locking version => OpenUpTo visible event version ∧ accepts clean event = true ∧
      version ≤ (target visible event).length
  | .inserting version => OpenUpTo visible event version ∧ accepts clean event = true ∧
      version ≤ (target visible event).length ∧ holds

structure RunningSound (clean : String → Bool) (visible : List Row) (holds : Prop) (r : Running) :
    Prop where
  permitted : r.prog.Appends Permitted
  phase : ∀ event expected next, r.prog = .append event expected next →
    PhaseSound clean visible holds event r.phase

/-- A transaction with uncommitted events holds the append lock. -/
structure TxSound (clean : String → Bool) (committed : List Row) (lock : Option ℕ) (tx : ℕ)
    (t : Tx) : Prop where
  locked : t.events ≠ [] → lock = some tx
  log : LogSound clean (committed ++ t.events)
  running : ∀ r, t.running = some r → RunningSound clean (committed ++ t.events) (lock = some tx) r

structure Sound (clean : String → Bool) (w : World) : Prop where
  committed : LogSound clean w.committed
  txs : ∀ tx t, w.txs tx = some t → TxSound clean w.committed w.lock tx t

/-- A log commands may have left, and no transaction yet. -/
structure Init (clean : String → Bool) (w : World) : Prop where
  log : LogSound clean w.committed
  lock : w.lock = none
  txs : ∀ tx, w.txs tx = none

theorem Init.sound {clean : String → Bool} {w : World} (h : Init clean w) : Sound clean w := by
  refine ⟨h.log, fun tx t ht => ?_⟩
  rw [h.txs tx] at ht
  cases ht

section Logs

variable {clean : String → Bool}

theorem LogSound.of_append {log log' : List Row} (h : LogSound clean (log ++ log')) :
    LogSound clean log := by
  constructor
  · refine ⟨h.wellFormed.contiguous.of_append, ?_, ?_⟩
    · exact fun e he => h.wellFormed.placed e (List.mem_append_left _ he)
    · exact fun e he => h.wellFormed.accepted e (List.mem_append_left _ he)
  · intro runId
    have final := h.final runId
    rw [Streams.ofKey_append] at final
    exact (List.pairwise_append.mp final).1

theorem target_append {visible new : List Row} {event : NewEvent Detail} :
    target (visible ++ new) event = target visible event ++ target new event :=
  Streams.ofKey_append

theorem OpenUpTo.append {visible new : List Row} {event : NewEvent Detail} {version : ℕ}
    (h : OpenUpTo visible event version) : OpenUpTo (visible ++ new) event version := by
  intro hgoverned
  obtain ⟨bound, isOpen⟩ := h hgoverned
  rw [target_append, List.take_append_of_le_length bound, List.length_append]
  exact ⟨Nat.le_add_right_of_le bound, isOpen⟩

theorem PhaseSound.append {visible new : List Row} {holds holds' : Prop} {event : NewEvent Detail}
    {phase : Phase} (h : PhaseSound clean visible holds event phase) (keeps : holds → holds') :
    PhaseSound clean (visible ++ new) holds' event phase := by
  have longer {version : ℕ} (bound : version ≤ (target visible event).length) :
      version ≤ (target (visible ++ new) event).length := by
    rw [target_append, List.length_append]
    omega
  cases phase with
  | reading => trivial
  | checking version => exact OpenUpTo.append h
  | locking version =>
      obtain ⟨isOpen, accepted, bound⟩ := h
      exact ⟨isOpen.append, accepted, longer bound⟩
  | inserting version =>
      obtain ⟨isOpen, accepted, bound, held⟩ := h
      exact ⟨isOpen.append, accepted, longer bound, keeps held⟩

theorem RunningSound.append {visible new : List Row} {holds holds' : Prop} {r : Running}
    (h : RunningSound clean visible holds r) (keeps : holds → holds') :
    RunningSound clean (visible ++ new) holds' r :=
  ⟨h.permitted, fun event expected next heq => (h.phase event expected next heq).append keeps⟩

theorem RunningSound.next {visible : List Row} {holds : Prop} {prog : Prog Unit}
    (permitted : prog.Appends Permitted) : RunningSound clean visible holds prog.next :=
  ⟨permitted, fun _ _ _ _ => trivial⟩

theorem LogSound.insert {visible : List Row} {event : NewEvent Detail} {version : ℕ}
    {tableVersion globalSeq : ℕ} {eventId : String} {row : Row} (h : LogSound clean visible)
    (isOpen : OpenUpTo visible event version) (accepted : accepts clean event = true)
    (bound : version ≤ (target visible event).length) (placed : Placed event)
    (inserted : insertEvent visible (event.row version tableVersion eventId globalSeq) false =
      .ok row) : LogSound clean (visible ++ [row]) := by
  obtain rfl := insertEvent_ok inserted
  have free : ∀ e ∈ visible, stream e = (event.aggregate, event.aggregateId) →
      e.streamVersion ≠ version + 1 := by
    intro e he hstream hversion
    unfold insertEvent at inserted
    split at inserted
    · cases inserted
    · split at inserted
      · cases inserted
      · next hfree =>
          refine hfree ⟨e, he, ?_⟩
          simp only [stream, Prod.mk.injEq] at hstream
          simp [Event.position, NewEvent.row, hstream.1, hstream.2, hversion]
  have atEnd := h.wellFormed.contiguous.eq_length_of_free bound free
  constructor
  · refine ⟨h.wellFormed.contiguous.append_single (congrArg (· + 1) atEnd), ?_, ?_⟩
    · intro e he runId hrun
      rcases List.mem_append.mp he with old | new
      · exact h.wellFormed.placed e old runId hrun
      · obtain rfl := List.mem_singleton.mp new
        obtain ⟨haggregate, haggregateId, hrunId⟩ := placed runId hrun
        exact ⟨Prod.ext haggregate haggregateId, hrunId⟩
    · intro e he
      rcases List.mem_append.mp he with old | new
      · exact h.wellFormed.accepted e old
      · obtain rfl := List.mem_singleton.mp new
        exact accepted
  · intro runId
    rw [Streams.ofKey_append, Streams.ofKey_single]
    split
    · next hkey =>
        refine (h.final runId).append_single fun hgoverned => ?_
        obtain ⟨-, isOpen⟩ := isOpen hgoverned
        have whole : target visible event = Streams.ofKey stream visible ("run", runId) :=
          congrArg (Streams.ofKey stream visible) hkey
        have all : (target visible event).take version = target visible event :=
          List.take_of_length_le (le_of_eq atEnd.symm)
        rwa [all, whole] at isOpen
    · simpa using h.final runId

end Logs

section Permitted

theorem permitted_run {runId : String} {payload : Payload} (h : payload.run? = some runId) :
    Permitted (runEvent runId payload) none := ⟨placed_runEvent h, fun _ => rfl⟩

theorem permitted_other {event : NewEvent Detail} {expected : Option ℕ}
    (h : event.detail.payload.run? = none) : Permitted event expected := by
  constructor
  · intro runId hrun
    rw [h] at hrun
    cases hrun
  · intro hgoverned
    obtain ⟨runId, hrun⟩ := Payload.run?_of_governed hgoverned
    rw [h] at hrun
    cases hrun

theorem appends_append {event : NewEvent Detail} (h : Permitted event none) :
    (append event).Appends Permitted := ⟨h, fun _ => trivial⟩

theorem appends_pure {α : Type} (a : α) : (pure a : Prog α).Appends Permitted := trivial

theorem appends_visibleEvents : visibleEvents.Appends Permitted := fun _ => trivial

theorem appends_terminalCommand {payload : String → Option String → Payload}
    (ofRun : ∀ runId reason, (payload runId reason).run? = some runId) (runId : String)
    (reason : Option String) : (terminalCommand payload runId reason).Appends Permitted := by
  apply appends_visibleEvents.bind
  intro visible
  split
  · exact appends_pure _
  · exact (appends_append (permitted_run (ofRun runId reason))).bind fun _ => appends_pure _

theorem appends_parkCommand (runId : String) (owner waitingOnFact : Option String) :
    (parkCommand runId owner waitingOnFact).Appends Permitted :=
  (appends_append (permitted_run rfl)).bind fun _ => appends_pure _

theorem appends_resumeRuns (factKey : String) (produced runs : List String) :
    (resumeRuns factKey produced runs).Appends Permitted := by
  induction runs generalizing produced with
  | nil => exact appends_pure _
  | cons runId runs ih =>
      apply (appends_append (permitted_run rfl)).bind
      intro resume
      apply (appends_append (permitted_run rfl)).bind
      intro unparked
      exact ih _

theorem appends_recordSelections (requestId : String) (conceptKey : Option String) (explored : ℤ)
    (produced : List String) (selections : List Selection) :
    (recordSelections requestId conceptKey explored produced selections).Appends Permitted := by
  induction selections generalizing produced with
  | nil => exact appends_pure _
  | cons selection selections ih =>
      obtain ⟨runId, featureId⟩ := selection
      have choose (featureId : String) (produced : List String) :
          (append (newEvent "request" requestId
            (.candidateSelected requestId runId featureId explored)
            (some requestId) (some featureId) (some runId)) >>= fun chosen =>
              recordSelections requestId conceptKey explored (produced ++ [chosen.eventId])
                selections).Appends Permitted :=
        (appends_append (permitted_other rfl)).bind fun _ => ih _
      cases featureId with
      | some featureId => exact choose featureId produced
      | none =>
          intro featureId
          exact ⟨permitted_other rfl, fun created => choose featureId (produced ++ [created.eventId])⟩

theorem appends_closeSiblings (requestId : String) (selected produced runs : List String) :
    (closeSiblings requestId selected produced runs).Appends Permitted := by
  induction runs generalizing produced with
  | nil => exact appends_pure _
  | cons runId runs ih =>
      rw [closeSiblings]
      split
      · exact ih produced
      · apply appends_visibleEvents.bind
        intro visible
        split
        · exact ih produced
        · apply (appends_append (permitted_other rfl)).bind
          intro rejReq
          apply (appends_append (permitted_run rfl)).bind
          intro rejRun
          exact ih _

theorem appends_selectCandidateCommand (requestId : String) (selections : List Selection)
    (conceptKey : Option String) (candidatesExploredCount : Option ℤ) :
    (selectCandidateCommand requestId selections conceptKey candidatesExploredCount).Appends
      Permitted := by
  apply appends_visibleEvents.bind
  intro visible
  dsimp only
  split
  · exact appends_pure _
  · apply (appends_recordSelections _ _ _ _ _).bind
    intro produced
    exact (appends_closeSiblings _ _ _ _).bind fun _ => appends_pure _

theorem appends_parkRun (runId : String) (owner waitingOnFact : Option String) :
    (parkRun runId owner waitingOnFact).Appends Permitted := by
  apply appends_visibleEvents.bind
  intro visible
  split
  · exact appends_pure _
  · apply appends_visibleEvents.bind
    intro visible
    split
    · exact appends_pure _
    · exact (appends_parkCommand _ _ _).bind fun _ => appends_pure _

theorem appends_drainControlSignals (parked : ℕ) (rows : List ControlRow) :
    (drainControlSignals parked rows).Appends Permitted := by
  induction rows generalizing parked with
  | nil => exact appends_pure _
  | cons row rows ih =>
      rw [drainControlSignals]
      split
      · split
        · exact (appends_parkRun _ _ _).bind fun _ => ih _
        · exact ih parked
      · exact ih parked

theorem Command.permitted (command : Command) : command.prog.Appends Permitted := by
  cases command with
  | reject runId reason =>
      exact (appends_terminalCommand (fun _ _ => rfl) runId reason).bind fun _ => appends_pure _
  | cancel runId reason =>
      exact (appends_terminalCommand (fun _ _ => rfl) runId reason).bind fun _ => appends_pure _
  | withdraw runId reason =>
      exact (appends_terminalCommand (fun _ _ => rfl) runId reason).bind fun _ => appends_pure _
  | park runId owner waitingOnFact =>
      exact (appends_parkCommand runId owner waitingOnFact).bind fun _ => appends_pure _
  | unpark runId =>
      apply Prog.Appends.bind
      · exact (appends_append (permitted_run rfl)).bind fun _ => appends_pure _
      · exact fun _ => appends_pure _
  | factConfirmedResume aggregateId factKey =>
      apply Prog.Appends.bind
      · apply appends_visibleEvents.bind
        intro visible
        exact (appends_resumeRuns _ _ _).bind fun _ => appends_pure _
      · exact fun _ => appends_pure _
  | selectCandidate requestId selections conceptKey candidatesExploredCount =>
      exact (appends_selectCandidateCommand _ _ _ _).bind fun _ => appends_pure _
  | controlSignals rows => exact (appends_drainControlSignals _ _).bind fun _ => appends_pure _

end Permitted

section Steps

variable {clean : String → Bool} {w : World}

theorem TxSound.of_lock_ne {committed : List Row} {lock lock' : Option ℕ} {tx : ℕ} {t : Tx}
    (h : TxSound clean committed lock tx t) (other : lock ≠ some tx) :
    TxSound clean committed lock' tx t := by
  constructor
  · intro hevents
    exact absurd (h.locked hevents) other
  · exact h.log
  · intro r hr
    have sound := @RunningSound.append clean _ [] _ (lock' = some tx) r (h.running r hr)
      fun held => absurd held other
    rwa [List.append_nil] at sound

theorem Sound.set {tx : ℕ} {t : Tx} (h : Sound clean w)
    (sound : TxSound clean w.committed w.lock tx t) : Sound clean (w.set tx (some t)) := by
  refine ⟨h.committed, fun tx' t' ht' => ?_⟩
  simp only [World.set, Function.update_apply] at ht'
  split at ht'
  · next heq =>
      subst heq
      cases ht'
      exact sound
  · exact h.txs tx' t' ht'

theorem TxSound.advance {committed : List Row} {lock : Option ℕ} {tx : ℕ} {t : Tx} {r : Running}
    (h : TxSound clean committed lock tx t)
    (sound : RunningSound clean (committed ++ t.events) (lock = some tx) r) :
    TxSound clean committed lock tx ⟨t.events, some r⟩ := by
  refine ⟨h.locked, h.log, fun r' hr' => ?_⟩
  cases hr'
  exact sound

theorem Sound.closed {tx : ℕ} (h : Sound clean w) : Sound clean (w.closed tx) := by
  refine ⟨h.committed, fun tx' t' ht' => ?_⟩
  simp only [World.closed, World.set, Function.update_apply] at ht'
  split at ht'
  · cases ht'
  · next hne =>
      have sound := h.txs tx' t' ht'
      simp only [World.closed, World.set]
      split
      · next held =>
          apply sound.of_lock_ne
          rw [held]
          exact fun heq => hne (Option.some.inj heq).symm
      · exact sound

theorem Sound.commit {tx : ℕ} {events : List Row} (h : Sound clean w)
    (ht : w.txs tx = some ⟨events, none⟩) :
    Sound clean { w.closed tx with committed := w.committed ++ events } := by
  have own := h.txs tx _ ht
  refine ⟨own.log, fun tx' t' ht' => ?_⟩
  have other : TxSound clean w.committed (w.closed tx).lock tx' t' := h.closed.txs tx' t' ht'
  simp only [World.closed, World.set, Function.update_apply] at ht'
  split at ht'
  · cases ht'
  · next hne =>
      dsimp only
      by_cases hevents : events = []
      · rw [hevents, List.append_nil]
        exact other
      · have held := own.locked hevents
        have released : (w.closed tx).lock = none := by simp [World.closed, World.set, held]
        have empty : t'.events = [] := by
          by_contra hne'
          have := other.locked hne'
          rw [released] at this
          cases this
        refine ⟨fun hne' => absurd empty hne', ?_, fun r hr => ?_⟩
        · rw [empty, List.append_nil]
          exact own.log
        · have sound := other.running r hr
          rw [empty, List.append_nil] at sound ⊢
          exact sound.append id

theorem target_eq {visible : List Row} {event : NewEvent Detail} {runId : String}
    (placed : Placed event) (hrun : event.detail.payload.run? = some runId) :
    target visible event = Streams.ofKey stream visible ("run", event.aggregateId) := by
  rw [target, (placed runId hrun).1]

theorem Sound.advanceAppend {w' : World} {tx : ℕ} {events : List Row} {event : NewEvent Detail}
    {expected : Option ℕ} {next : Row → Prog Unit} {drawn : Drawn} {phase : Phase}
    (h : Sound clean w)
    (ht : w.txs tx = some ⟨events, some ⟨.append event expected next, phase⟩⟩)
    (isOpen : openHead w (.advance tx drawn) = true)
    (hstep : advanceAppend (accepts clean) w tx events event expected next drawn phase = some w') :
    Sound clean w' := by
  have own := h.txs tx _ ht
  have running := own.running _ rfl
  obtain ⟨⟨placed, headed⟩, rest⟩ := running.permitted
  have found := running.phase event expected next rfl
  have raised (error : AppendError) :
      RunningSound clean (w.committed ++ events) (w.lock = some tx)
        (Prog.next (.done (.error error))) := .next trivial
  have goOn {phase' : Phase}
      (sound : PhaseSound clean (w.committed ++ events) (w.lock = some tx) event phase') :
      Sound clean (w.set tx (some ⟨events, some ⟨.append event expected next, phase'⟩⟩)) := by
    apply h.set
    apply own.advance
    refine ⟨⟨⟨placed, headed⟩, rest⟩, fun event' expected' next' heq => ?_⟩
    cases heq
    exact sound
  cases phase with
  | reading =>
      cases hstep
      apply goOn
      intro hgoverned
      obtain rfl := headed hgoverned
      obtain ⟨runId, hrun⟩ := Payload.run?_of_governed hgoverned
      have notTerminal : runIsTerminal (w.committed ++ events) event.aggregateId = false := by
        simpa [openHead, ht, hgoverned] using isOpen
      rw [runIsTerminal, loadStream_eq own.log.wellFormed.contiguous, ← target_eq placed hrun,
        List.any_eq_false] at notTerminal
      rw [Option.getD_none, currentVersion_eq own.log.wellFormed.contiguous]
      refine ⟨le_rfl, fun e he => ?_⟩
      simpa using notTerminal e (List.mem_of_mem_take he)
  | checking version =>
      simp only [Aggregates.advanceAppend] at hstep
      split at hstep
      · next checked =>
          cases hstep
          apply goOn
          obtain ⟨accepted, head⟩ := checkAppend_ok checked
          rw [streamHead_eq own.log.wellFormed.contiguous] at head
          exact ⟨found, accepted, le_of_eq head.symm⟩
      · next error _ =>
          cases hstep
          exact h.set (own.advance (raised error))
  | locking version =>
      simp only [Aggregates.advanceAppend] at hstep
      split at hstep
      · next free =>
          cases hstep
          obtain ⟨isOpenTo, accepted, bound⟩ := found
          constructor
          · exact h.committed
          · intro tx' t' ht'
            simp only [World.set, Function.update_apply] at ht'
            dsimp only [World.set]
            split at ht'
            · next heq =>
                subst heq
                cases ht'
                refine ⟨fun _ => rfl, own.log, fun r hr => ?_⟩
                cases hr
                refine ⟨⟨⟨placed, headed⟩, rest⟩, fun event' expected' next' heq => ?_⟩
                cases heq
                exact ⟨isOpenTo, accepted, bound, rfl⟩
            · next hne =>
                apply (h.txs tx' t' ht').of_lock_ne
                rcases free with free | held
                · rw [free]
                  simp
                · rw [held]
                  exact fun heq => hne (Option.some.inj heq).symm
      · cases hstep
  | inserting version =>
      obtain ⟨isOpenTo, accepted, bound, held⟩ := found
      simp only [Aggregates.advanceAppend] at hstep
      split at hstep
      · next row inserted =>
          cases hstep
          have log := own.log.insert isOpenTo accepted bound placed inserted
          apply h.set
          refine ⟨fun _ => held, ?_, fun r hr => ?_⟩
          · rwa [← List.append_assoc]
          · cases hr
            exact .next (rest row)
      · next error _ =>
          cases hstep
          exact h.set (own.advance (raised error))

theorem Sound.step {w' : World} {a : Action} (h : Sound clean w) (isOpen : openHead w a = true)
    (hstep : step (accepts clean) w a = some w') : Sound clean w' := by
  cases a with
  | begin tx =>
      simp only [Aggregates.step] at hstep
      split at hstep
      · cases hstep
        apply h.set
        refine ⟨fun hne => absurd rfl hne, ?_, fun r hr => by cases hr⟩
        rw [List.append_nil]
        exact h.committed
      · cases hstep
  | call tx command =>
      simp only [Aggregates.step] at hstep
      split at hstep
      · next events ht =>
          cases hstep
          exact h.set ((h.txs tx _ ht).advance (.next command.permitted))
      · cases hstep
  | advance tx drawn =>
      simp only [Aggregates.step] at hstep
      split at hstep
      · next events result phase ht =>
          cases hstep
          have own := h.txs tx _ ht
          exact h.set ⟨own.locked, own.log, fun r hr => by cases hr⟩
      · next events next phase ht =>
          cases hstep
          have own := h.txs tx _ ht
          exact h.set (own.advance (.next ((own.running _ rfl).permitted _)))
      · next events next phase ht =>
          cases hstep
          have own := h.txs tx _ ht
          exact h.set (own.advance (.next ((own.running _ rfl).permitted _)))
      · next events event expected next phase ht => exact h.advanceAppend ht isOpen hstep
      · cases hstep
  | rollbackToSavepoint tx kept =>
      simp only [Aggregates.step] at hstep
      split at hstep
      · next events ht =>
          cases hstep
          have own := h.txs tx _ ht
          apply h.set
          refine ⟨fun hne => own.locked fun hnil => hne ?_, ?_, fun r hr => by cases hr⟩
          · dsimp only at hnil ⊢
            rw [hnil, List.take_nil]
          · have log := own.log
            dsimp only at log ⊢
            rw [← List.take_append_drop kept events, ← List.append_assoc] at log
            exact log.of_append
      · cases hstep
  | commit tx =>
      simp only [Aggregates.step] at hstep
      split at hstep
      · next events ht =>
          cases hstep
          exact h.commit ht
      · cases hstep
  | rollback tx =>
      cases hstep
      exact h.closed

end Steps

/-- Ended runs are final in every run whose governed appends read heads that have not
    ended. -/
theorem terminalFinal_of_openHeads {clean : String → Bool} {w₀ w : World} {as : List Action}
    (start : Init clean w₀)
    (openHeads : Transition.Along (step (accepts clean)) (fun w a => openHead w a = true) w₀ as)
    (run : Transition.exec (step (accepts clean)) w₀ as = some w) (runId : String) :
    TerminalFinal (loadStream w.committed "run" runId) := by
  have sound : Sound clean w := Transition.exec_induction_along start.sound
    (fun _ _ _ sound isOpen hstep => sound.step isOpen hstep) openHeads run
  rw [loadStream_eq sound.committed.wellFormed.contiguous]
  exact (sound.committed.final runId).terminalFinal

theorem LogSound.of_open {clean : String → Bool} {log : List Row} (h : WellFormed clean log)
    (isOpen : ∀ e ∈ log, e.detail.payload.terminal = false) : LogSound clean log := by
  refine ⟨h, fun runId => List.pairwise_of_forall_mem_list fun e he e' _ hterminal => ?_⟩
  rw [isOpen e (Streams.mem_ofKey.mp he).1] at hterminal
  cases hterminal

def created : World where
  committed := appendAll longerIds []
    [runEvent "run-1" (.runCreated "run-1" none none none none)]
  lock := none
  txs _ := none

theorem created_init : Init (fun _ => true) created := by
  refine ⟨LogSound.of_open (WellFormed.nil.appendAll fun event hevent => ?_) (by decide), rfl,
    fun _ => rfl⟩
  obtain rfl := List.mem_singleton.mp hevent
  exact ⟨placed_runEvent rfl, by decide⟩

def runsOnce (tx : ℕ) (command : Command) (eventId : String) (reads : ℕ) : List Action :=
  let drawn : Drawn := ⟨eventId, 1, 1⟩
  ([.begin tx, .call tx command] : List Action) ++
    List.replicate (reads + 5) (Action.advance tx drawn) ++ ([.commit tx] : List Action)

/-- A reviewer rejects the run while an operator cancels it: the rejection was decided
    before the cancellation committed, and reads the head behind it. -/
def rejectedWhileCancelled : List Action :=
  ([.begin 1, .call 1 (.reject "run-1" none), .advance 1 ⟨"evt-1", 3, 1⟩] : List Action) ++
    runsOnce 2 (.cancel "run-1" none) "evt-2" 1 ++
    List.replicate 5 (Action.advance 1 ⟨"evt-1", 3, 1⟩) ++ ([.commit 1] : List Action)

theorem rejected_and_cancelled :
    ¬ ∀ w, Transition.exec (step (accepts fun _ => true)) created rejectedWhileCancelled = some w →
      TerminalFinal (loadStream w.committed "run" "run-1") := by
  have computed : ((Transition.exec (step (accepts fun _ => true)) created
      rejectedWhileCancelled).any fun w =>
        decide (((loadStream w.committed "run" "run-1").filter
          fun e => e.detail.payload.terminal).length = 2)) = true := by
    decide +kernel
  obtain ⟨w, run, twice⟩ := Option.any_eq_true _ _ |>.mp computed
  intro final
  have unique := (final w run).unique
  have length : ((loadStream w.committed "run" "run-1").filter
      fun e => e.detail.payload.terminal).length = 2 := of_decide_eq_true twice
  rw [length] at unique
  omega

/-- The run is parked, woken and rejected, one after the other. -/
def oneByOne : List Action :=
  runsOnce 1 (.park "run-1" none (some "overlay:1")) "evt-1" 0 ++
    runsOnce 2 (.unpark "run-1") "evt-2" 0 ++ runsOnce 3 (.reject "run-1" none) "evt-3" 1

theorem terminalFinal_of_openHeads_oneByOne :
    ∃ w, Transition.exec (step (accepts fun _ => true)) created oneByOne = some w ∧
      w.committed.map (·.detail.payload.type) =
        ["RUN_CREATED", "RUN_PARKED", "RUN_UNPARKED", "RUN_REJECTED"] ∧
      TerminalFinal (loadStream w.committed "run" "run-1") := by
  have computed : ((Transition.exec (step (accepts fun _ => true)) created oneByOne).any fun w =>
      decide (w.committed.map (·.detail.payload.type) =
        ["RUN_CREATED", "RUN_PARKED", "RUN_UNPARKED", "RUN_REJECTED"])) = true := by
    decide +kernel
  obtain ⟨w, run, types⟩ := Option.any_eq_true _ _ |>.mp computed
  have openHeads : ((Transition.history (step (accepts fun _ => true)) created oneByOne).all
      fun m => openHead m.before m.action) = true := by
    decide +kernel
  exact ⟨w, run, of_decide_eq_true types, terminalFinal_of_openHeads created_init
    (List.all_eq_true.mp openHeads) run "run-1"⟩

end FeatureGen.Aggregates
