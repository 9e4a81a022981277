import Mathlib
import FeatureGen.Gates.Runs

/-! # The quorum of a gate

Responses are stored by acting subject and counted by authority of record. The
two agree on a call exactly when its actor has no response of its own on the
task yet, or its authority has one: otherwise the insert does nothing, and the
answer is counted all the same.
-/

namespace FeatureGen.Gates

open FeatureGen.Runtime

/-- The distinct authorities with a recorded response. -/
def authorities (s : Store) (taskId : String) : Finset String :=
  ((responsesOf s taskId).map Response.authority).toFinset

/-- The authority was shown to meet what the task asks of its assignees: by its
    own answer, or at a grant to a delegate. -/
def Eligible (past : List GateMove) (taskId : String) (spec : GateTaskSpec) (authority : String) :
    Prop :=
  ∃ env : Identity, env.subject = authority ∧ checkEligible spec env = .ok () ∧ ∃ m ∈ past,
    (∃ delegateSubject grantedBy,
      m.action = .grantTaskDelegation taskId env delegateSubject grantedBy) ∨
    (∃ signal timerId, m.action = .submitHumanSignal signal timerId ∧ signal.taskId = taskId ∧
      signal.actor = env ∧ signal.onBehalfOf = none)

def Returns (m : GateMove) (signal : Signal) (result : SignalResult) : Prop :=
  ∃ timerId s', m.action = .submitHumanSignal signal timerId ∧
    submitHumanSignal m.before.store signal timerId m.before.now = .ok (s', result)

structure QuorumSound (past : List GateMove) (m : GateMove) : Prop where
  /-- An answer is counted exactly when it adds a recorded authority… -/
  counted : ∀ signal result, Returns m signal result → (result.counted = true ↔
    (authorities m.after.store signal.taskId).card =
      (authorities m.before.store signal.taskId).card + 1)
  /-- … and is recorded under it. -/
  recorded : ∀ signal result, Returns m signal result → result.counted = true →
    ∃ r ∈ responsesOf m.after.store signal.taskId,
      r.authority = signal.onBehalfOf.getD signal.actor.subject ∧ r.response = signal.response
  /-- A task is answered by a quorum of eligible authorities of one mind. -/
  answered : ∀ t ∈ m.before.store.tasks, ∀ t' ∈ m.after.store.tasks, t'.taskId = t.taskId →
    t.status ≠ .answered → t'.status = .answered →
    t.spec.quorumRequired ≤ (authorities m.after.store t.taskId).card ∧
      (∃ response, ∀ r ∈ responsesOf m.after.store t.taskId, r.response = response) ∧
      ∀ authority ∈ authorities m.after.store t.taskId,
        Eligible (past ++ [m]) t.taskId t.spec authority

/-- An actor whose answer would add an authority has no response on the task yet. -/
def AnswersOnce (w : World) : Action → Prop
  | .submitHumanSignal signal _ => ∀ task authority,
      screenSignal w.store signal = .ok (.inr (task, authority)) →
      authority ∉ authorities w.store signal.taskId →
      ∀ r ∈ responsesOf w.store signal.taskId, r.subject ≠ signal.actor.subject
  | _ => True

theorem mem_responsesOf {s : Store} {taskId : String} {r : Response} :
    r ∈ responsesOf s taskId ↔ r ∈ s.responses ∧ r.taskId = taskId := by
  rw [responsesOf, List.mem_filter, decide_eq_true_eq]
  rfl

theorem mem_authorities {s : Store} {taskId authority : String} :
    authority ∈ authorities s taskId ↔ ∃ r ∈ responsesOf s taskId, r.authority = authority := by
  rw [authorities, List.mem_toFinset, List.mem_map]

theorem authorities_congr {s s' : Store} (h : s'.responses = s.responses) (taskId : String) :
    authorities s' taskId = authorities s taskId := by
  rw [authorities, responsesOf, h]
  rfl

/-- The row an answer is inserted as. -/
def Signal.row (signal : Signal) (seq : ℕ) : Response :=
  ⟨signal.taskId, signal.actor.subject, signal.response, signal.onBehalfOf, seq⟩

theorem Signal.row_authority (signal : Signal) (seq : ℕ) :
    (signal.row seq).authority = signal.onBehalfOf.getD signal.actor.subject := rfl

/-- What happens to an admitted answer. -/
inductive Recorded (s : Store) (signal : Signal) (authority : String) : Store × Bool → Prop where
  | again (there : authority ∈ authorities s signal.taskId) : Recorded s signal authority (s, false)
  | added (new : authority ∉ authorities s signal.taskId)
      (free : ∀ r ∈ responsesOf s signal.taskId, r.subject ≠ signal.actor.subject)
      (s' : Store) (rows : s'.responses.rows = s.responses.rows ++ [signal.row s.globalSeq]) :
      Recorded s signal authority (s', true)
  | dropped (new : authority ∉ authorities s signal.taskId)
      (taken : ∃ r ∈ responsesOf s signal.taskId, r.subject = signal.actor.subject)
      (s' : Store) (responses : s'.responses = s.responses) : Recorded s signal authority (s', true)

theorem recordResponse_recorded (s : Store) (signal : Signal) (authority : String) :
    Recorded s signal authority (recordResponse s signal authority) := by
  unfold recordResponse
  split
  · next hany =>
      apply Recorded.again
      obtain ⟨r, hr, hauthority⟩ := List.any_eq_true.mp hany
      exact mem_authorities.mpr ⟨r, hr, of_decide_eq_true hauthority⟩
  · next hnone =>
      have new : authority ∉ authorities s signal.taskId := by
        intro there
        obtain ⟨r, hr, hauthority⟩ := mem_authorities.mp there
        exact hnone (List.any_eq_true.mpr ⟨r, hr, decide_eq_true hauthority⟩)
      cases hins : s.responses.insert? (signal.row s.globalSeq) with
      | none =>
          obtain ⟨x, hx, hkey⟩ := Table.insert?_eq_none.mp hins
          obtain ⟨htask, hsubject⟩ := Prod.mk.inj hkey
          refine .dropped new ⟨x, mem_responsesOf.mpr ⟨hx, htask⟩, hsubject⟩ _ ?_
          exact Table.insertNew_of_mem hx hkey
      | some responses =>
          obtain ⟨rows, fresh⟩ := Table.rows_of_insert? hins
          refine .added new ?_ _ ?_
          · intro r hr hsubject
            obtain ⟨hmem, htask⟩ := mem_responsesOf.mp hr
            exact fresh r hmem (Prod.ext htask hsubject)
          · exact (congrArg Table.rows (congrArg (Option.getD · s.responses) hins)).trans rows

theorem responsesOf_added {s s' : Store} {signal : Signal}
    (rows : s'.responses.rows = s.responses.rows ++ [signal.row s.globalSeq]) (taskId : String) :
    responsesOf s' taskId = responsesOf s taskId ++
      if signal.taskId = taskId then [signal.row s.globalSeq] else [] := by
  rw [responsesOf, rows, List.filter_append, ← responsesOf]
  congr 1
  by_cases h : signal.taskId = taskId <;> simp [Signal.row, h]

theorem mem_added {s s' : Store} {signal : Signal}
    (rows : s'.responses.rows = s.responses.rows ++ [signal.row s.globalSeq]) {r : Response} :
    r ∈ s'.responses ↔ r ∈ s.responses ∨ r = signal.row s.globalSeq := by
  rw [← Table.mem_rows, rows, List.mem_append, List.mem_singleton, Table.mem_rows]

theorem dictSet_of_new {d : List (String × String)} {key value : String}
    (new : key ∉ d.map Prod.fst) : dictSet d key value = d ++ [(key, value)] := by
  rw [dictSet, if_neg]
  intro hany
  obtain ⟨entry, hentry, hkey⟩ := List.any_eq_true.mp hany
  exact new (of_decide_eq_true hkey ▸ List.mem_map_of_mem hentry)

theorem authoritiesOf_eq {rows : List Response}
    (named : ∀ r ∈ rows, r.onBehalfOf ≠ some "") (distinct : (rows.map Response.authority).Nodup) :
    authoritiesOf rows = rows.map fun r => (r.authority, r.response) := by
  induction rows using List.reverseRecOn with
  | nil => rfl
  | append_singleton rows r ih =>
      rw [List.map_append, List.nodup_append] at distinct
      have before := ih (fun x hx => named x (List.mem_append_left _ hx)) distinct.1
      have key : (truthy r.onBehalfOf).getD r.subject = r.authority := by
        have hne := named r (List.mem_append_right _ (List.mem_singleton_self r))
        cases h : r.onBehalfOf with
        | none => simp [truthy, Response.authority, h]
        | some principal =>
            have given : principal ≠ "" := fun heq => hne (by rw [h, heq])
            rw [truthy_some given, Response.authority, h]
      rw [authoritiesOf, List.foldl_append, ← authoritiesOf, before, List.foldl_cons,
        List.foldl_nil, key, dictSet_of_new, List.map_append, List.map_singleton]
      intro hmem
      rw [List.map_map] at hmem
      exact distinct.2.2 _ hmem _ (List.mem_singleton_self _) rfl

structure QuorumInv (past : List GateMove) (w : World) : Prop where
  namedGrants : ∀ d ∈ w.store.delegations, d.principal ≠ ""
  named : ∀ r ∈ w.store.responses, r.onBehalfOf ≠ some ""
  distinct : ∀ r ∈ w.store.responses, ∀ r' ∈ w.store.responses, r.taskId = r'.taskId →
    r.authority = r'.authority → r = r'
  /-- An open task has answers, but not enough of them. -/
  short : ∀ t ∈ w.store.tasks, t.status = .open → responsesOf w.store t.taskId ≠ [] →
    ((authoritiesOf (responsesOf w.store t.taskId)).length : ℤ) < t.spec.quorumRequired
  known : ∀ r ∈ w.store.responses, ∃ t ∈ w.store.tasks, t.taskId = r.taskId
  knownGrants : ∀ d ∈ w.store.delegations, ∃ t ∈ w.store.tasks, t.taskId = d.taskId
  grants : ∀ d ∈ w.store.delegations, ∀ t ∈ w.store.tasks, t.taskId = d.taskId →
    Eligible past t.taskId t.spec d.principal
  eligible : ∀ r ∈ w.store.responses, ∀ t ∈ w.store.tasks, t.taskId = r.taskId →
    Eligible past t.taskId t.spec r.authority

/-- No response and no grant yet. -/
def Init (w : World) : Prop :=
  w.store.responses.rows = [] ∧ w.store.delegations.rows = []

theorem Eligible.mono {past : List GateMove} {taskId authority : String} {spec : GateTaskSpec}
    (h : Eligible past taskId spec authority) (m : GateMove) :
    Eligible (past ++ [m]) taskId spec authority := by
  obtain ⟨env, subject, eligible, m', hm', how⟩ := h
  exact ⟨env, subject, eligible, m', List.mem_append_left _ hm', how⟩

namespace QuorumInv

variable {past : List GateMove} {w w' : World} {a : Action}

theorem init (start : Init w) : QuorumInv [] w := by
  obtain ⟨responses, delegations⟩ := start
  have noResponse : ∀ r, r ∉ w.store.responses := by
    intro r hr
    rw [← Table.mem_rows, responses] at hr
    cases hr
  have noGrant : ∀ d, d ∉ w.store.delegations := by
    intro d hd
    rw [← Table.mem_rows, delegations] at hd
    cases hd
  constructor
  · exact fun d hd => absurd hd (noGrant d)
  · exact fun r hr => absurd hr (noResponse r)
  · exact fun r hr => absurd hr (noResponse r)
  · intro t _ _ answered
    simp [responsesOf, responses] at answered
  · exact fun r hr => absurd hr (noResponse r)
  · exact fun d hd => absurd hd (noGrant d)
  · exact fun d hd => absurd hd (noGrant d)
  · exact fun r hr => absurd hr (noResponse r)

theorem responsesOf_distinct (inv : QuorumInv past w) (taskId : String) :
    ((responsesOf w.store taskId).map Response.authority).Nodup := by
  apply List.Nodup.map_on
  · intro r hr r' hr' hauthority
    obtain ⟨hmem, htask⟩ := mem_responsesOf.mp hr
    obtain ⟨hmem', htask'⟩ := mem_responsesOf.mp hr'
    exact inv.distinct r hmem r' hmem' (htask.trans htask'.symm) hauthority
  · exact (List.Nodup.of_map _ w.store.responses.keys_nodup).filter _

theorem authoritiesOf_responses (inv : QuorumInv past w) (taskId : String) :
    authoritiesOf (responsesOf w.store taskId) =
      (responsesOf w.store taskId).map fun r => (r.authority, r.response) :=
  authoritiesOf_eq (fun r hr => inv.named r (mem_responsesOf.mp hr).1)
    (inv.responsesOf_distinct taskId)

theorem card_authorities (inv : QuorumInv past w) (taskId : String) :
    (authorities w.store taskId).card = (authoritiesOf (responsesOf w.store taskId)).length := by
  rw [authorities, List.toFinset_card_of_nodup (inv.responsesOf_distinct taskId),
    inv.authoritiesOf_responses, List.length_map, List.length_map]

theorem follows (_ : QuorumInv past w) (h : step w a = some w') {taskId : String}
    (known : ∃ t ∈ w.store.tasks, t.taskId = taskId) {t' : HumanTask}
    (ht' : t' ∈ w'.store.tasks) (hid : t'.taskId = taskId) :
    ∃ t ∈ w.store.tasks, t.taskId = taskId ∧ t.Follows t' := by
  obtain ⟨t, ht, htid⟩ := known
  exact ⟨t, ht, htid, (step_advances h).follows ht ht' (hid.trans htid.symm)⟩

theorem known_step (h : step w a = some w') {taskId : String}
    (known : ∃ t ∈ w.store.tasks, t.taskId = taskId) : ∃ t ∈ w'.store.tasks, t.taskId = taskId := by
  obtain ⟨t, ht, hid⟩ := known
  obtain ⟨t', ht', follows⟩ := (step_advances h).tasks t ht
  exact ⟨t', ht', follows.taskId.trans hid⟩

theorem eligible_step (inv : QuorumInv past w) (h : step w a = some w') {r : Response}
    (hr : r ∈ w.store.responses) {t' : HumanTask} (ht' : t' ∈ w'.store.tasks)
    (hid : t'.taskId = r.taskId) :
    Eligible (past ++ [⟨w, a, w'⟩]) t'.taskId t'.spec r.authority := by
  obtain ⟨t, ht, htid, follows⟩ := inv.follows h (inv.known r hr) ht' hid
  rw [follows.taskId, follows.spec]
  exact (inv.eligible r hr t ht htid).mono _

theorem grants_step (inv : QuorumInv past w) (h : step w a = some w') {d : Delegation}
    (hd : d ∈ w.store.delegations) {t' : HumanTask} (ht' : t' ∈ w'.store.tasks)
    (hid : t'.taskId = d.taskId) :
    Eligible (past ++ [⟨w, a, w'⟩]) t'.taskId t'.spec d.principal := by
  obtain ⟨t, ht, htid, follows⟩ := inv.follows h (inv.knownGrants d hd) ht' hid
  rw [follows.taskId, follows.spec]
  exact (inv.grants d hd t ht htid).mono _

theorem short_step (inv : QuorumInv past w) (h : step w a = some w') {t' : HumanTask}
    (ht' : t' ∈ w'.store.tasks)
    (same : responsesOf w'.store t'.taskId = responsesOf w.store t'.taskId)
    (isOpen : t'.status = .open) (answered : responsesOf w'.store t'.taskId ≠ []) :
    ((authoritiesOf (responsesOf w'.store t'.taskId)).length : ℤ) < t'.spec.quorumRequired := by
  rw [same] at answered ⊢
  obtain ⟨r, hr⟩ := List.exists_mem_of_ne_nil _ answered
  obtain ⟨hmem, hrid⟩ := mem_responsesOf.mp hr
  obtain ⟨t, ht, htid, follows⟩ := inv.follows h (inv.known r hmem) ht' hrid.symm
  have wasOpen : t.status = .open := by
    by_contra closed
    exact closed ((follows.closed closed).symm.trans isOpen)
  rw [follows.taskId] at answered ⊢
  rw [follows.spec]
  exact inv.short t ht wasOpen answered

theorem step_quiet (inv : QuorumInv past w) (h : step w a = some w')
    (responses : w'.store.responses = w.store.responses)
    (delegations : w'.store.delegations = w.store.delegations) :
    QuorumInv (past ++ [⟨w, a, w'⟩]) w' := by
  have same : ∀ taskId, responsesOf w'.store taskId = responsesOf w.store taskId := by
    intro taskId
    rw [responsesOf, responses]
    rfl
  constructor
  · rw [delegations]
    exact inv.namedGrants
  · rw [responses]
    exact inv.named
  · rw [responses]
    exact inv.distinct
  · intro t' ht' isOpen answered
    exact inv.short_step h ht' (same t'.taskId) isOpen answered
  · rw [responses]
    exact fun r hr => known_step h (inv.known r hr)
  · rw [delegations]
    exact fun d hd => known_step h (inv.knownGrants d hd)
  · rw [delegations]
    exact fun d hd t' ht' hid => inv.grants_step h hd ht' hid
  · rw [responses]
    exact fun r hr t' ht' hid => inv.eligible_step h hr ht' hid

theorem step_granted (inv : QuorumInv past w) {taskId delegateSubject : String}
    {principal grantedBy : Identity} {task : HumanTask}
    (h : step w (.grantTaskDelegation taskId principal delegateSubject grantedBy) = some w')
    (row : w.store.tasks.get? taskId = some task)
    (eligible : checkEligible task.spec principal = .ok ())
    (tasks : w'.store.tasks = w.store.tasks) (responses : w'.store.responses = w.store.responses)
    (delegations : w'.store.delegations = w.store.delegations.insertNew
      ⟨taskId, principal.subject, delegateSubject, grantedBy.subject⟩) :
    QuorumInv (past ++ [⟨w, .grantTaskDelegation taskId principal delegateSubject grantedBy, w'⟩])
      w' := by
  obtain ⟨hmem, rfl⟩ := Table.get?_eq_some.mp row
  have same : ∀ taskId, responsesOf w'.store taskId = responsesOf w.store taskId := by
    intro taskId
    rw [responsesOf, responses]
    rfl
  have either {P : Delegation → Prop} (old : ∀ d ∈ w.store.delegations, P d)
      (new : P ⟨task.taskId, principal.subject, delegateSubject, grantedBy.subject⟩) :
      ∀ d ∈ w'.store.delegations, P d := by
    rw [delegations]
    intro d hd
    rcases Table.mem_insertNew.mp hd with hold | ⟨rfl, -⟩
    · exact old d hold
    · exact new
  constructor
  · exact either inv.namedGrants principal.subject_named
  · rw [responses]
    exact inv.named
  · rw [responses]
    exact inv.distinct
  · intro t' ht' isOpen answered
    exact inv.short_step h ht' (same t'.taskId) isOpen answered
  · rw [responses]
    exact fun r hr => known_step h (inv.known r hr)
  · exact either (fun d hd => known_step h (inv.knownGrants d hd)) ⟨task, tasks ▸ hmem, rfl⟩
  · refine either (fun d hd t' ht' hid => inv.grants_step h hd ht' hid) ?_
    intro t' ht' hid
    obtain rfl := Table.eq_of_key_eq (tasks ▸ ht') hmem hid
    exact ⟨principal, rfl, eligible, _, List.mem_append_right _ (List.mem_singleton_self _),
      Or.inl ⟨delegateSubject, grantedBy, rfl⟩⟩
  · rw [responses]
    exact fun r hr t' ht' hid => inv.eligible_step h hr ht' hid

theorem admitted_eligible (inv : QuorumInv past w) {signal : Signal} {timerId : String}
    {task : HumanTask} {authority : String}
    (admitted : Admitted w.store signal task authority) :
    Eligible (past ++ [⟨w, .submitHumanSignal signal timerId, w'⟩]) task.taskId task.spec
      authority := by
  obtain ⟨hmem, hid⟩ := Table.get?_eq_some.mp admitted.row
  rw [admitted.authority_eq]
  rcases admitted.eligible with ⟨principal, grant, hprincipal, hgrant, hgrantTask, rfl⟩ | ⟨own, ok⟩
  · rw [hprincipal]
    exact (inv.grants grant hgrant task hmem hgrantTask.symm).mono _
  · rw [own]
    exact ⟨signal.actor, rfl, ok, _, List.mem_append_right _ (List.mem_singleton_self _),
      Or.inr ⟨signal, timerId, rfl, hid.symm, rfl, own⟩⟩

theorem recorded_rows (inv : QuorumInv past w) {signal : Signal} {task : HumanTask}
    {authority : String} (admitted : Admitted w.store signal task authority) :
    let s := (recordResponse w.store signal authority).1
    (∀ r ∈ s.responses, r.onBehalfOf ≠ some "") ∧
    (∀ r ∈ s.responses, ∀ r' ∈ s.responses, r.taskId = r'.taskId → r.authority = r'.authority →
      r = r') ∧
    ∀ r ∈ s.responses, r ∈ w.store.responses ∨ r = signal.row w.store.globalSeq := by
  dsimp only
  have same {s : Store} (responses : s.responses = w.store.responses) :
      (∀ r ∈ s.responses, r.onBehalfOf ≠ some "") ∧
      (∀ r ∈ s.responses, ∀ r' ∈ s.responses, r.taskId = r'.taskId → r.authority = r'.authority →
        r = r') ∧
      ∀ r ∈ s.responses, r ∈ w.store.responses ∨ r = signal.row w.store.globalSeq := by
    rw [responses]
    exact ⟨inv.named, inv.distinct, fun r => Or.inl⟩
  have hrecorded := recordResponse_recorded w.store signal authority
  generalize recordResponse w.store signal authority = recorded at hrecorded ⊢
  cases hrecorded with
  | again there => exact same rfl
  | dropped new taken s' responses => exact same responses
  | added new free s' rows =>
      have apart : ∀ r ∈ w.store.responses, r.taskId = signal.taskId →
          r.authority ≠ (signal.row w.store.globalSeq).authority := by
        intro r hr htask hauthority
        rw [Signal.row_authority, ← admitted.authority_eq] at hauthority
        exact new (mem_authorities.mpr ⟨r, mem_responsesOf.mpr ⟨hr, htask⟩, hauthority⟩)
      refine ⟨fun r hr => ?_, fun r hr r' hr' htask hauthority => ?_, fun r => (mem_added rows).mp⟩
      · rcases (mem_added rows).mp hr with old | rfl
        · exact inv.named r old
        · intro empty
          rcases admitted.eligible with ⟨principal, grant, hprincipal, hgrant, -, rfl⟩ | ⟨own, -⟩
          · have given := inv.namedGrants grant hgrant
            exact given (Option.some.inj (hprincipal.symm.trans empty))
          · have none : signal.onBehalfOf = some "" := empty
            rw [own] at none
            cases none
      · rcases (mem_added rows).mp hr with old | rfl <;>
          rcases (mem_added rows).mp hr' with old' | rfl
        · exact inv.distinct r old r' old' htask hauthority
        · exact absurd hauthority (apart r old htask)
        · exact absurd hauthority.symm (apart r' old' htask.symm)
        · rfl

theorem step_decided (inv : QuorumInv past w) {signal : Signal} {timerId : String}
    {task : HumanTask} {authority : String} {status : TaskStatus} {quorumMet : Bool}
    (h : step w (.submitHumanSignal signal timerId) = some w')
    (admits : screenSignal w.store signal = .ok (.inr (task, authority)))
    (settled : Settled (recordResponse w.store signal authority).1 task timerId w.now w'.store
      status quorumMet) :
    QuorumInv (past ++ [⟨w, .submitHumanSignal signal timerId, w'⟩]) w' := by
  have admitted := admit_admitted admits
  obtain ⟨hmem, hid⟩ := Table.get?_eq_some.mp admitted.row
  obtain ⟨tasks, -, grants, -⟩ := recordResponse_same w.store signal authority
  obtain ⟨responses, delegations⟩ := settled.records
  obtain ⟨named, distinct, rows⟩ := inv.recorded_rows admitted
  rw [← responses] at named distinct rows
  rw [grants] at delegations
  refine ⟨delegations ▸ inv.namedGrants, named, distinct, ?_, fun r hr => ?_,
    fun d hd => known_step h (inv.knownGrants d (delegations ▸ hd)),
    fun d hd t' ht' htid => inv.grants_step h (delegations ▸ hd) ht' htid,
    fun r hr t' ht' htid => ?_⟩
  · intro t' ht' isOpen answered
    by_cases hother : t'.taskId = task.taskId
    · -- its quorum is what has just been decided
      have decided : ∀ (s : Store) (st : TaskStatus), st ≠ .open →
          t' ∈ (setTaskStatus s task.taskId st).tasks → False := by
        intro s st closed hset
        obtain ⟨t, ht, rfl⟩ := mem_setTaskStatus.mp hset
        split at isOpen
        · exact closed isOpen
        · next hne => simp [hne] at hother
      generalize w'.store = s' at settled ht' ⊢
      cases settled with
      | pending short =>
          rw [tasks] at ht'
          obtain rfl := Table.eq_of_key_eq ht' hmem hother
          exact short
      | answered enough agreed => exact (decided _ .answered (by simp) ht').elim
      | conflict aggregate aggregateId timers enough scheduled =>
          exact (decided _ .conflict (by simp) ht').elim
    · refine inv.short_step h ht' ?_ isOpen answered
      rw [responsesOf, responses, ← responsesOf]
      have hrecorded := recordResponse_recorded w.store signal authority
      generalize recordResponse w.store signal authority = recorded at hrecorded ⊢
      cases hrecorded with
      | again there => rfl
      | dropped new taken s' same =>
          rw [responsesOf, same]
          rfl
      | added new free s' rows =>
          have hne : signal.taskId ≠ t'.taskId := fun heq => hother (heq.symm.trans hid.symm)
          simp [responsesOf_added rows, hne]
  · rcases rows r hr with old | rfl
    · exact known_step h (inv.known r old)
    · exact known_step h ⟨task, hmem, hid⟩
  · rcases rows r hr with old | rfl
    · exact inv.eligible_step h old ht' htid
    · have follows := (step_advances h).follows hmem ht' (htid.trans hid.symm)
      rw [follows.taskId, follows.spec, Signal.row_authority, ← admitted.authority_eq]
      exact inv.admitted_eligible admitted

theorem step (inv : QuorumInv past w) (h : Gates.step w a = some w') :
    QuorumInv (past ++ [⟨w, a, w'⟩]) w' := by
  cases step_effect h with
  | quiet responses delegations status => exact inv.step_quiet h responses delegations
  | granted taskId principal grantedBy delegateSubject action task row eligible tasks responses
      delegations =>
      subst action
      exact inv.step_granted h row eligible tasks responses delegations
  | submitted signal timerId result action submitted =>
      subst action
      generalize hs : w'.store = s' at submitted
      cases submitted with
      | early _ uncounted =>
          exact inv.step_quiet h (congrArg Store.responses hs) (congrArg Store.delegations hs)
      | decided task authority _ status quorumMet admits settled =>
          subst hs
          exact inv.step_decided h admits settled

theorem agreed (inv : QuorumInv past w) {taskId : String}
    (h : ((authoritiesOf (responsesOf w.store taskId)).map (·.2)).dedup.length = 1) :
    ∃ response, ∀ r ∈ responsesOf w.store taskId, r.response = response := by
  obtain ⟨response, hdedup⟩ := List.length_eq_one_iff.mp h
  refine ⟨response, fun r hr => ?_⟩
  have hmem : r.response ∈ ((authoritiesOf (responsesOf w.store taskId)).map (·.2)).dedup := by
    rw [List.mem_dedup, inv.authoritiesOf_responses, List.map_map]
    exact List.mem_map_of_mem hr
  rw [hdedup] at hmem
  exact List.mem_singleton.mp hmem

theorem answered_sound (inv : QuorumInv past w) (h : Gates.step w a = some w') {t t' : HumanTask}
    (ht : t ∈ w.store.tasks) (ht' : t' ∈ w'.store.tasks) (hid : t'.taskId = t.taskId)
    (before : t.status ≠ .answered) (after : t'.status = .answered) :
    t.spec.quorumRequired ≤ (authorities w'.store t.taskId).card ∧
      (∃ response, ∀ r ∈ responsesOf w'.store t.taskId, r.response = response) ∧
      ∀ authority ∈ authorities w'.store t.taskId,
        Eligible (past ++ [⟨w, a, w'⟩]) t.taskId t.spec authority := by
  have inv' := inv.step h
  have unchanged (tasks : w'.store.tasks = w.store.tasks) : False := by
    rw [tasks] at ht'
    obtain rfl := Table.eq_of_key_eq ht' ht hid
    exact before after
  cases step_effect h with
  | quiet responses delegations status =>
      obtain ⟨t₀, ht₀, hid₀, hstatus⟩ := status t' ht' (Or.inl after)
      obtain rfl := Table.eq_of_key_eq ht₀ ht (hid₀.trans hid)
      exact absurd (hstatus.trans after) before
  | granted _ _ _ _ _ _ _ _ tasks _ _ => exact (unchanged tasks).elim
  | submitted signal timerId result action submitted =>
      have eligible : ∀ authority ∈ authorities w'.store t.taskId,
          Eligible (past ++ [⟨w, a, w'⟩]) t.taskId t.spec authority := by
        intro authority hauthority
        obtain ⟨r, hr, rfl⟩ := mem_authorities.mp hauthority
        obtain ⟨hmem, hrid⟩ := mem_responsesOf.mp hr
        have follows := (step_advances h).follows ht ht' hid
        have holds := inv'.eligible r hmem t' ht' (hid.trans hrid.symm)
        rwa [follows.taskId, follows.spec] at holds
      generalize hs : w'.store = s' at submitted
      cases submitted with
      | early _ uncounted => exact (unchanged (congrArg Store.tasks hs)).elim
      | decided task authority _ status quorumMet admits settled =>
          have admitted := admit_admitted admits
          obtain ⟨tasks, -⟩ := recordResponse_same w.store signal authority
          obtain ⟨responses, -⟩ := settled.records
          have same : authoritiesOf (responsesOf w'.store task.taskId) = authoritiesOf
              (responsesOf (recordResponse w.store signal authority).1 task.taskId) := by
            rw [responsesOf, hs, responses]
            rfl
          have card := inv'.card_authorities task.taskId
          rw [hs] at ht'
          cases settled with
          | pending short => exact (unchanged ((congrArg Store.tasks hs).trans tasks)).elim
          | answered enough agreed =>
              obtain ⟨x, hx, rfl⟩ := mem_setTaskStatus.mp ht'
              rw [tasks] at hx
              by_cases hne : x.taskId = task.taskId
              · obtain rfl := Table.eq_of_key_eq hx (Table.mem_of_get? admitted.row) hne
                simp only [if_true, HumanTask.withStatus] at hid
                obtain rfl := Table.eq_of_key_eq hx ht hid
                rw [← same] at enough agreed
                rw [← hs]
                exact ⟨by rw [card]; exact enough, inv'.agreed agreed, eligible⟩
              · simp only [hne, if_false] at hid after
                obtain rfl := Table.eq_of_key_eq hx ht hid
                exact absurd after before
          | conflict aggregate aggregateId timers enough scheduled =>
              obtain ⟨x, hx, rfl⟩ := mem_setTaskStatus.mp ht'
              rw [tasks] at hx
              by_cases hne : x.taskId = task.taskId
              · simp [hne, HumanTask.withStatus] at after
              · simp only [hne, if_false] at hid after
                obtain rfl := Table.eq_of_key_eq hx ht hid
                exact absurd after before

theorem of_returns (h : Gates.step w a = some w') {signal : Signal} {result : SignalResult}
    (returns : Returns ⟨w, a, w'⟩ signal result) :
    ∃ timerId, a = .submitHumanSignal signal timerId ∧
      Submitted w.store signal timerId w.now w'.store result := by
  obtain ⟨timerId, s', action, hcall⟩ := returns
  dsimp only at action hcall
  subst action
  simp only [Gates.step, hcall, Except.map, committed, Option.some.injEq] at h
  subst h
  exact ⟨timerId, rfl, submitHumanSignal_submitted hcall⟩

theorem sound_of_answersOnce (inv : QuorumInv past w) (h : Gates.step w a = some w')
    (once : AnswersOnce w a) : QuorumSound past ⟨w, a, w'⟩ := by
  have recorded {signal : Signal} {result : SignalResult}
      (returns : Returns ⟨w, a, w'⟩ signal result) :
      (result.counted = false ∧
        authorities w'.store signal.taskId = authorities w.store signal.taskId) ∨
      (result.counted = true ∧ ∃ authority, authority ∉ authorities w.store signal.taskId ∧
        authority = signal.onBehalfOf.getD signal.actor.subject ∧
        responsesOf w'.store signal.taskId =
          responsesOf w.store signal.taskId ++ [signal.row w.store.globalSeq]) := by
    obtain ⟨timerId, rfl, submitted⟩ := of_returns h returns
    generalize w'.store = s' at submitted ⊢
    cases submitted with
    | early _ uncounted => exact Or.inl ⟨uncounted, rfl⟩
    | decided task authority _ status quorumMet admits settled =>
        obtain ⟨responses, -⟩ := settled.records
        have free := once task authority admits
        have hrecorded := recordResponse_recorded w.store signal authority
        rw [authorities, responsesOf, responses, ← responsesOf, ← authorities]
        generalize recordResponse w.store signal authority = recorded at hrecorded responses ⊢
        cases hrecorded with
        | again there => exact Or.inl ⟨rfl, rfl⟩
        | dropped new taken s' same =>
            obtain ⟨r, hr, hsubject⟩ := taken
            exact absurd hsubject (free new r hr)
        | added new _ s' rows =>
            have last := responsesOf_added rows signal.taskId
            rw [if_pos rfl] at last
            exact Or.inr ⟨rfl, authority, new, (admit_admitted admits).authority_eq, last⟩
  constructor
  · intro signal result returns
    rcases recorded returns with ⟨uncounted, same⟩ | ⟨counted, authority, new, heq, last⟩
    · simp [uncounted, same]
    · have grown : authorities w'.store signal.taskId =
          insert authority (authorities w.store signal.taskId) := by
        rw [authorities, last, List.map_append, List.toFinset_append, ← authorities,
          List.map_singleton, Signal.row_authority, ← heq, Finset.union_comm]
        rfl
      simp [counted, grown, Finset.card_insert_of_notMem new]
  · intro signal result returns hcounted
    rcases recorded returns with ⟨uncounted, -⟩ | ⟨-, authority, new, heq, last⟩
    · rw [hcounted] at uncounted
      cases uncounted
    · refine ⟨signal.row w.store.globalSeq, ?_, rfl, rfl⟩
      rw [last]
      exact List.mem_append_right _ (List.mem_singleton_self _)
  · intro t ht t' ht' hid before after
    exact inv.answered_sound h ht ht' hid before after

theorem settleQuorum_of_short {s : Store} {task : HumanTask} {timerId : String} {clock : Instant}
    (short : ((authoritiesOf (responsesOf s task.taskId)).length : ℤ) < task.spec.quorumRequired) :
    settleQuorum s task timerId clock = .ok (s, task.status, false) := by
  rw [settleQuorum]
  exact if_pos short

theorem answersOnce_of_sound (inv : QuorumInv past w) (h : Gates.step w a = some w')
    (sound : QuorumSound past ⟨w, a, w'⟩) : AnswersOnce w a := by
  cases a with
  | submitHumanSignal signal timerId =>
      intro task authority admits new r hr hsubject
      have admitted := admit_admitted admits
      obtain ⟨hmem, hid⟩ := Table.get?_eq_some.mp admitted.row
      -- the insert does nothing, so the quorum is as short as it was
      have answered : responsesOf w.store task.taskId ≠ [] := by
        rw [hid]
        exact List.ne_nil_of_mem hr
      have short := inv.short task hmem admitted.isOpen answered
      have hrecorded := recordResponse_recorded w.store signal authority
      generalize hcall : recordResponse w.store signal authority = recorded at hrecorded
      cases hrecorded with
      | again there => exact new there
      | added _ free s' rows => exact free r hr hsubject
      | dropped _ taken s' responses =>
          have same : responsesOf s' task.taskId = responsesOf w.store task.taskId := by
            rw [responsesOf, responses]
            rfl
          rw [← same] at short
          have returned : submitHumanSignal w.store signal timerId w.now =
              .ok (s', ⟨signal.taskId, task.status, true, false⟩) := by
            simp only [submitHumanSignal, admits, hcall]
            rw [settleQuorum_of_short short]
          have returns : Returns ⟨w, .submitHumanSignal signal timerId, w'⟩ signal
              ⟨signal.taskId, task.status, true, false⟩ := ⟨timerId, s', rfl, returned⟩
          have grown := (sound.counted signal _ returns).mp rfl
          simp only [Gates.step, returned, Except.map, committed, Option.some.injEq] at h
          subst h
          simp [authorities_congr responses] at grown
  | _ => trivial

end QuorumInv

theorem quorumInv_of_exec {w₀ w : World} {as : List Action} (start : Init w₀)
    (run : Transition.exec step w₀ as = some w) : QuorumInv (Transition.history step w₀ as) w :=
  Transition.exec_history_induction (QuorumInv.init start) (fun _ _ _ _ inv h => inv.step h) run

/-- The quorums of a run are sound exactly when no actor answers for a new
    authority on a task it has answered before. -/
theorem quorum_sound_iff {w₀ : World} {as : List Action} (start : Init w₀) :
    (∀ past m rest, Transition.history step w₀ as = past ++ m :: rest → QuorumSound past m) ↔
      Transition.Along step AnswersOnce w₀ as := by
  have inv {past rest : List GateMove} {m : GateMove}
      (hsplit : Transition.history step w₀ as = past ++ m :: rest) :
      QuorumInv past m.before ∧ step m.before m.action = some m.after := by
    have mem : m ∈ Transition.history step w₀ as := by simp [hsplit]
    obtain ⟨pre, post, -, hpre, rfl, -⟩ := Transition.exists_split_of_history_eq hsplit
    exact ⟨quorumInv_of_exec start hpre, Transition.step_of_mem_history mem⟩
  constructor
  · intro sound m hm
    obtain ⟨past, rest, hsplit⟩ := List.append_of_mem hm
    obtain ⟨before, hstep⟩ := inv hsplit
    exact before.answersOnce_of_sound hstep (sound past m rest hsplit)
  · intro once past m rest hsplit
    obtain ⟨before, hstep⟩ := inv hsplit
    exact before.sound_of_answersOnce hstep (once m (by simp [hsplit]))

def emptyStore : Store where
  tasks := Table.empty
  responses := Table.empty
  delegations := Table.empty
  timers := Timers.empty
  queue := ⟨Table.empty, 1⟩
  runEvents := []
  globalSeq := 1

def emptyWorld : World := ⟨0, emptyStore⟩

def person (subject : String) (roleClaims : List String) (named : subject ≠ "") : Identity where
  subject := subject
  actorKind := "human"
  authenticated := true
  authMethod := "oidc"
  roleClaims := roleClaims
  groups := []
  attestation := none
  subject_named := named

def alice : Identity := person "user:alice" ["data_owner"] (by decide)
def bob : Identity := person "user:bob" ["data_owner"] (by decide)
def assistant : Identity := person "user:assistant" ["intern"] (by decide)

/-- Two data owners have to agree. -/
def stewardSpec : GateTaskSpec where
  gate := .dataSteward
  requiredInputs := []
  eligibleAssignees := [("role", "data_owner")]
  allowedResponses := ["confirm", "reject"]
  runId := some "run-1"
  featureId := none
  quorumRequired := 2
  quorumOfRole := none
  delegationAllowed := true
  sla := none
  factKey := none
  draftEventId := none
  targetEventId := none
  evidenceRef := none

def answer (actor : Identity) (onBehalfOf : Option String) : Signal :=
  ⟨"task-1", "confirm", actor, 1, onBehalfOf⟩

/-- Both owners delegate to one assistant, who confirms for Alice. -/
def delegated : List Action :=
  [.openTask stewardSpec "task-1" [],
    .grantTaskDelegation "task-1" alice "user:assistant" alice,
    .grantTaskDelegation "task-1" bob "user:assistant" bob,
    .submitHumanSignal (answer assistant (some "user:alice")) "tmr-1"]

def forBob : Signal := answer assistant (some "user:bob")

theorem quorum_counts_unrecorded_answer :
    ∃ w w', Init emptyWorld ∧ Transition.exec step emptyWorld delegated = some w ∧
      step w (.submitHumanSignal forBob "tmr-2") = some w' ∧
      Returns ⟨w, .submitHumanSignal forBob "tmr-2", w'⟩ forBob ⟨"task-1", .open, true, false⟩ ∧
      (responsesOf w'.store "task-1").map Response.authority = ["user:alice"] ∧
      ¬ ∀ past m rest, Transition.history step emptyWorld
          (delegated ++ [.submitHumanSignal forBob "tmr-2"]) = past ++ m :: rest →
        QuorumSound past m := by
  have computed : ((Transition.exec step emptyWorld delegated).any fun w =>
      decide ((responsesOf w.store "task-1").map Response.authority = ["user:alice"]) &&
      match submitHumanSignal w.store forBob "tmr-2" w.now with
      | .error _ => false
      | .ok (s', result) => decide (result = ⟨"task-1", .open, true, false⟩ ∧
          (responsesOf s' "task-1").map Response.authority = ["user:alice"])) = true := by
    decide +kernel
  obtain ⟨w, run, hcomputed⟩ := Option.any_eq_true _ _ |>.mp computed
  rw [Bool.and_eq_true, decide_eq_true_eq] at hcomputed
  obtain ⟨before, hcall⟩ := hcomputed
  split at hcall
  · cases hcall
  · next s' result hsubmit =>
      obtain ⟨rfl, after⟩ := of_decide_eq_true hcall
      have hstep : step w (.submitHumanSignal forBob "tmr-2") = some { w with store := s' } := by
        simp [step, hsubmit, Except.map, committed]
      have returns : Returns ⟨w, .submitHumanSignal forBob "tmr-2", { w with store := s' }⟩ forBob
          ⟨"task-1", .open, true, false⟩ := ⟨"tmr-2", s', rfl, hsubmit⟩
      refine ⟨w, _, ⟨rfl, rfl⟩, run, hstep, returns, after, fun sound => ?_⟩
      have last := sound (Transition.history step emptyWorld delegated) _ []
        (by rw [Transition.history_append run, Transition.history_cons hstep]; rfl)
      have grown : (authorities s' "task-1").card = (authorities w.store "task-1").card + 1 :=
        (last.counted forBob _ returns).mp rfl
      have same : (authorities s' "task-1").card = (authorities w.store "task-1").card := by
        rw [authorities, authorities, before, after]
      omega

/-- The assistant confirms for Alice, and Bob himself. -/
def agreeing : List Action :=
  delegated ++ [.submitHumanSignal (answer bob none) "tmr-2"]

theorem quorum_sound_iff_agreeing :
    ∃ w, Transition.exec step emptyWorld agreeing = some w ∧
      w.store.tasks.rows.map (·.status) = [.answered] ∧
      ((∀ past m rest, Transition.history step emptyWorld agreeing = past ++ m :: rest →
          QuorumSound past m) ↔ Transition.Along step AnswersOnce emptyWorld agreeing) := by
  have computed : ((Transition.exec step emptyWorld agreeing).any fun w =>
      decide (w.store.tasks.rows.map (·.status) = [.answered])) = true := by
    decide +kernel
  obtain ⟨w, run, status⟩ := Option.any_eq_true _ _ |>.mp computed
  exact ⟨w, run, of_decide_eq_true status, quorum_sound_iff ⟨rfl, rfl⟩⟩

end FeatureGen.Gates
