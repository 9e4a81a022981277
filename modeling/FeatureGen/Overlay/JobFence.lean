import Mathlib
import FeatureGen.Overlay.CodeGenerationJobs

/-! # What a job's fence refuses

A claim raises its job's fence, and nothing reads it. What protects a job from
the worker of an earlier claim is left to each write: an advance names the
status it moves from, and the other writes name nothing.
-/

namespace FeatureGen.CodeGenerationJobs

open FeatureGen.Runtime

abbrev JobMove := Transition.Move World Action

/-- What a claim is meant to protect of its job's row. -/
def CodeGenJob.guarded (r : CodeGenJob) :
    JobStatusV1 × Option String × Option Instant × ℕ :=
  (r.status, r.leaseOwner, r.leaseExpiresAt, r.leaseFence)

/-- The job's status, lease, members and action rows are as they were. -/
structure Unchanged (s s' : JobStore) (jobId : String) : Prop where
  job : (s'.jobs.get? jobId).map CodeGenJob.guarded =
    (s.jobs.get? jobId).map CodeGenJob.guarded
  members : ∀ position, s'.members.get? (jobId, position) = s.members.get? (jobId, position)
  actions : ∀ action, s'.actions.get? (jobId, action) = s.actions.get? (jobId, action)

def OneLive (s : JobStore) : Prop :=
  ∀ r ∈ s.jobs, ∀ r' ∈ s.jobs, r.contentIdentityHash = r'.contentIdentityHash →
    r.status.holdsSlot = true → r'.status.holdsSlot = true → r = r'

def Current (s : JobStore) (c : JobClaim) : Prop :=
  ∃ r ∈ s.jobs, r.jobId = c.jobId ∧ r.leaseFence = c.fence

/-- What holds of a move and of the state it leaves. -/
structure Fenced (m : JobMove) : Prop where
  oneLive : OneLive m.after.store
  /-- A job stays, and its status moves along the lifecycle. -/
  lifecycle : ∀ r ∈ m.before.store.jobs, ∃ r' ∈ m.after.store.jobs, r'.jobId = r.jobId ∧
    (r'.status = r.status ∨ r.status.isTerminal = false ∧ r.status.moves r'.status = true)
  /-- One claim is the latest of its job. -/
  sole : ∀ c ∈ m.after.claims, ∀ c' ∈ m.after.claims, c.jobId = c'.jobId →
    Current m.after.store c → Current m.after.store c' → c = c'
  /-- What is done for an earlier claim leaves the job alone. -/
  zombie : ∀ c jobId operation, m.action = .operate (some c) jobId operation →
    ¬ Current m.before.store c → Unchanged m.before.store m.after.store jobId

/-- The columns are what the update sets already. -/
structure MemberUpdate.Written (u : MemberUpdate) (r : CodeGenMember) : Prop where
  state : r.memberState = u.state
  formulaDraftId : ∀ id ∈ u.formulaDraftId, r.formulaDraftId = some id
  selectionFormulaBindingId : ∀ id ∈ u.selectionFormulaBindingId,
    r.selectionFormulaBindingId = some id
  blockers : r.blockers = u.blockers

structure ActionUpdate.Written (u : ActionUpdate) (r : JobAction) : Prop where
  resourceIdentityHash : ∀ hash ∈ u.resourceIdentityHash, r.resourceIdentityHash = some hash
  authorizationRevisionId : ∀ id ∈ u.authorizationRevisionId, r.authorizationRevisionId = some id
  decisionRevisionId : ∀ id ∈ u.decisionRevisionId, r.decisionRevisionId = some id
  state : r.state = u.state

def Harmless (s : JobStore) (jobId : String) : JobOperation → Prop
  | .releaseJob => ∀ r ∈ s.jobs, r.jobId = jobId → r.leaseOwner = none ∧ r.leaseExpiresAt = none
  | .advanceJob fromStatus toStatus terminalDetail =>
      checkMove fromStatus toStatus terminalDetail = .ok () →
        ∀ r ∈ s.jobs, r.jobId = jobId → r.status ≠ fromStatus
  | .updateMember position u =>
      u.wellFormed = true → ∀ r ∈ s.members, r.key = (jobId, position) → u.Written r
  | .recordJobAction action u => ∀ r ∈ s.actions, r.key = (jobId, action) → u.Written r

section Operations

variable {s s' : JobStore} {jobId : String}

theorem coalesce_eq {α : Type} {new old : Option α} :
    new.or old = old ↔ ∀ a ∈ new, old = some a := by
  cases new with
  | none => simp
  | some a => simp [eq_comm]

theorem MemberUpdate.apply_eq {u : MemberUpdate} {r : CodeGenMember} :
    u.apply r = r ↔ u.Written r := by
  obtain ⟨_, _, _, _, _, _, _, state, draft, binding, blockers⟩ := r
  simp only [MemberUpdate.apply, CodeGenMember.mk.injEq, true_and, coalesce_eq]
  constructor
  · rintro ⟨hstate, hdraft, hbinding, hblockers⟩
    exact ⟨hstate.symm, hdraft, hbinding, hblockers.symm⟩
  · intro written
    exact ⟨written.state.symm, written.formulaDraftId, written.selectionFormulaBindingId,
      written.blockers.symm⟩

theorem ActionUpdate.apply_eq {u : ActionUpdate} {r : JobAction} :
    u.apply r = r ↔ u.Written r := by
  obtain ⟨_, _, hash, authorization, decision, state⟩ := r
  simp only [ActionUpdate.apply, JobAction.mk.injEq, true_and, coalesce_eq]
  constructor
  · rintro ⟨hhash, hauthorization, hdecision, hstate⟩
    exact ⟨hhash, hauthorization, hdecision, hstate.symm⟩
  · intro written
    exact ⟨written.resourceIdentityHash, written.authorizationRevisionId,
      written.decisionRevisionId, written.state.symm⟩

theorem map_get?_updated {ρ κ α : Type} [DecidableEq κ] {key : ρ → κ} {t : Table key} {k : κ}
    {f : ρ → ρ} {hf : ∀ r, key (f r) = key r} (g : ρ → α) :
    ((t.update k f hf).get? k).map g = (t.get? k).map g ↔
      ∀ r ∈ t, key r = k → g (f r) = g r := by
  rw [Table.get?_update, if_pos rfl]
  constructor
  · intro same r hr hk
    rw [Table.get?_eq_some.mpr ⟨hr, hk⟩] at same
    exact Option.some.inj same
  · intro fixed
    cases hget : t.get? k with
    | none => rfl
    | some r =>
        obtain ⟨hr, hk⟩ := Table.get?_eq_some.mp hget
        rw [Option.map_some, Option.map_some, Option.map_some, fixed r hr hk]

theorem get?_updated {ρ κ : Type} [DecidableEq κ] {key : ρ → κ} {t : Table key} {k : κ}
    {f : ρ → ρ} {hf : ∀ r, key (f r) = key r} :
    (t.update k f hf).get? k = t.get? k ↔ ∀ r ∈ t, key r = k → f r = r := by
  simpa using @map_get?_updated ρ κ ρ _ key t k f hf id

theorem Unchanged.refl (s : JobStore) (jobId : String) : Unchanged s s jobId :=
  ⟨rfl, fun _ => rfl, fun _ => rfl⟩

theorem Unchanged.of_job {jobs : Table CodeGenJob.jobId} {events : List JobEvent} :
    Unchanged s ⟨jobs, s.members, s.actions, events⟩ jobId ↔
      (jobs.get? jobId).map CodeGenJob.guarded = (s.jobs.get? jobId).map CodeGenJob.guarded :=
  ⟨fun unchanged => unchanged.job, fun job => ⟨job, fun _ => rfl, fun _ => rfl⟩⟩

theorem unchanged_release : Unchanged s (releaseJob s jobId) jobId ↔
    ∀ r ∈ s.jobs, r.jobId = jobId → r.leaseOwner = none ∧ r.leaseExpiresAt = none := by
  have row := @map_get?_updated _ _ _ _ _ s.jobs jobId CodeGenJob.released
    CodeGenJob.released_jobId CodeGenJob.guarded
  refine Unchanged.of_job.trans (row.trans ?_)
  simp only [CodeGenJob.guarded, CodeGenJob.released, Prod.mk.injEq, true_and, and_true, eq_comm]

theorem moves_ne {fromStatus toStatus : JobStatusV1} (h : fromStatus.moves toStatus = true) :
    toStatus ≠ fromStatus := by
  revert h
  cases fromStatus <;> cases toStatus <;> decide

theorem checkMove_ok {fromStatus toStatus : JobStatusV1} {terminalDetail : Option Json}
    (h : checkMove fromStatus toStatus terminalDetail = .ok ()) :
    fromStatus.moves toStatus = true := by
  unfold checkMove at h
  split at h
  · cases h
  · next moves => simpa using moves

theorem unchanged_advance {fromStatus toStatus : JobStatusV1} {terminalDetail : Option Json} :
    Unchanged s (kept s (advanceJob s jobId fromStatus toStatus terminalDetail)) jobId ↔
      (checkMove fromStatus toStatus terminalDetail = .ok () →
        ∀ r ∈ s.jobs, r.jobId = jobId → r.status ≠ fromStatus) := by
  unfold advanceJob
  cases hcheck : checkMove fromStatus toStatus terminalDetail with
  | error error =>
      apply iff_of_true (Unchanged.refl s jobId)
      intro defined
      cases defined
  | ok =>
      dsimp only
      by_cases found : (s.jobs.get? jobId).any (fun r => r.status = fromStatus) = true
      · rw [if_pos found]
        obtain ⟨r, hget, hstatus⟩ := (Option.any_eq_true _ _).mp found
        obtain ⟨hr, hid⟩ := Table.get?_eq_some.mp hget
        have current : r.status = fromStatus := of_decide_eq_true hstatus
        apply iff_of_false
        · intro unchanged
          have row := (@map_get?_updated _ _ _ _ _ s.jobs jobId
            (CodeGenJob.advanced toStatus terminalDetail)
            (CodeGenJob.advanced_jobId toStatus terminalDetail) CodeGenJob.guarded).mp
              (Unchanged.of_job.mp unchanged) r hr hid
          have status : toStatus = r.status := congrArg Prod.fst row
          exact moves_ne (checkMove_ok hcheck) (status.trans current)
        · intro moved
          exact moved rfl r hr hid current
      · rw [if_neg found]
        apply iff_of_true (Unchanged.refl s jobId)
        intro _ r hr hid current
        apply found
        rw [Table.get?_eq_some.mpr ⟨hr, hid⟩]
        exact decide_eq_true current

theorem unchanged_member {position : ℕ} {u : MemberUpdate} :
    Unchanged s (kept s (updateMember s jobId position u)) jobId ↔
      (u.wellFormed = true → ∀ r ∈ s.members, r.key = (jobId, position) → u.Written r) := by
  unfold updateMember
  by_cases wellFormed : u.wellFormed = true
  · rw [if_pos wellFormed]
    have row := @get?_updated _ _ _ _ s.members (jobId, position) u.apply u.apply_key
    simp only [MemberUpdate.apply_eq] at row
    constructor
    · intro unchanged _
      exact row.mp (unchanged.members position)
    · intro written
      refine ⟨rfl, fun position' => ?_, fun _ => rfl⟩
      by_cases same : position' = position
      · subst same
        exact row.mpr (written wellFormed)
      · have other : (jobId, position) ≠ (jobId, position') := by
          simpa using Ne.symm same
        exact (@Table.get?_update _ _ _ _ s.members (jobId, position) (jobId, position') u.apply
          u.apply_key).trans (if_neg other)
  · rw [if_neg wellFormed]
    exact iff_of_true (Unchanged.refl s jobId) fun h => absurd h wellFormed

theorem unchanged_action {action : String} {u : ActionUpdate} :
    Unchanged s (recordJobAction s jobId action u) jobId ↔
      ∀ r ∈ s.actions, r.key = (jobId, action) → u.Written r := by
  have row := @get?_updated _ _ _ _ s.actions (jobId, action) u.apply u.apply_key
  simp only [ActionUpdate.apply_eq] at row
  constructor
  · intro unchanged
    exact row.mp (unchanged.actions action)
  · intro written
    refine ⟨rfl, fun _ => rfl, fun action' => ?_⟩
    by_cases same : action' = action
    · subst same
      exact row.mpr written
    · have other : (jobId, action) ≠ (jobId, action') := by
        simpa using Ne.symm same
      exact (@Table.get?_update _ _ _ _ s.actions (jobId, action) (jobId, action') u.apply
        u.apply_key).trans (if_neg other)

theorem unchanged_iff_harmless (operation : JobOperation) :
    Unchanged s (kept s (operation.run s jobId)) jobId ↔ Harmless s jobId operation := by
  cases operation with
  | releaseJob => exact unchanged_release
  | advanceJob fromStatus toStatus terminalDetail => exact unchanged_advance
  | updateMember position u => exact unchanged_member
  | recordJobAction action u => exact unchanged_action

end Operations

/-- What a call may make of a job's row. -/
structure Follows (r r' : CodeGenJob) : Prop where
  jobId : r'.jobId = r.jobId
  identity : r'.contentIdentityHash = r.contentIdentityHash
  status : r'.status = r.status ∨ r.status.isTerminal = false ∧ r.status.moves r'.status = true
  fence : r.leaseFence ≤ r'.leaseFence

theorem Follows.refl (r : CodeGenJob) : Follows r r := ⟨rfl, rfl, Or.inl rfl, le_rfl⟩

theorem Follows.holdsSlot {r r' : CodeGenJob} (h : Follows r r')
    (holds : r'.status.holdsSlot = true) : r.status.holdsSlot = true := by
  rcases h.status with same | ⟨live, -⟩
  · rw [← same]
    exact holds
  · revert live
    cases r.status <;> decide

/-- A call updates jobs along the lifecycle, and may add one whose slot is free. -/
structure JobsStep (s s' : JobStore) : Prop where
  stays : ∀ r ∈ s.jobs, ∃ r' ∈ s'.jobs, Follows r r'
  origin : ∀ r' ∈ s'.jobs, (∃ r ∈ s.jobs, Follows r r') ∨
    (∀ r ∈ s.jobs, r.status.holdsSlot = true → r.contentIdentityHash ≠ r'.contentIdentityHash) ∧
      ∀ x ∈ s'.jobs, x = r' ∨ x ∈ s.jobs

theorem JobsStep.same {s s' : JobStore} (jobs : s'.jobs = s.jobs) : JobsStep s s' := by
  constructor
  · intro r hr
    exact ⟨r, jobs ▸ hr, Follows.refl r⟩
  · intro r hr
    exact Or.inl ⟨r, jobs ▸ hr, Follows.refl r⟩

theorem JobsStep.updated {s s' : JobStore} {jobId : String} (f : CodeGenJob → CodeGenJob)
    (hf : ∀ r, (f r).jobId = r.jobId) (jobs : s'.jobs = s.jobs.update jobId f hf)
    (follows : ∀ r ∈ s.jobs, r.jobId = jobId → Follows r (f r)) : JobsStep s s' := by
  have step (r : CodeGenJob) (hr : r ∈ s.jobs) :
      Follows r (if r.jobId = jobId then f r else r) := by
    split
    · next hid => exact follows r hr hid
    · exact Follows.refl r
  constructor
  · intro r hr
    exact ⟨_, jobs ▸ Table.mem_update.mpr ⟨r, hr, rfl⟩, step r hr⟩
  · intro r' hr'
    rw [jobs, Table.mem_update] at hr'
    obtain ⟨r, hr, rfl⟩ := hr'
    exact Or.inl ⟨r, hr, step r hr⟩

theorem JobsStep.created {setup : Setup} {s : JobStore} {jobId : String} {request : JobRequest} :
    JobsStep s (kept s ((createJob setup.jcsSha256 setup.count s jobId request).map Prod.fst)) := by
  unfold createJob
  by_cases empty : request.members = []
  · rw [if_pos empty]
    exact JobsStep.same rfl
  rw [if_neg empty]
  by_cases twice : ¬ request.selections.Nodup
  · rw [if_pos twice]
    exact JobsStep.same rfl
  · rw [if_neg twice]
    dsimp only
    split
    · exact JobsStep.same rfl
    · next free =>
        split
        · next jobs members actions hjobs _ _ =>
            have added : ∀ r, r ∈ jobs ↔ r ∈ s.jobs ∨
                r = request.job jobId (jobContentIdentity setup.jcsSha256 request) :=
              fun r => Table.mem_insert? hjobs
            constructor
            · intro r hr
              exact ⟨r, (added r).mpr (Or.inl hr), Follows.refl r⟩
            · intro r' hr'
              rcases (added r').mp hr' with old | rfl
              · exact Or.inl ⟨r', old, Follows.refl r'⟩
              · right
                constructor
                · intro r hr holds same
                  have taken := List.find?_eq_none.mp free r hr
                  apply taken
                  simp only [decide_eq_true_eq]
                  exact ⟨same, holds⟩
                · intro x hx
                  exact ((added x).mp hx).symm
        · exact JobsStep.same rfl

theorem JobsStep.operated {s : JobStore} {jobId : String} (operation : JobOperation) :
    JobsStep s (kept s (operation.run s jobId)) := by
  cases operation with
  | releaseJob =>
      exact JobsStep.updated CodeGenJob.released CodeGenJob.released_jobId rfl
        fun r _ _ => ⟨rfl, rfl, Or.inl rfl, le_rfl⟩
  | advanceJob fromStatus toStatus terminalDetail =>
      simp only [JobOperation.run, advanceJob]
      cases hcheck : checkMove fromStatus toStatus terminalDetail with
      | error error => exact JobsStep.same rfl
      | ok =>
          dsimp only
          split
          · next found =>
              apply JobsStep.updated (CodeGenJob.advanced toStatus terminalDetail)
                (CodeGenJob.advanced_jobId toStatus terminalDetail) rfl
              intro r hr hid
              rw [Table.get?_eq_some.mpr ⟨hr, hid⟩] at found
              obtain rfl : r.status = fromStatus := of_decide_eq_true found
              have moves := checkMove_ok hcheck
              have live : r.status.isTerminal = false := by
                revert moves
                cases r.status <;> cases toStatus <;> decide
              exact ⟨rfl, rfl, Or.inr ⟨live, moves⟩, le_rfl⟩
          · exact JobsStep.same rfl
  | updateMember position u =>
      simp only [JobOperation.run, updateMember]
      split <;> exact JobsStep.same rfl
  | recordJobAction action u => exact JobsStep.same rfl

theorem claimDueJob_some {s : JobStore} {workerId jobId : String} {leaseSeconds : ℤ}
    {locked : List String} {now : Instant} {result : JobStore × CodeGenJob}
    (h : claimDueJob s workerId leaseSeconds jobId locked now = some result) :
    ∃ row ∈ s.jobs, row.jobId = jobId ∧ result.2 = row.claimed workerId leaseSeconds now ∧
      result.1 = { s with
        jobs := s.jobs.update jobId (CodeGenJob.claimed workerId leaseSeconds now)
          (CodeGenJob.claimed_jobId workerId leaseSeconds now) } := by
  unfold claimDueJob at h
  split at h
  · cases h
  · next row hrow =>
      obtain ⟨hmem, hid⟩ := Table.get?_eq_some.mp hrow
      split at h
      · obtain rfl := Option.some.inj h
        exact ⟨row, hmem, hid, rfl, rfl⟩
      · cases h

theorem JobsStep.step {setup : Setup} {w w' : World} {a : Action}
    (h : step setup w a = some w') : JobsStep w.store w'.store := by
  cases a with
  | tick micros =>
      obtain rfl := Option.some.inj h
      exact JobsStep.same rfl
  | createJob jobId request =>
      obtain rfl := Option.some.inj h
      exact JobsStep.created
  | claimDueJob workerId leaseSeconds jobId locked =>
      obtain ⟨result, hclaim, rfl⟩ := Option.map_eq_some_iff.mp h
      obtain ⟨row, -, -, -, hstore⟩ := claimDueJob_some hclaim
      apply JobsStep.updated (CodeGenJob.claimed workerId leaseSeconds w.now)
        (CodeGenJob.claimed_jobId workerId leaseSeconds w.now) (congrArg JobStore.jobs hstore)
      intro r _ _
      exact ⟨rfl, rfl, Or.inl rfl, Nat.le_succ _⟩
  | operate claim jobId operation =>
      simp only [CodeGenerationJobs.step] at h
      split at h
      · obtain rfl := Option.some.inj h
        exact JobsStep.operated operation
      · cases h

theorem OneLive.step {s s' : JobStore} (inv : OneLive s) (h : JobsStep s s') : OneLive s' := by
  intro r hr r' hr' same holds holds'
  have new (x y : CodeGenJob) (hy : y ∈ s'.jobs)
      (free : ∀ r ∈ s.jobs, r.status.holdsSlot = true →
        r.contentIdentityHash ≠ x.contentIdentityHash)
      (others : ∀ z ∈ s'.jobs, z = x ∨ z ∈ s.jobs)
      (hash : y.contentIdentityHash = x.contentIdentityHash) (hold : y.status.holdsSlot = true) :
      y = x := by
    rcases others y hy with rfl | old
    · rfl
    · exact absurd hash (free y old hold)
  rcases h.origin r hr with ⟨x, hx, follows⟩ | ⟨free, others⟩
  · rcases h.origin r' hr' with ⟨x', hx', follows'⟩ | ⟨free', others'⟩
    · have hash : x.contentIdentityHash = x'.contentIdentityHash :=
        follows.identity.symm.trans (same.trans follows'.identity)
      have before := inv x hx x' hx' hash (follows.holdsSlot holds) (follows'.holdsSlot holds')
      have ids : r.jobId = r'.jobId := by
        rw [follows.jobId, follows'.jobId, before]
      exact Table.eq_of_key_eq hr hr' ids
    · exact new r' r hr free' others' same holds
  · exact (new r r' hr' free others same.symm holds').symm

/-- A claim is never ahead of its job's fence, and the claims of a job go up. -/
structure ClaimsInv (w : World) : Prop where
  issued : ∀ c ∈ w.claims, ∃ r ∈ w.store.jobs, r.jobId = c.jobId ∧ c.fence ≤ r.leaseFence
  ordered : w.claims.Pairwise fun earlier later =>
    earlier.jobId = later.jobId → earlier.fence < later.fence

theorem ClaimsInv.same {w w' : World} (inv : ClaimsInv w) (h : JobsStep w.store w'.store)
    (claims : w'.claims = w.claims) : ClaimsInv w' := by
  refine ⟨fun c hc => ?_, claims ▸ inv.ordered⟩
  obtain ⟨r, hr, hid, hle⟩ := inv.issued c (claims ▸ hc)
  obtain ⟨r', hr', follows⟩ := h.stays r hr
  exact ⟨r', hr', follows.jobId.trans hid, hle.trans follows.fence⟩

theorem ClaimsInv.step {setup : Setup} {w w' : World} {a : Action} (inv : ClaimsInv w)
    (h : step setup w a = some w') : ClaimsInv w' := by
  have jobs := JobsStep.step h
  cases a with
  | tick micros =>
      obtain rfl := Option.some.inj h
      exact inv.same jobs rfl
  | createJob jobId request =>
      obtain rfl := Option.some.inj h
      exact inv.same jobs rfl
  | operate claim jobId operation =>
      simp only [CodeGenerationJobs.step] at h
      split at h
      · obtain rfl := Option.some.inj h
        exact inv.same jobs rfl
      · cases h
  | claimDueJob workerId leaseSeconds jobId locked =>
      obtain ⟨result, hclaim, rfl⟩ := Option.map_eq_some_iff.mp h
      obtain ⟨row, hrow, hid, hclaimed, hstore⟩ := claimDueJob_some hclaim
      have fence : result.2.leaseFence = row.leaseFence + 1 := by
        rw [hclaimed]
        rfl
      constructor
      · intro c hc
        rcases List.mem_append.mp hc with old | new
        · obtain ⟨r, hr, hrid, hle⟩ := inv.issued c old
          obtain ⟨r', hr', follows⟩ := jobs.stays r hr
          exact ⟨r', hr', follows.jobId.trans hrid, hle.trans follows.fence⟩
        · obtain rfl := List.mem_singleton.mp new
          refine ⟨row.claimed workerId leaseSeconds w.now, ?_, hid, fence.le⟩
          rw [hstore]
          exact (@Table.mem_update _ _ _ _ w.store.jobs jobId _
            (CodeGenJob.claimed_jobId workerId leaseSeconds w.now) _).mpr
              ⟨row, hrow, (if_pos hid).symm⟩
      · refine List.pairwise_append.mpr ⟨inv.ordered, List.pairwise_singleton _ _, ?_⟩
        intro earlier hearlier later hlater same
        obtain rfl := List.mem_singleton.mp hlater
        obtain ⟨r, hr, hrid, hle⟩ := inv.issued earlier hearlier
        obtain rfl := Table.eq_of_key_eq hr hrow (hrid.trans (same.trans hid.symm))
        dsimp only
        omega

theorem ClaimsInv.sole {w : World} (inv : ClaimsInv w) {c c' : JobClaim} (hc : c ∈ w.claims)
    (hc' : c' ∈ w.claims) (same : c.jobId = c'.jobId) (current : Current w.store c)
    (current' : Current w.store c') : c = c' := by
  obtain ⟨r, hr, hid, hfence⟩ := current
  obtain ⟨r', hr', hid', hfence'⟩ := current'
  obtain rfl := Table.eq_of_key_eq hr hr' (hid.trans (same.trans hid'.symm))
  have agree : w.claims.Pairwise fun x y => x.jobId = y.jobId → x.fence = y.fence → x = y :=
    inv.ordered.imp fun lt same equal => absurd equal (lt same).ne
  have symmetric : Std.Symm fun x y : JobClaim => x.jobId = y.jobId → x.fence = y.fence → x = y :=
    ⟨fun x y h jobs fences => (h jobs.symm fences.symm).symm⟩
  exact List.Pairwise.forall_of_forall (fun x _ _ _ => rfl) agree hc hc' same
    (hfence.symm.trans hfence')

/-- Nothing is done for an earlier claim of a job that there is anything to do for. -/
def Spared (m : JobMove) : Prop :=
  ∀ c jobId operation, m.action = .operate (some c) jobId operation →
    ¬ Current m.before.store c → Harmless m.before.store jobId operation

/-- A run keeps jobs fenced exactly when what it does for earlier claims finds nothing
    to do. -/
theorem jobs_fenced_iff {setup : Setup} {w₀ : World} {as : List Action} (start : Init w₀) :
    (∀ m ∈ Transition.history (step setup) w₀ as, Fenced m) ↔
      ∀ m ∈ Transition.history (step setup) w₀ as, Spared m := by
  have exactly : ∀ m ∈ Transition.history (step setup) w₀ as, Fenced m ↔ Spared m := by
    intro m hm
    have reached := Transition.reachable_of_mem_history start hm
    have inv : OneLive m.before.store ∧ ClaimsInv m.before := by
      refine reached.induction (P := fun w => OneLive w.store ∧ ClaimsInv w) ?_ ?_
      · intro w init
        refine ⟨fun r hr => ?_, fun c hc => ?_, ?_⟩
        · rw [← Table.mem_rows, init.jobs] at hr
          cases hr
        · rw [init.claims] at hc
          cases hc
        · rw [init.claims]
          exact List.Pairwise.nil
      · intro w a w' inv hstep
        exact ⟨inv.1.step (JobsStep.step hstep), inv.2.step hstep⟩
    have hstep := Transition.step_of_mem_history hm
    have jobs := JobsStep.step hstep
    have operated (c : JobClaim) (jobId : String) (operation : JobOperation)
        (haction : m.action = .operate (some c) jobId operation) :
        m.after.store = kept m.before.store (operation.run m.before.store jobId) := by
      rw [haction] at hstep
      simp only [CodeGenerationJobs.step] at hstep
      split at hstep
      · exact congrArg World.store (Option.some.inj hstep).symm
      · cases hstep
    constructor
    · intro fenced c jobId operation haction stale
      have unchanged := fenced.zombie c jobId operation haction stale
      rw [operated c jobId operation haction] at unchanged
      exact (unchanged_iff_harmless operation).mp unchanged
    · intro spared
      refine ⟨inv.1.step jobs, ?_, ?_, ?_⟩
      · intro r hr
        obtain ⟨r', hr', follows⟩ := jobs.stays r hr
        exact ⟨r', hr', follows.jobId, follows.status⟩
      · intro c hc c' hc' same current current'
        exact (inv.2.step hstep).sole hc hc' same current current'
      · intro c jobId operation haction stale
        rw [operated c jobId operation haction]
        exact (unchanged_iff_harmless operation).mpr (spared c jobId operation haction stale)
  constructor
  · intro fenced m hm
    exact (exactly m hm).mp (fenced m hm)
  · intro spared m hm
    exact (exactly m hm).mpr (spared m hm)

def plainSetup : Setup := ⟨fun _ => "content-1", fun _ => .null⟩

def noJobs : World where
  now := 0
  store := ⟨⟨[], List.nodup_nil⟩, ⟨[], List.nodup_nil⟩, ⟨[], List.nodup_nil⟩, []⟩
  claims := []

theorem init_noJobs : Init noJobs := ⟨rfl, rfl⟩

def oneMember : JobRequest where
  consideredRevisionId := "considered-1"
  targetReadingRevisionId := "reading-1"
  environmentId := "env-1"
  logicalGroupName := "group-1"
  declaration := .null
  declarationIdentity := .null
  executionParameters := .null
  members := [⟨0, "selection-1", "considered-1", "option-1", "LLM_AUTHORED", []⟩]
  requestedBy := "ann"
  requestedAt := 0
  principalScopeRevisionId := "scope-1"

def firstClaim : JobClaim := ⟨"worker-1", "job-1", 1⟩

/-- A job is created, claimed and advanced for its claim. -/
def driven : List Action :=
  [.createJob "job-1" oneMember, .claimDueJob "worker-1" 120 "job-1" [],
    .operate (some firstClaim) "job-1" (.advanceJob .requested .planningFormulas none)]

/-- The first worker pauses for longer than its lease, and another claims the job. -/
def claimedAgain : List Action :=
  [.createJob "job-1" oneMember, .claimDueJob "worker-1" 120 "job-1" [], .tick 200000000,
    .claimDueJob "worker-2" 120 "job-1" []]

/-- It comes back and gives back a lease. -/
def lateRelease : Action := .operate (some firstClaim) "job-1" .releaseJob

theorem jobs_fenced_iff_driven :
    ((Transition.exec (step plainSetup) noJobs driven).any fun w =>
        decide (w.store.jobs.rows.map (·.status) = [.planningFormulas])) = true ∧
      ((∀ m ∈ Transition.history (step plainSetup) noJobs driven, Fenced m) ↔
        ∀ m ∈ Transition.history (step plainSetup) noJobs driven, Spared m) :=
  ⟨by decide +kernel, jobs_fenced_iff init_noJobs⟩

theorem late_release_frees_lease :
    ¬ ∀ (setup : Setup) (w₀ : World) (as : List Action), Init w₀ →
      ∀ m ∈ Transition.history (step setup) w₀ as, Fenced m := by
  intro holds
  have computed : ((Transition.exec (step plainSetup) noJobs claimedAgain).any fun w =>
      (step plainSetup w lateRelease).any fun w' =>
        decide ((w.store.jobs.rows.all fun r => r.leaseFence = 2) ∧
          (w'.store.jobs.get? "job-1").map CodeGenJob.guarded ≠
            (w.store.jobs.get? "job-1").map CodeGenJob.guarded)) = true := by
    decide +kernel
  obtain ⟨w, run, stepped⟩ := (Option.any_eq_true _ _).mp computed
  obtain ⟨w', hstep, h⟩ := (Option.any_eq_true _ _).mp stepped
  obtain ⟨fences, freed⟩ := of_decide_eq_true h
  have late : ⟨w, lateRelease, w'⟩ ∈
      Transition.history (step plainSetup) noJobs (claimedAgain ++ [lateRelease]) :=
    Transition.mem_history_of_step run hstep
  apply freed
  have fenced := holds plainSetup noJobs _ init_noJobs _ late
  refine (fenced.zombie firstClaim "job-1" .releaseJob rfl ?_).job
  rintro ⟨r, hr, -, hfence⟩
  have := of_decide_eq_true (List.all_eq_true.mp fences r hr)
  rw [this] at hfence
  cases hfence

end FeatureGen.CodeGenerationJobs
