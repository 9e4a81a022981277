import FeatureGen.Lib.Transition
import FeatureGen.Runtime.Queue

/-! # The dedicated lanes as one system

Any number of workers claim from the five fenced lanes of one queue, settle
through the claims they were handed (at once, late or never), enqueue, and run
the reclaim. A claim is two steps, since another worker can get between its
select and its update: in between it holds the row lock of its candidate, and a
crash there releases it. Every other statement commits by itself.
-/

namespace FeatureGen.Runtime

inductive Lane where
  | formulaShadow
  | materialization
  | generation
  | verification
  | formulaDraft

def Lane.handlers : Lane → List String
  | .formulaShadow => formulaShadowQueueHandlers
  | .materialization => materializationQueueHandlers
  | .generation => generationQueueHandlers
  | .verification => verificationQueueHandlers
  | .formulaDraft => formulaDraftQueueHandlers

/-- The writes a worker makes through a claim. -/
inductive LaneWrite where
  | renew (leaseSeconds : ℚ)
  | complete
  | fail (error : String) (permanent : Bool) (draw : ℚ)

section Lanes

variable {π : Type}

/-- The lane's own function for each write; none when it raises. Verification
    settles through the generation lane's functions. -/
def Lane.write (lane : Lane) (q : Queue π) (claim : FencedClaim π) (now : Instant) :
    LaneWrite → Option (Queue π × Bool)
  | .renew secs =>
      match lane with
      | .formulaShadow => some (renewRecipeFormulaShadow q claim now secs)
      | .materialization => some (renewMaterialization q claim now secs)
      | .generation | .verification => some (renewGeneration q claim now secs)
      | .formulaDraft => some (renewFormulaDraft q claim now secs)
  | .complete =>
      match lane with
      | .formulaShadow => some (completeRecipeFormulaShadow q claim now)
      | .materialization => some (completeMaterialization q claim now)
      | .generation | .verification => some (completeGeneration q claim now)
      | .formulaDraft => some (completeFormulaDraft q claim now)
  | .fail error permanent draw =>
      let result := match lane with
        | .formulaShadow => failRecipeFormulaShadow q claim now error permanent draw
        | .materialization => failMaterialization q claim now error permanent draw
        | .generation | .verification => failGeneration q claim now error permanent draw
        | .formulaDraft => failFormulaDraft q claim now error permanent draw
      result.map fun (q', updated, _) => (q', updated)

/-- An open claim transaction, between its select and its update. -/
structure Claiming where
  worker : ℕ
  lane : Lane
  rowId : ℕ
  owner : String
  leaseSeconds : ℚ
  /-- The transaction's `now()`. -/
  now : Instant

structure LaneState (π : Type) where
  now : Instant
  queue : Queue π
  claiming : List Claiming
  /-- Every claim handed to a worker, oldest first. -/
  claims : List (FencedClaim π)

inductive LaneAction (π : Type) where
  | tick (micros : ℕ)
  | enqueue (messageId partitionKey handler : String) (payload : π)
      (availableAt : Option Instant) (priority : ℤ)
  | enqueueChecked (messageId partitionKey handler : String) (payload : π)
      (availableAt : Option Instant) (priority : ℤ)
  | selectClaim (worker : ℕ) (lane : Lane) (owner : String) (leaseSeconds : ℚ)
  | leaseClaim (worker : ℕ)
  | crashClaim (worker : ℕ)
  | write (lane : Lane) (claim : FencedClaim π) (op : LaneWrite)
  | reclaim

def openClaim (claiming : List Claiming) (worker : ℕ) : Option Claiming :=
  claiming.find? fun c => c.worker = worker

def closeClaim (claiming : List Claiming) (worker : ℕ) : List Claiming :=
  claiming.filter fun c => c.worker ≠ worker

variable [DecidableEq π]

def laneStep (hash : π → String) (s : LaneState π) : LaneAction π → Option (LaneState π)
  | .tick micros => some { s with now := s.now + micros }
  | .enqueue messageId partitionKey handler payload availableAt priority =>
      let result := enqueue s.queue messageId partitionKey handler payload availableAt priority s.now
      some { s with queue := result.1 }
  | .enqueueChecked messageId partitionKey handler payload availableAt priority =>
      match enqueueChecked hash s.queue messageId partitionKey handler payload availableAt priority
        s.now with
      | .ok (queue, _) => some { s with queue := queue }
      | .error _ => some s
  | .selectClaim worker lane owner leaseSeconds =>
      match openClaim s.claiming worker with
      | some _ => none
      | none =>
          match selectReady s.queue (· ∈ lane.handlers) (s.claiming.map (·.rowId)) s.now with
          | none => some s
          | some row => some { s with
              claiming := ⟨worker, lane, row.id, owner, leaseSeconds, s.now⟩ :: s.claiming }
  | .leaseClaim worker =>
      match openClaim s.claiming worker with
      | none => none
      | some c =>
          match lease s.queue c.rowId c.owner c.leaseSeconds true c.now with
          | none => some { s with claiming := closeClaim s.claiming worker }
          | some (queue, row) => some { s with
              queue := queue
              claiming := closeClaim s.claiming worker
              claims := s.claims ++ [row.fencedClaim c.owner] }
  | .crashClaim worker =>
      match openClaim s.claiming worker with
      | none => none
      | some _ => some { s with claiming := closeClaim s.claiming worker }
  | .write lane claim op =>
      if claim ∈ s.claims then
        match lane.write s.queue claim s.now op with
        | none => some s
        | some (queue, _) => some { s with queue := queue }
      else none
  | .reclaim => some { s with queue := (reclaimStuckQueue s.queue s.now).1 }

omit [DecidableEq π] in
/-- The lane's own claim. -/
def Lane.claim (lane : Lane) (q : Queue π) (owner : String) (locked : List ℕ) (now : Instant)
    (leaseSeconds : ℚ) : Queue π × Option (FencedClaim π) :=
  match lane with
  | .formulaShadow => claimRecipeFormulaShadow q owner locked now leaseSeconds
  | .materialization => claimMaterialization q owner locked now leaseSeconds
  | .generation => claimGeneration q owner locked now leaseSeconds
  | .verification => claimVerification q owner locked now leaseSeconds
  | .formulaDraft => claimFormulaDraft q owner locked now leaseSeconds

omit [DecidableEq π] in
theorem Lane.claim_eq (lane : Lane) (q : Queue π) (owner : String) (locked : List ℕ)
    (now : Instant) (leaseSeconds : ℚ) :
    lane.claim q owner locked now leaseSeconds =
      claimFenced lane.handlers q owner locked now leaseSeconds := by
  cases lane <;> rfl

theorem closeClaim_of_openClaim_eq_none {claiming : List Claiming} {worker : ℕ}
    (free : openClaim claiming worker = none) : closeClaim claiming worker = claiming := by
  refine List.filter_eq_self.mpr fun c hc => ?_
  simpa using List.find?_eq_none.mp free c hc

/-- A claim is its two steps with nothing between them. -/
theorem exec_claim {hash : π → String} {s : LaneState π} {lane : Lane} {worker : ℕ}
    {owner : String} {leaseSeconds : ℚ} {q : Queue π} {claim : FencedClaim π}
    (free : openClaim s.claiming worker = none)
    (h : lane.claim s.queue owner (s.claiming.map (·.rowId)) s.now leaseSeconds =
      (q, some claim)) :
    Transition.exec (laneStep hash) s
        [.selectClaim worker lane owner leaseSeconds, .leaseClaim worker] =
      some { s with queue := q, claims := s.claims ++ [claim] } := by
  rw [Lane.claim_eq, claimFenced] at h
  split at h
  · cases h
  · next row selected =>
    split at h
    · cases h
    · next q' row' leased =>
      cases h
      have first : laneStep hash s (.selectClaim worker lane owner leaseSeconds) = some { s with
          claiming := ⟨worker, lane, row.id, owner, leaseSeconds, s.now⟩ :: s.claiming } := by
        simp only [laneStep, free, selected]
      have closed : closeClaim (⟨worker, lane, row.id, owner, leaseSeconds, s.now⟩ :: s.claiming)
          worker = s.claiming := by
        simpa [closeClaim] using closeClaim_of_openClaim_eq_none free
      refine Transition.exec_cons_eq_some.mpr ⟨_, first, ?_⟩
      simp [Transition.exec_single, laneStep, openClaim, leased, closed]

/-- An empty queue, at any time. -/
def LaneInit (s : LaneState π) : Prop :=
  s.queue.rows.rows = [] ∧ s.claiming = [] ∧ s.claims = []

/-- A write through a claim only ever touches the columns of its lease. -/
structure Settles (claim : FencedClaim π) (f : QueueRow π → QueueRow π) : Prop where
  id : ∀ r, (f r).id = r.id
  messageId : ∀ r, (f r).messageId = r.messageId
  partitionKey : ∀ r, (f r).partitionKey = r.partitionKey
  attempts : ∀ r, (f r).attempts = r.attempts
  maxAttempts : ∀ r, (f r).maxAttempts = r.maxAttempts
  leaseFence : ∀ r, (f r).leaseFence = r.leaseFence
  /-- Only an unspent claim returns its row to ready. -/
  retry : ∀ r, (f r).status = .ready → r.status = .ready ∨ claim.attempts < claim.maxAttempts

omit [DecidableEq π] in
theorem renewed_settles (claim : FencedClaim π) (until_ : Instant) :
    Settles claim (·.renewed until_) :=
  ⟨fun _ => rfl, fun _ => rfl, fun _ => rfl, fun _ => rfl, fun _ => rfl, fun _ => rfl,
    fun _ => Or.inl⟩

omit [DecidableEq π] in
theorem completed_settles (claim : FencedClaim π) : Settles claim (·.completed) :=
  ⟨fun _ => rfl, fun _ => rfl, fun _ => rfl, fun _ => rfl, fun _ => rfl, fun _ => rfl,
    fun r h => by simp [QueueRow.completed] at h⟩

omit [DecidableEq π] in
theorem failed_settles (claim : FencedClaim π) (permanent : Bool) (error : String)
    (retryAt : Instant) : Settles claim (·.failed (failStatus claim permanent) error retryAt) := by
  refine ⟨fun _ => rfl, fun _ => rfl, fun _ => rfl, fun _ => rfl, fun _ => rfl, fun _ => rfl,
    fun r h => Or.inr ?_⟩
  simp only [QueueRow.failed, failStatus] at h
  split_ifs at h with hdead
  exact not_le.mp fun spent => hdead (Or.inr spent)

omit [DecidableEq π] in
theorem Lane.write_some {lane : Lane} {q q' : Queue π} {claim : FencedClaim π} {now : Instant}
    {op : LaneWrite} {updated : Bool} (h : lane.write q claim now op = some (q', updated)) :
    ∃ f, ∃ hf : Settles claim f, updateHeld q claim now f hf.id = (q', updated) := by
  have fail : ∀ permanentReason exhaustedReason error permanent draw,
      (failFenced permanentReason exhaustedReason q claim now error permanent draw).map
        (fun (q', updated, _) => (q', updated)) = some (q', updated) →
      ∃ f, ∃ hf : Settles claim f, updateHeld q claim now f hf.id = (q', updated) := by
    intro permanentReason exhaustedReason error permanent draw hq
    unfold failFenced at hq
    split at hq
    · cases hq
    · exact ⟨_, failed_settles claim permanent error _, Option.some.inj hq⟩
  cases op with
  | renew secs =>
      refine ⟨_, renewed_settles claim (now + makeInterval secs), ?_⟩
      cases lane <;> exact Option.some.inj h
  | complete =>
      refine ⟨_, completed_settles claim, ?_⟩
      cases lane <;> exact Option.some.inj h
  | fail error permanent draw => cases lane <;> exact fail _ _ error permanent draw h

theorem openClaim_some {claiming : List Claiming} {worker : ℕ} {c : Claiming}
    (h : openClaim claiming worker = some c) : c ∈ claiming ∧ c.worker = worker := by
  have hworker := List.find?_some h
  exact ⟨List.mem_of_find?_eq_some h, of_decide_eq_true hworker⟩

/-- The effect of a step on the queue, the open claims and the claims handed out. -/
inductive LaneEffect (s : LaneState π) : LaneAction π → LaneState π → Prop where
  | idle (a : LaneAction π) (now : Instant) (queue : Queue π) (later : s.now ≤ now)
      (same : queue.rows = s.queue.rows) : LaneEffect s a { s with now := now, queue := queue }
  | inserted (a : LaneAction π) (row : QueueRow π) (queue : Queue π) (new : Inserted row)
      (ins : s.queue.rows.insert? row = some queue.rows) : LaneEffect s a { s with queue := queue }
  | selected (a : LaneAction π) (c : Claiming) (row : QueueRow π) (hmem : row ∈ s.queue.rows)
      (hid : row.id = c.rowId)
      (ready : row.status = .ready) (free : c.rowId ∉ s.claiming.map (·.rowId)) :
      LaneEffect s a { s with claiming := c :: s.claiming }
  | closed (a : LaneAction π) (worker : ℕ) :
      LaneEffect s a { s with claiming := closeClaim s.claiming worker }
  | leased (a : LaneAction π) (c : Claiming) (queue : Queue π) (row : QueueRow π) (hc : c ∈ s.claiming)
      (hlease : lease s.queue c.rowId c.owner c.leaseSeconds true c.now = some (queue, row)) :
      LaneEffect s a { s with
        queue := queue
        claiming := closeClaim s.claiming c.worker
        claims := s.claims ++ [row.fencedClaim c.owner] }
  | wrote (a : LaneAction π) (claim : FencedClaim π) (f : QueueRow π → QueueRow π) (hf : Settles claim f)
      (hclaim : claim ∈ s.claims) :
      LaneEffect s a { s with queue := (updateHeld s.queue claim s.now f hf.id).1 }
  | reclaimed : LaneEffect s .reclaim { s with queue := (reclaimStuckQueue s.queue s.now).1 }

omit [DecidableEq π] in
theorem LaneEffect.of_insertReady {s : LaneState π} (a : LaneAction π) {queue : Queue π}
    {messageId partitionKey handler : String} {payload : π} {payloadHash : Option String}
    {availableAt : Option Instant} {priority : ℤ}
    (h : queue = (insertReady s.queue messageId partitionKey handler payload payloadHash availableAt
      priority s.now).1) : LaneEffect s a { s with queue := queue } := by
  subst h
  cases insertReady_rows s.queue messageId partitionKey handler payload payloadHash availableAt
    priority s.now with
  | inl same => exact .idle a s.now _ le_rfl same
  | inr new =>
      obtain ⟨row, hrow, _, _, hins⟩ := new
      exact .inserted a row _ hrow hins

theorem laneStep_effect {hash : π → String} {s s' : LaneState π} {a : LaneAction π}
    (h : laneStep hash s a = some s') : LaneEffect s a s' := by
  have stay : LaneEffect s a s := .idle a s.now s.queue le_rfl rfl
  cases a with
  | tick micros =>
      cases h
      exact .idle _ _ s.queue (le_add_of_nonneg_right (Int.natCast_nonneg _)) rfl
  | enqueue =>
      cases h
      exact .of_insertReady _ (enqueue_rows ..)
  | enqueueChecked =>
      simp only [laneStep] at h
      split at h
      · next hq =>
          cases h
          exact .of_insertReady _ (enqueueChecked_ok hq)
      · cases h
        exact stay
  | selectClaim worker lane owner leaseSeconds =>
      simp only [laneStep] at h
      split at h
      · cases h
      · split at h
        · cases h
          exact stay
        · next row hrow =>
            cases h
            obtain ⟨hmem, hready, _, _, _, hfree⟩ := selectReady_some hrow
            exact .selected _ _ row hmem rfl hready hfree
  | leaseClaim worker =>
      simp only [laneStep] at h
      split at h
      · cases h
      · next c hc =>
          obtain ⟨hopen, hworker⟩ := openClaim_some hc
          split at h
          · cases h
            exact .closed _ worker
          · next queue row hlease =>
              cases h
              subst hworker
              exact .leased _ c queue row hopen hlease
  | crashClaim worker =>
      simp only [laneStep] at h
      split at h
      · cases h
      · cases h
        exact .closed _ worker
  | write lane claim op =>
      simp only [laneStep] at h
      split at h
      · next hclaim =>
          split at h
          · cases h
            exact stay
          · next queue updated hwrite =>
              cases h
              obtain ⟨f, hf, heq⟩ := Lane.write_some hwrite
              have hqueue : queue = (updateHeld s.queue claim s.now f hf.id).1 := by rw [heq]
              rw [hqueue]
              exact .wrote _ claim f hf hclaim
      · cases h
  | reclaim =>
      cases h
      exact .reclaimed

end Lanes

end FeatureGen.Runtime
