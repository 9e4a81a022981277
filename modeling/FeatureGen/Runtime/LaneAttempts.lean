import FeatureGen.Runtime.Lanes

/-! # Lease and fence safety

What every interleaving of the lane operations keeps: one leased row per
partition, fences that only grow, and no claim ahead of its row's fence. A
worker whose lease was reclaimed and handed on therefore finds its fence stale,
and its late write matches no row.

An attempt is spent when a row is claimed, and only the fail path compares the
attempts with their bound. A reclaim returns an expired row to ready whatever
its attempts, so deliveries stay bounded exactly in the runs where no reclaim
meets an expired row that has spent them all.
-/

namespace FeatureGen.Runtime

variable {π : Type}

structure FenceInv (s : LaneState π) : Prop where
  inflight : ∀ r ∈ s.queue.rows, ∀ r' ∈ s.queue.rows, r.status = .leased → r'.status = .leased →
    r.partitionKey = r'.partitionKey → r = r'
  issued : ∀ c ∈ s.claims, ∃ r ∈ s.queue.rows, r.id = c.id ∧ c.leaseFence ≤ r.leaseFence
  ordered : s.claims.Pairwise fun earlier later =>
    earlier.id = later.id → earlier.leaseFence < later.leaseFence

namespace FenceInv

theorem init {s : LaneState π} (h : LaneInit s) : FenceInv s := by
  obtain ⟨hrows, _, hclaims⟩ := h
  refine ⟨fun r hr => ?_, fun c hc => ?_, ?_⟩
  · rw [← Table.mem_rows, hrows] at hr
    simp at hr
  · simp [hclaims] at hc
  · simp [hclaims]

theorem updateWhere {s : LaneState π} (inv : FenceInv s) {p : QueueRow π → Bool}
    {f : QueueRow π → QueueRow π} {hf : ∀ r, (f r).id = r.id}
    (hpart : ∀ r, (f r).partitionKey = r.partitionKey)
    (hfence : ∀ r, (f r).leaseFence = r.leaseFence)
    (hleased : ∀ r, p r → (f r).status = .leased → r.status = .leased) :
    FenceInv { s with queue := s.queue.updateWhere p f hf } := by
  refine ⟨fun r hr r' hr' h h' hsame => ?_, fun c hc => ?_, inv.ordered⟩
  · obtain ⟨y, hy, rfl⟩ := Queue.mem_updateWhere.mp hr
    obtain ⟨y', hy', rfl⟩ := Queue.mem_updateWhere.mp hr'
    have before : ∀ z, (if p z then f z else z).status = .leased →
        z.status = .leased ∧ (if p z then f z else z).partitionKey = z.partitionKey := by
      intro z hz
      by_cases hp : p z
      · simp only [hp, if_true] at hz ⊢
        exact ⟨hleased z hp hz, hpart z⟩
      · simp only [hp, Bool.false_eq_true, if_false] at hz ⊢
        exact ⟨hz, trivial⟩
    obtain ⟨hy1, hy2⟩ := before y h
    obtain ⟨hy1', hy2'⟩ := before y' h'
    rw [inv.inflight y hy y' hy' hy1 hy1' (hy2.symm.trans (hsame.trans hy2'))]
  · obtain ⟨r, hr, hid, hle⟩ := inv.issued c hc
    refine ⟨_, Queue.mem_updateWhere.mpr ⟨r, hr, rfl⟩, ?_, ?_⟩
    · split_ifs
      · exact (hf r).trans hid
      · exact hid
    · split_ifs
      · exact (hfence r).symm ▸ hle
      · exact hle

theorem leased {s : LaneState π} (inv : FenceInv s) {id : ℕ} {owner : String} {leaseSeconds : ℚ}
    {now : Instant} {queue : Queue π} {row : QueueRow π} (claiming : List Claiming)
    (h : lease s.queue id owner leaseSeconds true now = some (queue, row)) :
    FenceInv { s with
      queue := queue, claiming := claiming, claims := s.claims ++ [row.fencedClaim owner] } := by
  obtain ⟨old, hold, hid, hfree, rfl, _, hrows⟩ := lease_some h
  have hfence : (old.leased owner leaseSeconds true now).leaseFence = old.leaseFence + 1 := rfl
  refine ⟨fun r hr r' hr' hl hl' hsame => ?_, fun c hc => ?_, ?_⟩
  · rcases (hrows r).mp hr with rfl | ⟨hmem, hne⟩ <;>
      rcases (hrows r').mp hr' with rfl | ⟨hmem', hne'⟩
    · rfl
    · exact absurd hsame.symm (hfree r' hmem' hne' hl')
    · exact absurd hsame (hfree r hmem hne hl)
    · exact inv.inflight r hmem r' hmem' hl hl' hsame
  · rcases List.mem_append.mp hc with hc | hc
    · obtain ⟨r, hr, hrid, hle⟩ := inv.issued c hc
      by_cases hsame : r.id = id
      · have hrold : r = old := Table.eq_of_key_eq hr hold (hsame.trans hid.symm)
        subst hrold
        exact ⟨_, (hrows _).mpr (Or.inl rfl), hrid, by omega⟩
      · exact ⟨r, (hrows r).mpr (Or.inr ⟨hr, hsame⟩), hrid, hle⟩
    · rw [List.mem_singleton] at hc
      subst hc
      exact ⟨_, (hrows _).mpr (Or.inl rfl), rfl, le_rfl⟩
  · refine List.pairwise_append.mpr ⟨inv.ordered, List.pairwise_singleton _ _, ?_⟩
    intro earlier he later hl hsame
    rw [List.mem_singleton] at hl
    subst hl
    obtain ⟨r, hr, hrid, hle⟩ := inv.issued earlier he
    have hrold : r = old := Table.eq_of_key_eq hr hold (hrid.trans hsame)
    subst hrold
    exact Nat.lt_succ_of_le hle

theorem effect {s s' : LaneState π} {a : LaneAction π} (inv : FenceInv s)
    (h : LaneEffect s a s') : FenceInv s' := by
  cases h with
  | idle _ now queue later same =>
      exact ⟨by simpa only [same] using inv.inflight, by simpa only [same] using inv.issued,
        inv.ordered⟩
  | selected => exact ⟨inv.inflight, inv.issued, inv.ordered⟩
  | closed => exact ⟨inv.inflight, inv.issued, inv.ordered⟩
  | inserted _ row queue new ins =>
      have notLeased : ¬ row.status = .leased := by simp [new.status]
      refine ⟨fun r hr r' hr' hl hl' hsame => ?_, fun c hc => ?_, inv.ordered⟩
      · rcases (Table.mem_insert? ins).mp hr with hr | rfl
        · rcases (Table.mem_insert? ins).mp hr' with hr' | rfl
          · exact inv.inflight r hr r' hr' hl hl' hsame
          · exact absurd hl' notLeased
        · exact absurd hl notLeased
      · obtain ⟨r, hr, hid, hle⟩ := inv.issued c hc
        exact ⟨r, (Table.mem_insert? ins).mpr (Or.inl hr), hid, hle⟩
  | leased _ c queue row hc hlease => exact inv.leased _ hlease
  | wrote _ claim f hf hclaim =>
      refine inv.updateWhere hf.partitionKey hf.leaseFence fun r hp _ => ?_
      exact (of_decide_eq_true hp).2.1
  | reclaimed =>
      exact inv.updateWhere (fun _ => rfl) (fun _ => rfl) fun r _ h => by
        simp [QueueRow.released] at h

end FenceInv

section Safety

variable [DecidableEq π] {hash : π → String}

theorem fenceInv_of_reachable {s : LaneState π}
    (reach : Transition.Reachable (laneStep hash) LaneInit s) : FenceInv s :=
  reach.induction (fun _ => FenceInv.init) fun _ _ _ inv h => inv.effect (laneStep_effect h)

omit [DecidableEq π] in
theorem FenceInv.last_claim {s : LaneState π} (inv : FenceInv s) {claim : FencedClaim π}
    (hclaim : claim ∈ s.claims) {r : QueueRow π} (hr : r ∈ s.queue.rows)
    (hheld : heldBy claim s.now r = true) :
    ∃ before after, s.claims = before ++ claim :: after ∧ ∀ c ∈ after, c.id ≠ claim.id := by
  obtain ⟨before, after, hsplit⟩ := List.append_of_mem hclaim
  refine ⟨before, after, hsplit, fun c hc hsame => ?_⟩
  obtain ⟨hid, _, _, hfence, _⟩ := of_decide_eq_true hheld
  have hordered := inv.ordered
  rw [hsplit] at hordered
  have hlt := (List.pairwise_cons.mp (List.pairwise_append.mp hordered).2.1).1 c hc hsame.symm
  obtain ⟨r', hr', hid', hle⟩ := inv.issued c (by simp [hsplit, hc])
  have hrow : r' = r := Table.eq_of_key_eq hr' hr (hid'.trans (hsame.trans hid.symm))
  subst hrow
  omega

omit [DecidableEq π] in
theorem updateHeld_false {q : Queue π} {claim : FencedClaim π} {now : Instant}
    {f : QueueRow π → QueueRow π} {hf : ∀ r, (f r).id = r.id}
    (h : (updateHeld q claim now f hf).2 = false) : (updateHeld q claim now f hf).1 = q := by
  have hnone : ∀ r ∈ q.rows, heldBy claim now r = false := fun r hr => by
    simpa using List.any_eq_false.mp h r hr
  simp only [updateHeld, Queue.updateWhere, Table.updateWhere_eq_self hnone]

structure LeaseSafe (hash : π → String) (s : LaneState π) : Prop where
  /-- At most one row of a partition is leased. -/
  one_leased : ∀ r ∈ s.queue.rows, ∀ r' ∈ s.queue.rows, r.status = .leased → r'.status = .leased →
    r.partitionKey = r'.partitionKey → r = r'
  /-- Each claim of a row carries a larger fence than the claims before it. -/
  fences_increase : s.claims.Pairwise fun earlier later =>
    earlier.id = later.id → earlier.leaseFence < later.leaseFence
  /-- A write returns true only through the last claim of a row whose lease
      still runs; returning false or raising, it changes nothing. -/
  writes_held : ∀ lane : Lane, ∀ claim ∈ s.claims, ∀ op,
    match lane.write s.queue claim s.now op with
    | some (queue, true) =>
        (∃ before after, s.claims = before ++ claim :: after ∧ ∀ c ∈ after, c.id ≠ claim.id) ∧
        (∃ r ∈ s.queue.rows, r.id = claim.id ∧ r.status = .leased ∧
          r.leaseFence = claim.leaseFence ∧ ∃ e ∈ r.leaseExpiresAt, s.now < e) ∧
        laneStep hash s (.write lane claim op) = some { s with queue := queue }
    | some (queue, false) =>
        queue = s.queue ∧ laneStep hash s (.write lane claim op) = some s
    | none => laneStep hash s (.write lane claim op) = some s

theorem lane_lease_safety {s : LaneState π}
    (reach : Transition.Reachable (laneStep hash) LaneInit s) : LeaseSafe hash s := by
  have inv := fenceInv_of_reachable reach
  refine ⟨inv.inflight, inv.ordered, fun lane claim hclaim op => ?_⟩
  cases hwrite : lane.write s.queue claim s.now op with
  | none => simp only [laneStep, if_pos hclaim, hwrite]
  | some result =>
      obtain ⟨queue, updated⟩ := result
      obtain ⟨f, hf, heq⟩ := Lane.write_some hwrite
      cases updated with
      | true =>
          have hany : s.queue.rows.rows.any (heldBy claim s.now) = true := congrArg Prod.snd heq
          obtain ⟨r, hr, hheld⟩ := List.any_eq_true.mp hany
          obtain ⟨hid, hstatus, _, hfence, htime⟩ := of_decide_eq_true hheld
          exact ⟨inv.last_claim hclaim hr hheld, ⟨r, hr, hid, hstatus, hfence, htime⟩,
            by simp only [laneStep, if_pos hclaim, hwrite]⟩
      | false =>
          have hsame : queue = s.queue := by
            have hq := updateHeld_false (congrArg Prod.snd heq)
            rw [← hq, heq]
          exact ⟨hsame, by simp only [laneStep, if_pos hclaim, hwrite, hsame]⟩

/-- A queue nothing was ever put on, at midnight of 2026-01-01. -/
def emptyLanes : LaneState Unit where
  now := 1767225600000000
  queue := ⟨Table.empty, 1⟩
  claiming := []
  claims := []

def emptyPayloadHash (_ : Unit) : String :=
  "44136fa355b3678a1146ad16f7e8649e94fb4fc21fe77e8310c060f61caaff8a"

/-- A worker's lease runs out, is reclaimed and handed to a second worker. -/
def handedOn : List (LaneAction Unit) :=
  [.enqueueChecked "job-1" "group-a" "generation.v2.build" () none 100,
   .selectClaim 1 .generation "worker-1" 300,
   .leaseClaim 1,
   .tick 301000000,
   .reclaim,
   .selectClaim 2 .generation "worker-2" 300,
   .leaseClaim 2]

theorem lane_lease_safety_handedOn :
    ∃ s, Transition.exec (laneStep emptyPayloadHash) emptyLanes handedOn = some s ∧
      s.claims.map (·.leaseFence) = [1, 2] ∧ LeaseSafe emptyPayloadHash s := by
  have run : ((Transition.exec (laneStep emptyPayloadHash) emptyLanes handedOn).any fun s =>
      s.claims.map (·.leaseFence) = [1, 2]) = true := by
    decide +kernel
  obtain ⟨s, hs, hfences⟩ := Option.any_eq_true _ _ |>.mp run
  exact ⟨s, hs, of_decide_eq_true hfences,
    lane_lease_safety ⟨emptyLanes, handedOn, ⟨rfl, rfl, rfl⟩, hs⟩⟩

end Safety

end FeatureGen.Runtime

namespace FeatureGen.Runtime

variable {π : Type}

/-- A reclaim, if this is one, meets no expired row without attempts left. -/
def ReclaimsUnspent (s : LaneState π) : LaneAction π → Prop
  | .reclaim => ∀ r ∈ s.queue.rows, stuck s.now r → r.attempts < r.maxAttempts
  | _ => True

/-- No row was handed out more often than its bound, and none that has spent its
    attempts waits to be. -/
structure Bounded (s : LaneState π) : Prop where
  claimed : ∀ r ∈ s.queue.rows, s.claims.countP (fun c => c.id = r.id) ≤ r.maxAttempts
  spent : ∀ r ∈ s.queue.rows, r.maxAttempts ≤ r.attempts → r.status ≠ .ready
  handed : ∀ c ∈ s.claims, c.attempts ≤ c.maxAttempts

structure AttemptInv (s : LaneState π) : Prop where
  fence : FenceInv s
  counted : ∀ r ∈ s.queue.rows, s.claims.countP (fun c => c.id = r.id) = r.attempts
  within : ∀ r ∈ s.queue.rows, r.attempts ≤ r.maxAttempts
  ready : ∀ r ∈ s.queue.rows, r.status = .ready → r.attempts < r.maxAttempts
  handed : ∀ c ∈ s.claims, c.attempts ≤ c.maxAttempts
  /-- The current claim of a row remembers the row's own counts. -/
  current : ∀ c ∈ s.claims, ∀ r ∈ s.queue.rows, r.id = c.id → r.leaseFence = c.leaseFence →
    c.attempts = r.attempts ∧ c.maxAttempts = r.maxAttempts
  /-- A locked candidate stays ready until its claim goes on. -/
  candidates : ∀ c ∈ s.claiming, ∃ r ∈ s.queue.rows, r.id = c.rowId ∧ r.status = .ready
  locks : (s.claiming.map (·.rowId)).Nodup

namespace AttemptInv

theorem bounded {s : LaneState π} (inv : AttemptInv s) : Bounded s where
  claimed r hr := (inv.counted r hr).trans_le (inv.within r hr)
  spent r hr hspent hready := absurd (inv.ready r hr hready) (not_lt.mpr hspent)
  handed := inv.handed

theorem init {s : LaneState π} (h : LaneInit s) : AttemptInv s := by
  have hnone : ∀ r, r ∉ s.queue.rows := fun r hr => by
    rw [← Table.mem_rows, h.1] at hr
    simp at hr
  refine ⟨FenceInv.init h, fun r hr => absurd hr (hnone r), fun r hr => absurd hr (hnone r),
    fun r hr => absurd hr (hnone r), ?_, ?_, ?_, ?_⟩ <;> simp [h.2.1, h.2.2]

theorem updateWhere {s : LaneState π} (inv : AttemptInv s) {p : QueueRow π → Bool}
    {f : QueueRow π → QueueRow π} {hf : ∀ r, (f r).id = r.id}
    (hfenceInv : FenceInv { s with queue := s.queue.updateWhere p f hf })
    (hattempts : ∀ r, (f r).attempts = r.attempts)
    (hmax : ∀ r, (f r).maxAttempts = r.maxAttempts)
    (hfence : ∀ r, (f r).leaseFence = r.leaseFence)
    (hleased : ∀ r, p r → r.status = .leased)
    (hready : ∀ r ∈ s.queue.rows, p r → (f r).status = .ready → r.attempts < r.maxAttempts) :
    AttemptInv { s with queue := s.queue.updateWhere p f hf } := by
  have back : ∀ r ∈ (s.queue.updateWhere p f hf).rows, ∃ y ∈ s.queue.rows, r.id = y.id ∧
      r.attempts = y.attempts ∧ r.maxAttempts = y.maxAttempts ∧ r.leaseFence = y.leaseFence ∧
      (r.status = .ready → y.attempts < y.maxAttempts) := by
    intro r hr
    obtain ⟨y, hy, rfl⟩ := Queue.mem_updateWhere.mp hr
    refine ⟨y, hy, ?_⟩
    by_cases hp : p y
    · simp only [hp, if_true]
      exact ⟨hf y, hattempts y, hmax y, hfence y, hready y hy hp⟩
    · simp only [hp, Bool.false_eq_true, if_false]
      exact ⟨trivial, trivial, trivial, trivial, inv.ready y hy⟩
  refine ⟨hfenceInv, fun r hr => ?_, fun r hr => ?_, fun r hr h => ?_, inv.handed,
    fun c hc r hr hid hcf => ?_, fun c hc => ?_, inv.locks⟩
  · obtain ⟨y, hy, hid, ha, _⟩ := back r hr
    simpa only [hid, ha] using inv.counted y hy
  · obtain ⟨y, hy, _, ha, hm, _⟩ := back r hr
    exact (ha.trans_le (inv.within y hy)).trans hm.ge
  · obtain ⟨y, hy, _, ha, hm, _, hr'⟩ := back r hr
    exact (ha.trans_lt (hr' h)).trans_le hm.ge
  · obtain ⟨y, hy, hyid, ha, hm, hyf, _⟩ := back r hr
    obtain ⟨h1, h2⟩ := inv.current c hc y hy (hyid.symm.trans hid) (hyf.symm.trans hcf)
    exact ⟨h1.trans ha.symm, h2.trans hm.symm⟩
  · obtain ⟨r, hr, hid, hstatus⟩ := inv.candidates c hc
    have hp : p r = false := by
      by_contra hp
      have := hleased r (by simpa using hp)
      rw [hstatus] at this
      cases this
    exact ⟨r, Queue.mem_updateWhere.mpr ⟨r, hr, by simp [hp]⟩, hid, hstatus⟩

theorem closed {s : LaneState π} (inv : AttemptInv s) (worker : ℕ) :
    AttemptInv { s with claiming := closeClaim s.claiming worker } where
  fence := ⟨inv.fence.inflight, inv.fence.issued, inv.fence.ordered⟩
  counted := inv.counted
  within := inv.within
  ready := inv.ready
  handed := inv.handed
  current := inv.current
  candidates c hc := inv.candidates c (List.mem_filter.mp hc).1
  locks := (List.filter_sublist.map _).nodup inv.locks

theorem inserted {s : LaneState π} (inv : AttemptInv s) {row : QueueRow π} {queue : Queue π}
    (hfenceInv : FenceInv { s with queue := queue }) (new : Inserted row)
    (ins : s.queue.rows.insert? row = some queue.rows) :
    AttemptInv { s with queue := queue } := by
  have fresh : ∀ c ∈ s.claims, c.id ≠ row.id := by
    intro c hc hid
    obtain ⟨r, hr, hrid, _⟩ := inv.fence.issued c hc
    exact (Table.rows_of_insert? ins).2 r hr (hrid.trans hid)
  refine ⟨hfenceInv, fun r hr => ?_, fun r hr => ?_, fun r hr h => ?_, inv.handed,
    fun c hc r hr hid hcf => ?_, fun c hc => ?_, inv.locks⟩
  · rcases (Table.mem_insert? ins).mp hr with hr | rfl
    · exact inv.counted r hr
    · rw [new.attempts, List.countP_eq_zero]
      intro c hc
      simpa using fresh c hc
  · rcases (Table.mem_insert? ins).mp hr with hr | rfl
    · exact inv.within r hr
    · simp [new.attempts]
  · rcases (Table.mem_insert? ins).mp hr with hr | rfl
    · exact inv.ready r hr h
    · simp [new.attempts, new.maxAttempts, defaultMaxAttempts]
  · rcases (Table.mem_insert? ins).mp hr with hr | rfl
    · exact inv.current c hc r hr hid hcf
    · exact absurd hid.symm (fresh c hc)
  · obtain ⟨r, hr, hid, hstatus⟩ := inv.candidates c hc
    exact ⟨r, (Table.mem_insert? ins).mpr (Or.inl hr), hid, hstatus⟩

theorem leased {s : LaneState π} (inv : AttemptInv s) {c : Claiming} (hc : c ∈ s.claiming)
    {queue : Queue π} {row : QueueRow π}
    (h : lease s.queue c.rowId c.owner c.leaseSeconds true c.now = some (queue, row)) :
    AttemptInv { s with
      queue := queue
      claiming := closeClaim s.claiming c.worker
      claims := s.claims ++ [row.fencedClaim c.owner] } := by
  have hfenceInv := inv.fence.leased (closeClaim s.claiming c.worker) h
  obtain ⟨old, hold, hid, _, rfl, _, hrows⟩ := lease_some h
  have hready : old.attempts < old.maxAttempts := by
    obtain ⟨r, hr, hrid, hstatus⟩ := inv.candidates c hc
    rw [← Table.eq_of_key_eq hr hold (hrid.trans hid.symm)]
    exact inv.ready r hr hstatus
  have hcount : ∀ id, (s.claims ++ [(old.leased c.owner c.leaseSeconds true c.now).fencedClaim
      c.owner]).countP (fun d => d.id = id) =
        s.claims.countP (fun d => d.id = id) + if old.id = id then 1 else 0 := by
    intro id
    simp [List.countP_append, List.countP_cons, QueueRow.fencedClaim, QueueRow.leased]
  refine ⟨hfenceInv, fun r hr => ?_, fun r hr => ?_, fun r hr hrready => ?_, fun d hd => ?_,
    fun d hd r hr hdid hdf => ?_, fun d hd => ?_, ?_⟩
  · rw [hcount]
    rcases (hrows r).mp hr with rfl | ⟨hmem, hne⟩
    · rw [show (old.leased c.owner c.leaseSeconds true c.now).id = old.id from rfl,
        inv.counted old hold, if_pos rfl]
      rfl
    · rw [inv.counted r hmem, if_neg fun hsame => hne (hsame.symm.trans hid), add_zero]
  · rcases (hrows r).mp hr with rfl | ⟨hmem, _⟩
    · exact hready
    · exact inv.within r hmem
  · rcases (hrows r).mp hr with rfl | ⟨hmem, _⟩
    · cases hrready
    · exact inv.ready r hmem hrready
  · rcases List.mem_append.mp hd with hd | hd
    · exact inv.handed d hd
    · rw [List.mem_singleton] at hd
      subst hd
      exact hready
  · rcases List.mem_append.mp hd with hd | hd
    · rcases (hrows r).mp hr with rfl | ⟨hmem, _⟩
      · -- an older claim of the row is below its new fence
        obtain ⟨r', hr', hrid', hle⟩ := inv.fence.issued d hd
        have hsame : r' = old := Table.eq_of_key_eq hr' hold (hrid'.trans hdid.symm)
        subst hsame
        have hbump : (r'.leased c.owner c.leaseSeconds true c.now).leaseFence = r'.leaseFence + 1 :=
          rfl
        omega
      · exact inv.current d hd r hmem hdid hdf
    · rw [List.mem_singleton] at hd
      subst hd
      rcases (hrows r).mp hr with rfl | ⟨hmem, hne⟩
      · exact ⟨rfl, rfl⟩
      · exact absurd (hdid.trans hid) hne
  · obtain ⟨hd, hworker⟩ := List.mem_filter.mp hd
    obtain ⟨r, hr, hrid, hstatus⟩ := inv.candidates d hd
    refine ⟨r, (hrows r).mpr (Or.inr ⟨hr, fun hsame => ?_⟩), hrid, hstatus⟩
    have hdc : d = c := List.inj_on_of_nodup_map inv.locks hd hc (hrid.symm.trans hsame)
    subst hdc
    simp at hworker
  · exact (List.filter_sublist.map _).nodup inv.locks

theorem wrote {s : LaneState π} (inv : AttemptInv s) {claim : FencedClaim π}
    (hclaim : claim ∈ s.claims) {f : QueueRow π → QueueRow π} (hf : Settles claim f)
    (hfenceInv : FenceInv { s with queue := (updateHeld s.queue claim s.now f hf.id).1 }) :
    AttemptInv { s with queue := (updateHeld s.queue claim s.now f hf.id).1 } := by
  refine inv.updateWhere hfenceInv hf.attempts hf.maxAttempts hf.leaseFence
    (fun r hp => (of_decide_eq_true hp).2.1) fun r hr hp hready => ?_
  obtain ⟨hid, _, _, hfence, _⟩ := of_decide_eq_true hp
  obtain ⟨hattempts, hmax⟩ := inv.current claim hclaim r hr hid hfence
  cases hf.retry r hready with
  | inl was => exact inv.ready r hr was
  | inr unspent => omega

theorem reclaimed {s : LaneState π} (inv : AttemptInv s)
    (unspent : ∀ r ∈ s.queue.rows, stuck s.now r → r.attempts < r.maxAttempts)
    (hfenceInv : FenceInv { s with queue := (reclaimStuckQueue s.queue s.now).1 }) :
    AttemptInv { s with queue := (reclaimStuckQueue s.queue s.now).1 } :=
  inv.updateWhere hfenceInv (fun _ => rfl) (fun _ => rfl) (fun _ => rfl)
    (fun _ hp => (of_decide_eq_true hp).1) fun r hr hp _ => unspent r hr hp

theorem effect {s s' : LaneState π} {a : LaneAction π} (inv : AttemptInv s)
    (unspent : ReclaimsUnspent s a) (h : LaneEffect s a s') : AttemptInv s' := by
  have hfence := inv.fence.effect h
  cases h with
  | idle _ now queue later same =>
      refine ⟨hfence, ?_, ?_, ?_, inv.handed, ?_, ?_, inv.locks⟩
      · simpa only [same] using inv.counted
      · simpa only [same] using inv.within
      · simpa only [same] using inv.ready
      · simpa only [same] using inv.current
      · simpa only [same] using inv.candidates
  | inserted _ row queue new ins => exact inv.inserted hfence new ins
  | selected _ c row hmem hid ready free =>
      refine ⟨hfence, inv.counted, inv.within, inv.ready, inv.handed, inv.current, ?_, ?_⟩
      · intro d hd
        rcases List.mem_cons.mp hd with rfl | hd
        · exact ⟨row, hmem, hid, ready⟩
        · exact inv.candidates d hd
      · exact List.nodup_cons.mpr ⟨free, inv.locks⟩
  | closed _ worker => exact inv.closed worker
  | leased _ c queue row hc hlease => exact inv.leased hc hlease
  | wrote _ claim f hf hclaim => exact inv.wrote hclaim hf hfence
  | reclaimed => exact inv.reclaimed unspent hfence

end AttemptInv

theorem reclaim_not_bounded {s : LaneState π} {r : QueueRow π} (hr : r ∈ s.queue.rows)
    (hstuck : stuck s.now r) (hspent : r.maxAttempts ≤ r.attempts) :
    ¬ Bounded { s with queue := (reclaimStuckQueue s.queue s.now).1 } := fun bounded =>
  bounded.spent r.released
    (mem_reclaimStuckQueue.mpr ⟨r, hr, by simp [hstuck]⟩) hspent rfl

section Runs

variable [DecidableEq π] {hash : π → String} {s₀ : LaneState π}

theorem attemptInv_of_exec {as : List (LaneAction π)} {s : LaneState π} (start : LaneInit s₀)
    (unspent : Transition.Along (laneStep hash) ReclaimsUnspent s₀ as)
    (run : Transition.exec (laneStep hash) s₀ as = some s) : AttemptInv s :=
  Transition.exec_induction_along (AttemptInv.init start)
    (fun _ _ _ inv hguard hstep => inv.effect hguard (laneStep_effect hstep)) unspent run

/-- A run keeps every row within its attempts in all its states exactly when none
    of its reclaims meets an expired row that has spent them. -/
theorem bounded_iff_reclaims_unspent {as : List (LaneAction π)} {s : LaneState π}
    (start : LaneInit s₀) (run : Transition.exec (laneStep hash) s₀ as = some s) :
    (∀ pre post t, as = pre ++ post → Transition.exec (laneStep hash) s₀ pre = some t →
      Bounded t) ↔ Transition.Along (laneStep hash) ReclaimsUnspent s₀ as := by
  constructor
  · intro bounded m hm
    obtain ⟨pre, post, rfl, hpre⟩ := Transition.exists_split_of_mem_history hm
    have hstep := Transition.step_of_mem_history hm
    obtain ⟨before, action, after⟩ := m
    dsimp only at hpre hstep run bounded ⊢
    cases action with
    | reclaim =>
        intro r hr hstuck
        by_contra hspent
        have hafter : Transition.exec (laneStep hash) s₀ (pre ++ [.reclaim]) = some after :=
          Transition.exec_append_eq_some.mpr ⟨before, hpre, Transition.exec_single.trans hstep⟩
        have hbounded := bounded (pre ++ [.reclaim]) post after (by simp) hafter
        obtain rfl : _ = after := Option.some.inj hstep
        exact reclaim_not_bounded hr hstuck (not_lt.mp hspent) hbounded
    | _ => trivial
  · intro unspent pre post t hsplit hpre
    subst hsplit
    refine (attemptInv_of_exec start (fun m hm => unspent m ?_) hpre).bounded
    rw [Transition.history_append hpre]
    exact List.mem_append_left _ hm

end Runs

/-- One delivery to a worker that dies, and the reclaim after its lease. -/
def crashedDelivery : List (LaneAction Unit) :=
  [.selectClaim 1 .materialization "worker-1" 300, .leaseClaim 1, .tick 301000000, .reclaim]

/-- The row's twelve attempts, each lost to a crash, and the next claim. -/
def alwaysCrashing : List (LaneAction Unit) :=
  [.enqueueChecked "job-1" "group-a" "materialization.compile.v1" () none 100] ++
    (List.replicate 12 crashedDelivery).flatten ++
    [.selectClaim 1 .materialization "worker-1" 300, .leaseClaim 1]

theorem alwaysCrashing_exceeds_maxAttempts :
    ∃ s, LaneInit emptyLanes ∧
      Transition.exec (laneStep emptyPayloadHash) emptyLanes alwaysCrashing = some s ∧
      ∃ r ∈ s.queue.rows, r.maxAttempts < s.claims.countP fun c => c.id = r.id := by
  have run : ((Transition.exec (laneStep emptyPayloadHash) emptyLanes alwaysCrashing).any fun s =>
      decide (∃ r ∈ s.queue.rows, r.maxAttempts < s.claims.countP fun c => c.id = r.id)) =
        true := by
    decide +kernel
  obtain ⟨s, hs, hover⟩ := Option.any_eq_true _ _ |>.mp run
  exact ⟨s, ⟨rfl, rfl, rfl⟩, hs, of_decide_eq_true hover⟩

theorem bounded_iff_reclaims_unspent_handedOn :
    ∃ s, Transition.exec (laneStep emptyPayloadHash) emptyLanes handedOn = some s ∧
      ((∀ pre post t, handedOn = pre ++ post →
        Transition.exec (laneStep emptyPayloadHash) emptyLanes pre = some t → Bounded t) ↔
      Transition.Along (laneStep emptyPayloadHash) ReclaimsUnspent emptyLanes handedOn) := by
  have run : (Transition.exec (laneStep emptyPayloadHash) emptyLanes handedOn).isSome := by
    decide +kernel
  obtain ⟨s, hs⟩ := Option.isSome_iff_exists.mp run
  exact ⟨s, hs, bounded_iff_reclaims_unspent ⟨rfl, rfl, rfl⟩ hs⟩

end FeatureGen.Runtime
