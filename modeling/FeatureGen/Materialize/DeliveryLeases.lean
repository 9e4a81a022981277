import FeatureGen.Materialize.ProvedVerdicts
import FeatureGen.Materialize.QueueLane

/-! # The leases of a delivery and its work

Both leases are granted before the compile begins, for the compile's budget and the build
proof's timeout. They outlive the compile where nothing else is bounded by a timeout of its
own.
-/

namespace FeatureGen.Materialize

open FeatureGen.Overlay (strip)
open FeatureGen.Runtime

variable {μ σ : Type} {config : MaterializationLaneConfig μ σ} {job : MaterializationJobV1}

def micros (seconds : ℚ) : ℤ := ⌊seconds * 1000000⌋

def spent (kind : Work) (pieces : List (Work × ℕ)) : ℕ :=
  ((pieces.filter fun piece => piece.1 = kind).map (·.2)).sum

/-- A delivery that holds its claim and comes to compile, from the statement that sizes the
    queue lease on; instants are microseconds. -/
structure Delivery (config : MaterializationLaneConfig μ σ) (job : MaterializationJobV1) where
  execution : Option (RunExecution μ σ)
  configured : config.executionFor job = .ok execution
  /-- The clock of `renew_materialization`. -/
  renewedAt : ℤ
  /-- The clock of `accept_request`, or of the adopter's `renew_lease`. -/
  acceptedAt : ℤ
  startedAt : ℤ
  ordered : renewedAt ≤ acceptedAt ∧ acceptedAt ≤ startedAt
  reached : Reached
  /-- The work of the compile, piece by piece, and how long each takes. -/
  pieces : List (Work × ℕ)
  worked : pieces.map (·.1) = compileWork config.l0 execution reached

namespace Delivery

def queueLease (d : Delivery config job) : ℤ :=
  d.renewedAt + makeInterval config.leaseSeconds

def requestLease (d : Delivery config job) : ℤ :=
  d.acceptedAt + makeInterval config.leaseSeconds

def endsAt (d : Delivery config job) : ℤ := d.startedAt + (d.pieces.map (·.2)).sum

/-- Everything but the external processes takes its budget at most, and they their timeouts. -/
structure WithinBounds (d : Delivery config job) : Prop where
  own : (d.startedAt - d.renewedAt) + spent .own d.pieces ≤ micros config.compileBudgetSeconds
  proof : ∀ l0 ∈ config.l0, ∀ piece ∈ d.pieces, piece.1 = .proof →
    (piece.2 : ℤ) ≤ micros l0.timeoutSeconds
  submission : ∀ e ∈ d.execution, ∀ piece ∈ d.pieces, piece.1 = .submission →
    (piece.2 : ℤ) ≤ micros e.submitter.timeoutSeconds

/-- Neither lease has expired. -/
def Unexpired (d : Delivery config job) (t : ℤ) : Prop :=
  t ≤ d.queueLease ∧ t ≤ d.requestLease

end Delivery

/-- The leases have room for a submission, where the job can come to one. -/
def MaterializationLaneConfig.Covers (config : MaterializationLaneConfig μ σ)
    (job : MaterializationJobV1) : Prop :=
  ∀ l0 ∈ config.l0, ∀ e, config.executionFor job = .ok (some e) → 0 ≤ config.compileBudgetSeconds →
    micros config.compileBudgetSeconds + micros l0.timeoutSeconds +
      micros e.submitter.timeoutSeconds ≤ makeInterval config.leaseSeconds

theorem micros_add_le (a b : ℚ) : micros a + micros b ≤ micros (a + b) := by
  unfold micros
  rw [add_mul]
  exact Int.le_floor_add _ _

theorem micros_nonneg {a : ℚ} (h : 0 ≤ a) : 0 ≤ micros a := by
  unfold micros
  exact Int.floor_nonneg.mpr (by linarith)

theorem micros_le_makeInterval (a : ℚ) : micros a ≤ makeInterval a := by
  unfold micros makeInterval Decimal.roundHalfEven
  split_ifs <;> omega

theorem spent_cons (kind : Work) (piece : Work × ℕ) (pieces : List (Work × ℕ)) :
    spent kind (piece :: pieces) = (if piece.1 = kind then piece.2 else 0) + spent kind pieces := by
  by_cases h : piece.1 = kind <;> simp [spent, h]

theorem sum_eq_spent (pieces : List (Work × ℕ)) : (pieces.map (·.2)).sum =
    spent .own pieces + spent .proof pieces + spent .submission pieces := by
  induction pieces with
  | nil => rfl
  | cons piece pieces ih =>
      obtain ⟨kind, micros⟩ := piece
      simp only [List.map_cons, List.sum_cons, spent_cons, ih]
      cases kind <;> simp <;> omega

theorem spent_le {kind : Work} {pieces : List (Work × ℕ)} {bound : ℤ} (nonneg : 0 ≤ bound)
    (once : (pieces.map (·.1)).count kind ≤ 1)
    (bounded : ∀ piece ∈ pieces, piece.1 = kind → (piece.2 : ℤ) ≤ bound) :
    (spent kind pieces : ℤ) ≤ bound := by
  induction pieces with
  | nil => simpa [spent] using nonneg
  | cons piece pieces ih =>
      rw [spent_cons]
      rw [List.map_cons, List.count_cons] at once
      by_cases h : piece.1 = kind
      · have rest : spent kind pieces = 0 := by
          simp only [h, beq_self_eq_true, if_true] at once
          have absent : kind ∉ pieces.map (·.1) := List.count_eq_zero.mp (by omega)
          have none : (pieces.filter fun piece => piece.1 = kind) = [] := by
            refine List.filter_eq_nil_iff.mpr fun other mem same => absent ?_
            exact List.mem_map.mpr ⟨other, mem, of_decide_eq_true same⟩
          simp [spent, none]
        simpa [h, rest] using bounded piece List.mem_cons_self h
      · have tail := ih (by omega) fun other mem => bounded other (List.mem_cons_of_mem _ mem)
        simpa [h] using tail

theorem count_proof_le (l0 : Option L0Interpreter) (execution : Option (RunExecution μ σ))
    (reached : Reached) : (compileWork l0 execution reached).count .proof ≤ l0.toList.length := by
  obtain ⟨sealed, built, selected, prepared⟩ := reached
  cases l0 <;> cases execution <;> cases sealed <;> cases built <;> cases selected <;>
    cases prepared <;> simp [compileWork, commitWork, executionWork]

theorem count_submission_le (l0 : Option L0Interpreter) (execution : Option (RunExecution μ σ))
    (reached : Reached) : (compileWork l0 execution reached).count .submission ≤
      l0.toList.length * execution.toList.length := by
  obtain ⟨sealed, built, selected, prepared⟩ := reached
  cases l0 <;> cases execution <;> cases sealed <;> cases built <;> cases selected <;>
    cases prepared <;> simp [compileWork, commitWork, executionWork]

theorem spent_eq_zero {kind : Work} {pieces : List (Work × ℕ)}
    (none : (pieces.map (·.1)).count kind = 0) : spent kind pieces = 0 := by
  have absent : kind ∉ pieces.map (·.1) := List.count_eq_zero.mp none
  have filtered : (pieces.filter fun piece => piece.1 = kind) = [] := by
    refine List.filter_eq_nil_iff.mpr fun piece mem same => absent ?_
    exact List.mem_map.mpr ⟨piece, mem, of_decide_eq_true same⟩
  simp [spent, filtered]

namespace Delivery

variable {d : Delivery config job}

theorem requestLease_ge : d.queueLease ≤ d.requestLease := by
  have := d.ordered.1
  simp only [queueLease, requestLease]
  omega

theorem endsAt_eq : d.endsAt = d.startedAt + spent .own d.pieces + spent .proof d.pieces +
    spent .submission d.pieces := by
  rw [endsAt, sum_eq_spent]
  push_cast
  ring

theorem spent_proof_le (h : d.WithinBounds) :
    (spent .proof d.pieces : ℤ) ≤ config.l0.elim 0 fun l0 => micros l0.timeoutSeconds := by
  have once := count_proof_le config.l0 d.execution d.reached
  rw [← d.worked] at once
  cases hl0 : config.l0 with
  | none =>
      rw [hl0] at once
      simp [spent_eq_zero (Nat.le_zero.mp once)]
  | some l0 =>
      rw [hl0] at once
      exact spent_le (micros_nonneg l0.bounded.le) once (h.proof l0 hl0)

theorem endsAt_le_of_unsubmitted (h : d.WithinBounds)
    (unsubmitted : spent .submission d.pieces = 0) : d.endsAt ≤ d.queueLease := by
  have own := h.own
  have proof := spent_proof_le h
  have room : micros config.compileBudgetSeconds +
      (config.l0.elim 0 fun l0 => micros l0.timeoutSeconds) ≤ makeInterval config.leaseSeconds := by
    refine le_trans ?_ (micros_le_makeInterval config.leaseSeconds)
    unfold MaterializationLaneConfig.leaseSeconds
    cases config.l0 with
    | none => simp
    | some l0 => exact micros_add_le _ _
  rw [endsAt_eq, unsubmitted, queueLease]
  push_cast
  omega

theorem endsAt_le (covers : config.Covers job) (h : d.WithinBounds) :
    d.endsAt ≤ d.queueLease := by
  by_cases unsubmitted : spent .submission d.pieces = 0
  · exact endsAt_le_of_unsubmitted h unsubmitted
  · have once := count_submission_le config.l0 d.execution d.reached
    rw [← d.worked] at once
    cases hl0 : config.l0 with
    | none =>
        rw [hl0] at once
        exact absurd (spent_eq_zero (by simpa using once)) unsubmitted
    | some l0 =>
        cases he : d.execution with
        | none =>
            rw [hl0, he] at once
            exact absurd (spent_eq_zero (by simpa using once)) unsubmitted
        | some e =>
            have own := h.own
            have proof := spent_proof_le h
            have ordered := d.ordered
            rw [hl0, he] at once
            have some_time : ∃ piece ∈ d.pieces, piece.1 = .submission := by
              by_contra absent
              refine unsubmitted (spent_eq_zero (List.count_eq_zero.mpr fun mem => absent ?_))
              obtain ⟨piece, mem, kind⟩ := List.mem_map.mp mem
              exact ⟨piece, mem, kind⟩
            obtain ⟨piece, mem, kind⟩ := some_time
            have submitted := h.submission e he
            have first := submitted piece mem kind
            have submission := spent_le (by omega) (by simpa using once) submitted
            have nonneg : 0 ≤ config.compileBudgetSeconds := by
              by_contra negative
              have below : micros config.compileBudgetSeconds < 0 := by
                unfold micros
                exact Int.floor_lt.mpr (by push_cast; linarith)
              omega
            have room := covers l0 hl0 e (he ▸ d.configured) nonneg
            rw [hl0] at proof
            simp only [Option.elim_some] at proof
            rw [endsAt_eq, queueLease]
            omega

/-- Nobody else comes to the message or to the request. -/
structure Undisturbed (d : Delivery config job) (t : ℤ) : Prop where
  /-- The message stays leased. -/
  unreclaimed : ∀ (π : Type) (q : Queue π) row, row ∈ q.rows →
    row.leaseExpiresAt = some d.queueLease → row ∈ (reclaimStuckQueue q t).1.rows
  /-- No worker claims a message of its group. -/
  unclaimed : ∀ (π : Type) (q : Queue π) handles locked row row', row ∈ q.rows →
    row.status = .leased → selectReady q handles locked t = some row' →
      row'.partitionKey ≠ row.partitionKey
  unadopted : ∀ request, request.leaseExpiresAt = some d.requestLease →
    adoptable request t = false
  /-- The reconciler has no reason to judge the request. -/
  unjudged : ∀ rows queue limit request,
    (queue (materializationMessageId request.requestId)).any (·.status = .leased) →
      request.leaseExpiresAt = some d.requestLease →
        request ∉ candidates (unreachableRequests rows queue limit)
          (expiredRequests rows t limit) limit

theorem Unexpired.undisturbed {t : ℤ} (h : d.Unexpired t) : d.Undisturbed t where
  unreclaimed π q row mem leased := by
    refine Queue.mem_updateWhere.mpr ⟨row, mem, ?_⟩
    have kept : stuck t row = false := by
      refine decide_eq_false fun late => ?_
      obtain ⟨_, e, he, past⟩ := late
      obtain rfl : d.queueLease = e := Option.some.inj (leased.symm.trans he)
      exact absurd past (not_lt.mpr h.1)
    simp [kept]
  unclaimed π q handles locked row row' mem leased selected := by
    intro same
    obtain ⟨_, _, _, _, free, _⟩ := selectReady_some selected
    refine free (List.mem_map.mpr ⟨row, List.mem_filter.mpr ⟨mem, ?_⟩, same.symm⟩)
    exact decide_eq_true leased
  unadopted request leased := by
    simp [adoptable, leased, not_lt.mpr h.2]
  unjudged rows queue limit request delivered leased mem := by
    have found := (KeySort.mem_sortBy _).mp (List.mem_of_mem_take mem)
    rcases List.mem_append.mp found with unreachable | expired
    · have listed := (KeySort.mem_sortBy _).mp (List.mem_of_mem_take unreachable)
      have lost := (List.mem_filter.mp listed).2
      obtain ⟨message, hmessage, status⟩ := (Option.any_eq_true _ _).mp delivered
      simp [deliverable, hmessage, Message.reachable, unreachableMessageStatuses,
        of_decide_eq_true status] at lost
    · have listed := (KeySort.mem_sortBy _).mp (List.mem_of_mem_take (List.mem_filter.mp expired).1)
      have late := (List.mem_filter.mp listed).2
      simp [leased, not_lt.mpr h.2] at late

/-- The work of a compile that comes to its submission, and how long it takes. -/
def submittedPieces (own proof submission : ℕ) : List (Work × ℕ) :=
  [(.own, own), (.proof, proof), (.own, 0), (.submission, submission), (.own, 0)]

theorem submittedPieces_worked {l0 : L0Interpreter} (hl0 : config.l0 = some l0)
    (e : RunExecution μ σ) (own proof submission : ℕ) :
    (submittedPieces own proof submission).map (·.1) =
      compileWork config.l0 (some e) ⟨true, true, true, true⟩ := by
  simp [submittedPieces, hl0, compileWork, commitWork, executionWork]

/-- A delivery that comes to its submission. -/
def submitting {l0 : L0Interpreter} (hl0 : config.l0 = some l0) {e : RunExecution μ σ}
    (configured : config.executionFor job = .ok (some e)) (own proof submission : ℕ) :
    Delivery config job where
  execution := some e
  configured := configured
  renewedAt := 0
  acceptedAt := 0
  startedAt := 0
  ordered := (and_self_iff.mpr le_rfl : (0 : ℤ) ≤ 0 ∧ (0 : ℤ) ≤ 0)
  reached := ⟨true, true, true, true⟩
  pieces := submittedPieces own proof submission
  worked := submittedPieces_worked hl0 e own proof submission

variable {l0 : L0Interpreter} {hl0 : config.l0 = some l0} {e : RunExecution μ σ}
  {configured : config.executionFor job = .ok (some e)} {own proof submission : ℕ}

theorem submitting_endsAt : (submitting hl0 configured own proof submission).endsAt =
    own + proof + submission := by
  simp only [endsAt, submitting, submittedPieces, List.map_cons, List.map_nil, List.sum_cons,
    List.sum_nil]
  omega

theorem submitting_withinBounds (hown : (own : ℤ) ≤ micros config.compileBudgetSeconds)
    (hproof : (proof : ℤ) ≤ micros l0.timeoutSeconds)
    (hsubmission : (submission : ℤ) ≤ micros e.submitter.timeoutSeconds) :
    (submitting hl0 configured own proof submission).WithinBounds := by
  refine ⟨?_, fun l0' hl0' piece mem kind => ?_, fun e' he' piece mem kind => ?_⟩
  · simpa [submitting, submittedPieces, spent] using hown
  · obtain rfl : l0 = l0' := Option.some.inj (hl0.symm.trans hl0')
    simp only [submitting, submittedPieces, List.mem_cons, List.not_mem_nil, or_false] at mem
    rcases mem with rfl | rfl | rfl | rfl | rfl <;> cases kind
    exact hproof
  · obtain rfl : e = e' := Option.some.inj he'
    simp only [submitting, submittedPieces, List.mem_cons, List.not_mem_nil, or_false] at mem
    rcases mem with rfl | rfl | rfl | rfl | rfl <;> cases kind
    exact hsubmission

end Delivery

/-- The leases outlive the work where they have room for a submission, and while they last no
    one else comes to the message or the request. -/
theorem leases_outlive_work_iff (config : MaterializationLaneConfig μ σ)
    (job : MaterializationJobV1) :
    ((∀ d : Delivery config job, d.WithinBounds → ∀ t, d.startedAt ≤ t → t ≤ d.endsAt →
        d.Unexpired t) ↔ config.Covers job) ∧
      ∀ (d : Delivery config job) (t : ℤ), d.Unexpired t → d.Undisturbed t := by
  refine ⟨⟨fun outlive => ?_, fun covers d bounds t _ ends => ?_⟩, fun d t h => h.undisturbed⟩
  · intro l0 hl0 e configured nonneg
    by_contra less
    have budget := micros_nonneg nonneg
    have proof := micros_nonneg l0.bounded.le
    have positive : 0 ≤ micros e.submitter.timeoutSeconds := by
      have room : micros config.compileBudgetSeconds + micros l0.timeoutSeconds ≤
          makeInterval config.leaseSeconds := by
        refine le_trans (micros_add_le _ _) ?_
        rw [MaterializationLaneConfig.leaseSeconds, Option.mem_def.mp hl0]
        exact micros_le_makeInterval _
      omega
    -- The compile that uses up every timeout ends after the leases.
    have bounds : (Delivery.submitting hl0 configured (micros config.compileBudgetSeconds).toNat
        (micros l0.timeoutSeconds).toNat (micros e.submitter.timeoutSeconds).toNat).WithinBounds :=
      Delivery.submitting_withinBounds (Int.toNat_of_nonneg budget).le
        (Int.toNat_of_nonneg proof).le (Int.toNat_of_nonneg positive).le
    have kept := (outlive _ bounds _ (by rw [Delivery.submitting_endsAt]; positivity) le_rfl).1
    rw [Delivery.submitting_endsAt] at kept
    simp only [Delivery.queueLease, Delivery.submitting, zero_add] at kept
    omega
  · have first := Delivery.endsAt_le covers bounds
    exact ⟨ends.trans first, ends.trans (first.trans Delivery.requestLease_ge)⟩

theorem python_named : strip "python3" ≠ "" := by decide +kernel

theorem proof_bounded : (0 : ℚ) < 300 := by norm_num

def executingL0 : L0Interpreter := ⟨"python3", 300, python_named, proof_bounded⟩

/-- Five minutes for the build proof, an hour for the submission. -/
def executingConfig : MaterializationLaneConfig Unit Unit where
  l0 := some executingL0
  compileBudgetSeconds := compileBudgetSeconds
  metastore := some ()
  submitter := some ⟨"python3", 3600⟩
  swap := some ()
  stagingBase := some "staging"

def datedJob : MaterializationJobV1 := ⟨"request", some "2026-07-06"⟩

theorem date_named : strip "2026-07-06" ≠ "" := by decide +kernel

theorem staging_named : strip "staging" ≠ "" := by decide +kernel

def executingRun : RunExecution Unit Unit :=
  ⟨(), ⟨"python3", 3600⟩, (), "2026-07-06", "staging", date_named, staging_named⟩

theorem executingConfig_configured :
    executingConfig.executionFor datedJob = .ok (some executingRun) := by
  simp only [MaterializationLaneConfig.executionFor, executingConfig, datedJob,
    MaterializationLaneConfig.runExecution, date_named, staging_named, dif_pos, ne_eq,
    not_false_eq_true]
  rfl

theorem executingConfig_l0 : executingConfig.l0 = some executingL0 := rfl

/-- The compile takes half a minute, the build proof as long, and the pipeline fifty minutes. -/
def slowSubmission : Delivery executingConfig datedJob :=
  Delivery.submitting executingConfig_l0 executingConfig_configured 30000000 30000000 3000000000

/-- The pipeline runs within its timeout, and both leases expire. -/
theorem leases_expire_under_submission : slowSubmission.WithinBounds ∧
    ∃ t, slowSubmission.startedAt ≤ t ∧ t ≤ slowSubmission.endsAt ∧
      slowSubmission.queueLease < t ∧ slowSubmission.requestLease < t := by
  have lease : makeInterval executingConfig.leaseSeconds = 900000000 := by
    have seconds : executingConfig.leaseSeconds * 1000000 = ((900000000 : ℤ) : ℚ) := by
      norm_num [MaterializationLaneConfig.leaseSeconds, executingConfig, executingL0,
        compileBudgetSeconds]
    rw [makeInterval, seconds, Decimal.roundHalfEven_intCast]
  refine ⟨Delivery.submitting_withinBounds ?_ ?_ ?_, 3000000000, ?_, ?_, ?_, ?_⟩
  · norm_num [micros, executingConfig, compileBudgetSeconds]
  · norm_num [micros, executingL0]
  · norm_num [micros, executingRun]
  · norm_num [slowSubmission, Delivery.submitting]
  · rw [slowSubmission, Delivery.submitting_endsAt]
    norm_num
  · rw [Delivery.queueLease, lease]
    norm_num [slowSubmission, Delivery.submitting]
  · rw [Delivery.requestLease, lease]
    norm_num [slowSubmission, Delivery.submitting]

end FeatureGen.Materialize
