import FeatureGen.Lib.RowLocks
import FeatureGen.Lib.Transition
import FeatureGen.Materialize.GroupPlan

/-! # Publication attempts

`materialize/publication_attempt_store.py` over the table of migration 1081. The read
for a blocking attempt and the INSERT are statements of their own; an attempt is settled
and reconciled by conditional updates.

The partial unique index keeps one blocking attempt a group, whatever the reads saw, and
the conditions of the updates let an outcome and a reconciliation be written once. An
INSERT that meets a row under its attempt's id does nothing, and the call returns the id
all the same: what is stored is then the earlier attempt, as it has become.
-/

namespace FeatureGen.Materialize

open FeatureGen.Overlay RowLocks

inductive PublicationOutcome where
  | started
  | succeeded
  | failed
  | unknownReconciliationRequired
  deriving DecidableEq

def PublicationOutcome.blocksRetry (outcome : PublicationOutcome) : Bool :=
  outcome = .started || outcome = .unknownReconciliationRequired

structure PublicationAttempt where
  attemptId : String
  environmentId : String
  logicalGroupName : String
  verifiedOutputRevisionId : String
  sealedArtifactId : String
  expectedActiveRevisionId : Option String
  publishMechanism : String
  capabilityAttestation : String
  outcome : PublicationOutcome
  detail : String
  deriving DecidableEq

/-- The fields that are not blank, by `__post_init__`. -/
def PublicationAttempt.texts (attempt : PublicationAttempt) : List String :=
  [attempt.attemptId, attempt.environmentId, attempt.logicalGroupName,
    attempt.verifiedOutputRevisionId, attempt.sealedArtifactId, attempt.publishMechanism,
    attempt.capabilityAttestation]

/-- A row of `publication_attempt`. -/
structure AttemptRow where
  attempt : PublicationAttempt
  startedAt : String
  reconciledAt : Option String
  reconciledOutcome : Option PublicationOutcome

namespace AttemptRow

def group (row : AttemptRow) : String × String :=
  (row.attempt.environmentId, row.attempt.logicalGroupName)

def blocks (row : AttemptRow) : Bool :=
  row.reconciledAt = none && row.attempt.outcome.blocksRetry

/-- `publication_attempt_one_blocking`. -/
def oneBlocking (row : AttemptRow) : Option (String × String) :=
  if row.blocks then some row.group else none

/-- `s10_publication_attempt_guard`, of an UPDATE. -/
def guarded (old new : AttemptRow) : Bool :=
  { new.attempt with outcome := old.attempt.outcome, detail := old.attempt.detail } = old.attempt &&
    new.startedAt = old.startedAt &&
    (old.attempt.outcome = new.attempt.outcome || old.attempt.outcome = .started) &&
    (old.reconciledAt = none || new.reconciledAt = old.reconciledAt)

/-- `publication_attempt_reconciliation_is_whole` and
    `publication_attempt_only_uncertain_is_reconciled`. -/
def checked (row : AttemptRow) : Bool :=
  row.reconciledAt.isNone = row.reconciledOutcome.isNone &&
    (row.reconciledAt.isNone || row.attempt.outcome = .unknownReconciliationRequired)

def settle (row : AttemptRow) (outcome : PublicationOutcome) (detail : String) : AttemptRow where
  attempt := { row.attempt with outcome := outcome, detail := detail }
  startedAt := row.startedAt
  reconciledAt := row.reconciledAt
  reconciledOutcome := row.reconciledOutcome

def reconcile (row : AttemptRow) (outcome : PublicationOutcome) (reconciledAt : String) :
    AttemptRow where
  attempt := row.attempt
  startedAt := row.startedAt
  reconciledAt := some reconciledAt
  reconciledOutcome := some outcome

end AttemptRow

abbrev AttemptRows := Rows String AttemptRow

def blockingAttempt (rows : AttemptRows) (txn : ℕ) (group : String × String) : Option String :=
  (rows.scan txn fun row => row.group = group && row.blocks).head?

/-- A call of `record_publication_attempt` that has not found it blocked. -/
structure AttemptCall where
  attempt : PublicationAttempt
  startedAt : String

def AttemptCall.row (call : AttemptCall) : AttemptRow := ⟨call.attempt, call.startedAt, none, none⟩

/-- What the INSERT of a call comes to. -/
inductive Recorded where
  | waits
  /-- A check or the index fails. -/
  | raises
  /-- The call returns the attempt's id. -/
  | returns (rows : AttemptRows)

/-- The INSERT, `ON CONFLICT (attempt_id) DO NOTHING`. -/
def AttemptCall.insert (call : AttemptCall) (rows : AttemptRows) (txn : ℕ) : Recorded :=
  if sqlBlank call.startedAt then .raises
  else if ¬ rows.free txn call.attempt.attemptId then .waits
  else if (rows.visible txn call.attempt.attemptId).isSome then .returns rows
  else if ¬ rows.clear AttemptRow.oneBlocking txn call.attempt.attemptId (some call.row) then .waits
  else if rows.violates AttemptRow.oneBlocking txn call.attempt.attemptId (some call.row) then
    .raises
  else .returns (rows.write txn call.attempt.attemptId (some call.row))

structure AttemptTable where
  rows : AttemptRows
  /-- The call each transaction has under way. -/
  calls : ℕ → Option AttemptCall

inductive AttemptAction where
  /-- `record_publication_attempt`, up to the INSERT. -/
  | record (txn : ℕ) (attempt : PublicationAttempt) (observedActiveRevisionId : Option String)
      (startedAt : String)
  | insert (txn : ℕ)
  | settle (txn : ℕ) (attemptId : String) (outcome : PublicationOutcome) (detail : String)
  | reconcile (txn : ℕ) (attemptId : String) (observedOutcome : PublicationOutcome)
      (reconciledAt : String)
  | commit (txn : ℕ)
  | rollback (txn : ℕ)

namespace AttemptTable

/-- A statement that raises, the caller, or a crash ends the transaction. -/
def rollback (w : AttemptTable) (txn : ℕ) : AttemptTable where
  rows := w.rows.rollback txn
  calls := Function.update w.calls txn none

def update (w : AttemptTable) (txn : ℕ) (attemptId : String) (p : AttemptRow → Bool)
    (f : AttemptRow → AttemptRow) : Option AttemptTable :=
  match (w.rows.visible txn attemptId).filter p with
  | none => some w
  | some row =>
      if ¬ w.rows.free txn attemptId then none
      else if row.guarded (f row) && (f row).checked then
        some { w with rows := w.rows.write txn attemptId (some (f row)) }
      else some (w.rollback txn)

def step (w : AttemptTable) : AttemptAction → Option AttemptTable
  | .record txn attempt observed startedAt =>
      match w.calls txn with
      | some _ => none
      | none =>
          if attempt.texts.any (strip · = "") then some w
          else if attempt.expectedActiveRevisionId.any (strip · = "") then some w
          else if attempt.expectedActiveRevisionId ≠ observed then some w
          else if (blockingAttempt w.rows txn (attempt.environmentId, attempt.logicalGroupName)).any
              (· ≠ attempt.attemptId) then some w
          else some { w with calls := Function.update w.calls txn (some ⟨attempt, startedAt⟩) }
  | .insert txn =>
      match w.calls txn with
      | none => none
      | some call =>
          match call.insert w.rows txn with
          | .waits => none
          | .raises => some (w.rollback txn)
          | .returns rows => some ⟨rows, Function.update w.calls txn none⟩
  | .settle txn attemptId outcome detail =>
      match w.calls txn with
      | some _ => none
      | none =>
          if outcome = .started then some w
          else w.update txn attemptId (·.attempt.outcome = .started) (·.settle outcome detail)
  | .reconcile txn attemptId observed reconciledAt =>
      match w.calls txn with
      | some _ => none
      | none =>
          if observed ≠ .succeeded ∧ observed ≠ .failed then some w
          else w.update txn attemptId (fun row =>
            row.attempt.outcome = .unknownReconciliationRequired && row.reconciledAt = none)
            (·.reconcile observed reconciledAt)
  | .commit txn =>
      match w.calls txn with
      | some _ => none
      | none => some { w with rows := w.rows.commit txn }
  | .rollback txn => some (w.rollback txn)

def empty : AttemptTable where
  rows := ⟨[], fun _ => none, fun _ => none⟩
  calls _ := none

end AttemptTable

end FeatureGen.Materialize

namespace FeatureGen.Materialize

open RowLocks Transition

namespace AttemptTable

structure Becomes (old new : AttemptRow) : Prop where
  identity : { new.attempt with outcome := old.attempt.outcome, detail := old.attempt.detail } =
    old.attempt
  startedAt : new.startedAt = old.startedAt
  settled : old.attempt.outcome ≠ .started → new.attempt = old.attempt
  reconciled : old.reconciledAt ≠ none →
    new.reconciledAt = old.reconciledAt ∧ new.reconciledOutcome = old.reconciledOutcome

/-- A row stays, and becomes what it can. -/
def Lasts (old new : Option AttemptRow) : Prop :=
  ∀ row, old = some row → ∃ row', new = some row' ∧ Becomes row row'

theorem Becomes.refl (row : AttemptRow) : Becomes row row :=
  ⟨rfl, rfl, fun _ => rfl, fun _ => ⟨rfl, rfl⟩⟩

theorem Becomes.trans {a b c : AttemptRow} (h : Becomes a b) (h' : Becomes b c) : Becomes a c where
  identity := by
    have first := h.identity
    have second := h'.identity
    rw [← first, ← second]
  startedAt := h'.startedAt.trans h.startedAt
  settled hs := by
    have same := h.settled hs
    rw [h'.settled (by rwa [same]), same]
  reconciled hr := by
    obtain ⟨hat, hout⟩ := h.reconciled hr
    obtain ⟨hat', hout'⟩ := h'.reconciled (by rwa [hat])
    exact ⟨hat'.trans hat, hout'.trans hout⟩

theorem lasts_refl (row : Option AttemptRow) : Lasts row row :=
  fun r hr => ⟨r, hr, Becomes.refl r⟩

theorem lasts_trans (a b c : Option AttemptRow) (h : Lasts a b) (h' : Lasts b c) : Lasts a c := by
  intro row hrow
  obtain ⟨row', hrow', first⟩ := h row hrow
  obtain ⟨row'', hrow'', second⟩ := h' row' hrow'
  exact ⟨row'', hrow'', first.trans second⟩

variable {w w' : AttemptTable} {txn : ℕ} {attemptId : String} {call : AttemptCall}

theorem becomes_settle {row : AttemptRow} (started : row.attempt.outcome = .started)
    (outcome : PublicationOutcome) (detail : String) : Becomes row (row.settle outcome detail) where
  identity := rfl
  startedAt := rfl
  settled hs := absurd started hs
  reconciled _ := ⟨rfl, rfl⟩

theorem becomes_reconcile {row : AttemptRow} (unreconciled : row.reconciledAt = none)
    (outcome : PublicationOutcome) (reconciledAt : String) :
    Becomes row (row.reconcile outcome reconciledAt) where
  identity := rfl
  startedAt := rfl
  settled _ := rfl
  reconciled hr := absurd unreconciled hr

inductive Stepped (w : AttemptTable) : AttemptAction → AttemptTable → Prop where
  | raised (action) : Stepped w action w
  | rolledBack (action) (txn : ℕ) : Stepped w action (w.rollback txn)
  | begun (txn attempt observed startedAt) : Stepped w (.record txn attempt observed startedAt)
      { w with calls := Function.update w.calls txn (some ⟨attempt, startedAt⟩) }
  | returned (txn : ℕ) (call : AttemptCall) (begun : w.calls txn = some call) (rows : AttemptRows)
      (returns : call.insert w.rows txn = .returns rows) :
      Stepped w (.insert txn) ⟨rows, Function.update w.calls txn none⟩
  | updated (action) (txn : ℕ) (attemptId : String) (row new : AttemptRow)
      (seen : w.rows.visible txn attemptId = some row)
      (free : w.rows.free txn attemptId = true) (becomes : Becomes row new)
      (entry : ∀ g, new.oneBlocking = some g → row.oneBlocking = some g) :
      Stepped w action { w with rows := w.rows.write txn attemptId (some new) }
  | committed (txn : ℕ) : Stepped w (.commit txn) { w with rows := w.rows.commit txn }

theorem stepped_update {action : AttemptAction} {p : AttemptRow → Bool}
    {f : AttemptRow → AttemptRow} (h : w.update txn attemptId p f = some w')
    (becomes : ∀ row, p row = true → Becomes row (f row))
    (entry : ∀ row g, p row = true → (f row).oneBlocking = some g → row.oneBlocking = some g) :
    Stepped w action w' := by
  unfold update at h
  split at h
  · cases h
    exact .raised action
  · rename_i row found
    obtain ⟨seen, hp⟩ := Option.filter_eq_some_iff.mp found
    split at h
    · cases h
    · rename_i free
      split at h
      · cases h
        exact .updated action txn attemptId row (f row) seen (by simpa using free) (becomes row hp)
          fun g => entry row g hp
      · cases h
        exact .rolledBack action txn

theorem stepped {action : AttemptAction} (h : w.step action = some w') :
    Stepped w action w' := by
  cases action with
  | record txn attempt observed startedAt =>
      simp only [step] at h
      split at h
      · cases h
      · split at h
        · cases h
          exact .raised _
        · split at h
          · cases h
            exact .raised _
          · split at h
            · cases h
              exact .raised _
            · split at h
              · cases h
                exact .raised _
              · cases h
                exact .begun txn attempt observed startedAt
  | insert txn =>
      simp only [step] at h
      split at h
      · cases h
      · rename_i call begun
        split at h
        · cases h
        · cases h
          exact .rolledBack _ txn
        · rename_i rows returns
          cases h
          exact .returned txn call begun rows returns
  | settle txn attemptId outcome detail =>
      simp only [step] at h
      split at h
      · cases h
      · split at h
        · cases h
          exact .raised _
        · refine stepped_update h (fun row started => ?_) fun row g started hg => ?_
          · exact becomes_settle (by simpa using started) outcome detail
          · simp only [AttemptRow.oneBlocking, AttemptRow.blocks, AttemptRow.settle,
              AttemptRow.group, Option.ite_none_right_eq_some, Bool.and_eq_true] at hg ⊢
            have held : row.attempt.outcome.blocksRetry = true := by
              simp [PublicationOutcome.blocksRetry, of_decide_eq_true started]
            exact ⟨⟨hg.1.1, held⟩, hg.2⟩
  | reconcile txn attemptId observed reconciledAt =>
      simp only [step] at h
      split at h
      · cases h
      · split at h
        · cases h
          exact .raised _
        · refine stepped_update h (fun row open_ => ?_) fun row g open_ hg => ?_
          · exact becomes_reconcile (by simp_all) observed reconciledAt
          · simp [AttemptRow.oneBlocking, AttemptRow.blocks, AttemptRow.reconcile] at hg
  | commit txn =>
      simp only [step] at h
      split at h
      · cases h
      · cases h
        exact .committed txn
  | rollback txn =>
      cases h
      exact .rolledBack _ txn

theorem insert_eq_returns {rows rows' : AttemptRows} (h : call.insert rows txn = .returns rows') :
    rows.free txn call.attempt.attemptId = true ∧
      ((rows.visible txn call.attempt.attemptId ≠ none ∧ rows' = rows) ∨
        (rows.visible txn call.attempt.attemptId = none ∧
          rows.clear AttemptRow.oneBlocking txn call.attempt.attemptId (some call.row) = true ∧
          rows.violates AttemptRow.oneBlocking txn call.attempt.attemptId (some call.row) = false ∧
          rows' = rows.write txn call.attempt.attemptId (some call.row))) := by
  unfold AttemptCall.insert at h
  split at h
  · cases h
  · split at h
    · cases h
    · rename_i free
      refine ⟨by simpa using free, ?_⟩
      split at h
      · rename_i found
        cases h
        exact Or.inl ⟨Option.isSome_iff_ne_none.mp found, rfl⟩
      · rename_i none
        split at h
        · cases h
        · rename_i clear
          split at h
          · cases h
          · rename_i kept
            cases h
            exact Or.inr ⟨by simpa using none, by simpa using clear, by simpa using kept, rfl⟩

theorem insert_of_held {rows : AttemptRows} (passes : sqlBlank call.startedAt = false)
    (held : rows.free txn call.attempt.attemptId = false) : call.insert rows txn = .waits := by
  simp [AttemptCall.insert, passes, held]

theorem insert_of_visible {rows : AttemptRows} (passes : sqlBlank call.startedAt = false)
    (free : rows.free txn call.attempt.attemptId = true)
    (found : (rows.visible txn call.attempt.attemptId).isSome = true) :
    call.insert rows txn = .returns rows := by
  simp [AttemptCall.insert, passes, free, found]

theorem passes_of_returns {rows rows' : AttemptRows} (h : call.insert rows txn = .returns rows') :
    sqlBlank call.startedAt = false := by
  by_contra blank
  simp [AttemptCall.insert, Bool.not_eq_false _ ▸ blank] at h

structure Kept (w : AttemptTable) : Prop where
  listed : w.rows.Listed
  unique : w.rows.Unique AttemptRow.oneBlocking
  lasting : w.rows.Follow Lasts

theorem kept_empty : empty.Kept where
  listed := ⟨by simp [empty], by simp [empty], by simp [empty]⟩
  unique := ⟨by simp [empty], by simp [empty], by simp [empty]⟩
  lasting := by simp [Rows.Follow, empty]

theorem Kept.rollback (h : w.Kept) : (w.rollback txn).Kept where
  listed := h.listed.rollback
  unique := h.unique.rollback
  lasting := h.lasting.apply lasts_refl lasts_trans (.rollback txn) (P := fun _ _ => True) trivial

theorem Kept.write (h : w.Kept) {row : AttemptRow} (free : w.rows.free txn attemptId = true)
    (unique : (w.rows.write txn attemptId (some row)).Unique AttemptRow.oneBlocking)
    (lasts : Lasts (w.rows.visible txn attemptId) (some row)) {calls : ℕ → Option AttemptCall} :
    Kept ⟨w.rows.write txn attemptId (some row), calls⟩ where
  listed := h.listed.write
  unique := unique
  lasting := h.lasting.apply lasts_refl lasts_trans (.write txn attemptId (some row))
    (P := fun _ _ => True) ⟨free, by simp, lasts⟩

theorem Kept.commit (h : w.Kept) : Kept { w with rows := w.rows.commit txn } where
  listed := h.listed.commit
  unique := h.unique.commit
  lasting := h.lasting.apply lasts_refl lasts_trans (.commit txn) (P := fun _ _ => True) trivial

theorem Kept.step {action : AttemptAction} (h : w.Kept) (hstep : w.step action = some w') :
    w'.Kept ∧ ∀ k, Lasts (w.rows.committed k) (w'.rows.committed k) := by
  cases stepped hstep with
  | raised action => exact ⟨h, fun _ => lasts_refl _⟩
  | rolledBack action txn => exact ⟨h.rollback, fun _ => lasts_refl _⟩
  | begun txn attempt observed startedAt =>
      exact ⟨⟨h.listed, h.unique, h.lasting⟩, fun _ => lasts_refl _⟩
  | returned txn call begun rows returns =>
      obtain ⟨free, ⟨_, rfl⟩ | ⟨unseen, clear, kept, rfl⟩⟩ := insert_eq_returns returns
      · exact ⟨⟨h.listed, h.unique, h.lasting⟩, fun _ => lasts_refl _⟩
      · refine ⟨h.write free (h.unique.write h.listed free clear kept) ?_, fun _ => lasts_refl _⟩
        rw [unseen]
        exact fun row hrow => by cases hrow
  | updated action txn attemptId row new seen free becomes entry =>
      refine ⟨h.write free (h.unique.rewrite h.listed free ?_) ?_, fun _ => lasts_refl _⟩
      · rw [seen]
        exact entry
      · rw [seen]
        intro old hold
        cases hold
        exact ⟨new, rfl, becomes⟩
  | committed txn =>
      exact ⟨h.commit, h.lasting.committed lasts_refl (.commit txn)⟩

theorem Kept.run {actions : List AttemptAction} (h : w.Kept)
    (run : exec AttemptTable.step w actions = some w') :
    w'.Kept ∧ ∀ k, Lasts (w.rows.committed k) (w'.rows.committed k) := by
  refine exec_induction (P := fun v => v.Kept ∧ ∀ k, Lasts (w.rows.committed k)
    (v.rows.committed k)) ⟨h, fun _ => lasts_refl _⟩ (fun v a v' hv hstep => ?_) run
  obtain ⟨kept, lasts⟩ := hv.1.step hstep
  exact ⟨kept, fun k => lasts_trans _ _ _ (hv.2 k) (lasts k)⟩

/-- At most one unreconciled attempt of a group is started or uncertain. -/
def OneBlocking (w : AttemptTable) : Prop :=
  ∀ k k' row row', w.rows.committed k = some row → w.rows.committed k' = some row' →
    row.blocks = true → row'.blocks = true → row.group = row'.group → k = k'

/-- A call that returns leaves its attempt under the attempt's id, as it was submitted. -/
def Truthful (w : AttemptTable) : AttemptAction → Prop
  | .insert txn => ∀ call rows, w.calls txn = some call → call.insert w.rows txn = .returns rows →
      ∃ row, rows.visible txn call.attempt.attemptId = some row ∧ row.attempt = call.attempt
  | _ => True

/-- An attempt that passes its checks is inserted where no row is stored under its id, or the
    row is of that attempt, in its outcome. -/
def unused (w : AttemptTable) : AttemptAction → Bool
  | .insert txn => (w.calls txn).all fun call => sqlBlank call.startedAt ||
      (w.rows.visible txn call.attempt.attemptId).all (·.attempt = call.attempt)
  | _ => true

theorem unused_insert (h : w.unused (.insert txn) = true) (begun : w.calls txn = some call)
    (passes : sqlBlank call.startedAt = false) {row : AttemptRow}
    (seen : w.rows.visible txn call.attempt.attemptId = some row) : row.attempt = call.attempt := by
  simpa [unused, begun, passes, seen] using h

theorem Kept.oneBlocking (h : w.Kept) : w.OneBlocking := by
  intro k k' row row' hrow hrow' blocks blocks' same
  by_contra hne
  refine h.unique.committed k k' row.group hne ?_ ?_
  · simp [hrow, AttemptRow.oneBlocking, blocks]
  · simp [hrow', AttemptRow.oneBlocking, blocks', same]

theorem truthful_iff_unused {action : AttemptAction} (hstep : w.step action = some w') :
    w.Truthful action ↔ w.unused action = true := by
  cases action with
  | insert txn =>
      cases hcall : w.calls txn with
      | none => simp [Truthful, unused, hcall]
      | some call =>
          constructor
          · intro truthful
            simp only [unused, hcall, Option.all_some, Bool.or_eq_true, Option.all_eq_true]
            refine or_iff_not_imp_left.mpr fun passes row seen => ?_
            have passes : sqlBlank call.startedAt = false := by simpa using passes
            have returns : call.insert w.rows txn = .returns w.rows := by
              refine insert_of_visible passes ?_ (by simp [seen])
              by_contra held
              simp [step, hcall, insert_of_held passes (by simpa using held)] at hstep
            obtain ⟨row', seen', same⟩ := truthful call w.rows hcall returns
            obtain rfl : row = row' := Option.some.inj (seen.symm.trans seen')
            exact decide_eq_true same
          · intro new call' rows hcall' returns
            obtain rfl : call = call' := by simpa [hcall] using hcall'
            obtain ⟨free, ⟨found, rfl⟩ | ⟨_, _, _, rfl⟩⟩ := insert_eq_returns returns
            · obtain ⟨row, seen⟩ := Option.ne_none_iff_exists'.mp found
              exact ⟨row, seen, unused_insert new hcall (passes_of_returns returns) seen⟩
            · exact ⟨call.row, Rows.visible_of_holder Rows.drafts_write_self, rfl⟩
  | _ => simp [Truthful, unused]

/-- In every interleaving, crashes included, one attempt of a group blocks, an outcome leaves
    started once and a reconciliation is written once; and every call that returns has stored
    its attempt exactly where every attempt is inserted under an id of its own. -/
theorem attempts_serialized_and_truthful_iff {actions : List AttemptAction}
    (run : exec step empty actions = some w) :
    (w.OneBlocking ∧
      (∀ before after v, actions = before ++ after → exec step empty before = some v →
        ∀ k, Lasts (v.rows.committed k) (w.rows.committed k)) ∧
      Along step Truthful empty actions) ↔ Along step (fun w a => w.unused a) empty actions := by
  have each : Along step Truthful empty actions ↔ Along step (fun w a => w.unused a) empty actions :=
    forall₂_congr fun m hm => truthful_iff_unused (step_of_mem_history hm)
  constructor
  · exact fun h => each.mp h.2.2
  · intro unused
    refine ⟨(kept_empty.run run).1.oneBlocking, ?_, each.mpr unused⟩
    rintro before after v rfl first k
    obtain ⟨v', first', rest⟩ := exec_append_eq_some.mp run
    obtain rfl : v = v' := Option.some.inj (first.symm.trans first')
    exact ((kept_empty.run first).1.run rest).2 k

def attempted : PublicationAttempt where
  attemptId := "pa-1"
  environmentId := "production"
  logicalGroupName := "churn"
  verifiedOutputRevisionId := "out_1"
  sealedArtifactId := "art_1"
  expectedActiveRevisionId := none
  publishMechanism := "SET_LOCATION"
  capabilityAttestation := "att_1"
  outcome := .started
  detail := ""

def startedAt : String := "2026-08-15T10:00:00+00:00"

def settling : List AttemptAction :=
  [.record 1 attempted none startedAt, .insert 1, .commit 1, .settle 2 "pa-1" .failed "no swap",
    .commit 2]

/-- Recorded again, it is not begun again, and the call returns. -/
theorem settled_attempt_returned : ∃ w w',
    exec step empty (settling ++ [.record 3 attempted none startedAt]) = some w ∧
      w.step (.insert 3) = some w' ∧ ¬ w.Truthful (.insert 3) ∧
      (w'.rows.visible 3 "pa-1").map (·.attempt.outcome) = some .failed := by
  have computed : (exec step empty (settling ++ [.record 3 attempted none startedAt])).any (fun w =>
      !w.unused (.insert 3) && (w.step (.insert 3)).any fun w' =>
        (w'.rows.visible 3 "pa-1").map (·.attempt.outcome) = some .failed) = true := by
    decide +kernel
  obtain ⟨w, run, hw⟩ := (Option.any_eq_true _ _).mp computed
  obtain ⟨used, next⟩ := Bool.and_eq_true_iff.mp hw
  obtain ⟨w', hstep, stored⟩ := (Option.any_eq_true _ _).mp next
  refine ⟨w, w', run, hstep, fun truthful => ?_, of_decide_eq_true stored⟩
  rw [(truthful_iff_unused hstep).mp truthful] at used
  cases used

theorem attempts_serialized_and_truthful_settling : ∃ w, exec step empty settling = some w ∧
    w.OneBlocking ∧ Along step Truthful empty settling := by
  have ends : (exec step empty settling).isSome = true := by
    decide +kernel
  obtain ⟨w, run⟩ := Option.isSome_iff_exists.mp ends
  have new : Along step (fun w a => w.unused a) empty settling := by
    unfold Along
    decide +kernel
  obtain ⟨one, _, truthful⟩ := (attempts_serialized_and_truthful_iff run).mpr new
  exact ⟨w, run, one, truthful⟩

end AttemptTable

end FeatureGen.Materialize
