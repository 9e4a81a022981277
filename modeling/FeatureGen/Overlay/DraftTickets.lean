import FeatureGen.Overlay.DraftCoupons

/-! # A granted draft request can be advanced

The request gate decides on located coupons and the fence on consumed ones. They
agree where the request mints: what was located is then consumed. They part where
a draft still holds the identity's slot: the request returns it and consumes
nothing, so the fence goes on refusing it.
-/

namespace FeatureGen.FormulaDraftStore

open Transition Checks
open LlmSpend (Instant)

/-- A coupon's ordinal counts the exhausted coupons of its binding that came
    before it, so an exhausted coupon is older than the next approval's. -/
def Generation (ext : Externals) (db : Db) (e : RegenerationException) : Prop :=
  0 ≤ e.usesConsumed ∧ ∃ expiresAt ordinal, e.binding.expiresAt = ext.timestamptz expiresAt ∧
    e.exceptionId = exceptionId ext e.binding expiresAt ordinal ∧
      ordinal ≤ exhaustedBefore db e.binding ∧
      (e.binding.maxUses ≤ e.usesConsumed → ordinal < exhaustedBefore db e.binding)

structure Sound (ext : Externals) (db : Db) : Prop where
  /-- A draft's stored identity is the hash of its own columns. -/
  identities : ∀ d ∈ db.drafts, d.formulaIdentityHash = formulaIdentity ext d.inputs
  /-- The foreign key of 1096. -/
  retired : ∀ r ∈ db.retirements, ∃ d ∈ db.drafts, d.formulaDraftId = r.formulaDraftId
  generations : ∀ e ∈ db.exceptions, Generation ext db e

section Keeping

variable {ext : Externals} {db db' : Db}

theorem exhaustedBefore_consume {id : String} (h : consumeException db id = some db')
    (b : ExceptionBinding) : exhaustedBefore db b ≤ exhaustedBefore db' b ∧
      ∀ e ∈ db.exceptions, e.binding = b → consumable id e = true →
        b.maxUses ≤ e.consumed.usesConsumed → exhaustedBefore db b < exhaustedBefore db' b := by
  have rows : db'.exceptions.rows =
      db.exceptions.rows.map fun e => if consumable id e then e.consumed else e := by
    unfold consumeException at h
    split at h <;> cases h
    rfl
  have still : ∀ e ∈ db.exceptions.rows, isExhaustedOf b e = true →
      isExhaustedOf b (if consumable id e then e.consumed else e) = true := by
    intro e _ he
    split
    · simp only [isExhaustedOf, Bool.and_eq_true, beq_iff_eq, decide_eq_true_eq] at he ⊢
      obtain ⟨hbinding, hspent⟩ := he
      have once : e.consumed.usesConsumed = e.usesConsumed + 1 := rfl
      exact ⟨hbinding, by omega⟩
    · exact he
  unfold exhaustedBefore
  rw [rows, List.countP_map]
  refine ⟨List.countP_mono_left still, ?_⟩
  intro e he hbinding hconsumable hspent
  refine countP_lt still he ?_ ?_
  · have left : e.usesConsumed < e.binding.maxUses := by
      simp only [consumable, Bool.and_eq_true, decide_eq_true_eq] at hconsumable
      exact hconsumable.2
    simp [isExhaustedOf, ← hbinding, left]
  · simp only [Function.comp_apply, hconsumable, if_true, isExhaustedOf, Bool.and_eq_true,
      beq_iff_eq, decide_eq_true_eq]
    exact ⟨hbinding, hspent⟩

theorem generations_consume {id : String} (h : consumeException db id = some db')
    (inv : ∀ e ∈ db.exceptions, Generation ext db e) :
    ∀ e ∈ db'.exceptions, Generation ext db' e := by
  intro e he
  obtain ⟨r, hr, rfl⟩ := (mem_consumeException h).mp he
  obtain ⟨nonneg, expiresAt, ordinal, hat, hid, hle, hlt⟩ := inv r hr
  obtain ⟨grows, counts⟩ := exhaustedBefore_consume h r.binding
  split
  · rename_i hconsumable
    refine ⟨?_, expiresAt, ordinal, hat, hid, hle.trans grows, ?_⟩
    · show 0 ≤ r.usesConsumed + 1
      omega
    · intro hspent
      have more := counts r hr rfl hconsumable hspent
      exact lt_of_le_of_lt hle more
  · exact ⟨nonneg, expiresAt, ordinal, hat, hid, hle.trans grows, fun hspent =>
      lt_of_lt_of_le (hlt hspent) grows⟩

theorem exhaustedBefore_insert {row : RegenerationException} (b : ExceptionBinding) :
    exhaustedBefore db b ≤
      exhaustedBefore { db with exceptions := db.exceptions.insertNew row } b := by
  unfold exhaustedBefore
  cases hi : db.exceptions.insert? row with
  | none => simp [Table.insertNew, hi]
  | some exceptions =>
      simp only [Table.insertNew, hi, Option.getD_some]
      rw [(Table.rows_of_insert? hi).1, List.countP_append]
      omega

theorem generations_approve {a : Approval} {name : Option String}
    (inv : ∀ e ∈ db.exceptions, Generation ext db e) (uses : 1 ≤ a.maxUses) :
    ∀ e ∈ db.exceptions.insertNew (a.row ext db name),
      Generation ext
        { db with exceptions := db.exceptions.insertNew (a.row ext db name) } e := by
  intro e he
  have grows : exhaustedBefore db e.binding ≤ exhaustedBefore
      { db with exceptions := db.exceptions.insertNew (a.row ext db name) } e.binding :=
    exhaustedBefore_insert e.binding
  rcases Table.mem_insertNew.mp he with old | ⟨rfl, -⟩
  · obtain ⟨nonneg, expiresAt, ordinal, hat, hid, hle, hlt⟩ := inv e old
    exact ⟨nonneg, expiresAt, ordinal, hat, hid, hle.trans grows, fun hspent =>
      lt_of_lt_of_le (hlt hspent) grows⟩
  · refine ⟨le_refl _, a.expiresAt, _, rfl, rfl, grows, ?_⟩
    intro hspent
    have none_used : a.maxUses ≤ 0 := hspent
    omega

theorem approveOne_ok {a : Approval} {acc acc' : Approving} {name : Option String}
    (h : approveOne ext a acc name = .ok acc') :
    1 ≤ a.maxUses ∧ acc'.db = { acc.db with
      exceptions := acc.db.exceptions.insertNew (a.row ext acc.db name) } := by
  unfold approveOne at h
  split at h
  · rename_i uses
    refine ⟨uses.1, ?_⟩
    cases hg : acc.db.exceptions.get? (a.row ext acc.db name).exceptionId with
    | some e =>
        simp only [hg] at h
        cases h
        rw [Table.insertNew_of_mem (Table.mem_of_get? hg) (Table.key_of_get? hg)]
    | none =>
        simp only [hg] at h
        split at h
        · cases h
          rfl
        · cases h
  · cases h

theorem follows_approve {a : Approval} {acc : Approving}
    (h : approveRegenerationException ext db a = .ok acc) :
    Follows db acc.db ∧ acc.db = { db with exceptions := acc.db.exceptions } := by
  refine foldlM_except_induction
    (P := fun b : Approving => Follows db b.db ∧ b.db = { db with exceptions := b.db.exceptions })
    ?_ ⟨.refl db, rfl⟩ h
  intro name _ b b' hb hstep
  obtain ⟨-, hdb⟩ := approveOne_ok hstep
  constructor
  · refine hb.1.trans (.of_exceptions (by rw [hdb]) ?_)
    intro e he
    refine ⟨e, ?_, rfl, rfl, le_refl _⟩
    rw [hdb]
    exact Table.mem_insertNew.mpr (Or.inl he)
  · rw [hdb, hb.2]

theorem advance_ok {id : String} {target : DraftState} {p : AdvancePayload}
    (h : advance ext db id target p = .ok db') :
    ∃ d ∈ db.drafts, d.formulaDraftId = id ∧ target ∈ d.state.permitted ∧
      db' = { db with drafts := db'.drafts } ∧
      ∀ x, x ∈ db'.drafts ↔ ∃ r ∈ db.drafts,
        x = if r.formulaDraftId = d.formulaDraftId then r.moved target p db.now else r := by
  unfold advance at h
  cases hg : db.drafts.get? id with
  | none => simp [hg] at h
  | some d =>
      simp only [hg] at h
      obtain ⟨u, -, hmove⟩ := bind_eq_ok.mp h
      unfold move at hmove
      split at hmove
      · rename_i legal
        split at hmove
        · cases hmove
          refine ⟨d, Table.mem_of_get? hg, Table.key_of_get? hg, legal, rfl, ?_⟩
          intro x
          rw [Table.mem_update]
        · cases hmove
      · cases hmove

theorem permitted_terminal {s : DraftState} (h : s.isTerminal = true) : s.permitted = [] := by
  cases s with
  | ready | blocked | failed | cancelled => rfl
  | requested | authoring | criticReview | validating | admission => cases h

theorem follows_advance {id : String} {target : DraftState} {p : AdvancePayload}
    (h : advance ext db id target p = .ok db') : Follows db db' := by
  obtain ⟨d, hd, -, legal, rest, hmem⟩ := advance_ok h
  constructor
  · intro r hr
    refine ⟨_, (hmem _).mpr ⟨r, hr, rfl⟩, ?_⟩
    split
    · rename_i same
      refine ⟨rfl, rfl, rfl, ?_⟩
      intro ended
      rw [Table.eq_of_key_eq hr hd same] at ended
      rw [permitted_terminal ended] at legal
      cases legal
    · exact ⟨rfl, rfl, rfl, fun _ => rfl⟩
  · intro e he
    rw [rest]
    exact ⟨e, he, rfl, rfl, le_refl _⟩

theorem recordTombstone_ok {w : Withdrawal} {stored : Db × Tombstone}
    (h : recordTombstone ext db w = .ok stored) :
    stored.1 = { db with tombstones := stored.1.tombstones } := by
  unfold recordTombstone at h
  split at h
  · cases h
  · obtain ⟨coverage, -, hinsert⟩ := bind_eq_ok.mp h
    unfold insertTombstone at hinsert
    split at hinsert
    · split at hinsert <;> cases hinsert
      rfl
    · split at hinsert
      · split at hinsert <;> cases hinsert
        rfl
      · cases hinsert

theorem retireFormulaDraft_ok {r : Retirement} (h : retireFormulaDraft db r = .ok db') :
    db' = db ∨ (db' = { db with retirements := db.retirements.insertNew r } ∧
      ∃ d ∈ db.drafts, d.formulaDraftId = r.formulaDraftId) := by
  unfold retireFormulaDraft at h
  split at h
  · cases h
  · split at h
    · split at h <;> cases h
      exact Or.inl rfl
    · split at h
      · rename_i known
        cases h
        refine Or.inr ⟨rfl, ?_⟩
        simp only [references, Bool.and_eq_true, Option.all_some] at known
        obtain ⟨d, hd⟩ := Option.isSome_iff_exists.mp known.1
        exact ⟨d, Table.mem_of_get? hd, Table.key_of_get? hd⟩
      · cases h

theorem request_ok {req : DraftRequest} {g : Granted} (h : requestDraft ext db req = .ok g) :
    (∃ drafts found, holder db (formulaIdentity ext req.inputs) = none ∧
        locate db (formulaIdentity ext req.inputs) req.lane? (req.resolvedNow db)
          (requestCovering ext db req) = .ok found ∧
        db.drafts.insert? (req.row (formulaIdentity ext req.inputs) db.now) = some drafts ∧
        found.1.foldlM (consumeOne (formulaIdentity ext req.inputs))
          { db with drafts := drafts } = .ok g.db ∧
        g.formulaDraftId = req.formulaDraftId) ∨
      ∃ d, holder db (formulaIdentity ext req.inputs) = some d ∧
        db.retirements.get? d.formulaDraftId = none ∧ g = ⟨db, d.formulaDraftId, false, none⟩ := by
  obtain ⟨found, hlocate, -, hinsert⟩ := requestDraft_eq_ok.mp h
  unfold insertOrAnswer at hinsert
  cases hh : holder db (formulaIdentity ext req.inputs) with
  | none =>
      rw [hh] at hinsert
      obtain ⟨drafts, hi, hconsume, hid⟩ := mint_ok hinsert
      exact Or.inl ⟨drafts, found, rfl, hlocate, hi, hconsume, hid⟩
  | some d =>
      rw [hh] at hinsert
      exact Or.inr ⟨d, rfl, answerWith_eq_ok.mp hinsert⟩

theorem follows_request {req : DraftRequest} {g : Granted}
    (h : requestDraft ext db req = .ok g) : Follows db g.db := by
  obtain ⟨drafts, found, -, -, hi, hconsume, -⟩ | ⟨d, -, -, rfl⟩ := request_ok h
  · have inserted : Follows db { db with drafts := drafts } :=
      .of_drafts rfl fun d hd => (Table.mem_insert? hi).mpr (Or.inl hd)
    exact inserted.trans (consumeAll_rest hconsume).1
  · exact .refl db

theorem settled_of {P : Db → Prop} {α : Type} {f : α → Db} {x : Except DraftError α} (keep : P db)
    (write : ∀ a, x = .ok a → P (f a)) : P (settled db (x.map f)) := by
  cases x with
  | error e => exact keep
  | ok a => exact write a rfl

theorem step_cases {P : Db → Prop} {a : Action} (h : step ext db a = some db') (keep : P db)
    (request : ∀ req g, requestDraft ext db req = .ok g → P g.db)
    (advanced : ∀ id target p next, advance ext db id target p = .ok next → P next)
    (withdrawn : ∀ tombstones, P { db with tombstones := tombstones })
    (retired : ∀ r, (∃ d ∈ db.drafts, d.formulaDraftId = r.formulaDraftId) →
      P { db with retirements := db.retirements.insertNew r })
    (approved : ∀ a acc, approveRegenerationException ext db a = .ok acc → P acc.db)
    (spent : ∀ ledger', P { db with ledger := ledger' }) : P db' := by
  cases a with
  | request req =>
      cases h
      exact settled_of keep (request req)
  | advance id target p =>
      cases h
      cases hr : advance ext db id target p with
      | error e => exact keep
      | ok next => exact advanced id target p next hr
  | recordTombstone w =>
      cases h
      refine settled_of keep ?_
      intro stored hstored
      rw [recordTombstone_ok hstored]
      exact withdrawn stored.1.tombstones
  | retire r =>
      cases h
      cases hr : retireFormulaDraft db r with
      | error e => exact keep
      | ok next =>
          obtain rfl | ⟨rfl, known⟩ := retireFormulaDraft_ok hr
          · exact keep
          · exact retired r known
  | approve a =>
      cases h
      exact settled_of keep (approved a)
  | ledger ledger' =>
      cases h
      exact spent ledger'

theorem follows_step {a : Action} (h : step ext db a = some db') : Follows db db' := by
  apply step_cases h (P := Follows db) (.refl db)
  · intro req g hg
    exact follows_request hg
  · intro id target p next hn
    exact follows_advance hn
  · intro tombstones
    exact .of_drafts rfl fun d hd => hd
  · intro r _
    exact .of_drafts rfl fun d hd => hd
  · intro a acc ha
    exact (follows_approve ha).1
  · intro ledger'
    exact .of_drafts rfl fun d hd => hd

theorem follows_exec {as : List Action} (run : exec (step ext) db as = some db') :
    Follows db db' := by
  refine exec_induction (P := Follows db) (.refl db) ?_ run
  intro s a s' h hstep
  exact h.trans (follows_step hstep)

theorem generations_consumeAll {identity : String} {located : List RegenerationException}
    (h : located.foldlM (consumeOne identity) db = .ok db')
    (inv : ∀ e ∈ db.exceptions, Generation ext db e) :
    ∀ e ∈ db'.exceptions, Generation ext db' e := by
  refine foldlM_except_induction (P := fun b => ∀ e ∈ b.exceptions, Generation ext b e)
    ?_ inv h
  intro c _ b b' hb hstep
  exact generations_consume (consumeOne_eq_ok.mp hstep) hb

theorem generations_approveAll {a : Approval} {acc : Approving}
    (h : approveRegenerationException ext db a = .ok acc)
    (inv : ∀ e ∈ db.exceptions, Generation ext db e) :
    ∀ e ∈ acc.db.exceptions, Generation ext acc.db e := by
  refine foldlM_except_induction
    (P := fun b : Approving => ∀ e ∈ b.db.exceptions, Generation ext b.db e) ?_ inv h
  intro name _ b b' hb hstep
  obtain ⟨uses, hdb⟩ := approveOne_ok hstep
  rw [hdb]
  exact generations_approve hb uses

namespace Sound

theorem init (h : Init db) : Sound ext db where
  identities d hd := by
    rw [← Table.mem_rows, h.1] at hd
    cases hd
  retired r hr := by
    rw [← Table.mem_rows, h.2.1] at hr
    cases hr
  generations e he := by
    rw [← Table.mem_rows, h.2.2.2] at he
    cases he

theorem retired_follows (inv : Sound ext db) (h : Follows db db') {r : Retirement}
    (hr : r ∈ db.retirements) : ∃ d ∈ db'.drafts, d.formulaDraftId = r.formulaDraftId := by
  obtain ⟨d, hd, hid⟩ := inv.retired r hr
  obtain ⟨d', hd', hid', -⟩ := h.drafts d hd
  exact ⟨d', hd', hid'.trans hid⟩

theorem request {req : DraftRequest} {g : Granted} (inv : Sound ext db)
    (h : requestDraft ext db req = .ok g) : Sound ext g.db := by
  have kept := follows_request h
  obtain ⟨drafts, found, -, -, hi, hconsume, -⟩ | ⟨d, -, -, rfl⟩ := request_ok h
  · have rest := (consumeAll_rest hconsume).2
    refine ⟨?_, ?_, generations_consumeAll hconsume inv.generations⟩
    · intro d hd
      rw [rest] at hd
      rcases (Table.mem_insert? hi).mp hd with old | rfl
      · exact inv.identities d old
      · rfl
    · intro r hr
      rw [rest] at hr
      exact inv.retired_follows kept hr
  · exact inv

theorem advance {id : String} {target : DraftState} {p : AdvancePayload}
    (inv : Sound ext db) (h : advance ext db id target p = .ok db') :
    Sound ext db' := by
  have kept := follows_advance h
  obtain ⟨d, -, -, -, rest, hmem⟩ := advance_ok h
  refine ⟨?_, ?_, ?_⟩
  · intro d' hd'
    obtain ⟨r, hr, rfl⟩ := (hmem d').mp hd'
    split <;> exact inv.identities r hr
  · intro r hr
    rw [rest] at hr
    exact inv.retired_follows kept hr
  · rw [rest]
    exact inv.generations

theorem step {a : Action} (inv : Sound ext db) (h : step ext db a = some db') :
    Sound ext db' := by
  apply step_cases h (P := Sound ext) inv
  · intro req g hg
    exact inv.request hg
  · intro id target p next hn
    exact inv.advance hn
  · intro tombstones
    exact ⟨inv.identities, inv.retired, inv.generations⟩
  · intro r known
    refine ⟨inv.identities, ?_, inv.generations⟩
    intro r' hr'
    rcases Table.mem_insertNew.mp hr' with old | ⟨rfl, -⟩
    · exact inv.retired r' old
    · exact known
  · intro a acc ha
    have rest := (follows_approve ha).2
    refine ⟨?_, ?_, generations_approveAll ha inv.generations⟩
    · rw [rest]
      exact inv.identities
    · rw [rest]
      exact inv.retired
  · intro ledger'
    exact ⟨inv.identities, inv.retired, inv.generations⟩

theorem reachable (reach : Reachable (FormulaDraftStore.step ext) Init db) :
    Sound ext db :=
  reach.induction (fun _ h => init h) fun _ _ _ inv h => inv.step h

end Sound

end Keeping

/-- No withdrawal and no retirement came between. -/
def SameWithdrawals (db db' : Db) : Prop :=
  db'.tombstones = db.tombstones ∧ db'.retirements = db.retirements

/-- The draft is there, and until something is withdrawn no next state of it is
    refused as retired. -/
def Alive (ext : Externals) (db : Db) (formulaDraftId : String) : Prop :=
  (∃ d ∈ db.drafts, d.formulaDraftId = formulaDraftId) ∧
    ∀ as db', exec (step ext) db as = some db' → SameWithdrawals db db' →
      ∀ d ∈ db'.drafts, d.formulaDraftId = formulaDraftId →
        ∀ target ∈ d.state.permitted, ∀ p,
          isDraftRetired (advance ext db' formulaDraftId target p) = false

/-- The identity's slot is free, or the draft in it is neither retired nor, while
    it still works, under a withdrawal that no consumed coupon names. -/
def SlotOpen (ext : Externals) (db : Db) (req : DraftRequest) : Prop :=
  ∀ d, holder db (formulaIdentity ext req.inputs) = some d →
    db.retirements.get? d.formulaDraftId = none ∧
      (d.state.isTerminal = true ∨ ∀ w ∈ requestCovering ext db req,
        namedByConsumed db (formulaIdentity ext req.inputs) w = true)

section Tickets

variable {ext : Externals} {db db' : Db} {d : FormulaDraft}

theorem Unfenced.follows (h : Unfenced ext db d) (kept : Follows db db')
    (same : SameWithdrawals db db') (hd : d ∈ db.drafts) {d' : FormulaDraft}
    (hd' : d' ∈ db'.drafts) (hid : d'.formulaDraftId = d.formulaDraftId) :
    Unfenced ext db' d' := by
  obtain ⟨e, he, heid, hinputs, hhash, -⟩ := kept.drafts d hd
  obtain rfl := Table.eq_of_key_eq he hd' (heid.trans hid.symm)
  refine ⟨?_, ?_⟩
  · rw [same.2, hid]
    exact h.1
  · intro w hw
    have before : w ∈ withdrawalsOf ext db d := by
      unfold withdrawalsOf coveringTombstones at hw ⊢
      rwa [same.1, hinputs, hhash] at hw
    rw [hhash]
    exact kept.named (h.2 w before)

theorem alive_of_unfenced (hd : d ∈ db.drafts) (h : Unfenced ext db d) :
    Alive ext db d.formulaDraftId := by
  refine ⟨⟨d, hd, rfl⟩, ?_⟩
  intro as db' run same d' hd' hid target _ p
  have passes := h.follows (follows_exec run) same hd hd' hid
  rw [← hid]
  exact Bool.eq_false_iff.mpr fun refused => (advance_retired_iff hd').mp refused passes

theorem alive_of_terminal (hd : d ∈ db.drafts) (h : d.state.isTerminal = true) :
    Alive ext db d.formulaDraftId := by
  refine ⟨⟨d, hd, rfl⟩, ?_⟩
  intro as db' run _ d' hd' hid target legal p
  obtain ⟨e, he, heid, -, -, ended⟩ := (follows_exec run).drafts d hd
  obtain rfl := Table.eq_of_key_eq he hd' (heid.trans hid.symm)
  rw [ended h, permitted_terminal h] at legal
  cases legal

theorem not_alive (hd : d ∈ db.drafts) (working : d.state.isTerminal = false)
    (h : ¬ Unfenced ext db d) : ¬ Alive ext db d.formulaDraftId := by
  intro alive
  have legal : DraftState.failed ∈ d.state.permitted := by
    simp [DraftState.permitted, working, DraftState.fromAnywhere]
  have refused := alive.2 [] db rfl ⟨rfl, rfl⟩ d hd rfl .failed legal ⟨none, none, none, [], none⟩
  rw [(advance_retired_iff hd).mpr h] at refused
  cases refused

theorem mem_holder {identity : String} (h : holder db identity = some d) :
    d ∈ db.drafts ∧ d.formulaIdentityHash = identity := by
  have matched := List.find?_some h
  simp only [isHolderOf, Bool.and_eq_true, beq_iff_eq] at matched
  exact ⟨List.mem_of_find?_eq_some h, matched.1⟩

theorem withdrawalsOf_holder (faithful : ext.Faithful)
    (inv : Sound ext db) {req : DraftRequest}
    (h : holder db (formulaIdentity ext req.inputs) = some d) :
    withdrawalsOf ext db d = requestCovering ext db req := by
  obtain ⟨hd, hhash⟩ := mem_holder h
  have same : d.inputs = req.inputs :=
    formulaIdentity_injective faithful ((inv.identities d hd).symm.trans hhash)
  unfold withdrawalsOf requestCovering
  rw [same, hhash]

theorem alive_holder_iff (faithful : ext.Faithful) (inv : Sound ext db)
    {req : DraftRequest} (h : holder db (formulaIdentity ext req.inputs) = some d)
    (current : db.retirements.get? d.formulaDraftId = none) :
    Alive ext db d.formulaDraftId ↔ SlotOpen ext db req := by
  obtain ⟨hd, hhash⟩ := mem_holder h
  have gate := withdrawalsOf_holder faithful inv h
  constructor
  · intro alive d' hd'
    obtain rfl := Option.some.inj (h.symm.trans hd')
    refine ⟨current, ?_⟩
    by_contra dead
    push Not at dead
    obtain ⟨working, w, hw, unnamed⟩ := dead
    refine not_alive hd (Bool.eq_false_iff.mpr working) ?_ alive
    intro passes
    have named := passes.2 w (gate ▸ hw)
    rw [hhash] at named
    exact unnamed named
  · intro isOpen
    obtain ⟨-, ended | named⟩ := isOpen d h
    · exact alive_of_terminal hd ended
    · refine alive_of_unfenced hd ⟨current, ?_⟩
      intro w hw
      rw [hhash]
      exact named w (gate ▸ hw)

theorem alive_of_mint (inv : Sound ext db) {req : DraftRequest} {g : Granted}
    (free : holder db (formulaIdentity ext req.inputs) = none)
    (h : requestDraft ext db req = .ok g) : Alive ext g.db g.formulaDraftId := by
  obtain ⟨drafts, found, -, hlocate, hi, hconsume, hid⟩ | ⟨d, held, -⟩ := request_ok h
  · have rest := (consumeAll_rest hconsume).2
    have there : req.row (formulaIdentity ext req.inputs) db.now ∈ g.db.drafts := by
      rw [rest]
      exact (Table.mem_insert? hi).mpr (Or.inr rfl)
    have current : g.db.retirements.get? req.formulaDraftId = none := by
      rw [rest, Table.get?_eq_none]
      intro r hr same
      obtain ⟨d, hd, hdid⟩ := inv.retired r hr
      exact (Table.rows_of_insert? hi).2 d hd (hdid.trans same)
    have named : ∀ w ∈ requestCovering ext db req,
        namedByConsumed g.db (formulaIdentity ext req.inputs) w = true := by
      intro w hw
      obtain ⟨c, hc, htarget, hname⟩ := locate_named hlocate hw
      have hrow := (locate_usable hlocate hc).1
      obtain ⟨e, he, hbinding, used⟩ :=
        consumed_of_consumeAll hconsume hc hrow rfl (inv.generations c hrow).1
      refine List.any_eq_true.mpr ⟨e, he, ?_⟩
      simp [hbinding, htarget, hname, used]
    rw [hid]
    refine alive_of_unfenced there ⟨current, ?_⟩
    intro w hw
    refine named w ?_
    unfold withdrawalsOf coveringTombstones at hw
    rw [rest] at hw
    exact hw
  · rw [free] at held
    cases held

theorem exists_of_approveOne (faithful : ext.Faithful) {a : Approval} {acc acc' : Approving}
    {name : Option String} (inv : ∀ e ∈ acc.db.exceptions, Generation ext acc.db e)
    (h : approveOne ext a acc name = .ok acc') :
    ∃ c ∈ acc'.db.exceptions, c.binding = a.binding ext name ∧ c.usesConsumed < a.maxUses := by
  obtain ⟨uses, hdb⟩ := approveOne_ok h
  rw [hdb]
  cases hi : acc.db.exceptions.insert? (a.row ext acc.db name) with
  | some exceptions =>
      refine ⟨a.row ext acc.db name, ?_, rfl, ?_⟩
      · exact Table.mem_insertNew.mpr (Or.inr ⟨rfl, (Table.rows_of_insert? hi).2⟩)
      · show 0 < a.maxUses
        omega
  | none =>
      obtain ⟨e, he, hid⟩ := Table.insert?_eq_none.mp hi
      obtain ⟨-, expiresAt, ordinal, hat, hgen, -, hlt⟩ := inv e he
      have twin : exceptionId ext e.binding expiresAt ordinal =
          exceptionId ext (a.binding ext name) a.expiresAt
            (exhaustedBefore acc.db (a.binding ext name)) := hgen.symm.trans hid
      obtain ⟨hbinding, hordinal⟩ := exceptionId_inj faithful hat rfl twin
      refine ⟨e, Table.mem_insertNew.mpr (Or.inl he), hbinding, ?_⟩
      by_contra spent
      have older := hlt (by rw [hbinding]; exact Int.not_lt.mp spent)
      rw [hbinding] at older
      omega

theorem exists_of_approveAll (faithful : ext.Faithful) {a : Approval} {names : List (Option String)}
    {acc acc' : Approving} (inv : ∀ e ∈ acc.db.exceptions, Generation ext acc.db e)
    (h : names.foldlM (approveOne ext a) acc = .ok acc') {name : Option String}
    (hname : name ∈ names) :
    ∃ c ∈ acc'.db.exceptions, c.binding = a.binding ext name ∧ c.usesConsumed < a.maxUses := by
  induction names generalizing acc with
  | nil => cases hname
  | cons first others ih =>
      rw [List.foldlM_cons] at h
      obtain ⟨acc₁, hfirst, hothers⟩ := bind_eq_ok.mp h
      obtain ⟨uses, hdb⟩ := approveOne_ok hfirst
      cases List.mem_cons.mp hname with
      | inl here =>
          subst here
          obtain ⟨c, hc, hbinding, left⟩ := exists_of_approveOne faithful inv hfirst
          refine ⟨c, ?_, hbinding, left⟩
          refine foldlM_except_induction (P := fun b : Approving => c ∈ b.db.exceptions) ?_ hc
            hothers
          intro n _ b b' hb hstep
          rw [(approveOne_ok hstep).2]
          exact Table.mem_insertNew.mpr (Or.inl hb)
      | inr later =>
          refine ih ?_ hothers later
          rw [hdb]
          exact generations_approve inv uses

theorem approved_of_approve (faithful : ext.Faithful) (inv : Sound ext db) {a : Approval}
    {acc : Approving} (h : approveRegenerationException ext db a = .ok acc) {now : Instant}
    (unexpired : now < ext.timestamptz a.expiresAt)
    (rides : moneyRides db.ledger a.llmSpendAuthorizationId now = true) :
    Approved acc.db a.targetFormulaIdentityHash a.lane now
      (coveringTombstones acc.db a.scopeKey a.targetFormulaIdentityHash) := by
  have rest := (follows_approve h).2
  intro name hname
  have asked : name ∈ toName (coveringTombstones db a.scopeKey a.targetFormulaIdentityHash) := by
    rw [rest] at hname
    exact hname
  obtain ⟨c, hc, hbinding, left⟩ := exists_of_approveAll faithful inv.generations h asked
  refine ⟨c, hc, ?_, ?_⟩
  · simp [RegenerationException.usable, hbinding, Approval.binding, unexpired, left]
  · rw [hbinding, rest]
    exact rides

theorem exists_mint {req : DraftRequest} {lane : Lane} (hlane : req.lane? = some lane)
    (approved : Approved db (formulaIdentity ext req.inputs) lane (req.resolvedNow db)
      (requestCovering ext db req))
    (fresh : db.drafts.get? req.formulaDraftId = none)
    (free : holder db (formulaIdentity ext req.inputs) = none) :
    ∃ g, requestDraft ext db req = .ok g := by
  obtain ⟨found, hlocate, hfound⟩ := exists_locate approved
  rw [← hlane] at hlocate
  cases hi : db.drafts.insert? (req.row (formulaIdentity ext req.inputs) db.now) with
  | none =>
      obtain ⟨d, hd, hid⟩ := Table.insert?_eq_none.mp hi
      exact absurd hid (Table.get?_eq_none.mp fresh d hd)
  | some drafts =>
      have usable : ∀ c ∈ found.1, c ∈ ({ db with drafts := drafts } : Db).exceptions ∧
          c.usesConsumed < c.binding.maxUses := by
        intro c hc
        obtain ⟨hrow, lane', name, husable⟩ := locate_usable hlocate hc
        simp only [RegenerationException.usable, Bool.and_eq_true, decide_eq_true_eq] at husable
        exact ⟨hrow, husable.1.2⟩
      obtain ⟨consumed, hconsume⟩ := exists_consumeAll (formulaIdentity ext req.inputs) usable
        (locate_distinct (nodup_covering db _ _) hlocate)
      obtain ⟨g, hg⟩ : ∃ g,
          insertOrAnswer db req (formulaIdentity ext req.inputs) found.1 = .ok g := by
        simp only [insertOrAnswer, free, mint, hi]
        exact ⟨_, bind_eq_ok.mpr ⟨consumed, hconsume, rfl⟩⟩
      exact ⟨g, requestDraft_eq_ok.mpr ⟨found, hlocate, reSpendGate_of_located hfound, hg⟩⟩

theorem request_answers {req : DraftRequest} {lane : Lane} (hlane : req.lane? = some lane)
    (approved : Approved db (formulaIdentity ext req.inputs) lane (req.resolvedNow db)
      (requestCovering ext db req))
    (held : holder db (formulaIdentity ext req.inputs) = some d)
    (current : db.retirements.get? d.formulaDraftId = none) :
    requestDraft ext db req = .ok ⟨db, d.formulaDraftId, false, none⟩ := by
  obtain ⟨found, hlocate, hfound⟩ := exists_locate approved
  rw [← hlane] at hlocate
  refine requestDraft_eq_ok.mpr ⟨found, hlocate, reSpendGate_of_located hfound, ?_⟩
  simp only [insertOrAnswer, held]
  exact answerWith_eq_ok.mpr ⟨current, rfl⟩

end Tickets

/-- In every reachable state: what a request returns can be advanced, until
    something is withdrawn, exactly where the identity's slot is open; an approved
    request returns such a draft exactly there; and an approval with money that
    rides approves the requests for its identity. -/
theorem granted_requests_alive {ext : Externals} (faithful : ext.Faithful) {db : Db}
    (reach : Reachable (step ext) Init db) :
    (∀ req g, requestDraft ext db req = .ok g →
      (Alive ext g.db g.formulaDraftId ↔ SlotOpen ext db req)) ∧
    (∀ req lane, req.lane? = some lane →
      Approved db (formulaIdentity ext req.inputs) lane (req.resolvedNow db)
        (requestCovering ext db req) →
      db.drafts.get? req.formulaDraftId = none →
      ((∃ g, requestDraft ext db req = .ok g ∧ Alive ext g.db g.formulaDraftId) ↔
        SlotOpen ext db req)) ∧
    ∀ a acc now, approveRegenerationException ext db a = .ok acc →
      now < ext.timestamptz a.expiresAt →
      moneyRides db.ledger a.llmSpendAuthorizationId now = true →
      Approved acc.db a.targetFormulaIdentityHash a.lane now
        (coveringTombstones acc.db a.scopeKey a.targetFormulaIdentityHash) := by
  have inv := Sound.reachable reach
  have granted : ∀ req g, requestDraft ext db req = .ok g →
      (Alive ext g.db g.formulaDraftId ↔ SlotOpen ext db req) := by
    intro req g h
    cases held : holder db (formulaIdentity ext req.inputs) with
    | none =>
        have alive := alive_of_mint inv held h
        refine iff_of_true alive ?_
        intro d hd
        rw [held] at hd
        cases hd
    | some d =>
        obtain ⟨_, _, free, -⟩ | ⟨d', hd', current, rfl⟩ := request_ok h
        · rw [held] at free
          cases free
        · exact alive_holder_iff faithful inv hd' current
  refine ⟨granted, ?_, ?_⟩
  · intro req lane hlane approved fresh
    constructor
    · intro hex
      obtain ⟨g, hg, alive⟩ := hex
      exact (granted req g hg).mp alive
    · intro isOpen
      have answered : ∃ g, requestDraft ext db req = .ok g := by
        cases held : holder db (formulaIdentity ext req.inputs) with
        | none => exact exists_mint hlane approved fresh held
        | some d => exact ⟨_, request_answers hlane approved held (isOpen d held).1⟩
      obtain ⟨g, hg⟩ := answered
      exact ⟨g, hg, (granted req g hg).mpr isOpen⟩
  · intro a acc now happrove unexpired rides
    exact approved_of_approve faithful inv happrove unexpired rides

namespace InFlight

theorem one_pos : (0 : ℤ) < 1 := by decide

theorem unit_pos : (0 : ℚ) < 1 := by decide

/-- An approval of one call, valid until microsecond 100. -/
def ceiling : LlmSpend.SpendAuthorization where
  spendAuthorizationId := "sa-1"
  maxCalls := 1
  maxTokens := 1
  maxCost := 1
  expiresAt := 100
  maxCalls_pos := one_pos
  maxTokens_pos := one_pos
  maxCost_pos := unit_pos

def start : Db where
  ledger := {
    now := 0
    authorizations := Table.empty.insertNew ceiling
    reservations := Table.empty
    settlements := Table.empty
    outcomes := [] }
  drafts := Table.empty
  retirements := Table.empty
  tombstones := Table.empty
  exceptions := Table.empty

theorem start_init : Init start := ⟨rfl, rfl, rfl, rfl⟩

theorem start_rides : moneyRides start.ledger "sa-1" 0 = true := by decide +kernel

def inputs : FormulaInputs where
  consideredRevisionId := "considered-1"
  optionId := "option-1"
  planningRequestHash := "planning-1"
  catalogSnapshotHash := "catalog-1"
  definitionRevision := "1"
  authoringConfigHash := "config-1"

def lane : Lane := ⟨"contract-1", "strategy-1"⟩

def asks (formulaDraftId : String) : DraftRequest where
  formulaDraftId := formulaDraftId
  inputs := inputs
  requestedBy := "alice"
  requestedAt := "2026-01-01"
  providerContractHash := some lane.providerContractHash
  strategyIdentityHash := some lane.strategyIdentityHash
  now := none

/-- The candidate is withdrawn while its draft is still queued. -/
def withdraws : Withdrawal where
  formulaDraftId := "draft-1"
  scope := .candidateAcrossConfigurations
  reason := "WITHDRAWN"
  retiredBy := "bob"
  detail := none
  replacementDraftId := none

section Run

variable (ext : Externals)

def approves : Approval where
  targetFormulaIdentityHash := formulaIdentity ext inputs
  lane := lane
  actorSubject := "carol"
  llmSpendAuthorizationId := "sa-1"
  expiresAt := "1970-01-01T00:00:00.0001+00:00"
  scopeKey := retirementScopeKey ext inputs.toAuthoringSubject
  maxUses := 1

def draft (state : DraftState) (failureReason : Option String) : FormulaDraft :=
  { (asks "draft-1").row (formulaIdentity ext inputs) 0 with
    state := state
    failureReason := failureReason }

def tombstone : Tombstone :=
  withdraws.row ext (draft ext .requested none)
    (ext.jcsSha256 (.object [
      ("retirement_scope_key", .str (retirementScopeKey ext inputs.toAuthoringSubject)),
      ("scope", .str withdraws.scope.value)]))

def withdrawn (state : DraftState) (failureReason : Option String) : Db :=
  { start with
    drafts := Table.empty.insertNew (draft ext state failureReason)
    tombstones := Table.empty.insertNew (tombstone ext) }

def approved (state : DraftState) (failureReason : Option String) : Db :=
  { withdrawn ext state failureReason with
    exceptions := Table.empty.insertNew ((approves ext).row ext
      (withdrawn ext state failureReason) (some (tombstone ext).tombstoneId)) }

theorem covering (state : DraftState) (failureReason : Option String) :
    coveringTombstones (withdrawn ext state failureReason)
      (retirementScopeKey ext inputs.toAuthoringSubject) (formulaIdentity ext inputs) =
      [tombstone ext] := by
  have rows : (withdrawn ext state failureReason).tombstones.rows = [tombstone ext] := rfl
  have covers : (tombstone ext).covers (retirementScopeKey ext inputs.toAuthoringSubject)
      (formulaIdentity ext inputs) = true := beq_self_eq_true _
  have wide : (tombstone ext).isCandidateWide = true := rfl
  simp [coveringTombstones, rows, covers, wide]

theorem approves_ok (state : DraftState) (failureReason : Option String) :
    approveRegenerationException ext (withdrawn ext state failureReason) (approves ext) =
      .ok ⟨approved ext state failureReason,
        [((approves ext).row ext (withdrawn ext state failureReason)
          (some (tombstone ext).tombstoneId)).exceptionId], true⟩ := by
  unfold approveRegenerationException
  rw [show (approves ext).scopeKey = retirementScopeKey ext inputs.toAuthoringSubject from rfl,
    show (approves ext).targetFormulaIdentityHash = formulaIdentity ext inputs from rfl,
    covering ext state failureReason]
  rfl

theorem reachable_requested : Reachable (step ext) Init (withdrawn ext .requested none) :=
  ⟨start, [.request (asks "draft-1"), .recordTombstone withdraws], start_init, rfl⟩

theorem reachable_failed : Reachable (step ext) Init (withdrawn ext .failed (some "refused")) :=
  ⟨start, [.request (asks "draft-1"),
    .advance "draft-1" .failed ⟨none, none, none, [], some "refused"⟩,
    .recordTombstone withdraws], start_init, rfl⟩

theorem reachable_approved {state : DraftState} {failureReason : Option String}
    (reach : Reachable (step ext) Init (withdrawn ext state failureReason)) :
    Reachable (step ext) Init (approved ext state failureReason) := by
  obtain ⟨s₀, as, hinit, run⟩ := reach
  refine ⟨s₀, as ++ [.approve (approves ext)], hinit, ?_⟩
  rw [exec_append_eq_some]
  refine ⟨_, run, ?_⟩
  rw [exec_single, step, approves_ok]
  rfl

theorem holder_requested : holder (approved ext .requested none) (formulaIdentity ext inputs) =
    some (draft ext .requested none) := by
  have rows : (approved ext .requested none).drafts.rows = [draft ext .requested none] := rfl
  have holds : isHolderOf (formulaIdentity ext inputs) (draft ext .requested none) = true := by
    rw [isHolderOf, Bool.and_eq_true]
    exact ⟨beq_self_eq_true _, rfl⟩
  simp [holder, rows, holds]

theorem holder_failed :
    holder (approved ext .failed (some "refused")) (formulaIdentity ext inputs) = none := by
  have rows : (approved ext .failed (some "refused")).drafts.rows =
      [draft ext .failed (some "refused")] := rfl
  have gone : isHolderOf (formulaIdentity ext inputs) (draft ext .failed (some "refused")) =
      false := by
    rw [isHolderOf, Bool.and_eq_false_iff]
    exact Or.inr rfl
  simp [holder, rows, gone]

theorem fenced_requested :
    ¬ Unfenced ext (approved ext .requested none) (draft ext .requested none) := by
  intro passes
  have covers : tombstone ext ∈
      withdrawalsOf ext (approved ext .requested none) (draft ext .requested none) := by
    rw [show withdrawalsOf ext (approved ext .requested none) (draft ext .requested none) =
      [tombstone ext] from covering ext .requested none]
    exact List.mem_singleton_self (tombstone ext)
  have named := passes.2 _ covers
  obtain ⟨e, he, hfacts⟩ := List.any_eq_true.mp named
  rw [List.mem_singleton.mp (show e ∈ [_] from he)] at hfacts
  simp only [Bool.and_eq_true, decide_eq_true_eq] at hfacts
  have used : (1 : ℤ) ≤ 0 := hfacts.2
  omega

end Run

/-- Payloads kept as their texts, and every instant a hundred microseconds in. -/
def asTexts : Externals := ⟨Document.text, Document.text, fun _ => 100⟩

theorem asTexts_faithful : asTexts.Faithful := ⟨Document.text_faithful, Document.text_faithful⟩

theorem unexpired : (0 : Instant) < asTexts.timestamptz (approves asTexts).expiresAt := by
  show (0 : ℤ) < 100
  omega

end InFlight

section Examples

open InFlight

/-- A failed draft leaves its slot: the approved request mints, and the mint can
    be advanced. -/
theorem granted_requests_alive_failed :
    ∃ g, requestDraft asTexts (approved asTexts .failed (some "refused")) (asks "draft-2") = .ok g ∧
      Alive asTexts g.db g.formulaDraftId := by
  have withdrawn := granted_requests_alive asTexts_faithful (reachable_failed asTexts)
  have named := withdrawn.2.2 (approves asTexts) _ 0 (approves_ok asTexts _ _) unexpired start_rides
  have after := granted_requests_alive asTexts_faithful
    (reachable_approved asTexts (reachable_failed asTexts))
  refine (after.2.1 (asks "draft-2") lane rfl named rfl).mpr ?_
  intro d hd
  rw [show (asks "draft-2").inputs = inputs from rfl, holder_failed] at hd
  cases hd

/-- A draft withdrawn while queued is returned to the approved request, which
    consumes nothing, and can move to no state. -/
theorem withdrawn_in_flight_never_advances :
    (¬ ∀ ext : Externals, ext.Faithful → ∀ db, Reachable (step ext) Init db →
      ∀ req g, requestDraft ext db req = .ok g → Alive ext g.db g.formulaDraftId) ∧
    ¬ ∀ ext : Externals, ext.Faithful → ∀ db, Reachable (step ext) Init db →
      ∀ req lane, req.lane? = some lane →
        Approved db (formulaIdentity ext req.inputs) lane (req.resolvedNow db)
          (requestCovering ext db req) →
        db.drafts.get? req.formulaDraftId = none →
        ∃ g, requestDraft ext db req = .ok g ∧ Alive ext g.db g.formulaDraftId := by
  have reach := reachable_approved asTexts (reachable_requested asTexts)
  have hlane : (asks "draft-2").lane? = some lane := rfl
  have named : Approved (approved asTexts .requested none)
      (formulaIdentity asTexts (asks "draft-2").inputs) lane
      ((asks "draft-2").resolvedNow (approved asTexts .requested none))
      (requestCovering asTexts (approved asTexts .requested none) (asks "draft-2")) :=
    approved_of_approve asTexts_faithful (.reachable (reachable_requested asTexts))
      (approves_ok asTexts .requested none) unexpired start_rides
  have answered : requestDraft asTexts (approved asTexts .requested none) (asks "draft-2") =
      .ok ⟨approved asTexts .requested none, "draft-1", false, none⟩ :=
    request_answers hlane named (holder_requested asTexts) rfl
  have dead : ¬ Alive asTexts (approved asTexts .requested none) "draft-1" := by
    have there := (mem_holder (holder_requested asTexts)).1
    exact not_alive there rfl (fenced_requested asTexts)
  constructor
  · intro claimed
    exact dead (claimed asTexts asTexts_faithful _ reach _ _ answered)
  · intro claimed
    obtain ⟨g, hg, alive⟩ :=
      claimed asTexts asTexts_faithful _ reach (asks "draft-2") lane hlane named rfl
    rw [answered] at hg
    cases hg
    exact dead alive

end Examples

end FeatureGen.FormulaDraftStore
