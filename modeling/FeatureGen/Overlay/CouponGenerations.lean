import FeatureGen.Overlay.DraftTickets

/-! # Generations of coupons

A coupon's id folds the number of exhausted coupons of its binding, so a replayed
approval finds the coupon of the current generation. The number is counted over
the stored instant of the expiry and the id hashed over the caller's text of it:
they part where the live coupon of a binding was approved with another spelling.
-/

namespace FeatureGen.FormulaDraftStore

open Transition Checks

/-- A call of the store, or a use of a coupon spent by itself. -/
inductive CouponCall where
  | store (call : Action)
  | consume (exceptionId : String)

def couponStep (ext : Externals) (db : Db) : CouponCall → Option Db
  | .store call => step ext db call
  | .consume id => some ((consumeException db id).getD db)

def RegenerationException.HasUses (e : RegenerationException) : Prop :=
  e.usesConsumed < e.binding.maxUses

def Approval.names (a : Approval) (db : Db) : List (Option String) :=
  toName (coveringTombstones db a.scopeKey a.targetFormulaIdentityHash)

/-- The coupons of this binding that have uses left were approved with this text
    of the expiry. -/
def SpelledAlike (ext : Externals) (db : Db) (b : ExceptionBinding) (expiresAt : String) : Prop :=
  ∀ e ∈ db.exceptions, e.binding = b → e.HasUses →
    ∃ ordinal, e.exceptionId = exceptionId ext b expiresAt ordinal

def Approval.Spelled (ext : Externals) (a : Approval) (db : Db) : Prop :=
  ∀ name ∈ a.names db, SpelledAlike ext db (a.binding ext name) a.expiresAt

def SpelledCall (ext : Externals) (db : Db) : CouponCall → Prop
  | .store (.approve a) => a.Spelled ext db
  | .store _ => True
  | .consume _ => True

/-- Every coupon of this binding is exhausted. -/
def noneLeft (db : Db) (b : ExceptionBinding) : Bool :=
  db.exceptions.rows.all fun e => e.binding != b || isExhaustedOf b e

/-- What 1103 demands of an approval's rows: a positive `smallint` of uses, and
    money for the rows that are new. -/
def Approval.Storable (ext : Externals) (a : Approval) (db : Db) : Prop :=
  1 ≤ a.maxUses ∧ a.maxUses ≤ 32767 ∧
    ∀ name ∈ a.names db, noneLeft db (a.binding ext name) = true →
      (db.ledger.authorizations.get? a.llmSpendAuthorizationId).isSome = true

/-- One unused coupon for each name all of whose coupons are exhausted. -/
def Approval.fresh (ext : Externals) (a : Approval) (db : Db) : List RegenerationException :=
  ((a.names db).filter fun name => noneLeft db (a.binding ext name)).map (a.row ext db)

/-- What an approval returns and writes. -/
structure Answered (ext : Externals) (a : Approval) (db : Db) (acc : Approving) : Prop where
  /-- One coupon for each name, of the exact binding and with uses left. -/
  named : List.Forall₂ (fun name id => ∃ e ∈ acc.db.exceptions, e.exceptionId = id ∧
    e.binding = a.binding ext name ∧ e.HasUses) (a.names db) acc.exceptionIds
  created : acc.db.exceptions.rows = db.exceptions.rows ++ a.fresh ext db
  told : acc.anyCreated = !(a.fresh ext db).isEmpty
  rest : acc.db = { db with exceptions := acc.db.exceptions }

section Counting

variable {db : Db} {b : ExceptionBinding}

theorem noneLeft_eq_true :
    noneLeft db b = true ↔ ∀ e ∈ db.exceptions, e.binding = b → ¬ e.HasUses := by
  unfold noneLeft
  rw [List.all_eq_true]
  apply forall₂_congr
  intro e _
  by_cases same : e.binding = b
  · subst same
    simp [isExhaustedOf, RegenerationException.HasUses]
  · simp [same]

theorem noneLeft_eq_false :
    noneLeft db b = false ↔ ∃ e ∈ db.exceptions, e.binding = b ∧ e.HasUses := by
  rw [← Bool.not_eq_true, noneLeft_eq_true]
  push Not
  rfl

theorem exhaustedBefore_insertNew {row : RegenerationException} (unused : row.HasUses) :
    exhaustedBefore { db with exceptions := db.exceptions.insertNew row } b =
      exhaustedBefore db b := by
  unfold exhaustedBefore
  cases hi : db.exceptions.insert? row with
  | none => simp [Table.insertNew, hi]
  | some exceptions =>
      have live : isExhaustedOf b row = false := by
        unfold RegenerationException.HasUses at unused
        by_cases same : row.binding = b
        · subst same
          simp [isExhaustedOf, unused]
        · simp [isExhaustedOf, same]
      simp only [Table.insertNew, hi, Option.getD_some]
      rw [(Table.rows_of_insert? hi).1, List.countP_append]
      simp [live]

end Counting

/-- The coupon's ordinal is the number of exhausted coupons of its binding when it
    was approved; it counts as one of them as soon as it is exhausted. -/
def Numbered (ext : Externals) (db : Db) (e : RegenerationException) : Prop :=
  ∃ expiresAt ordinal, e.binding.expiresAt = ext.timestamptz expiresAt ∧
    e.exceptionId = exceptionId ext e.binding expiresAt ordinal ∧
    (¬ e.HasUses → ordinal < exhaustedBefore db e.binding) ∧
    (e.HasUses → ordinal = exhaustedBefore db e.binding)

structure Generations (ext : Externals) (db : Db) : Prop where
  numbered : ∀ e ∈ db.exceptions, Numbered ext db e
  single : ∀ e ∈ db.exceptions, ∀ e' ∈ db.exceptions, e.binding = e'.binding →
    e.HasUses → e'.HasUses → e = e'

section Consuming

variable {ext : Externals} {db db' : Db} {id : String}

theorem hasUses_of_consumed {r : RegenerationException}
    (left : (if consumable id r then r.consumed else r).HasUses) : r.HasUses := by
  split at left
  · have less : r.usesConsumed + 1 < r.binding.maxUses := left
    show r.usesConsumed < r.binding.maxUses
    omega
  · exact left

theorem binding_consumed (id : String) (r : RegenerationException) :
    (if consumable id r then r.consumed else r).binding = r.binding := by
  split <;> rfl

theorem exceptionId_consumed (id : String) (r : RegenerationException) :
    (if consumable id r then r.consumed else r).exceptionId = r.exceptionId := by
  split <;> rfl

theorem exhaustedBefore_consume_of_live (inv : Generations ext db)
    (h : consumeException db id = some db') {r : RegenerationException} (hr : r ∈ db.exceptions)
    (left : (if consumable id r then r.consumed else r).HasUses) :
    exhaustedBefore db' r.binding = exhaustedBefore db r.binding := by
  have rows : db'.exceptions.rows =
      db.exceptions.rows.map fun e => if consumable id e then e.consumed else e := by
    unfold consumeException at h
    split at h <;> cases h
    rfl
  unfold exhaustedBefore
  rw [rows, List.countP_map]
  apply List.countP_congr
  intro x hx
  by_cases same : x.binding = r.binding
  · by_cases live : x.HasUses
    · -- the one live coupon is the one at hand, and it has uses left on both sides
      have here : x = r := inv.single x hx r hr same live (hasUses_of_consumed left)
      subst here
      have before : ¬ x.binding.maxUses ≤ x.usesConsumed := Int.not_le.mpr live
      have after : ¬ x.binding.maxUses ≤
          (if consumable id x then x.consumed else x).usesConsumed := by
        have bound : (if consumable id x then x.consumed else x).usesConsumed <
            (if consumable id x then x.consumed else x).binding.maxUses := left
        rw [binding_consumed] at bound
        omega
      simp [isExhaustedOf, before, after]
    · have spent : consumable id x = false := by
        simp only [consumable, Bool.and_eq_false_iff, decide_eq_false_iff_not]
        exact Or.inr live
      simp [spent]
  · have other : (if consumable id x then x.consumed else x).binding ≠ r.binding := by
      rw [binding_consumed]
      exact same
    simp [isExhaustedOf, same, other]

theorem Generations.consume (inv : Generations ext db)
    (h : consumeException db id = some db') : Generations ext db' := by
  constructor
  · intro e he
    obtain ⟨r, hr, rfl⟩ := (mem_consumeException h).mp he
    obtain ⟨expiresAt, ordinal, hat, hid, hspent, hlive⟩ := inv.numbered r hr
    obtain ⟨grows, counts⟩ := exhaustedBefore_consume h r.binding
    unfold Numbered
    rw [binding_consumed, exceptionId_consumed]
    refine ⟨expiresAt, ordinal, hat, hid, ?_, ?_⟩
    · intro exhausted
      by_cases live : r.HasUses
      · have hit : consumable id r = true := by
          by_contra missed
          rw [if_neg missed] at exhausted
          exact exhausted live
        rw [if_pos hit] at exhausted
        have most : r.binding.maxUses ≤ r.consumed.usesConsumed := Int.not_lt.mp exhausted
        have more := counts r hr rfl hit most
        rw [hlive live]
        exact more
      · exact lt_of_lt_of_le (hspent live) grows
    · intro left
      rw [hlive (hasUses_of_consumed left)]
      exact (exhaustedBefore_consume_of_live inv h hr left).symm
  · intro e he e' he' same left left'
    obtain ⟨r, hr, rfl⟩ := (mem_consumeException h).mp he
    obtain ⟨r', hr', rfl⟩ := (mem_consumeException h).mp he'
    rw [binding_consumed, binding_consumed] at same
    rw [inv.single r hr r' hr' same (hasUses_of_consumed left) (hasUses_of_consumed left')]

theorem Generations.consumeAll {identity : String} {located : List RegenerationException}
    (inv : Generations ext db) (h : located.foldlM (consumeOne identity) db = .ok db') :
    Generations ext db' := by
  refine foldlM_except_induction (P := Generations ext) ?_ inv h
  intro c _ b b' hb hstep
  exact hb.consume (consumeOne_eq_ok.mp hstep)

end Consuming

theorem exceptionId_spelling {ext : Externals} (faithful : ext.Faithful) {b b' : ExceptionBinding}
    {at_ at' : String} {k k' : ℕ} (h : exceptionId ext b at_ k = exceptionId ext b' at' k') :
    at_ = at' := by
  have digits := (String.append_right_inj _).mp h
  have same := Document.object_injective
    (faithful.short _ _ (b.sorted_document at_ k) (b'.sorted_document at' k') digits)
  simp only [List.cons.injEq, Prod.mk.injEq, Document.str.injEq] at same
  exact same.2.1.2

section Approving

variable {ext : Externals} {db : Db} {a : Approval} {name : Option String}

theorem exceptionId_of_live (faithful : ext.Faithful) (inv : Generations ext db)
    (alike : SpelledAlike ext db (a.binding ext name) a.expiresAt) {e : RegenerationException}
    (he : e ∈ db.exceptions) (same : e.binding = a.binding ext name) (live : e.HasUses) :
    e.exceptionId = (a.row ext db name).exceptionId := by
  obtain ⟨ordinal, hid⟩ := alike e he same live
  obtain ⟨expiresAt, ordinal', hat, hid', -, hlive⟩ := inv.numbered e he
  have twin : exceptionId ext (a.binding ext name) a.expiresAt ordinal =
      exceptionId ext e.binding expiresAt ordinal' := hid.symm.trans hid'
  obtain ⟨-, hordinal⟩ := exceptionId_inj faithful rfl hat twin
  rw [hid, hordinal, hlive live, same]
  rfl

theorem live_of_exceptionId (faithful : ext.Faithful) (inv : Generations ext db)
    {e : RegenerationException} (he : e ∈ db.exceptions)
    (hid : e.exceptionId = (a.row ext db name).exceptionId) :
    e.binding = a.binding ext name ∧ e.HasUses := by
  obtain ⟨expiresAt, ordinal, hat, hid', hspent, -⟩ := inv.numbered e he
  have twin : exceptionId ext e.binding expiresAt ordinal =
      exceptionId ext (a.binding ext name) a.expiresAt
        (exhaustedBefore db (a.binding ext name)) := hid'.symm.trans hid
  obtain ⟨hbinding, hordinal⟩ := exceptionId_inj faithful hat rfl twin
  refine ⟨hbinding, ?_⟩
  by_contra exhausted
  have older := hspent exhausted
  rw [hbinding] at older
  omega

/-- The state after one name: the live coupon answers, or a new one is written. -/
def Approval.answerOne (ext : Externals) (a : Approval) (acc : Approving)
    (name : Option String) : Approving :=
  if noneLeft acc.db (a.binding ext name) then
    { db := { acc.db with exceptions := acc.db.exceptions.insertNew (a.row ext acc.db name) }
      exceptionIds := acc.exceptionIds ++ [(a.row ext acc.db name).exceptionId]
      anyCreated := true }
  else
    { db := acc.db
      exceptionIds := acc.exceptionIds ++ [(a.row ext acc.db name).exceptionId]
      anyCreated := acc.anyCreated }

/-- The columns' demands on one name. -/
def Approval.StorableOne (ext : Externals) (a : Approval) (db : Db) (name : Option String) :
    Prop :=
  1 ≤ a.maxUses ∧ a.maxUses ≤ 32767 ∧
    (noneLeft db (a.binding ext name) = true →
      (db.ledger.authorizations.get? a.llmSpendAuthorizationId).isSome = true)

theorem approveOne_eq_ok (faithful : ext.Faithful) {acc acc' : Approving}
    (inv : Generations ext acc.db)
    (alike : SpelledAlike ext acc.db (a.binding ext name) a.expiresAt) :
    approveOne ext a acc name = .ok acc' ↔
      a.StorableOne ext acc.db name ∧ acc' = a.answerOne ext acc name := by
  unfold approveOne Approval.StorableOne Approval.answerOne
  by_cases within : 1 ≤ a.maxUses ∧ a.maxUses ≤ 32767
  · rw [if_pos within]
    cases hg : acc.db.exceptions.get? (a.row ext acc.db name).exceptionId with
    | some e =>
        obtain ⟨hbinding, live⟩ :=
          live_of_exceptionId faithful inv (Table.mem_of_get? hg) (Table.key_of_get? hg)
        have held : noneLeft acc.db (a.binding ext name) = false :=
          noneLeft_eq_false.mpr ⟨e, Table.mem_of_get? hg, hbinding, live⟩
        rw [held]
        constructor
        · intro h
          refine ⟨⟨within.1, within.2, ?_⟩, (Except.ok.inj h).symm⟩
          intro spent
          cases spent
        · intro h
          rw [h.2]
          rfl
    | none =>
        have spent : noneLeft acc.db (a.binding ext name) = true := by
          apply noneLeft_eq_true.mpr
          intro e he same live
          exact Table.get?_eq_none.mp hg e he (exceptionId_of_live faithful inv alike he same live)
        by_cases money :
            (acc.db.ledger.authorizations.get? a.llmSpendAuthorizationId).isSome = true
        · rw [spent, if_pos money]
          constructor
          · intro h
            exact ⟨⟨within.1, within.2, fun _ => money⟩, (Except.ok.inj h).symm⟩
          · intro h
            rw [h.2]
            rfl
        · rw [spent, if_neg money]
          constructor
          · intro h
            cases h
          · intro h
            exact absurd (h.1.2.2 rfl) money
  · rw [if_neg within]
    constructor
    · intro h
      cases h
    · intro h
      exact absurd ⟨h.1.1, h.1.2.1⟩ within

section Step

variable {acc : Approving}

theorem answerOne_ledger : (a.answerOne ext acc name).db.ledger = acc.db.ledger := by
  unfold Approval.answerOne
  split <;> rfl

theorem answerOne_rest : (a.answerOne ext acc name).db =
    { acc.db with exceptions := (a.answerOne ext acc name).db.exceptions } := by
  unfold Approval.answerOne
  split <;> rfl

theorem answerOne_exceptionIds : (a.answerOne ext acc name).exceptionIds =
    acc.exceptionIds ++ [(a.row ext acc.db name).exceptionId] := by
  unfold Approval.answerOne
  split <;> rfl

theorem answerOne_anyCreated : (a.answerOne ext acc name).anyCreated =
    (acc.anyCreated || noneLeft acc.db (a.binding ext name)) := by
  unfold Approval.answerOne
  split
  · rename_i spent
    simp [spent]
  · rename_i held
    simp [held]

theorem row_hasUses (uses : 1 ≤ a.maxUses) (db : Db) (name : Option String) :
    (a.row ext db name).HasUses := by
  show (0 : ℤ) < a.maxUses
  omega

theorem row_fresh (faithful : ext.Faithful) (inv : Generations ext db)
    (spent : noneLeft db (a.binding ext name) = true) :
    ∀ e ∈ db.exceptions, e.exceptionId ≠ (a.row ext db name).exceptionId := by
  intro e he hid
  obtain ⟨hbinding, live⟩ := live_of_exceptionId faithful inv he hid
  exact noneLeft_eq_true.mp spent e he hbinding live

theorem rows_answerOne (faithful : ext.Faithful) (inv : Generations ext acc.db) :
    (a.answerOne ext acc name).db.exceptions.rows = acc.db.exceptions.rows ++
      if noneLeft acc.db (a.binding ext name) then [a.row ext acc.db name] else [] := by
  unfold Approval.answerOne
  split
  · rename_i spent
    have fresh := row_fresh faithful inv spent
    cases hi : acc.db.exceptions.insert? (a.row ext acc.db name) with
    | none =>
        obtain ⟨e, he, hid⟩ := Table.insert?_eq_none.mp hi
        exact absurd hid (fresh e he)
    | some exceptions =>
        simp only [Table.insertNew, hi, Option.getD_some]
        exact (Table.rows_of_insert? hi).1
  · rw [List.append_nil]

theorem exhaustedBefore_answerOne (uses : 1 ≤ a.maxUses) (b : ExceptionBinding) :
    exhaustedBefore (a.answerOne ext acc name).db b = exhaustedBefore acc.db b := by
  unfold Approval.answerOne
  split
  · exact exhaustedBefore_insertNew (row_hasUses uses acc.db name)
  · rfl

theorem Generations.answerOne (inv : Generations ext acc.db) (name : Option String)
    (uses : 1 ≤ a.maxUses) :
    Generations ext (a.answerOne ext acc name).db := by
  unfold Approval.answerOne
  split
  · rename_i spent
    have none_live := noneLeft_eq_true.mp spent
    constructor
    · intro e he
      unfold Numbered
      rw [exhaustedBefore_insertNew (row_hasUses uses acc.db name)]
      rcases Table.mem_insertNew.mp he with old | ⟨rfl, -⟩
      · exact inv.numbered e old
      · exact ⟨a.expiresAt, _, rfl, rfl, fun exhausted =>
          absurd (row_hasUses uses acc.db name) exhausted, fun _ => rfl⟩
    · intro e he e' he' same live live'
      rcases Table.mem_insertNew.mp he with old | ⟨rfl, -⟩
      · rcases Table.mem_insertNew.mp he' with old' | ⟨rfl, -⟩
        · exact inv.single e old e' old' same live live'
        · exact absurd live (none_live e old same)
      · rcases Table.mem_insertNew.mp he' with old' | ⟨rfl, -⟩
        · exact absurd live' (none_live e' old' same.symm)
        · rfl
  · exact inv

theorem mem_answerOne_of_ne {other : Option String} (hne : other ≠ name)
    {e : RegenerationException} (same : e.binding = a.binding ext other) :
    e ∈ (a.answerOne ext acc name).db.exceptions ↔ e ∈ acc.db.exceptions := by
  unfold Approval.answerOne
  split
  · rw [Table.mem_insertNew]
    constructor
    · intro he
      rcases he with old | ⟨rfl, -⟩
      · exact old
      · exact absurd (congrArg ExceptionBinding.tombstoneId same).symm hne
    · intro he
      exact Or.inl he
  · rfl

theorem noneLeft_answerOne_of_ne {other : Option String} (hne : other ≠ name) :
    noneLeft (a.answerOne ext acc name).db (a.binding ext other) =
      noneLeft acc.db (a.binding ext other) := by
  rw [Bool.eq_iff_iff, noneLeft_eq_true, noneLeft_eq_true]
  constructor
  · intro h e he same
    exact h e ((mem_answerOne_of_ne hne same).mpr he) same
  · intro h e he same
    exact h e ((mem_answerOne_of_ne hne same).mp he) same

theorem SpelledAlike.answerOne {other : Option String} (hne : other ≠ name)
    (alike : SpelledAlike ext acc.db (a.binding ext other) a.expiresAt) :
    SpelledAlike ext (a.answerOne ext acc name).db (a.binding ext other) a.expiresAt := by
  intro e he same live
  exact alike e ((mem_answerOne_of_ne hne same).mp he) same live

theorem row_answerOne (uses : 1 ≤ a.maxUses) (other : Option String) :
    a.row ext (a.answerOne ext acc name).db other = a.row ext acc.db other := by
  unfold Approval.row
  rw [exhaustedBefore_answerOne uses]
  unfold Db.now
  rw [answerOne_ledger]

end Step

end Approving

theorem approveOne_exceptionIds {ext : Externals} {a : Approval} {acc acc' : Approving}
    {name : Option String} (h : approveOne ext a acc name = .ok acc') :
    acc'.exceptionIds = acc.exceptionIds ++ [(a.row ext acc.db name).exceptionId] := by
  unfold approveOne at h
  split at h
  · cases hg : acc.db.exceptions.get? (a.row ext acc.db name).exceptionId with
    | some e =>
        simp only [hg] at h
        cases h
        rfl
    | none =>
        simp only [hg] at h
        split at h <;> cases h
        rfl
  · cases h

section Names

variable {ext : Externals} {a : Approval}

theorem approveAll_eq_ok (faithful : ext.Faithful) {names : List (Option String)}
    (acc : Approving) {acc' : Approving} (inv : Generations ext acc.db) (distinct : names.Nodup)
    (alike : ∀ name ∈ names, SpelledAlike ext acc.db (a.binding ext name) a.expiresAt) :
    names.foldlM (approveOne ext a) acc = .ok acc' ↔
      (∀ name ∈ names, a.StorableOne ext acc.db name) ∧
        acc' = names.foldl (a.answerOne ext) acc := by
  induction names generalizing acc with
  | nil =>
      simp only [List.foldlM_nil, List.foldl_nil, List.not_mem_nil, false_implies, implies_true,
        true_and]
      constructor
      · intro h
        exact (Except.ok.inj h).symm
      · intro h
        rw [h]
        rfl
  | cons first others ih =>
      rw [List.nodup_cons] at distinct
      have apart : ∀ name ∈ others, name ≠ first := by
        intro name hname same
        exact distinct.1 (same ▸ hname)
      have keeps : ∀ name ∈ others, a.StorableOne ext (a.answerOne ext acc first).db name ↔
          a.StorableOne ext acc.db name := by
        intro name hname
        unfold Approval.StorableOne
        rw [noneLeft_answerOne_of_ne (apart name hname), answerOne_ledger]
      have later : ∀ name ∈ others, SpelledAlike ext (a.answerOne ext acc first).db
          (a.binding ext name) a.expiresAt := by
        intro name hname
        exact (alike name (List.mem_cons_of_mem first hname)).answerOne (apart name hname)
      rw [List.foldlM_cons, bind_eq_ok, List.foldl_cons]
      constructor
      · intro h
        obtain ⟨acc₁, hfirst, hothers⟩ := h
        obtain ⟨storable, rfl⟩ :=
          (approveOne_eq_ok faithful inv (alike first List.mem_cons_self)).mp hfirst
        obtain ⟨rest, rfl⟩ := (ih _ (inv.answerOne first storable.1) distinct.2 later).mp hothers
        refine ⟨?_, rfl⟩
        intro name hname
        cases List.mem_cons.mp hname with
        | inl here => exact here ▸ storable
        | inr there => exact (keeps name there).mp (rest name there)
      · intro h
        obtain ⟨storable, rfl⟩ := h
        have here := storable first List.mem_cons_self
        refine ⟨a.answerOne ext acc first, (approveOne_eq_ok faithful inv
          (alike first List.mem_cons_self)).mpr ⟨here, rfl⟩, ?_⟩
        refine (ih _ (inv.answerOne first here.1) distinct.2 later).mpr ⟨?_, rfl⟩
        intro name hname
        exact (keeps name hname).mpr (storable name (List.mem_cons_of_mem first hname))

theorem foldl_answerOne_rest (names : List (Option String)) (acc : Approving) :
    (names.foldl (a.answerOne ext) acc).db =
      { acc.db with exceptions := (names.foldl (a.answerOne ext) acc).db.exceptions } := by
  induction names generalizing acc with
  | nil => rfl
  | cons first others ih =>
      rw [List.foldl_cons, ih]
      rw [answerOne_rest]

theorem foldl_answerOne (faithful : ext.Faithful) (uses : 1 ≤ a.maxUses)
    {names : List (Option String)} (acc : Approving) (inv : Generations ext acc.db)
    (distinct : names.Nodup) :
    Generations ext (names.foldl (a.answerOne ext) acc).db ∧
    (names.foldl (a.answerOne ext) acc).db.exceptions.rows = acc.db.exceptions.rows ++
      (names.filter fun name => noneLeft acc.db (a.binding ext name)).map (a.row ext acc.db) ∧
    (names.foldl (a.answerOne ext) acc).exceptionIds =
      acc.exceptionIds ++ names.map (fun name => (a.row ext acc.db name).exceptionId) ∧
    (names.foldl (a.answerOne ext) acc).anyCreated =
      (acc.anyCreated || names.any fun name => noneLeft acc.db (a.binding ext name)) := by
  induction names generalizing acc with
  | nil => simp [inv]
  | cons first others ih =>
      rw [List.nodup_cons] at distinct
      obtain ⟨kept, rows, ids, told⟩ := ih _ (inv.answerOne first uses) distinct.2
      have same : ∀ name ∈ others, noneLeft (a.answerOne ext acc first).db (a.binding ext name) =
          noneLeft acc.db (a.binding ext name) := by
        intro name hname
        apply noneLeft_answerOne_of_ne
        intro twice
        exact distinct.1 (twice ▸ hname)
      have rows_same : a.row ext (a.answerOne ext acc first).db = a.row ext acc.db := by
        funext name
        exact row_answerOne uses name
      rw [List.foldl_cons]
      refine ⟨kept, ?_, ?_, ?_⟩
      · rw [rows, rows_answerOne faithful inv, List.filter_congr same, rows_same,
          List.filter_cons]
        split <;> simp
      · rw [ids, answerOne_exceptionIds, rows_same]
        simp
      · have later : (others.any fun name =>
              noneLeft (a.answerOne ext acc first).db (a.binding ext name)) =
            others.any fun name => noneLeft acc.db (a.binding ext name) := by
          rw [Bool.eq_iff_iff, List.any_eq_true, List.any_eq_true]
          constructor
          · intro h
            obtain ⟨name, hname, spent⟩ := h
            exact ⟨name, hname, same name hname ▸ spent⟩
          · intro h
            obtain ⟨name, hname, spent⟩ := h
            exact ⟨name, hname, (same name hname).symm ▸ spent⟩
        rw [told, later, List.any_cons, ← Bool.or_assoc, answerOne_anyCreated]

theorem names_nodup (a : Approval) (db : Db) : (a.names db).Nodup := by
  unfold Approval.names toName
  split
  · exact List.nodup_singleton none
  · have wrapped := (nodup_covering db a.scopeKey a.targetFormulaIdentityHash).map
      (Option.some_injective String)
    rwa [List.map_map] at wrapped

theorem names_ne_nil (a : Approval) (db : Db) : a.names db ≠ [] := by
  unfold Approval.names toName
  split
  · exact List.cons_ne_nil none []
  · rename_i covered
    intro none_named
    rw [List.map_eq_nil_iff] at none_named
    rw [none_named] at covered
    exact covered rfl

variable {db : Db} {acc : Approving}

theorem storable_iff :
    a.Storable ext db ↔ ∀ name ∈ a.names db, a.StorableOne ext db name := by
  constructor
  · intro h name hname
    exact ⟨h.1, h.2.1, h.2.2 name hname⟩
  · intro h
    obtain ⟨first, hfirst⟩ := List.exists_mem_of_ne_nil _ (names_ne_nil a db)
    exact ⟨(h first hfirst).1, (h first hfirst).2.1, fun name hname => (h name hname).2.2⟩

theorem approve_eq_ok (faithful : ext.Faithful) (inv : Generations ext db)
    (spelled : a.Spelled ext db) :
    approveRegenerationException ext db a = .ok acc ↔
      a.Storable ext db ∧ acc = (a.names db).foldl (a.answerOne ext) ⟨db, [], false⟩ := by
  rw [storable_iff]
  exact approveAll_eq_ok faithful ⟨db, [], false⟩ inv (names_nodup a db) spelled

theorem Generations.approve (faithful : ext.Faithful) (inv : Generations ext db)
    (spelled : a.Spelled ext db) (h : approveRegenerationException ext db a = .ok acc) :
    Generations ext acc.db := by
  obtain ⟨storable, rfl⟩ := (approve_eq_ok faithful inv spelled).mp h
  exact (foldl_answerOne faithful storable.1 ⟨db, [], false⟩ inv (names_nodup a db)).1

theorem answered_of_approve (faithful : ext.Faithful) (inv : Generations ext db)
    (spelled : a.Spelled ext db) (h : approveRegenerationException ext db a = .ok acc) :
    Answered ext a db acc := by
  obtain ⟨storable, rfl⟩ := (approve_eq_ok faithful inv spelled).mp h
  obtain ⟨-, rows, ids, told⟩ :=
    foldl_answerOne faithful storable.1 ⟨db, [], false⟩ inv (names_nodup a db)
  refine ⟨?_, rows, ?_, foldl_answerOne_rest _ _⟩
  · rw [ids, List.nil_append, List.forall₂_map_right_iff, List.forall₂_same]
    intro name hname
    cases hleft : noneLeft db (a.binding ext name) with
    | true =>
        refine ⟨a.row ext db name, ?_, rfl, rfl, row_hasUses storable.1 db name⟩
        rw [← Table.mem_rows, rows]
        apply List.mem_append_right
        exact List.mem_map_of_mem (List.mem_filter.mpr ⟨hname, hleft⟩)
    | false =>
        obtain ⟨e, he, same, live⟩ := noneLeft_eq_false.mp hleft
        refine ⟨e, ?_, ?_, same, live⟩
        · rw [← Table.mem_rows, rows]
          exact List.mem_append_left _ he
        · exact exceptionId_of_live faithful inv (spelled name hname) he same live
  · rw [told, Bool.false_or]
    unfold Approval.fresh
    cases hnew : (a.names db).any fun name => noneLeft db (a.binding ext name) with
    | true =>
        obtain ⟨name, hname, hleft⟩ := List.any_eq_true.mp hnew
        have there : name ∈ (a.names db).filter fun name => noneLeft db (a.binding ext name) :=
          List.mem_filter.mpr ⟨hname, hleft⟩
        cases hf : (a.names db).filter fun name => noneLeft db (a.binding ext name) with
        | nil =>
            rw [hf] at there
            cases there
        | cons first others => rfl
    | false =>
        have none_new :
            ((a.names db).filter fun name => noneLeft db (a.binding ext name)) = [] := by
          rw [List.filter_eq_nil_iff]
          intro name hname
          have held := List.any_eq_false.mp hnew name hname
          exact held
        rw [none_new]
        rfl

end Names

section Runs

variable {ext : Externals} {db db' : Db}

theorem mem_covering {scopeKey identity : String} {t : Tombstone} :
    t ∈ coveringTombstones db scopeKey identity ↔
      t ∈ db.tombstones.rows ∧ t.covers scopeKey identity = true := by
  rw [← List.mem_filter]
  exact (List.filter_append_perm Tombstone.isCandidateWide _).mem_iff

theorem tombstones_recordTombstone {w : Withdrawal} {stored : Db × Tombstone}
    (h : recordTombstone ext db w = .ok stored) :
    db.tombstones.rows <+: stored.1.tombstones.rows := by
  unfold recordTombstone at h
  split at h
  · cases h
  · obtain ⟨coverage, -, hinsert⟩ := bind_eq_ok.mp h
    unfold insertTombstone at hinsert
    split at hinsert
    · split at hinsert <;> cases hinsert
      exact List.prefix_rfl
    · split at hinsert
      · split at hinsert
        · cases hinsert
        · rename_i hnew
          cases hinsert
          exact ⟨_, (Table.rows_of_insert? hnew).1.symm⟩
      · cases hinsert

theorem couponStep_cases {call : CouponCall} (h : couponStep ext db call = some db') :
    (db'.exceptions = db.exceptions ∧ db.tombstones.rows <+: db'.tombstones.rows) ∨
    (∃ id, consumeException db id = some db') ∨
    (∃ mid identity located, mid.exceptions = db.exceptions ∧ mid.tombstones = db.tombstones ∧
      List.foldlM (consumeOne identity) mid located = .ok db') ∨
    ∃ a acc, call = .store (.approve a) ∧ approveRegenerationException ext db a = .ok acc ∧
      db' = acc.db := by
  have kept : db.exceptions = db.exceptions ∧ db.tombstones.rows <+: db.tombstones.rows :=
    ⟨rfl, List.prefix_rfl⟩
  cases call with
  | consume id =>
      cases h
      cases hc : consumeException db id with
      | none => exact Or.inl kept
      | some next => exact Or.inr (Or.inl ⟨id, hc⟩)
  | store call =>
      cases call with
      | request req =>
          cases h
          cases hr : requestDraft ext db req with
          | error e => exact Or.inl kept
          | ok g =>
              obtain ⟨drafts, found, -, -, -, hconsume, -⟩ | ⟨d, -, -, rfl⟩ := request_ok hr
              · exact Or.inr (Or.inr (Or.inl ⟨{ db with drafts := drafts },
                  formulaIdentity ext req.inputs, found.1, rfl, rfl, hconsume⟩))
              · exact Or.inl kept
      | advance id target p =>
          cases h
          cases hr : advance ext db id target p with
          | error e => exact Or.inl kept
          | ok next =>
              obtain ⟨-, -, -, -, rest, -⟩ := advance_ok hr
              refine Or.inl ?_
              show next.exceptions = db.exceptions ∧ db.tombstones.rows <+: next.tombstones.rows
              rw [rest]
              exact kept
      | recordTombstone w =>
          cases h
          cases hr : recordTombstone ext db w with
          | error e => exact Or.inl kept
          | ok stored =>
              refine Or.inl ⟨?_, tombstones_recordTombstone hr⟩
              show stored.1.exceptions = db.exceptions
              rw [recordTombstone_ok hr]
      | retire r =>
          cases h
          cases hr : retireFormulaDraft db r with
          | error e => exact Or.inl kept
          | ok next =>
              obtain rfl | ⟨rfl, -⟩ := retireFormulaDraft_ok hr
              · exact Or.inl kept
              · exact Or.inl kept
      | approve a =>
          cases h
          cases hr : approveRegenerationException ext db a with
          | error e => exact Or.inl kept
          | ok acc => exact Or.inr (Or.inr (Or.inr ⟨a, acc, rfl, hr, rfl⟩))
      | ledger ledger' =>
          cases h
          exact Or.inl kept

theorem couponStep_approve {a : Approval} {acc : Approving}
    (h : approveRegenerationException ext db a = .ok acc) :
    couponStep ext db (.store (.approve a)) = some acc.db := by
  show some (settled db ((approveRegenerationException ext db a).map (·.db))) = some acc.db
  rw [h]
  rfl

theorem Generations.of_exceptions (inv : Generations ext db)
    (same : db'.exceptions = db.exceptions) : Generations ext db' := by
  have counts : ∀ b, exhaustedBefore db' b = exhaustedBefore db b := by
    intro b
    unfold exhaustedBefore
    rw [same]
  constructor
  · intro e he
    rw [same] at he
    unfold Numbered
    rw [counts]
    exact inv.numbered e he
  · rw [same]
    exact inv.single

theorem Generations.step (faithful : ext.Faithful) (inv : Generations ext db) {call : CouponCall}
    (spelled : SpelledCall ext db call) (h : couponStep ext db call = some db') :
    Generations ext db' := by
  obtain ⟨same, -⟩ | ⟨id, hc⟩ | ⟨mid, identity, located, same, -, hall⟩ | ⟨a, acc, rfl, ha, rfl⟩ :=
    couponStep_cases h
  · exact inv.of_exceptions same
  · exact inv.consume hc
  · exact (inv.of_exceptions same).consumeAll hall
  · exact inv.approve faithful spelled ha

theorem Generations.init (h : Init db) : Generations ext db := by
  have empty : ∀ e, e ∉ db.exceptions := by
    intro e he
    rw [← Table.mem_rows, h.2.2.2] at he
    cases he
  exact ⟨fun e he => absurd he (empty e), fun e he => absurd he (empty e)⟩

theorem Generations.exec (faithful : ext.Faithful) (inv : Generations ext db)
    {calls : List CouponCall} (spelled : Along (couponStep ext) (SpelledCall ext) db calls)
    (run : exec (couponStep ext) db calls = some db') : Generations ext db' := by
  refine exec_induction_along (P := Generations ext) inv ?_ spelled run
  intro s call s' hs hcall hstep
  exact hs.step faithful hcall hstep

theorem kept_step {call : CouponCall} (h : couponStep ext db call = some db') :
    db.tombstones.rows <+: db'.tombstones.rows ∧ Follows db db' := by
  constructor
  · obtain ⟨-, more⟩ | ⟨id, hc⟩ | ⟨mid, identity, located, -, same, hall⟩ | ⟨a, acc, -, ha, rfl⟩ :=
      couponStep_cases h
    · exact more
    · rw [consumeException_rest hc]
    · rw [(consumeAll_rest hall).2, ← same]
    · rw [(follows_approve ha).2]
  · cases call with
    | store call => exact follows_step h
    | consume id =>
        cases h
        cases hc : consumeException db id with
        | none => exact .refl db
        | some next => exact follows_consumeException hc

theorem kept_exec {calls : List CouponCall} (run : exec (couponStep ext) db calls = some db') :
    db.tombstones.rows <+: db'.tombstones.rows ∧ Follows db db' := by
  refine exec_induction (P := fun s => db.tombstones.rows <+: s.tombstones.rows ∧ Follows db s)
    ⟨List.prefix_rfl, .refl db⟩ ?_ run
  intro s call s' hs hstep
  have next := kept_step hstep
  exact ⟨hs.1.trans next.1, hs.2.trans next.2⟩

theorem covering_eq_of_mem (more : db.tombstones.rows <+: db'.tombstones.rows)
    {scopeKey identity : String}
    (same : ∀ t, t ∈ coveringTombstones db' scopeKey identity →
      t ∈ coveringTombstones db scopeKey identity) :
    coveringTombstones db' scopeKey identity = coveringTombstones db scopeKey identity := by
  obtain ⟨new, hnew⟩ := more
  have distinct := db'.tombstones.keys_nodup
  rw [← hnew, List.map_append] at distinct
  have none_new : new.filter (·.covers scopeKey identity) = [] := by
    rw [List.filter_eq_nil_iff]
    intro t ht covers
    have there : t ∈ coveringTombstones db' scopeKey identity := by
      rw [mem_covering, ← hnew]
      exact ⟨List.mem_append_right _ ht, covers⟩
    have old := (mem_covering.mp (same t there)).1
    exact List.disjoint_of_nodup_append distinct (List.mem_map_of_mem old) (List.mem_map_of_mem ht)
  unfold coveringTombstones
  rw [← hnew, List.filter_append, none_new, List.append_nil]

end Runs
section Replaying

variable {ext : Externals} {db db' : Db} {a : Approval}

theorem foldl_answerOne_held {names : List (Option String)} (acc : Approving)
    (held : ∀ name ∈ names, noneLeft acc.db (a.binding ext name) = false) :
    names.foldl (a.answerOne ext) acc =
      ⟨acc.db, acc.exceptionIds ++ names.map (fun name => (a.row ext acc.db name).exceptionId),
        acc.anyCreated⟩ := by
  induction names generalizing acc with
  | nil => simp
  | cons first others ih =>
      have one : a.answerOne ext acc first =
          ⟨acc.db, acc.exceptionIds ++ [(a.row ext acc.db first).exceptionId],
            acc.anyCreated⟩ := by
        unfold Approval.answerOne
        rw [held first List.mem_cons_self]
        rfl
      have later := ih ⟨acc.db,
          acc.exceptionIds ++ [(a.row ext acc.db first).exceptionId], acc.anyCreated⟩
        fun name hname => held name (List.mem_cons_of_mem first hname)
      rw [List.foldl_cons, one, later]
      simp

theorem approve_replayed (faithful : ext.Faithful) (inv : Generations ext db)
    (spelled : a.Spelled ext db) {acc : Approving}
    (h : approveRegenerationException ext db a = .ok acc) {later : List CouponCall}
    (run : exec (couponStep ext) acc.db later = some db')
    (alike : Along (couponStep ext) (SpelledCall ext) acc.db later)
    (covering : ∀ t, t ∈ coveringTombstones db' a.scopeKey a.targetFormulaIdentityHash →
      t ∈ coveringTombstones db a.scopeKey a.targetFormulaIdentityHash)
    (left : ∀ e ∈ db'.exceptions, e.exceptionId ∈ acc.exceptionIds → e.HasUses) :
    approveRegenerationException ext db' a = .ok ⟨db', acc.exceptionIds, false⟩ := by
  have answered := answered_of_approve faithful inv spelled h
  have inv' := (inv.approve faithful spelled h).exec faithful alike run
  obtain ⟨more, follows⟩ := kept_exec run
  obtain ⟨storable, rfl⟩ := (approve_eq_ok faithful inv spelled).mp h
  have ids := (foldl_answerOne faithful storable.1 ⟨db, [], false⟩ inv
    (names_nodup a db)).2.2.1
  rw [List.nil_append] at ids
  have names : a.names db' = a.names db := by
    rw [answered.rest] at more
    unfold Approval.names
    rw [covering_eq_of_mem more covering]
    rfl
  have held : ∀ name ∈ a.names db, ∃ e ∈ db'.exceptions,
      e.exceptionId = (a.row ext db name).exceptionId ∧ e.binding = a.binding ext name ∧
        e.HasUses := by
    intro name hname
    have named := answered.named
    rw [ids, List.forall₂_map_right_iff, List.forall₂_same] at named
    obtain ⟨e, he, hid, same, -⟩ := named name hname
    obtain ⟨e', he', hid', same', -⟩ := follows.exceptions e he
    refine ⟨e', he', hid'.trans hid, same'.trans same, left e' he' ?_⟩
    rw [ids, hid', hid]
    exact List.mem_map_of_mem hname
  have spelled' : a.Spelled ext db' := by
    intro name hname x hx same live
    rw [names] at hname
    obtain ⟨e, he, hid, same', live'⟩ := held name hname
    obtain rfl := inv'.single x hx e he (same.trans same'.symm) live live'
    exact ⟨_, hid⟩
  have stays : ∀ name ∈ a.names db', noneLeft db' (a.binding ext name) = false := by
    intro name hname
    rw [names] at hname
    obtain ⟨e, he, -, same, live⟩ := held name hname
    exact noneLeft_eq_false.mpr ⟨e, he, same, live⟩
  refine (approve_eq_ok faithful inv' spelled').mpr ⟨⟨storable.1, storable.2.1, ?_⟩, ?_⟩
  · intro name hname spent
    rw [stays name hname] at spent
    cases spent
  · rw [foldl_answerOne_held ⟨db', [], false⟩ stays, List.nil_append, ids]
    have same_ids : (a.names db').map (fun name => (a.row ext db' name).exceptionId) =
        (a.names db).map fun name => (a.row ext db name).exceptionId := by
      rw [names]
      apply List.map_congr_left
      intro name hname
      obtain ⟨e, he, hid, same, live⟩ := held name hname
      rw [← hid]
      rw [← names] at hname
      exact (exceptionId_of_live faithful inv' (spelled' name hname) he same live).symm
    rw [same_ids]

end Replaying

/-- In every run whose approvals spell the expiry as the live coupons of their
    bindings were: at most one coupon of a binding has uses left; an approval
    answers every name with a coupon of its binding, new exactly where the earlier
    ones are exhausted; and repeated while these have uses left and the same
    withdrawals cover, it returns them and writes nothing. -/
theorem approvals_idempotent_per_generation {ext : Externals} (faithful : ext.Faithful)
    {db₀ db : Db} {calls : List CouponCall} (init : Init db₀)
    (run : exec (couponStep ext) db₀ calls = some db)
    (alike : Along (couponStep ext) (SpelledCall ext) db₀ calls) :
    (∀ e ∈ db.exceptions, ∀ e' ∈ db.exceptions, e.binding = e'.binding →
      e.HasUses → e'.HasUses → e = e') ∧
    ∀ a : Approval, a.Spelled ext db →
      ((∃ acc, approveRegenerationException ext db a = .ok acc) ↔ a.Storable ext db) ∧
      ∀ acc, approveRegenerationException ext db a = .ok acc →
        Answered ext a db acc ∧
        ∀ later db', exec (couponStep ext) acc.db later = some db' →
          Along (couponStep ext) (SpelledCall ext) acc.db later →
          (∀ t, t ∈ coveringTombstones db' a.scopeKey a.targetFormulaIdentityHash ↔
            t ∈ coveringTombstones db a.scopeKey a.targetFormulaIdentityHash) →
          (∀ e ∈ db'.exceptions, e.exceptionId ∈ acc.exceptionIds → e.HasUses) →
          approveRegenerationException ext db' a = .ok ⟨db', acc.exceptionIds, false⟩ := by
  have inv := (Generations.init init).exec faithful alike run
  refine ⟨inv.single, ?_⟩
  intro a spelled
  constructor
  · constructor
    · intro returns
      obtain ⟨acc, h⟩ := returns
      exact ((approve_eq_ok faithful inv spelled).mp h).1
    · intro storable
      exact ⟨_, (approve_eq_ok faithful inv spelled).mpr ⟨storable, rfl⟩⟩
  · intro acc h
    refine ⟨answered_of_approve faithful inv spelled h, ?_⟩
    intro later db' hrun halike covering left
    exact approve_replayed faithful inv spelled h hrun halike (fun t => (covering t).mp) left

namespace InFlight

section Run

variable (ext : Externals)

/-- The candidate is asked for, and nothing is withdrawn. -/
def asked : Db := { withdrawn ext .requested none with tombstones := Table.empty }

/-- The coupon that names no withdrawal. -/
def plain : RegenerationException := (approves ext).row ext (asked ext) none

def withPlain : Db := { asked ext with exceptions := Table.empty.insertNew (plain ext) }

/-- The plain coupon is used, and then the candidate is withdrawn. -/
def spent : Db :=
  { withdrawn ext .requested none with exceptions := Table.empty.insertNew (plain ext).consumed }

def usedThenWithdrawn : List CouponCall :=
  [.store (.request (asks "draft-1")), .store (.approve (approves ext)),
    .consume (plain ext).exceptionId, .store (.recordTombstone withdraws)]

theorem approve_asked : approveRegenerationException ext (asked ext) (approves ext) =
    .ok ⟨withPlain ext, [(plain ext).exceptionId], true⟩ := rfl

theorem consume_plain : consumeException (withPlain ext) (plain ext).exceptionId =
    some { asked ext with exceptions := Table.empty.insertNew (plain ext).consumed } := by
  have hit : consumable (plain ext).exceptionId (plain ext) = true := by
    simp [consumable, show (plain ext).usesConsumed < (plain ext).binding.maxUses from one_pos]
  have found : (withPlain ext).exceptions.rows.any (consumable (plain ext).exceptionId) = true :=
    List.any_eq_true.mpr ⟨plain ext, List.mem_singleton_self _, hit⟩
  have once : (withPlain ext).exceptions.updateWhere (consumable (plain ext).exceptionId)
      RegenerationException.consumed RegenerationException.consumed_exceptionId =
        Table.empty.insertNew (plain ext).consumed := by
    refine Table.mk.injEq .. |>.mpr ?_
    show [if consumable (plain ext).exceptionId (plain ext) then (plain ext).consumed else
      plain ext] = [(plain ext).consumed]
    rw [if_pos hit]
  rw [consumeException, if_pos found, once]
  rfl

theorem couponStep_asked :
    couponStep ext start (.store (.request (asks "draft-1"))) = some (asked ext) := rfl

theorem couponStep_used : couponStep ext (withPlain ext) (.consume (plain ext).exceptionId) =
    some { asked ext with exceptions := Table.empty.insertNew (plain ext).consumed } := by
  rw [couponStep, consume_plain, Option.getD_some]

theorem usedThenWithdrawn_run :
    exec (couponStep ext) start (usedThenWithdrawn ext) = some (spent ext) := by
  rw [usedThenWithdrawn, exec_cons, couponStep_asked, Option.bind_some, exec_cons,
    couponStep_approve (approve_asked ext), Option.bind_some, exec_cons, couponStep_used,
    Option.bind_some, exec_single]
  rfl

theorem usedThenWithdrawn_spelled :
    Along (couponStep ext) (SpelledCall ext) start (usedThenWithdrawn ext) := by
  intro m hm
  rw [usedThenWithdrawn, history_cons (couponStep_asked ext),
    history_cons (couponStep_approve (approve_asked ext)), history_cons (couponStep_used ext)] at hm
  rcases List.mem_cons.mp hm with rfl | hm
  · trivial
  rcases List.mem_cons.mp hm with rfl | hm
  · intro name _ e he
    exact absurd he Table.not_mem_empty
  rcases List.mem_cons.mp hm with rfl | hm
  · trivial
  have last := List.mem_singleton.mp (action_mem_of_mem_history hm)
  rw [last]
  trivial

end Run

theorem mem_spent {ext : Externals} {e : RegenerationException} (h : e ∈ (spent ext).exceptions) :
    e = (plain ext).consumed :=
  List.mem_singleton.mp h

/-- An identity is approved, its coupon used, and its candidate withdrawn: the approval then
    answers with a coupon for the withdrawal, and repeated, returns it and writes nothing. -/
theorem approvals_idempotent_per_generation_withdrawn :
    exec (couponStep asTexts) start (usedThenWithdrawn asTexts) = some (spent asTexts) ∧
      ¬ (plain asTexts).consumed.HasUses ∧ (plain asTexts).consumed ∈ (spent asTexts).exceptions ∧
      ∃ acc, approveRegenerationException asTexts (spent asTexts) (approves asTexts) = .ok acc ∧
        acc.anyCreated = true ∧ acc.db.exceptions.rows.length = 2 ∧ acc.exceptionIds.length = 1 ∧
        approveRegenerationException asTexts acc.db (approves asTexts) =
          .ok ⟨acc.db, acc.exceptionIds, false⟩ := by
  have used : ¬ (plain asTexts).consumed.HasUses := by
    show ¬ (0 + 1 : ℤ) < 1
    omega
  have here : (plain asTexts).consumed ∈ (spent asTexts).exceptions := List.mem_singleton_self _
  have names : (approves asTexts).names (spent asTexts) = [some (tombstone asTexts).tombstoneId] := by
    have covers : coveringTombstones (spent asTexts) (approves asTexts).scopeKey
        (approves asTexts).targetFormulaIdentityHash = [tombstone asTexts] :=
      covering asTexts .requested none
    rw [Approval.names, covers]
    rfl
  have spelled : (approves asTexts).Spelled asTexts (spent asTexts) := by
    intro name _ e he _ live
    rw [mem_spent he] at live
    exact absurd live used
  have law := (approvals_idempotent_per_generation asTexts_faithful start_init
    (usedThenWithdrawn_run asTexts) (usedThenWithdrawn_spelled asTexts)).2 (approves asTexts) spelled
  have new : (approves asTexts).fresh asTexts (spent asTexts) =
      [(approves asTexts).row asTexts (spent asTexts) (some (tombstone asTexts).tombstoneId)] := by
    have none_left : noneLeft (spent asTexts)
        ((approves asTexts).binding asTexts (some (tombstone asTexts).tombstoneId)) = true := by
      refine noneLeft_eq_true.mpr fun e he _ => ?_
      rw [mem_spent he]
      exact used
    simp only [Approval.fresh, names, List.filter_cons, none_left, if_true, List.filter_nil,
      List.map_cons, List.map_nil]
  obtain ⟨acc, hacc⟩ := law.1.mpr ⟨by decide, by decide, fun _ _ _ => rfl⟩
  obtain ⟨answered, replayed⟩ := law.2 acc hacc
  refine ⟨usedThenWithdrawn_run asTexts, used, here, acc, hacc, ?_, ?_, ?_, ?_⟩
  · rw [answered.told, new]
    rfl
  · rw [answered.created, new]
    rfl
  · rw [← answered.named.length_eq, names]
    rfl
  · refine replayed [] acc.db rfl (fun m hm => by cases hm) (fun t => ?_) fun e he hid => ?_
    · rw [answered.rest]
      rfl
    · have named := answered.named
      rw [names] at named
      obtain ⟨id, rest, ⟨e', he', hid', _, live⟩, none, ids⟩ := List.forall₂_cons_left_iff.mp named
      rw [ids, List.forall₂_nil_left_iff.mp none, List.mem_singleton] at hid
      exact Table.eq_of_key_eq he he' (hid.trans hid'.symm) ▸ live

end InFlight

namespace TwoSpellings

open InFlight

/-- The retry of an identity nothing withdraws, until microsecond 100. -/
def approves (expiresAt : String) : Approval where
  targetFormulaIdentityHash := "identity-1"
  lane := lane
  actorSubject := "carol"
  llmSpendAuthorizationId := "sa-1"
  expiresAt := expiresAt
  scopeKey := "scope-1"
  maxUses := 1

def offset : String := "1970-01-01T00:00:00.0001+00:00"

def zulu : String := "1970-01-01T00:00:00.0001Z"

/-- Nothing is withdrawn and the money is there. -/
def Funded (db : Db) : Prop := db.tombstones = Table.empty ∧ db.ledger = start.ledger

/-- The plain coupon of an approval, where none stands under its id. -/
def withCoupon (db : Db) (expiresAt : String) : Db :=
  { db with exceptions := db.exceptions.insertNew ((approves expiresAt).row asTexts db none) }

theorem approve_plain {db : Db} (funded : Funded db) (expiresAt : String) :
    approveRegenerationException asTexts db (approves expiresAt) =
      approveOne asTexts (approves expiresAt) ⟨db, [], false⟩ none := by
  have names : toName (coveringTombstones db (approves expiresAt).scopeKey
      (approves expiresAt).targetFormulaIdentityHash) = [none] := by
    unfold coveringTombstones
    rw [funded.1]
    rfl
  unfold approveRegenerationException
  rw [names, List.foldlM_cons]
  cases approveOne asTexts (approves expiresAt) ⟨db, [], false⟩ none <;> rfl

theorem approve_new {db : Db} (funded : Funded db) {expiresAt : String}
    (fresh : ∀ e ∈ db.exceptions,
      e.exceptionId ≠ ((approves expiresAt).row asTexts db none).exceptionId) :
    approveRegenerationException asTexts db (approves expiresAt) =
      .ok ⟨withCoupon db expiresAt,
        [((approves expiresAt).row asTexts db none).exceptionId], true⟩ := by
  have money : (db.ledger.authorizations.get? "sa-1").isSome = true := by
    rw [funded.2]
    rfl
  have within : 1 ≤ (approves expiresAt).maxUses ∧ (approves expiresAt).maxUses ≤ 32767 := by
    show (1 : ℤ) ≤ 1 ∧ (1 : ℤ) ≤ 32767
    omega
  rw [approve_plain funded]
  unfold approveOne
  rw [if_pos within, Table.get?_eq_none.mpr fresh]
  exact if_pos money

theorem exceptionIds_approve {db : Db} (funded : Funded db) {expiresAt : String} {acc : Approving}
    (h : approveRegenerationException asTexts db (approves expiresAt) = .ok acc) :
    acc.exceptionIds = [((approves expiresAt).row asTexts db none).exceptionId] := by
  rw [approve_plain funded] at h
  exact approveOne_exceptionIds h

def first : RegenerationException := (approves offset).row asTexts start none

def second : RegenerationException := (approves zulu).row asTexts (withCoupon start offset) none

/-- The state after one approval in each spelling. -/
def twice : Db := withCoupon (withCoupon start offset) zulu

theorem funded_start : Funded start := ⟨rfl, rfl⟩

theorem funded_once : Funded (withCoupon start offset) := ⟨rfl, rfl⟩

theorem mem_once {e : RegenerationException} :
    e ∈ (withCoupon start offset).exceptions ↔ e = first := by
  show e ∈ [first] ↔ e = first
  exact List.mem_singleton

theorem offset_ne_zulu : offset ≠ zulu := by decide

theorem first_ne_second : first.exceptionId ≠ second.exceptionId := by
  intro same
  exact offset_ne_zulu (exceptionId_spelling asTexts_faithful same)

theorem mem_twice {e : RegenerationException} :
    e ∈ twice.exceptions ↔ e = first ∨ e = second := by
  show e ∈ (withCoupon start offset).exceptions.insertNew second ↔ _
  rw [Table.mem_insertNew, mem_once]
  constructor
  · intro he
    exact he.imp_right And.left
  · intro he
    refine he.imp_right fun here => ⟨here, ?_⟩
    intro y hy
    rw [mem_once.mp hy]
    exact first_ne_second

theorem approve_first : approveRegenerationException asTexts start (approves offset) =
    .ok ⟨withCoupon start offset, [first.exceptionId], true⟩ := by
  apply approve_new funded_start
  intro e he
  exact absurd he Table.not_mem_empty

theorem approve_second :
    approveRegenerationException asTexts (withCoupon start offset) (approves zulu) =
      .ok ⟨twice, [second.exceptionId], true⟩ := by
  apply approve_new funded_once
  intro e he
  rw [mem_once.mp he]
  exact first_ne_second

theorem twice_run : exec (couponStep asTexts) start
    [.store (.approve (approves offset)), .store (.approve (approves zulu))] = some twice := by
  have one : couponStep asTexts start (.store (.approve (approves offset))) =
      some (withCoupon start offset) := by
    exact couponStep_approve approve_first
  have two : couponStep asTexts (withCoupon start offset) (.store (.approve (approves zulu))) =
      some twice := by
    exact couponStep_approve approve_second
  rw [exec_cons, one, Option.bind_some, exec_cons, two, Option.bind_some, exec_nil]

theorem hasUses_first : first.HasUses := by
  show (0 : ℤ) < 1
  omega

theorem hasUses_second : second.HasUses := by
  show (0 : ℤ) < 1
  omega

/-- Approved in two spellings of one instant, a binding has two live coupons; and
    once the second is spent, the first approval repeated writes a third, though
    its own coupon is live and nothing was withdrawn. -/
theorem approvals_stack_across_spellings :
    (¬ ∀ ext : Externals, ext.Faithful → ∀ db, Reachable (couponStep ext) Init db →
      ∀ e ∈ db.exceptions, ∀ e' ∈ db.exceptions, e.binding = e'.binding →
        e.HasUses → e'.HasUses → e = e') ∧
    ¬ ∀ ext : Externals, ext.Faithful → ∀ db, Reachable (couponStep ext) Init db →
      ∀ a acc, approveRegenerationException ext db a = .ok acc →
        ∀ later db', exec (couponStep ext) acc.db later = some db' →
          (∀ t, t ∈ coveringTombstones db' a.scopeKey a.targetFormulaIdentityHash ↔
            t ∈ coveringTombstones db a.scopeKey a.targetFormulaIdentityHash) →
          (∀ e ∈ db'.exceptions, e.exceptionId ∈ acc.exceptionIds → e.HasUses) →
          approveRegenerationException ext db' a = .ok ⟨db', acc.exceptionIds, false⟩ := by
  have same : second.binding = first.binding := rfl
  have there : second ∈ twice.exceptions := mem_twice.mpr (Or.inr rfl)
  constructor
  · intro claimed
    have equal := claimed asTexts asTexts_faithful twice ⟨start, _, start_init, twice_run⟩
      first (mem_twice.mpr (Or.inl rfl)) second there same.symm hasUses_first hasUses_second
    exact first_ne_second (congrArg RegenerationException.exceptionId equal)
  · intro claimed
    obtain ⟨spent, hspent, -⟩ := exists_consumeException there hasUses_second
    have untouched : spent = { twice with exceptions := spent.exceptions } :=
      consumeException_rest hspent
    have funded : Funded spent := by
      rw [untouched]
      exact ⟨rfl, rfl⟩
    have counted : 0 < exhaustedBefore spent first.binding := by
      have hit : consumable second.exceptionId second = true := by
        have left : second.usesConsumed < second.binding.maxUses := hasUses_second
        simp [consumable, left]
      have all : first.binding.maxUses ≤ second.consumed.usesConsumed := by
        show (1 : ℤ) ≤ 0 + 1
        omega
      have more := (exhaustedBefore_consume hspent first.binding).2 second there same hit all
      omega
    have later : exec (couponStep asTexts) (withCoupon start offset)
        [.store (.approve (approves zulu)), .consume second.exceptionId] = some spent := by
      have two : couponStep asTexts (withCoupon start offset) (.store (.approve (approves zulu))) =
          some twice := by
        exact couponStep_approve approve_second
      have use : couponStep asTexts twice (.consume second.exceptionId) = some spent := by
        show some ((consumeException twice second.exceptionId).getD twice) = some spent
        rw [hspent]
        rfl
      rw [exec_cons, two, Option.bind_some, exec_cons, use, Option.bind_some, exec_nil]
    have live : ∀ e ∈ spent.exceptions, e.exceptionId ∈ [first.exceptionId] → e.HasUses := by
      intro e he hid
      obtain ⟨r, hr, rfl⟩ := (mem_consumeException hspent).mp he
      rw [List.mem_singleton, exceptionId_consumed] at hid
      cases mem_twice.mp hr with
      | inl here =>
          subst here
          have missed : consumable second.exceptionId first = false := by
            simp [consumable, first_ne_second]
          rw [missed]
          exact hasUses_first
      | inr here =>
          rw [here] at hid
          exact absurd hid.symm first_ne_second
    have replayed := claimed asTexts asTexts_faithful start ⟨start, [], start_init, rfl⟩
      (approves offset) _ approve_first _ spent later
      (by rw [untouched]; exact fun t => Iff.rfl) live
    have ids := exceptionIds_approve funded replayed
    have twin : first.exceptionId = ((approves offset).row asTexts spent none).exceptionId :=
      List.head_eq_of_cons_eq ids
    have ordinals := (exceptionId_inj asTexts_faithful rfl rfl twin).2
    have none_counted : exhaustedBefore start first.binding = 0 := rfl
    have some_counted : exhaustedBefore spent first.binding = exhaustedBefore start first.binding :=
      ordinals.symm
    omega

end TwoSpellings

end FeatureGen.FormulaDraftStore
