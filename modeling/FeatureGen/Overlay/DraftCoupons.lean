import FeatureGen.Lib.Checks
import FeatureGen.Overlay.FormulaDraftStore

/-! # Locating and consuming coupons

What the request gate locates, what a mint consumes of it, and what the fence of
`advance` then reads. No step loses a draft, a coupon or a use.
-/

namespace FeatureGen.FormulaDraftStore

open Transition Checks
open LlmSpend (Instant)

theorem countP_lt {α : Type} {p q : α → Bool} {l : List α}
    (wider : ∀ x ∈ l, p x = true → q x = true) {x : α} (hx : x ∈ l) (hp : p x = false)
    (hq : q x = true) : l.countP p < l.countP q := by
  induction l with
  | nil => cases hx
  | cons y l ih =>
      have rest : l.countP p ≤ l.countP q :=
        List.countP_mono_left fun z hz => wider z (List.mem_cons_of_mem y hz)
      rw [List.countP_cons, List.countP_cons]
      cases List.mem_cons.mp hx with
      | inl here =>
          subst here
          simp only [hp, hq, Bool.false_eq_true, if_false, if_true]
          omega
      | inr later =>
          have fewer := ih (fun z hz => wider z (List.mem_cons_of_mem y hz)) later
          have first : (if p y = true then 1 else 0) ≤ if q y = true then 1 else 0 := by
            split
            · rw [if_pos (wider y List.mem_cons_self ‹_›)]
            · omega
          omega

theorem FormulaInputs.sorted_document (inputs : FormulaInputs) :
    inputs.document.sorted = true :=
  Document.sorted_object_of
    ["authoring_config_hash", "catalog_snapshot_hash", "considered_revision_id",
     "definition_revision", "option_id", "planning_request_hash"]
    rfl (by decide) (by simp [Document.sorted])

theorem ExceptionBinding.sorted_document (b : ExceptionBinding) (expiresAt : String)
    (ordinal : ℕ) : (b.document expiresAt ordinal).sorted = true :=
  Document.sorted_object_of
    ["actor_subject", "expires_at", "llm_spend_authorization_id", "max_uses",
     "provider_contract_hash", "regeneration_ordinal", "strategy_identity_hash",
     "target_formula_identity_hash", "tombstone_id"]
    rfl (by decide) (by cases b.tombstoneId <;> simp [Document.sorted])

theorem formulaIdentity_injective {ext : Externals} (faithful : ext.Faithful) :
    Function.Injective (formulaIdentity ext) := by
  intro a b h
  have same := Document.object_injective
    (faithful.whole _ _ a.sorted_document b.sorted_document h)
  obtain ⟨⟨_, _, _, _, _⟩, _⟩ := a
  obtain ⟨⟨_, _, _, _, _⟩, _⟩ := b
  simp only [List.cons.injEq, Prod.mk.injEq, Document.str.injEq, true_and, and_true] at same
  obtain ⟨rfl, rfl, rfl, rfl, rfl, rfl⟩ := same
  rfl

theorem exceptionId_inj {ext : Externals} (faithful : ext.Faithful) {b b' : ExceptionBinding}
    {at_ at' : String} {k k' : ℕ} (hb : b.expiresAt = ext.timestamptz at_)
    (hb' : b'.expiresAt = ext.timestamptz at')
    (h : exceptionId ext b at_ k = exceptionId ext b' at' k') : b = b' ∧ k = k' := by
  have digits := (String.append_right_inj _).mp h
  have same := Document.object_injective
    (faithful.short _ _ (b.sorted_document at_ k) (b'.sorted_document at' k') digits)
  obtain ⟨name, _, _, _, _, _, _, _⟩ := b
  obtain ⟨name', _, _, _, _, _, _, _⟩ := b'
  simp only [List.cons.injEq, Prod.mk.injEq, Document.str.injEq, Document.num.injEq, Int.cast_inj,
    Nat.cast_inj, true_and, and_true] at same
  obtain ⟨rfl, rfl, rfl, rfl, rfl, rfl, rfl, rfl, hname⟩ := same
  have names : name = name' := by
    cases name <;> cases name' <;> simp at hname ⊢
    exact hname
  simp only at hb hb'
  rw [names, hb, hb']
  exact ⟨rfl, rfl⟩

/-- Neither retired nor under a withdrawal that no consumed coupon names. -/
def Unfenced (ext : Externals) (db : Db) (d : FormulaDraft) : Prop :=
  db.retirements.get? d.formulaDraftId = none ∧
    ∀ w ∈ withdrawalsOf ext db d, namedByConsumed db d.formulaIdentityHash w = true

def isDraftRetired {α : Type} : Except DraftError α → Bool
  | .error (.draftRetired _) => true
  | _ => false

section Fence

variable {ext : Externals} {db : Db} {d : FormulaDraft}

theorem fence_of_unfenced (h : Unfenced ext db d) : fence ext db d = .ok () := by
  have named : (withdrawalsOf ext db d).find?
      (!namedByConsumed db d.formulaIdentityHash ·) = none := by
    rw [List.find?_eq_none]
    intro w hw
    simp [h.2 w hw]
  unfold fence
  rw [h.1, named]

theorem fence_retired (h : ¬ Unfenced ext db d) :
    isDraftRetired (fence ext db d) = true := by
  unfold fence
  cases hr : db.retirements.get? d.formulaDraftId with
  | some r => rfl
  | none =>
      cases hw : (withdrawalsOf ext db d).find?
          (!namedByConsumed db d.formulaIdentityHash ·) with
      | some w => rfl
      | none =>
          have named : ∀ w ∈ withdrawalsOf ext db d,
              namedByConsumed db d.formulaIdentityHash w = true := by
            intro w hmem
            simpa using List.find?_eq_none.mp hw w hmem
          exact absurd ⟨hr, named⟩ h

theorem move_not_retired {target : DraftState} {p : AdvancePayload} :
    isDraftRetired (move db d target p) = false := by
  unfold move
  split
  · split <;> rfl
  · rfl

theorem advance_retired_iff (hd : d ∈ db.drafts) {target : DraftState} {p : AdvancePayload} :
    isDraftRetired (advance ext db d.formulaDraftId target p) = true ↔
      ¬ Unfenced ext db d := by
  unfold advance
  rw [Table.get?_key hd]
  by_cases h : Unfenced ext db d
  · have past := fence_of_unfenced h
    simp [past, h, bind, Except.bind, move_not_retired]
  · have refused := fence_retired h
    simp only [h, not_false_eq_true, iff_true]
    cases hf : fence ext db d with
    | ok u => simp [hf, isDraftRetired] at refused
    | error e =>
        rw [hf] at refused
        cases e <;> simp [isDraftRetired, bind, Except.bind] at refused ⊢

end Fence

/-- Drafts keep their inputs and their end, coupons their binding and their uses. -/
structure Follows (db db' : Db) : Prop where
  drafts : ∀ d ∈ db.drafts, ∃ d' ∈ db'.drafts, d'.formulaDraftId = d.formulaDraftId ∧
    d'.inputs = d.inputs ∧ d'.formulaIdentityHash = d.formulaIdentityHash ∧
    (d.state.isTerminal = true → d'.state = d.state)
  exceptions : ∀ e ∈ db.exceptions, ∃ e' ∈ db'.exceptions, e'.exceptionId = e.exceptionId ∧
    e'.binding = e.binding ∧ e.usesConsumed ≤ e'.usesConsumed

namespace Follows

variable {db db' db'' : Db}

theorem refl (db : Db) : Follows db db where
  drafts d hd := ⟨d, hd, rfl, rfl, rfl, fun _ => rfl⟩
  exceptions e he := ⟨e, he, rfl, rfl, le_refl _⟩

theorem trans (h : Follows db db') (h' : Follows db' db'') : Follows db db'' where
  drafts := by
    intro d hd
    obtain ⟨d₁, hd₁, hid₁, hin₁, hhash₁, hend₁⟩ := h.drafts d hd
    obtain ⟨d₂, hd₂, hid₂, hin₂, hhash₂, hend₂⟩ := h'.drafts d₁ hd₁
    refine ⟨d₂, hd₂, hid₂.trans hid₁, hin₂.trans hin₁, hhash₂.trans hhash₁, ?_⟩
    intro ended
    have same := hend₁ ended
    rw [hend₂ (same ▸ ended), same]
  exceptions := by
    intro e he
    obtain ⟨e₁, he₁, hid₁, hb₁, hu₁⟩ := h.exceptions e he
    obtain ⟨e₂, he₂, hid₂, hb₂, hu₂⟩ := h'.exceptions e₁ he₁
    exact ⟨e₂, he₂, hid₂.trans hid₁, hb₂.trans hb₁, hu₁.trans hu₂⟩

theorem of_exceptions (hdrafts : db'.drafts = db.drafts)
    (h : ∀ e ∈ db.exceptions, ∃ e' ∈ db'.exceptions, e'.exceptionId = e.exceptionId ∧
      e'.binding = e.binding ∧ e.usesConsumed ≤ e'.usesConsumed) : Follows db db' where
  drafts := by
    intro d hd
    exact ⟨d, hdrafts ▸ hd, rfl, rfl, rfl, fun _ => rfl⟩
  exceptions := h

theorem of_drafts (hexceptions : db'.exceptions = db.exceptions)
    (h : ∀ d ∈ db.drafts, d ∈ db'.drafts) : Follows db db' where
  drafts := by
    intro d hd
    exact ⟨d, h d hd, rfl, rfl, rfl, fun _ => rfl⟩
  exceptions := by
    intro e he
    exact ⟨e, hexceptions ▸ he, rfl, rfl, le_refl _⟩

theorem named (h : Follows db db') {identity : String} {w : Tombstone}
    (hn : namedByConsumed db identity w = true) : namedByConsumed db' identity w = true := by
  unfold namedByConsumed at hn ⊢
  obtain ⟨e, he, hfacts⟩ := List.any_eq_true.mp hn
  obtain ⟨e', he', -, hbinding, huses⟩ := h.exceptions e he
  refine List.any_eq_true.mpr ⟨e', he', ?_⟩
  simp only [Bool.and_eq_true, beq_iff_eq, decide_eq_true_eq] at hfacts ⊢
  rw [hbinding]
  exact ⟨hfacts.1, hfacts.2.trans huses⟩

end Follows

section Consuming

variable {db db' : Db} {id : String}

theorem mem_consumeException (h : consumeException db id = some db') {e : RegenerationException} :
    e ∈ db'.exceptions ↔
      ∃ r ∈ db.exceptions, e = if consumable id r then r.consumed else r := by
  unfold consumeException at h
  split at h
  · cases h
    rw [Table.mem_updateWhere]
  · cases h

theorem consumeException_rest (h : consumeException db id = some db') :
    db' = { db with exceptions := db'.exceptions } := by
  unfold consumeException at h
  split at h <;> cases h
  rfl

theorem follows_consumeException (h : consumeException db id = some db') : Follows db db' := by
  refine .of_exceptions (by rw [consumeException_rest h]) ?_
  intro e he
  refine ⟨_, (mem_consumeException h).mpr ⟨e, he, rfl⟩, ?_⟩
  split
  · refine ⟨rfl, rfl, ?_⟩
    show e.usesConsumed ≤ e.usesConsumed + 1
    omega
  · exact ⟨rfl, rfl, le_refl _⟩

theorem exists_consumeException {c : RegenerationException} (hc : c ∈ db.exceptions)
    (left : c.usesConsumed < c.binding.maxUses) :
    ∃ db', consumeException db c.exceptionId = some db' ∧ c.consumed ∈ db'.exceptions := by
  have here : consumable c.exceptionId c = true := by simp [consumable, left]
  have found : db.exceptions.rows.any (consumable c.exceptionId) = true :=
    List.any_eq_true.mpr ⟨c, hc, here⟩
  obtain ⟨db', h⟩ : ∃ db', consumeException db c.exceptionId = some db' := by
    unfold consumeException
    rw [if_pos found]
    exact ⟨_, rfl⟩
  exact ⟨db', h, (mem_consumeException h).mpr ⟨c, hc, by rw [if_pos here]⟩⟩

theorem consumeOne_eq_ok {identity : String} {c : RegenerationException} :
    consumeOne identity db c = .ok db' ↔ consumeException db c.exceptionId = some db' := by
  unfold consumeOne
  cases consumeException db c.exceptionId <;> simp

theorem consumeAll_rest {identity : String} {located : List RegenerationException}
    (h : located.foldlM (consumeOne identity) db = .ok db') :
    Follows db db' ∧ db' = { db with exceptions := db'.exceptions } := by
  refine foldlM_except_induction
    (P := fun b => Follows db b ∧ b = { db with exceptions := b.exceptions }) ?_
    ⟨.refl db, rfl⟩ h
  intro c _ b b' hb hstep
  have hconsume := consumeOne_eq_ok.mp hstep
  refine ⟨hb.1.trans (follows_consumeException hconsume), ?_⟩
  rw [consumeException_rest hconsume, hb.2]

theorem consumed_of_consumeAll {identity : String} {located : List RegenerationException}
    (h : located.foldlM (consumeOne identity) db = .ok db') {c e : RegenerationException}
    (hc : c ∈ located) (he : e ∈ db.exceptions) (hid : e.exceptionId = c.exceptionId)
    (nonneg : 0 ≤ e.usesConsumed) :
    ∃ e' ∈ db'.exceptions, e'.binding = e.binding ∧ 1 ≤ e'.usesConsumed := by
  induction located generalizing db e with
  | nil => cases hc
  | cons first others ih =>
      rw [List.foldlM_cons] at h
      obtain ⟨db₁, hfirst, hothers⟩ := bind_eq_ok.mp h
      have hconsume := consumeOne_eq_ok.mp hfirst
      cases List.mem_cons.mp hc with
      | inl here =>
          subst here
          have matched : consumable c.exceptionId e = true := by
            unfold consumeException at hconsume
            split at hconsume
            · rename_i found
              obtain ⟨r, hr, hmatch⟩ := List.any_eq_true.mp found
              have hkey : r.exceptionId = e.exceptionId := by
                simp only [consumable, Bool.and_eq_true, beq_iff_eq] at hmatch
                exact hmatch.1.trans hid.symm
              rw [← Table.eq_of_key_eq hr he hkey]
              exact hmatch
            · cases hconsume
          have hmoved := (mem_consumeException hconsume).mpr ⟨e, he, rfl⟩
          rw [if_pos matched] at hmoved
          obtain ⟨e', he', -, hbinding, huses⟩ :=
            (consumeAll_rest hothers).1.exceptions _ hmoved
          have once : (e.consumed).usesConsumed = e.usesConsumed + 1 := rfl
          exact ⟨e', he', hbinding, by omega⟩
      | inr later =>
          obtain ⟨e₁, he₁, hid₁, hbinding₁, huses₁⟩ :=
            (follows_consumeException hconsume).exceptions e he
          obtain ⟨e', he', hbinding, huses⟩ :=
            ih hothers later he₁ (hid₁.trans hid) (nonneg.trans huses₁)
          exact ⟨e', he', hbinding.trans hbinding₁, huses⟩

theorem exists_consumeAll (identity : String) {located : List RegenerationException}
    (hmem : ∀ c ∈ located, c ∈ db.exceptions ∧ c.usesConsumed < c.binding.maxUses)
    (distinct : (located.map (·.exceptionId)).Nodup) :
    ∃ db', located.foldlM (consumeOne identity) db = .ok db' := by
  induction located generalizing db with
  | nil => exact ⟨db, rfl⟩
  | cons first others ih =>
      obtain ⟨hfirst, left⟩ := hmem first List.mem_cons_self
      obtain ⟨db₁, hconsume, -⟩ := exists_consumeException hfirst left
      rw [List.map_cons, List.nodup_cons] at distinct
      have kept : ∀ c ∈ others, c ∈ db₁.exceptions ∧ c.usesConsumed < c.binding.maxUses := by
        intro c hc
        obtain ⟨here, hleft⟩ := hmem c (List.mem_cons_of_mem _ hc)
        refine ⟨(mem_consumeException hconsume).mpr ⟨c, here, ?_⟩, hleft⟩
        have other : consumable first.exceptionId c = false := by
          have apart : c.exceptionId ≠ first.exceptionId := by
            intro same
            exact distinct.1 (same ▸ List.mem_map_of_mem hc)
          simp [consumable, apart]
        rw [other]
        rfl
      obtain ⟨db', hrest⟩ := ih kept distinct.2
      refine ⟨db', ?_⟩
      rw [List.foldlM_cons]
      exact bind_eq_ok.mpr ⟨db₁, consumeOne_eq_ok.mpr hconsume, hrest⟩

end Consuming

section Picking

variable {db : Db} {target : String} {lane : Lane} {now : Instant} {covering : Option String}

theorem validExceptionFor_eq_some {excluding : List String} {c : RegenerationException}
    (h : validExceptionFor db target lane now covering excluding = some c) :
    c ∈ db.exceptions ∧ c.usable target lane now covering = true ∧
      c.exceptionId ∉ excluding := by
  have hmem := (KeySort.mem_sortBy _).mp (List.mem_of_mem_head? h)
  obtain ⟨hrow, hfacts⟩ := List.mem_filter.mp hmem
  simp only [Bool.and_eq_true, Bool.not_eq_true', List.contains_eq_mem, decide_eq_false_iff_not]
    at hfacts
  exact ⟨hrow, hfacts⟩

theorem validExceptionFor_eq_none {excluding : List String}
    (h : validExceptionFor db target lane now covering excluding = none)
    {c : RegenerationException} (hc : c ∈ db.exceptions)
    (husable : c.usable target lane now covering = true) : c.exceptionId ∈ excluding := by
  by_contra hout
  have hmem : c ∈ db.exceptions.rows.filter fun e =>
      e.usable target lane now covering && !excluding.contains e.exceptionId :=
    List.mem_filter.mpr ⟨hc, by simp [husable, hout]⟩
  have empty := List.head?_eq_none_iff.mp h
  have := (KeySort.mem_sortBy (·.approvedAt)).mpr hmem
  rw [empty] at this
  cases this

theorem pickRidable_some {fuel : ℕ} {dead : List String} {c : RegenerationException}
    (h : (pickRidable db target lane now covering fuel dead).1 = some c) :
    c ∈ db.exceptions ∧ c.usable target lane now covering = true ∧
      moneyRides db.ledger c.binding.llmSpendAuthorizationId now = true := by
  induction fuel generalizing dead with
  | zero => cases h
  | succ fuel ih =>
      unfold pickRidable at h
      cases hv : validExceptionFor db target lane now covering dead with
      | none => simp [hv] at h
      | some coupon =>
          simp only [hv] at h
          split at h
          · rename_i rides
            cases h
            obtain ⟨hmem, husable, -⟩ := validExceptionFor_eq_some hv
            exact ⟨hmem, husable, rides⟩
          · exact ih h

/-- The rows not passed over yet bound the rounds that are left. -/
def notPassed (db : Db) (dead : List String) : ℕ :=
  db.exceptions.rows.countP fun e => !dead.contains e.exceptionId

theorem notPassed_append {dead : List String} {c : RegenerationException}
    (hc : c ∈ db.exceptions) (hout : c.exceptionId ∉ dead) :
    notPassed db (dead ++ [c.exceptionId]) < notPassed db dead := by
  refine countP_lt ?_ hc (by simp) (by simp [hout])
  intro e _ he
  simp only [List.contains_eq_mem, Bool.not_eq_true', decide_eq_false_iff_not] at he ⊢
  exact fun hmem => he (List.mem_append_left _ hmem)

theorem pickRidable_none {fuel : ℕ} {dead : List String} (enough : notPassed db dead < fuel)
    (passed : ∀ e ∈ db.exceptions, e.exceptionId ∈ dead →
      moneyRides db.ledger e.binding.llmSpendAuthorizationId now = false)
    (h : (pickRidable db target lane now covering fuel dead).1 = none)
    {c : RegenerationException} (hc : c ∈ db.exceptions)
    (husable : c.usable target lane now covering = true) :
    moneyRides db.ledger c.binding.llmSpendAuthorizationId now = false := by
  induction fuel generalizing dead with
  | zero => omega
  | succ fuel ih =>
      unfold pickRidable at h
      cases hv : validExceptionFor db target lane now covering dead with
      | none => exact passed c hc (validExceptionFor_eq_none hv hc husable)
      | some coupon =>
          obtain ⟨hmem, -, hout⟩ := validExceptionFor_eq_some hv
          simp only [hv] at h
          split at h
          · cases h
          · rename_i stuck
            have shrinks := notPassed_append hmem hout
            have left : notPassed db (dead ++ [coupon.exceptionId]) < fuel := by omega
            refine ih left ?_ h
            intro e he hdead
            rw [List.mem_append, List.mem_singleton] at hdead
            cases hdead with
            | inl old => exact passed e he old
            | inr new =>
                rw [Table.eq_of_key_eq he hmem new]
                exact Bool.eq_false_iff.mpr stuck

theorem exists_pick {c : RegenerationException} (hc : c ∈ db.exceptions)
    (husable : c.usable target lane now covering = true)
    (rides : moneyRides db.ledger c.binding.llmSpendAuthorizationId now = true) :
    ∃ picked, (pick db target lane now covering).1 = some picked := by
  cases h : (pick db target lane now covering).1 with
  | some picked => exact ⟨picked, rfl⟩
  | none =>
      have enough : notPassed db [] < db.exceptions.rows.length + 1 :=
        Nat.lt_succ_of_le List.countP_le_length
      have stuck := pickRidable_none enough (by simp) h hc husable
      rw [rides] at stuck
      cases stuck

end Picking

section Locating

variable {db : Db} {identity scopeKey : String} {lane : Lane} {now : Instant}
  {covering : List Tombstone}

theorem nodup_covering (db : Db) (scopeKey identity : String) :
    ((coveringTombstones db scopeKey identity).map (·.tombstoneId)).Nodup := by
  have kept : ((db.tombstones.rows.filter (·.covers scopeKey identity)).map
      (·.tombstoneId)).Nodup :=
    (List.filter_sublist.map _).nodup db.tombstones.keys_nodup
  exact ((List.filter_append_perm (·.isCandidateWide) _).map _).nodup_iff.mpr kept

theorem locateOne_eq_ok {w : Tombstone} {c : RegenerationException}
    (h : locateOne db identity lane now w = .ok c) :
    c ∈ db.exceptions ∧ c.usable identity lane now (some w.tombstoneId) = true := by
  unfold locateOne at h
  split at h
  · rename_i coupon dead hpick
    cases h
    have picked := pickRidable_some (congrArg Prod.fst hpick)
    exact ⟨picked.1, picked.2.1⟩
  · cases h
  · cases h

/-- Nothing covers and nothing is bound, or the plain coupon is picked, or every
    withdrawal is named. -/
theorem locate_cases {lane? : Option Lane} {found : List RegenerationException × List String}
    (h : locate db identity lane? now covering = .ok found) :
    (covering = [] ∧ found = ([], [])) ∨
      (∃ lane, covering = [] ∧ found.1 = (pick db identity lane now none).1.toList) ∨
      ∃ lane, List.Forall₂ (fun w c => locateOne db identity lane now w = .ok c)
        covering found.1 := by
  cases covering with
  | nil =>
      cases lane? with
      | none => exact Or.inl ⟨rfl, (Except.ok.inj h).symm⟩
      | some lane =>
          have hfound : ((pick db identity lane now none).1.toList,
              (pick db identity lane now none).2) = found := Except.ok.inj h
          exact Or.inr (Or.inl ⟨lane, rfl, (congrArg Prod.fst hfound).symm⟩)
  | cons w ws =>
      cases lane? with
      | none => cases h
      | some lane =>
          obtain ⟨located, hlocated, hfound⟩ := bind_eq_ok.mp h
          have hfound := Except.ok.inj hfound
          rw [← hfound]
          exact Or.inr (Or.inr ⟨lane, mapM_eq_ok.mp hlocated⟩)

theorem locate_usable {lane? : Option Lane} {found : List RegenerationException × List String}
    (h : locate db identity lane? now covering = .ok found) {c : RegenerationException}
    (hc : c ∈ found.1) :
    c ∈ db.exceptions ∧ ∃ lane name, c.usable identity lane now name = true := by
  obtain ⟨-, rfl⟩ | ⟨lane, -, hpick⟩ | ⟨lane, hall⟩ := locate_cases h
  · cases hc
  · rw [hpick] at hc
    have picked := pickRidable_some (Option.mem_toList.mp hc)
    exact ⟨picked.1, lane, none, picked.2.1⟩
  · obtain ⟨w, -, hw⟩ := exists_of_mem_forall₂ hall hc
    have named := locateOne_eq_ok hw
    exact ⟨named.1, lane, some w.tombstoneId, named.2⟩

theorem locate_named {lane? : Option Lane} {found : List RegenerationException × List String}
    (h : locate db identity lane? now covering = .ok found) {w : Tombstone} (hw : w ∈ covering) :
    ∃ c ∈ found.1, c.binding.targetFormulaIdentityHash = identity ∧
      c.binding.tombstoneId = some w.tombstoneId := by
  obtain ⟨rfl, -⟩ | ⟨lane, rfl, -⟩ | ⟨lane, hall⟩ := locate_cases h
  · cases hw
  · cases hw
  · obtain ⟨c, hc, hone⟩ := exists_of_mem_forall₂ hall.flip hw
    have husable := (locateOne_eq_ok hone).2
    simp only [RegenerationException.usable, Bool.and_eq_true, beq_iff_eq] at husable
    exact ⟨c, hc, husable.1.1.1.1.1, husable.2⟩

theorem names_of_located {located : List RegenerationException}
    (h : List.Forall₂ (fun w c => locateOne db identity lane now w = .ok c) covering located) :
    located.map (·.binding.tombstoneId) = covering.map (some ·.tombstoneId) := by
  induction h with
  | nil => rfl
  | cons first _ ih =>
      have husable := (locateOne_eq_ok first).2
      simp only [RegenerationException.usable, Bool.and_eq_true, beq_iff_eq] at husable
      rw [List.map_cons, List.map_cons, ih, husable.2]

theorem locate_distinct {lane? : Option Lane} {found : List RegenerationException × List String}
    (distinct : (covering.map (·.tombstoneId)).Nodup)
    (h : locate db identity lane? now covering = .ok found) :
    (found.1.map (·.exceptionId)).Nodup := by
  have rows : ∀ c ∈ found.1, c ∈ db.exceptions := by
    intro c hc
    exact (locate_usable h hc).1
  have apart : found.1.Nodup := by
    obtain ⟨-, rfl⟩ | ⟨lane, -, hpick⟩ | ⟨lane, hall⟩ := locate_cases h
    · exact List.nodup_nil
    · rw [hpick]
      cases (pick db identity lane now none).1 with
      | none => exact List.nodup_nil
      | some c => exact List.nodup_singleton c
    · refine List.Nodup.of_map (·.binding.tombstoneId) ?_
      rw [names_of_located hall]
      have wrapped := distinct.map (Option.some_injective String)
      rwa [List.map_map] at wrapped
  refine List.Nodup.map_on ?_ apart
  intro c hc c' hc' same
  exact Table.eq_of_key_eq (rows c hc) (rows c' hc') same

/-- Every withdrawal that covers, or the plain retry, has a coupon whose money rides. -/
def Approved (db : Db) (identity : String) (lane : Lane) (now : Instant)
    (covering : List Tombstone) : Prop :=
  ∀ name ∈ toName covering, ∃ c ∈ db.exceptions, c.usable identity lane now name = true ∧
    moneyRides db.ledger c.binding.llmSpendAuthorizationId now = true

theorem exists_locate (h : Approved db identity lane now covering) :
    ∃ found, locate db identity (some lane) now covering = .ok found ∧
      (covering = [] → found.1 ≠ []) := by
  have picks : ∀ name ∈ toName covering, ∃ c, (pick db identity lane now name).1 = some c := by
    intro name hname
    obtain ⟨c, hc, husable, rides⟩ := h name hname
    exact exists_pick hc husable rides
  cases covering with
  | nil =>
      obtain ⟨c, hc⟩ := picks none List.mem_cons_self
      refine ⟨((pick db identity lane now none).1.toList, (pick db identity lane now none).2), rfl,
        fun _ => ?_⟩
      rw [hc]
      exact List.cons_ne_nil c []
  | cons w ws =>
      have each : ∀ t ∈ w :: ws, ∃ c, locateOne db identity lane now t = .ok c := by
        intro t ht
        obtain ⟨c, hc⟩ := picks (some t.tombstoneId) (List.mem_map_of_mem ht)
        cases hp : pick db identity lane now (some t.tombstoneId) with
        | mk picked dead =>
            rw [hp] at hc
            cases hc
            exact ⟨c, by simp only [locateOne, hp]⟩
      obtain ⟨located, hlocated⟩ := exists_mapM each
      refine ⟨(located, []), ?_, fun hnil => by cases hnil⟩
      exact bind_eq_ok.mpr ⟨located, hlocated, rfl⟩

end Locating

section Requesting

variable {ext : Externals} {db : Db} {req : DraftRequest} {g : Granted}

/-- The withdrawals the request gate reads. -/
def requestCovering (ext : Externals) (db : Db) (req : DraftRequest) :
    List Tombstone :=
  coveringTombstones db (retirementScopeKey ext req.inputs.toAuthoringSubject)
    (formulaIdentity ext req.inputs)

theorem requestDraft_eq_ok :
    requestDraft ext db req = .ok g ↔
      ∃ found, locate db (formulaIdentity ext req.inputs) req.lane? (req.resolvedNow db)
          (requestCovering ext db req) = .ok found ∧
        reSpendGate db (formulaIdentity ext req.inputs) req.providerContractHash
          (requestCovering ext db req) found.1 found.2 = .ok () ∧
        insertOrAnswer db req (formulaIdentity ext req.inputs) found.1 = .ok g := by
  unfold requestDraft
  simp only [bind_eq_ok, requestCovering]
  constructor
  · rintro ⟨found, hlocate, u, hgate, hinsert⟩
    exact ⟨found, hlocate, hgate, hinsert⟩
  · rintro ⟨found, hlocate, hgate, hinsert⟩
    exact ⟨found, hlocate, (), hgate, hinsert⟩

theorem mint_ok {identity : String} {located : List RegenerationException}
    (h : mint db req identity located = .ok g) :
    ∃ drafts, db.drafts.insert? (req.row identity db.now) = some drafts ∧
      located.foldlM (consumeOne identity) { db with drafts := drafts } = .ok g.db ∧
      g.formulaDraftId = req.formulaDraftId := by
  unfold mint at h
  cases hi : db.drafts.insert? (req.row identity db.now) with
  | none => simp [hi] at h
  | some drafts =>
      simp only [hi] at h
      obtain ⟨consumed, hconsume, hg⟩ := bind_eq_ok.mp h
      cases hg
      exact ⟨drafts, rfl, hconsume, rfl⟩

theorem answerWith_eq_ok {existing : FormulaDraft} :
    answerWith db existing = .ok g ↔ db.retirements.get? existing.formulaDraftId = none ∧
      g = ⟨db, existing.formulaDraftId, false, none⟩ := by
  unfold answerWith
  cases db.retirements.get? existing.formulaDraftId <;> simp [eq_comm]

theorem reSpendGate_of_located {identity : String} {contract : Option String}
    {covering : List Tombstone} {located : List RegenerationException} {dead : List String}
    (h : covering = [] → located ≠ []) :
    reSpendGate db identity contract covering located dead = .ok () := by
  unfold reSpendGate
  cases lastFailure db identity with
  | none => rfl
  | some failed =>
      have stands : (covering.isEmpty && located.isEmpty) = false := by
        cases covering with
        | nil => simpa using h rfl
        | cons w ws => rfl
      simp [stands]

end Requesting

end FeatureGen.FormulaDraftStore
