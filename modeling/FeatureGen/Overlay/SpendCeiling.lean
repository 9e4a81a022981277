import FeatureGen.Overlay.LlmSpend

/-! # What the spend ceiling bounds

The amount `committed` counts splits in two. `onTime` is what unexpired
reservations hold and what reservations settled before they expired cost; every
step keeps it under the ceiling. `late` is what reservations settled after they
had expired cost: their room was released by arithmetic and may have been
reserved again, so this part comes on top.
-/

namespace FeatureGen.LlmSpend

theorem sum_filter_and {R ρ : Type*} [AddMonoid R] (p q : ρ → Bool) (f : ρ → R) (l : List ρ) :
    ((l.filter fun r => p r && q r).map f).sum =
      ((l.filter p).map fun r => if q r then f r else 0).sum := by
  induction l with
  | nil => rfl
  | cons r l ih => cases hp : p r <;> cases hq : q r <;> simp [hp, hq, ih]

section Split

variable {R : Type*} [AddCommGroup R] [LinearOrder R] (dim : Dimension R)

/-- What a reservation holds or cost, unless it was settled after its expiry. -/
def onTime (db : Db) (now : Instant) (r : Reservation) : R :=
  match db.settlements.get? r.reservationId with
  | some s => if s.settledAt < r.expiresAt then dim.actual s else 0
  | none => if now < r.expiresAt then dim.reserved r else 0

/-- What a reservation settled at or after its expiry cost. -/
def late (db : Db) (r : Reservation) : R :=
  match db.settlements.get? r.reservationId with
  | some s => if r.expiresAt ≤ s.settledAt then dim.actual s else 0
  | none => 0

def under (db : Db) (spendAuthorizationId : String) : List Reservation :=
  db.reservations.rows.filter fun r => r.spendAuthorizationId = spendAuthorizationId

def onTimeOf (db : Db) (spendAuthorizationId : String) (now : Instant) : R :=
  ((under db spendAuthorizationId).map (onTime dim db now)).sum

def lateOf (db : Db) (spendAuthorizationId : String) : R :=
  ((under db spendAuthorizationId).map (late dim db)).sum

theorem late_nonneg (db : Db) (r : Reservation) : 0 ≤ late dim db r := by
  unfold late
  split
  · split_ifs <;> simp [dim.actual_nonneg]
  · exact le_rfl

theorem committedOf_eq (db : Db) (spendAuthorizationId : String) (now : Instant) :
    committedOf dim db spendAuthorizationId now =
      onTimeOf dim db spendAuthorizationId now + lateOf dim db spendAuthorizationId := by
  have hcounts : counts db spendAuthorizationId now = fun r =>
      decide (r.spendAuthorizationId = spendAuthorizationId) &&
        decide ((db.settlements.get? r.reservationId).isSome ∨ now < r.expiresAt) := by
    funext r
    simp [counts]
  rw [committedOf, hcounts, sum_filter_and, onTimeOf, lateOf, under, ← List.sum_map_add]
  congr 1
  refine List.map_congr_left fun r _ => ?_
  unfold onTime late charge
  cases hs : db.settlements.get? r.reservationId with
  | none => simp
  | some s =>
      by_cases h : s.settledAt < r.expiresAt
      · simp [h, not_le.mpr h]
      · simp [h, not_lt.mp h]

variable [IsOrderedAddMonoid R]

theorem lateOf_nonneg (db : Db) (spendAuthorizationId : String) :
    0 ≤ lateOf dim db spendAuthorizationId :=
  List.sum_nonneg fun x hx => by
    obtain ⟨r, _, rfl⟩ := List.mem_map.mp hx
    exact late_nonneg dim db r

theorem onTimeOf_mono (db : Db) (spendAuthorizationId : String) {early now : Instant}
    (h : early ≤ now) :
    onTimeOf dim db spendAuthorizationId now ≤ onTimeOf dim db spendAuthorizationId early := by
  refine List.sum_le_sum fun r _ => ?_
  unfold onTime
  split
  · exact le_rfl
  · by_cases hexp : now < r.expiresAt
    · simp [hexp, h.trans_lt hexp]
    · split_ifs
      · exact dim.reserved_nonneg r
      · exact le_rfl

theorem onTimeOf_le_committedOf (db : Db) (spendAuthorizationId : String) {early now : Instant}
    (h : early ≤ now) :
    onTimeOf dim db spendAuthorizationId now ≤ committedOf dim db spendAuthorizationId early := by
  rw [committedOf_eq]
  exact (onTimeOf_mono dim db spendAuthorizationId h).trans
    (le_add_of_nonneg_right (lateOf_nonneg dim db spendAuthorizationId))

theorem onTimeOf_settle {db : Db} {s : Settlement} {r : Reservation} (hr : r ∈ db.reservations)
    (hid : r.reservationId = s.reservationId)
    (hnew : db.settlements.get? s.reservationId = none) (hat : s.settledAt = db.now)
    (hwithin : dim.actual s ≤ dim.reserved r) (spendAuthorizationId : String) :
    onTimeOf dim { db with settlements := db.settlements.insertNew s } spendAuthorizationId db.now
      ≤ onTimeOf dim db spendAuthorizationId db.now := by
  have hget : ∀ id, (db.settlements.insertNew s).get? id =
      if s.reservationId = id then some s else db.settlements.get? id := by
    intro id
    cases hins : db.settlements.insert? s with
    | none =>
        obtain ⟨x, hx, hk⟩ := Table.insert?_eq_none.mp hins
        exact absurd hk (Table.get?_eq_none.mp hnew x hx)
    | some t => rw [Table.insertNew, hins, Option.getD_some, Table.get?_insert? hins]
  refine List.sum_le_sum fun x hx => ?_
  have hx : x ∈ db.reservations := (List.mem_filter.mp hx).1
  unfold onTime
  simp only [hget]
  by_cases hsx : s.reservationId = x.reservationId
  · have hxr : x = r := Table.eq_of_key_eq hx hr (hsx.symm.trans hid.symm)
    subst hxr
    rw [if_pos hsx, ← hsx, hnew]
    simp only [hat]
    split_ifs
    · exact hwithin
    · exact le_rfl
  · rw [if_neg hsx]

theorem onTimeOf_reserve {db : Db} {row : Reservation}
    {reservations : Table Reservation.reservationId}
    (hins : db.reservations.insert? row = some reservations)
    (hfree : db.settlements.get? row.reservationId = none) (spendAuthorizationId : String) :
    onTimeOf dim { db with reservations := reservations } spendAuthorizationId db.now ≤
      onTimeOf dim db spendAuthorizationId db.now +
        if row.spendAuthorizationId = spendAuthorizationId then dim.reserved row else 0 := by
  have hadd : onTime dim db db.now row ≤ dim.reserved row := by
    unfold onTime
    rw [hfree]
    simp only
    split_ifs
    · exact le_rfl
    · exact dim.reserved_nonneg row
  unfold onTimeOf under
  rw [(Table.rows_of_insert? hins).1, List.filter_append, List.map_append, List.sum_append]
  refine add_le_add le_rfl ?_
  by_cases h : row.spendAuthorizationId = spendAuthorizationId
  · simpa [h, onTime] using hadd
  · simp [h]

end Split

theorem remainingSpend_ok {db : Db} {spendAuthorizationId : String} {now : Instant}
    {left : SpendRemaining} (h : remainingSpend db spendAuthorizationId now = .ok left) :
    ∃ auth ∈ db.authorizations, auth.spendAuthorizationId = spendAuthorizationId ∧
      left.calls = auth.maxCalls - committedOf callsDim db spendAuthorizationId now ∧
      left.tokens = auth.maxTokens - committedOf tokensDim db spendAuthorizationId now ∧
      left.cost = Decimal.round contextPrecision
        (auth.maxCost - committedOf costDim db spendAuthorizationId now) := by
  unfold remainingSpend at h
  split at h
  · cases h
  · next auth hauth =>
      obtain ⟨hmem, hid⟩ := Table.get?_eq_some.mp hauth
      cases h
      exact ⟨auth, hmem, hid, rfl, rfl, rfl⟩

theorem reserveSpend_ok {jcsSha256 : ReservationContent → String} {db db' : Db}
    {spendAuthorizationId : String} {calls tokens : ℤ} {cost : ℚ} {now : Instant} {ttlSeconds : ℤ}
    {dispatchRef : Option String}
    (h : reserveSpend jcsSha256 db spendAuthorizationId calls tokens cost now ttlSeconds
      dispatchRef = .ok db') :
    ∃ row left reservations, row.spendAuthorizationId = spendAuthorizationId ∧
      row.reservedCost = cost ∧
      remainingSpend db spendAuthorizationId now = .ok left ∧
      row.reservedCalls ≤ left.calls ∧ row.reservedTokens ≤ left.tokens ∧
      row.reservedCost ≤ left.cost ∧
      db.reservations.insert? row = some reservations ∧
      db' = { db with reservations := reservations } := by
  unfold reserveSpend at h
  split at h
  · cases h
  split at h
  · cases h
  cases hleft : remainingSpend db spendAuthorizationId now with
  | error e => simp [hleft, bind, Except.bind] at h
  | ok left =>
      simp only [hleft, bind, Except.bind] at h
      split_ifs at h with hover
      split at h
      · cases h
      · next reservations hins =>
          cases h
          simp only [not_or, not_lt] at hover
          exact ⟨_, left, reservations, rfl, rfl, rfl, hover.1, hover.2.1, hover.2.2, hins, rfl⟩

theorem settleSpend_ok {db db' : Db} {reservationId : String} {actualCalls actualTokens : ℤ}
    {actualCost : ℚ}
    (h : settleSpend db reservationId actualCalls actualTokens actualCost = .ok db') :
    db' = db ∨ ∃ s : Settlement, ∃ r ∈ db.reservations, r.reservationId = s.reservationId ∧
      s.reservationId = reservationId ∧ db.settlements.get? s.reservationId = none ∧
      s.actualCalls = actualCalls ∧ s.actualTokens = actualTokens ∧ s.actualCost = actualCost ∧
      s.settledAt = db.now ∧ db' = { db with settlements := db.settlements.insertNew s } := by
  unfold settleSpend at h
  split_ifs at h with _ hdone hmissing
  · cases h
    exact Or.inl rfl
  · cases h
    right
    obtain ⟨r, hr⟩ := Option.ne_none_iff_exists'.mp (by simpa using hmissing)
    obtain ⟨hmem, hid⟩ := Table.get?_eq_some.mp hr
    exact ⟨_, r, hmem, hid, rfl, Option.not_isSome_iff_eq_none.mp hdone, rfl, rfl, rfl, rfl, rfl⟩

theorem mem_of_mem_expiredUnsettled {db : Db} {now : Instant} {r : Reservation}
    {o : Option DispatchOutcome} (h : (r, o) ∈ expiredUnsettled db now) : r ∈ db.reservations := by
  obtain ⟨x, hx, hmem⟩ := List.mem_flatMap.mp h
  suffices x = r from this ▸ hx
  split at hmem
  · simp at hmem
  · split_ifs at hmem
    · split at hmem
      · simp only [List.mem_singleton, Prod.mk.injEq] at hmem
        exact hmem.1.symm
      · simp only [List.mem_map, Prod.mk.injEq] at hmem
        obtain ⟨_, _, hr, _⟩ := hmem
        exact hr
    · simp at hmem

/-- Every authorization's on-time amount in one dimension is within a bound. -/
def Fits {R : Type*} [AddCommGroup R] [LinearOrder R] (dim : Dimension R)
    (bound : SpendAuthorization → R) (db : Db) : Prop :=
  ∀ auth ∈ db.authorizations, onTimeOf dim db auth.spendAuthorizationId db.now ≤ bound auth

structure Ceiling (costBound : SpendAuthorization → ℚ) (db : Db) : Prop where
  /-- The foreign key of `llm_spend_settlement`. -/
  linked : ∀ s ∈ db.settlements, ∃ r ∈ db.reservations, r.reservationId = s.reservationId
  calls : Fits callsDim (·.maxCalls) db
  tokens : Fits tokensDim (·.maxTokens) db
  cost : Fits costDim costBound db

variable {costBound : SpendAuthorization → ℚ}

/-- A cost that fits the rounded room a reader sees keeps within the bound. -/
def CostRoom (costBound : SpendAuthorization → ℚ) (db : Db) : Prop :=
  ∀ auth ∈ db.authorizations, ∀ now amount, 0 ≤ amount →
    amount ≤ Decimal.round contextPrecision
      (auth.maxCost - committedOf costDim db auth.spendAuthorizationId now) →
    committedOf costDim db auth.spendAuthorizationId now + amount ≤
      max (committedOf costDim db auth.spendAuthorizationId now) (costBound auth)

theorem Ceiling.settle {db : Db} (inv : Ceiling costBound db) {s : Settlement} {r : Reservation}
    (hr : r ∈ db.reservations) (hid : r.reservationId = s.reservationId)
    (hnew : db.settlements.get? s.reservationId = none) (hat : s.settledAt = db.now)
    (hcalls : s.actualCalls ≤ r.reservedCalls) (htokens : s.actualTokens ≤ r.reservedTokens)
    (hcost : s.actualCost ≤ r.reservedCost) :
    Ceiling costBound { db with settlements := db.settlements.insertNew s } where
  linked x hx := by
    cases Table.mem_insertNew.mp hx with
    | inl old => exact inv.linked x old
    | inr new => exact ⟨r, hr, hid.trans (congrArg _ new.1.symm)⟩
  calls auth hauth := (onTimeOf_settle callsDim hr hid hnew hat hcalls _).trans
    (inv.calls auth hauth)
  tokens auth hauth := (onTimeOf_settle tokensDim hr hid hnew hat htokens _).trans
    (inv.tokens auth hauth)
  cost auth hauth := (onTimeOf_settle costDim hr hid hnew hat hcost _).trans
    (inv.cost auth hauth)

theorem Ceiling.settlement_of_fresh {db : Db} (inv : Ceiling costBound db) {row : Reservation}
    {reservations : Table Reservation.reservationId}
    (hins : db.reservations.insert? row = some reservations) :
    db.settlements.get? row.reservationId = none := by
  refine Table.get?_eq_none.mpr fun s hs hid => ?_
  obtain ⟨r, hr, hrid⟩ := inv.linked s hs
  exact (Table.rows_of_insert? hins).2 r hr (hrid.trans hid)

theorem fits_reserve {R : Type*} [AddCommGroup R] [LinearOrder R] [IsOrderedAddMonoid R]
    {dim : Dimension R} {bound : SpendAuthorization → R} {db : Db} (fits : Fits dim bound db)
    {row : Reservation} {reservations : Table Reservation.reservationId} {now : Instant}
    (hnow : now ≤ db.now) (hins : db.reservations.insert? row = some reservations)
    (hfree : db.settlements.get? row.reservationId = none)
    (hroom : ∀ auth ∈ db.authorizations, auth.spendAuthorizationId = row.spendAuthorizationId →
      committedOf dim db row.spendAuthorizationId now + dim.reserved row ≤
        max (committedOf dim db row.spendAuthorizationId now) (bound auth)) :
    Fits dim bound { db with reservations := reservations } := by
  intro auth hauth
  have hadd := onTimeOf_reserve dim hins hfree auth.spendAuthorizationId
  by_cases hid : row.spendAuthorizationId = auth.spendAuthorizationId
  · rw [if_pos hid] at hadd
    have hroom := hroom auth hauth hid.symm
    rw [hid] at hroom
    have hseen := onTimeOf_le_committedOf dim db auth.spendAuthorizationId hnow
    have hold := fits auth hauth
    cases le_max_iff.mp hroom with
    | inl nothing =>
        have hzero : dim.reserved row ≤ 0 := by simpa using nothing
        exact hadd.trans (le_trans (by simpa using hzero) hold)
    | inr within => exact hadd.trans (le_trans (by gcongr) within)
  · rw [if_neg hid, add_zero] at hadd
    exact hadd.trans (fits auth hauth)

theorem Ceiling.reserve {db db' : Db} (inv : Ceiling costBound db) (room : CostRoom costBound db)
    {jcsSha256 : ReservationContent → String}
    {spendAuthorizationId : String} {calls tokens : ℤ} {cost : ℚ} {now : Instant} {ttlSeconds : ℤ}
    {dispatchRef : Option String} (hnow : now ≤ db.now)
    (h : reserveSpend jcsSha256 db spendAuthorizationId calls tokens cost now ttlSeconds
      dispatchRef = .ok db') : Ceiling costBound db' := by
  obtain ⟨row, left, reservations, rfl, rfl, hleft, hcalls, htokens, hcost, hins, rfl⟩ :=
    reserveSpend_ok h
  obtain ⟨auth, hauth, hid, hleftCalls, hleftTokens, hleftCost⟩ := remainingSpend_ok hleft
  have hfree := inv.settlement_of_fresh hins
  have hunique : ∀ other ∈ db.authorizations,
      other.spendAuthorizationId = row.spendAuthorizationId → other = auth := fun other ho hoid =>
    Table.eq_of_key_eq ho hauth (hoid.trans hid.symm)
  refine ⟨fun s hs => ?_, fits_reserve inv.calls hnow hins hfree ?_,
    fits_reserve inv.tokens hnow hins hfree ?_, fits_reserve inv.cost hnow hins hfree ?_⟩
  · obtain ⟨r, hr, hrid⟩ := inv.linked s hs
    exact ⟨r, (Table.mem_insert? hins).mpr (Or.inl hr), hrid⟩
  · intro other ho hoid
    rw [hunique other ho hoid]
    refine le_max_of_le_right ?_
    have : callsDim.reserved row = row.reservedCalls := rfl
    omega
  · intro other ho hoid
    rw [hunique other ho hoid]
    refine le_max_of_le_right ?_
    have : tokensDim.reserved row = row.reservedTokens := rfl
    omega
  · intro other ho hoid
    rw [hunique other ho hoid, ← hid]
    rw [← hid] at hleftCost
    exact room auth hauth now _ row.cost_nonneg (hleftCost ▸ hcost)

theorem Ceiling.settleSpend {db db' : Db} (inv : Ceiling costBound db) {reservationId : String}
    {actualCalls actualTokens : ℤ} {actualCost : ℚ}
    (hwithin : SettlesWithin db (.settle reservationId actualCalls actualTokens actualCost))
    (h : LlmSpend.settleSpend db reservationId actualCalls actualTokens actualCost = .ok db') :
    Ceiling costBound db' := by
  cases settleSpend_ok h with
  | inl same => exact same ▸ inv
  | inr first =>
      obtain ⟨s, r, hr, hid, rfl, hnew, rfl, rfl, rfl, hat, rfl⟩ := first
      obtain ⟨hcalls, htokens, hcost⟩ := hwithin r hr hid
      exact inv.settle hr hid hnew hat hcalls htokens hcost

theorem settleSpend_reservations {db db' : Db} {reservationId : String}
    {actualCalls actualTokens : ℤ} {actualCost : ℚ}
    (h : settleSpend db reservationId actualCalls actualTokens actualCost = .ok db') :
    db'.reservations = db.reservations ∧ db'.authorizations = db.authorizations := by
  obtain rfl | ⟨_, _, _, _, _, _, _, _, _, _, rfl⟩ := settleSpend_ok h <;> exact ⟨rfl, rfl⟩

theorem reconcileOne_eq_settleSpend (db : Db) (r : Reservation) (o : Option DispatchOutcome) :
    ∃ actualCalls actualTokens actualCost,
      reconcileOne db (r, o) =
        settleSpend db r.reservationId actualCalls actualTokens actualCost ∧
      actualCalls ≤ r.reservedCalls ∧ actualTokens ≤ r.reservedTokens ∧
      actualCost ≤ r.reservedCost := by
  rcases o with _ | _ | _
  · exact ⟨_, _, _, rfl, le_rfl, le_rfl, le_rfl⟩
  · exact ⟨_, _, _, rfl, le_rfl, le_rfl, le_rfl⟩
  · exact ⟨_, _, _, rfl, r.calls_pos.le, r.tokens_pos.le, r.cost_nonneg⟩

theorem Ceiling.reconcile {db db' : Db} (inv : Ceiling costBound db) {now : Instant}
    (h : reconcileExpiredSpend db now = .ok db') : Ceiling costBound db' := by
  refine (Transition.foldlM_except_induction
    (P := fun d => Ceiling costBound d ∧ d.reservations = db.reservations) ?_ ⟨inv, rfl⟩ h).1
  rintro ⟨r, o⟩ hx d d' ⟨hinv, hsame⟩ hd
  obtain ⟨_, _, _, heq, hcalls, htokens, hcost⟩ := reconcileOne_eq_settleSpend d r o
  rw [heq] at hd
  refine ⟨hinv.settleSpend (fun r' hr' hid => ?_) hd,
    (settleSpend_reservations hd).1.trans hsame⟩
  have hr : r ∈ d.reservations := hsame ▸ mem_of_mem_expiredUnsettled hx
  rw [Table.eq_of_key_eq hr' hr hid]
  exact ⟨hcalls, htokens, hcost⟩

theorem Ceiling.step {jcsSha256 : ReservationContent → String} {db db' : Db}
    (inv : Ceiling costBound db) (room : CostRoom costBound db) (a : Action)
    (hwithin : SettlesWithin db a) (h : LlmSpend.step jcsSha256 db a = some db') :
    Ceiling costBound db' := by
  have rolledBack : ∀ r : Except SpendError Db, (∀ d, r = .ok d → Ceiling costBound d) →
      Ceiling costBound (settled db r) := by
    intro r hr
    cases r with
    | ok d => exact hr d rfl
    | error e => exact inv
  cases a with
  | tick micros =>
      cases h
      have hle : db.now ≤ db.now + micros := le_add_of_nonneg_right (Int.natCast_nonneg _)
      exact ⟨inv.linked,
        fun auth hauth => (onTimeOf_mono callsDim db _ hle).trans (inv.calls auth hauth),
        fun auth hauth => (onTimeOf_mono tokensDim db _ hle).trans (inv.tokens auth hauth),
        fun auth hauth => (onTimeOf_mono costDim db _ hle).trans (inv.cost auth hauth)⟩
  | reserve =>
      simp only [LlmSpend.step] at h
      split_ifs at h with hnow
      cases h
      exact rolledBack _ fun d hd => inv.reserve room hnow hd
  | settle =>
      cases h
      exact rolledBack _ fun d hd => inv.settleSpend hwithin hd
  | reconcile =>
      simp only [LlmSpend.step] at h
      split_ifs at h
      cases h
      exact rolledBack _ fun d hd => inv.reconcile hd
  | recordOutcome =>
      cases h
      exact ⟨inv.linked, inv.calls, inv.tokens, inv.cost⟩

theorem Ceiling.init {db : Db} (bound_nonneg : ∀ auth, 0 ≤ costBound auth) (h : Init db) :
    Ceiling costBound db := by
  have nothing : ∀ {R : Type} [AddCommGroup R] [LinearOrder R] (dim : Dimension R) id,
      onTimeOf dim db id db.now = 0 := by
    intro R _ _ dim id
    simp [onTimeOf, under, h.1]
  refine ⟨fun s hs => ?_, fun auth _ => ?_, fun auth _ => ?_, fun auth _ => ?_⟩
  · rw [← Table.mem_rows, h.2] at hs
    simp at hs
  · rw [nothing]
    exact auth.maxCalls_pos.le
  · rw [nothing]
    exact auth.maxTokens_pos.le
  · rw [nothing]
    exact bound_nonneg auth

theorem committedOf_nonneg {R : Type*} [AddCommGroup R] [LinearOrder R] [IsOrderedAddMonoid R]
    (dim : Dimension R) (db : Db) (spendAuthorizationId : String) (now : Instant) :
    0 ≤ committedOf dim db spendAuthorizationId now := by
  refine List.sum_nonneg fun x hx => ?_
  obtain ⟨r, _, rfl⟩ := List.mem_map.mp hx
  unfold charge
  split
  · exact dim.actual_nonneg _
  · exact dim.reserved_nonneg _

/-- The cost ceiling with the rounding of one 28-digit subtraction. -/
def roundedMaxCost (auth : SpendAuthorization) : ℚ :=
  auth.maxCost * (1 + Decimal.epsilon contextPrecision)

theorem roundedMaxCost_nonneg (auth : SpendAuthorization) : 0 ≤ roundedMaxCost auth :=
  mul_nonneg auth.maxCost_pos.le (by linarith [Decimal.epsilon_pos contextPrecision])

theorem costRoom_rounded (db : Db) : CostRoom roundedMaxCost db :=
  fun _ _ _ _ hamount h =>
    Decimal.add_le_of_le_round_sub (committedOf_nonneg costDim db _ _) hamount h

/-- Every recorded cost is a whole number of units of `10 ^ k`. -/
structure CostsOnGrid (k : ℤ) (db : Db) : Prop where
  reserved : ∀ r ∈ db.reservations, Decimal.OnGrid k r.reservedCost
  actual : ∀ s ∈ db.settlements, Decimal.OnGrid k s.actualCost

/-- A ceiling on the grid with at most 28 digits there. -/
def Representable (k : ℤ) (auth : SpendAuthorization) : Prop :=
  Decimal.OnGrid k auth.maxCost ∧ auth.maxCost ≤ (10 : ℚ) ^ (k + contextPrecision)

open Classical in
/-- The ceiling itself where 28 digits hold it, else its rounded form. -/
noncomputable def gridMaxCost (k : ℤ) (auth : SpendAuthorization) : ℚ :=
  if Representable k auth then auth.maxCost else roundedMaxCost auth

theorem gridMaxCost_nonneg (k : ℤ) (auth : SpendAuthorization) : 0 ≤ gridMaxCost k auth := by
  unfold gridMaxCost
  split_ifs
  · exact auth.maxCost_pos.le
  · exact roundedMaxCost_nonneg auth

theorem CostsOnGrid.committedOf {k : ℤ} {db : Db} (grid : CostsOnGrid k db)
    (spendAuthorizationId : String) (now : Instant) :
    Decimal.OnGrid k (LlmSpend.committedOf costDim db spendAuthorizationId now) := by
  refine Decimal.OnGrid.sum fun q hq => ?_
  obtain ⟨r, hr, rfl⟩ := List.mem_map.mp hq
  unfold charge
  split
  · next s hs => exact grid.actual s (Table.mem_of_get? hs)
  · exact grid.reserved r (List.mem_filter.mp hr).1

theorem CostsOnGrid.costRoom {k : ℤ} {db : Db} (grid : CostsOnGrid k db) :
    CostRoom (gridMaxCost k) db := by
  intro auth hauth now amount hamount h
  unfold gridMaxCost
  split_ifs with hrep
  · exact Decimal.add_le_of_le_round_sub_onGrid (by decide) (committedOf_nonneg costDim db _ _)
      hamount (grid.committedOf _ _) hrep.1 hrep.2 h
  · exact costRoom_rounded db auth hauth now amount hamount h

def PassesOnGrid (k : ℤ) (_ : Db) : Action → Prop
  | .reserve _ _ _ cost _ _ _ => Decimal.OnGrid k cost
  | .settle _ _ _ actualCost => Decimal.OnGrid k actualCost
  | _ => True

theorem CostsOnGrid.settleSpend {k : ℤ} {db db' : Db} (grid : CostsOnGrid k db)
    {reservationId : String} {actualCalls actualTokens : ℤ} {actualCost : ℚ}
    (hcost : Decimal.OnGrid k actualCost)
    (h : LlmSpend.settleSpend db reservationId actualCalls actualTokens actualCost = .ok db') :
    CostsOnGrid k db' := by
  obtain rfl | ⟨s, _, _, _, _, _, _, _, rfl, _, rfl⟩ := settleSpend_ok h
  · exact grid
  · refine ⟨grid.reserved, fun x hx => ?_⟩
    cases Table.mem_insertNew.mp hx with
    | inl old => exact grid.actual x old
    | inr new => exact new.1 ▸ hcost

theorem CostsOnGrid.reconcile {k : ℤ} {db db' : Db} (grid : CostsOnGrid k db) {now : Instant}
    (h : reconcileExpiredSpend db now = .ok db') : CostsOnGrid k db' := by
  refine Transition.foldlM_except_induction (P := CostsOnGrid k) ?_ grid h
  rintro ⟨r, o⟩ hx d d' hd hstep
  have hr := grid.reserved r (mem_of_mem_expiredUnsettled hx)
  rcases o with _ | _ | _
  · exact hd.settleSpend hr hstep
  · exact hd.settleSpend hr hstep
  · exact hd.settleSpend (Decimal.OnGrid.zero k) hstep

theorem CostsOnGrid.step {k : ℤ} {jcsSha256 : ReservationContent → String} {db db' : Db}
    (grid : CostsOnGrid k db) (a : Action) (hpass : PassesOnGrid k db a)
    (h : LlmSpend.step jcsSha256 db a = some db') : CostsOnGrid k db' := by
  have rolledBack : ∀ r : Except SpendError Db, (∀ d, r = .ok d → CostsOnGrid k d) →
      CostsOnGrid k (settled db r) := by
    intro r hr
    cases r with
    | ok d => exact hr d rfl
    | error e => exact grid
  cases a with
  | tick => cases h; exact ⟨grid.reserved, grid.actual⟩
  | recordOutcome => cases h; exact ⟨grid.reserved, grid.actual⟩
  | settle => cases h; exact rolledBack _ fun d hd => grid.settleSpend hpass hd
  | reconcile =>
      simp only [LlmSpend.step] at h
      split_ifs at h
      cases h
      exact rolledBack _ fun d hd => grid.reconcile hd
  | reserve =>
      simp only [LlmSpend.step] at h
      split_ifs at h
      cases h
      refine rolledBack _ fun d hd => ?_
      obtain ⟨row, _, _, _, rfl, _, _, _, _, hins, rfl⟩ := reserveSpend_ok hd
      refine ⟨fun r hr => ?_, grid.actual⟩
      cases (Table.mem_insert? hins).mp hr with
      | inl old => exact grid.reserved r old
      | inr new => exact new ▸ hpass

theorem CostsOnGrid.init {k : ℤ} {db : Db} (h : Init db) : CostsOnGrid k db := by
  refine ⟨fun r hr => ?_, fun s hs => ?_⟩
  · rw [← Table.mem_rows, h.1] at hr
    simp at hr
  · rw [← Table.mem_rows, h.2] at hs
    simp at hs

section Runs

variable {jcsSha256 : ReservationContent → String} {db₀ db : Db} {as : List Action}

theorem ceiling_of_exec (start : Init db₀)
    (within : Transition.Along (step jcsSha256) SettlesWithin db₀ as)
    (run : Transition.exec (step jcsSha256) db₀ as = some db) : Ceiling roundedMaxCost db :=
  Transition.exec_induction_along (Ceiling.init roundedMaxCost_nonneg start)
    (fun s a _ hs hguard hstep => hs.step (costRoom_rounded s) a hguard hstep) within run

theorem ceiling_of_exec_onGrid {k : ℤ} (start : Init db₀)
    (within : Transition.Along (step jcsSha256) SettlesWithin db₀ as)
    (onGrid : Transition.Along (step jcsSha256) (PassesOnGrid k) db₀ as)
    (run : Transition.exec (step jcsSha256) db₀ as = some db) : Ceiling (gridMaxCost k) db :=
  have both : Transition.Along (step jcsSha256)
      (fun s a => SettlesWithin s a ∧ PassesOnGrid k s a) db₀ as :=
    fun m hm => ⟨within m hm, onGrid m hm⟩
  (Transition.exec_induction_along (P := fun s => Ceiling (gridMaxCost k) s ∧ CostsOnGrid k s)
    ⟨Ceiling.init (gridMaxCost_nonneg k) start, CostsOnGrid.init start⟩
    (fun _ a _ hs hguard hstep =>
      ⟨hs.1.step hs.2.costRoom a hguard.1 hstep, hs.2.step a hguard.2 hstep⟩)
    both run).1

/-- What is counted at any time of any run stays within the ceilings, save for
    what reservations settled after their own expiry cost. The cost ceiling is
    met to the rounding of one 28-digit subtraction, and exactly where 28
    digits hold the ceiling on the grid of the costs passed. -/
theorem committed_le_ceiling_add_late (start : Init db₀)
    (within : Transition.Along (step jcsSha256) SettlesWithin db₀ as)
    (run : Transition.exec (step jcsSha256) db₀ as = some db) :
    ∀ auth ∈ db.authorizations,
      (committed db auth.spendAuthorizationId db.now).1 ≤
        auth.maxCalls + lateOf callsDim db auth.spendAuthorizationId ∧
      (committed db auth.spendAuthorizationId db.now).2.1 ≤
        auth.maxTokens + lateOf tokensDim db auth.spendAuthorizationId ∧
      (committed db auth.spendAuthorizationId db.now).2.2 ≤
        roundedMaxCost auth + lateOf costDim db auth.spendAuthorizationId ∧
      ∀ k, Transition.Along (step jcsSha256) (PassesOnGrid k) db₀ as → Representable k auth →
        (committed db auth.spendAuthorizationId db.now).2.2 ≤
          auth.maxCost + lateOf costDim db auth.spendAuthorizationId := by
  intro auth hauth
  have inv := ceiling_of_exec start within run
  simp only [committed, committedOf_eq]
  refine ⟨add_le_add (inv.calls auth hauth) le_rfl, add_le_add (inv.tokens auth hauth) le_rfl,
    add_le_add (inv.cost auth hauth) le_rfl, fun k onGrid hrep => ?_⟩
  have exact := (ceiling_of_exec_onGrid start within onGrid run).cost auth hauth
  rw [gridMaxCost, if_pos hrep] at exact
  exact add_le_add exact le_rfl

end Runs

/-- One approval of one call, at midnight of 2026-01-01, valid for a day. -/
def oneCall (maxCost : ℚ) (pos : 0 < maxCost) : Db where
  now := 1767225600000000
  authorizations := ⟨[{
    spendAuthorizationId := "sa-1"
    maxCalls := 1
    maxTokens := 1000
    maxCost := maxCost
    expiresAt := 1767312000000000
    maxCalls_pos := by decide
    maxTokens_pos := by decide
    maxCost_pos := pos }], List.nodup_singleton _⟩
  reservations := Table.empty
  settlements := Table.empty
  outcomes := []

def oneCallDigest (content : ReservationContent) : String :=
  if content.x = 5 then
    if content.n = 1767225600000000 then "1a0669ee284dbf62d8446ec945ec9e1c"
    else "7dd927ee747c4c3b03ffc879cacbba61"
  else "4fea88c35e53c5be811092dfc672d243"

def fiveUnits : Db := oneCall 5 (by decide)

/-- The first worker dies after reserving; its reservation expires, the room is
    reserved again, and the sweep then charges the first call at worst case. -/
def chargedLate : List Action :=
  [.reserve "sa-1" 1 1000 5 1767225600000000 defaultReservationTtlSeconds (some "d1"),
   .tick 901000000,
   .reserve "sa-1" 1 1000 5 1767226501000000 defaultReservationTtlSeconds (some "d2"),
   .reconcile 1767226501000000]

/-- A ceiling of 29 digits, which one subtraction rounds up. -/
def finePriced : Db := oneCall (1 + 6 / 10 ^ 28) (by decide +kernel)

def roundedUp : List Action :=
  [.reserve "sa-1" 1 1000 (1 + 1 / 10 ^ 27) 1767225600000000 defaultReservationTtlSeconds
    (some "d1")]

/-- Every count passes its ceiling by a late charge; a cost ceiling is passed
    with nothing late by the rounding alone. -/
theorem committed_exceeds_ceiling :
    (∃ db, Init fiveUnits ∧
      Transition.Along (step oneCallDigest) SettlesWithin fiveUnits chargedLate ∧
      Transition.exec (step oneCallDigest) fiveUnits chargedLate = some db ∧
      ∃ auth ∈ db.authorizations,
        auth.maxCalls < (committed db auth.spendAuthorizationId db.now).1 ∧
        auth.maxTokens < (committed db auth.spendAuthorizationId db.now).2.1 ∧
        auth.maxCost < (committed db auth.spendAuthorizationId db.now).2.2) ∧
    ∃ db, Init finePriced ∧
      Transition.Along (step oneCallDigest) SettlesWithin finePriced roundedUp ∧
      Transition.exec (step oneCallDigest) finePriced roundedUp = some db ∧
      ∃ auth ∈ db.authorizations, lateOf costDim db auth.spendAuthorizationId = 0 ∧
        auth.maxCost < (committed db auth.spendAuthorizationId db.now).2.2 := by
  have late : ((Transition.exec (step oneCallDigest) fiveUnits chargedLate).any fun db =>
      decide (∃ auth ∈ db.authorizations,
        auth.maxCalls < (committed db auth.spendAuthorizationId db.now).1 ∧
        auth.maxTokens < (committed db auth.spendAuthorizationId db.now).2.1 ∧
        auth.maxCost < (committed db auth.spendAuthorizationId db.now).2.2)) = true := by
    decide +kernel
  have rounded : ((Transition.exec (step oneCallDigest) finePriced roundedUp).any fun db =>
      decide (∃ auth ∈ db.authorizations, lateOf costDim db auth.spendAuthorizationId = 0 ∧
        auth.maxCost < (committed db auth.spendAuthorizationId db.now).2.2)) = true := by
    decide +kernel
  obtain ⟨lateDb, lateRun, lateOver⟩ := Option.any_eq_true _ _ |>.mp late
  obtain ⟨roundedDb, roundedRun, roundedOver⟩ := Option.any_eq_true _ _ |>.mp rounded
  refine ⟨⟨lateDb, ⟨rfl, rfl⟩, ?_, lateRun, of_decide_eq_true lateOver⟩,
    roundedDb, ⟨rfl, rfl⟩, ?_, roundedRun, of_decide_eq_true roundedOver⟩
  · exact Transition.along_of_forall (by simp [chargedLate, SettlesWithin])
  · exact Transition.along_of_forall (by simp [roundedUp, SettlesWithin])

theorem committed_le_ceiling_add_late_chargedLate :
    ∃ db, Transition.exec (step oneCallDigest) fiveUnits chargedLate = some db ∧
      ∀ auth ∈ db.authorizations,
        (committed db auth.spendAuthorizationId db.now).1 ≤
          auth.maxCalls + lateOf callsDim db auth.spendAuthorizationId ∧
        (committed db auth.spendAuthorizationId db.now).2.1 ≤
          auth.maxTokens + lateOf tokensDim db auth.spendAuthorizationId ∧
        (committed db auth.spendAuthorizationId db.now).2.2 ≤
          roundedMaxCost auth + lateOf costDim db auth.spendAuthorizationId ∧
        ∀ k, Transition.Along (step oneCallDigest) (PassesOnGrid k) fiveUnits chargedLate →
          Representable k auth →
          (committed db auth.spendAuthorizationId db.now).2.2 ≤
            auth.maxCost + lateOf costDim db auth.spendAuthorizationId := by
  have run : (Transition.exec (step oneCallDigest) fiveUnits chargedLate).isSome := by
    decide +kernel
  obtain ⟨db, hdb⟩ := Option.isSome_iff_exists.mp run
  exact ⟨db, hdb, committed_le_ceiling_add_late ⟨rfl, rfl⟩
    (Transition.along_of_forall (by simp [chargedLate, SettlesWithin])) hdb⟩

end FeatureGen.LlmSpend
