import FeatureGen.Lib.Checks
import FeatureGen.Overlay.FormulaDraftStore
import FeatureGen.Overlay.SpendCeiling

/-! # The calls of one approval

An approval for so many calls, and that many calls in a row, each reserving the
worst case of one and none settled before the last: which of them are covered.
-/

namespace FeatureGen.LlmSpend

open FormulaDraftStore (perCallWorstCase)

/-- What a worker passes beside the worst case. -/
structure Call where
  now : Instant
  ttlSeconds : ℤ
  dispatchRef : Option String

/-- When the reservation of the call stops counting. -/
def Call.expiresAt (call : Call) : Instant := call.now + call.ttlSeconds * microsPerSecond

namespace SpendAuthorization

variable (auth : SpendAuthorization)

def callTokens : ℤ := (perCallWorstCase auth.maxCalls auth.maxTokens auth.maxCost).1

def callCost : ℚ := (perCallWorstCase auth.maxCalls auth.maxTokens auth.maxCost).2

end SpendAuthorization

section Calls

variable (jcsSha256 : ReservationContent → String) (auth : SpendAuthorization)

def Call.reservationId (call : Call) : String :=
  LlmSpend.reservationId jcsSha256
    ⟨auth.spendAuthorizationId, call.now, 1, auth.callTokens, auth.callCost, call.dispatchRef⟩

def reserveCall (db : Db) (call : Call) : Except SpendError Db :=
  reserveSpend jcsSha256 db auth.spendAuthorizationId 1 auth.callTokens auth.callCost call.now
    call.ttlSeconds call.dispatchRef

/-- The calls one after the other. -/
def reserveCalls (db : Db) (calls : List Call) : Except SpendError Db :=
  calls.foldlM (reserveCall jcsSha256 auth) db

/-- Nothing is reserved under the authorization; a settlement is of a reservation. -/
structure Fresh (db : Db) : Prop where
  authorized : auth ∈ db.authorizations
  unused : ∀ r ∈ db.reservations, r.spendAuthorizationId ≠ auth.spendAuthorizationId
  foreignKey : ∀ s ∈ db.settlements, ∃ r ∈ db.reservations, r.reservationId = s.reservationId

/-- The authorization is unexpired throughout, and no reservation expires before a
    later call. -/
structure Consecutive (calls : List Call) : Prop where
  unexpired : ∀ call ∈ calls, call.now < auth.expiresAt
  together : calls.Pairwise fun call later => later.now < call.expiresAt

/-- Every call is covered, and the one after them is refused. -/
def Admits (db : Db) (calls : List Call) (extra : Call) : Prop :=
  ∃ db', reserveCalls jcsSha256 auth db calls = .ok db' ∧
    ∃ left, reserveCall jcsSha256 auth db' extra =
      .error (.cannotCover auth.spendAuthorizationId 1 auth.callTokens auth.callCost left)

/-- No two of the calls share a reservation id, and none is taken. -/
def Distinct (db : Db) (calls : List Call) : Prop :=
  (calls.map (·.reservationId jcsSha256 auth)).Nodup ∧
    ∀ call ∈ calls, ∀ r ∈ db.reservations, r.reservationId ≠ call.reservationId jcsSha256 auth

end Calls

section WorstCase

variable (auth : SpendAuthorization)

theorem callTokens_eq : auth.callTokens = -(Int.fdiv (-auth.maxTokens) auth.maxCalls) := rfl

theorem maxTokens_le : auth.maxTokens ≤ auth.maxCalls * auth.callTokens := by
  have division := Int.mul_fdiv_add_fmod (-auth.maxTokens) auth.maxCalls
  have remainder := Int.fmod_nonneg_of_pos (-auth.maxTokens) auth.maxCalls_pos
  rw [callTokens_eq, mul_neg]
  omega

theorem callTokens_pos : 0 < auth.callTokens := by
  by_contra small
  have none : auth.maxCalls * auth.callTokens ≤ 0 :=
    mul_nonpos_of_nonneg_of_nonpos auth.maxCalls_pos.le (by omega)
  have enough := maxTokens_le auth
  have positive := auth.maxTokens_pos
  omega

theorem mul_callTokens_le_iff :
    auth.maxCalls * auth.callTokens ≤ auth.maxTokens ↔ auth.maxCalls ∣ auth.maxTokens := by
  constructor
  · intro fits
    exact ⟨auth.callTokens, le_antisymm (maxTokens_le auth) fits⟩
  · intro divides
    obtain ⟨share, hshare⟩ := divides
    rw [callTokens_eq, hshare, ← mul_neg, Int.mul_fdiv_cancel_left _ auth.maxCalls_pos.ne', neg_neg]

theorem callCost_eq :
    auth.callCost = Decimal.round contextPrecision (auth.maxCost / auth.maxCalls) := rfl

theorem callCost_pos : 0 < auth.callCost := by
  have share : 0 < auth.maxCost / auth.maxCalls :=
    div_pos auth.maxCost_pos (by exact_mod_cast auth.maxCalls_pos)
  rw [callCost_eq]
  exact Decimal.round_pos (by decide) share

end WorstCase

section Reserved

variable {jcsSha256 : ReservationContent → String} {auth : SpendAuthorization} {db₀ db : Db}

def Call.row (jcsSha256 : ReservationContent → String) (auth : SpendAuthorization) (call : Call) :
    Reservation where
  reservationId := call.reservationId jcsSha256 auth
  spendAuthorizationId := auth.spendAuthorizationId
  dispatchRef := call.dispatchRef
  reservedCalls := 1
  reservedTokens := auth.callTokens
  reservedCost := auth.callCost
  expiresAt := call.expiresAt
  calls_pos := one_pos
  tokens_pos := callTokens_pos auth
  cost_nonneg := (callCost_pos auth).le

/-- The database after the calls `made`, from `db₀`. -/
structure Reserved (jcsSha256 : ReservationContent → String) (auth : SpendAuthorization)
    (db₀ : Db) (made : List Call) (db : Db) : Prop where
  authorizations : db.authorizations = db₀.authorizations
  settlements : db.settlements = db₀.settlements
  reservations : db.reservations.rows =
    db₀.reservations.rows ++ made.map (·.row jcsSha256 auth)

theorem Reserved.refl : Reserved jcsSha256 auth db [] db := ⟨rfl, rfl, by simp⟩

variable {made : List Call} {now : Instant}

theorem Reserved.committedOf {R : Type*} [Semiring R] [LE R] (dim : Dimension R) (amount : R)
    (reserved : Reserved jcsSha256 auth db₀ made db) (fresh : Fresh auth db₀)
    (distinct : Distinct jcsSha256 auth db₀ made) (held : ∀ call ∈ made, now < call.expiresAt)
    (hamount : ∀ call : Call, dim.reserved (call.row jcsSha256 auth) = amount) :
    committedOf dim db auth.spendAuthorizationId now = made.length * amount := by
  have unsettled : ∀ call ∈ made,
      db.settlements.get? (call.reservationId jcsSha256 auth) = none := by
    intro call hcall
    rw [reserved.settlements, Table.get?_eq_none]
    intro s hs same
    obtain ⟨r, hr, hid⟩ := fresh.foreignKey s hs
    exact distinct.2 call hcall r hr (hid.trans same)
  have counted : db.reservations.rows.filter (counts db auth.spendAuthorizationId now) =
      made.map (·.row jcsSha256 auth) := by
    have others : db₀.reservations.rows.filter (counts db auth.spendAuthorizationId now) = [] := by
      refine List.filter_eq_nil_iff.mpr fun r hr => ?_
      have other := fresh.unused r hr
      simp [counts, other]
    rw [reserved.reservations, List.filter_append, others, List.nil_append,
      List.filter_eq_self]
    intro r hr
    obtain ⟨call, hcall, rfl⟩ := List.mem_map.mp hr
    have later := held call hcall
    simp [counts, Call.row, later]
  rw [LlmSpend.committedOf, counted, List.map_map, List.map_congr_left (g := fun _ => amount)]
  · simp
  · intro call hcall
    have free : db.settlements.get? (call.row jcsSha256 auth).reservationId = none :=
      unsettled call hcall
    simp [charge, free, hamount]

theorem Reserved.remainingSpend (reserved : Reserved jcsSha256 auth db₀ made db)
    (fresh : Fresh auth db₀) (distinct : Distinct jcsSha256 auth db₀ made)
    (held : ∀ call ∈ made, now < call.expiresAt) :
    remainingSpend db auth.spendAuthorizationId now = .ok {
      calls := auth.maxCalls - made.length
      tokens := auth.maxTokens - made.length * auth.callTokens
      cost := Decimal.round contextPrecision (auth.maxCost - made.length * auth.callCost) } := by
  have found : db.authorizations.get? auth.spendAuthorizationId = some auth := by
    rw [reserved.authorizations]
    exact Table.get?_key fresh.authorized
  have calls := reserved.committedOf callsDim 1 fresh distinct held fun _ => rfl
  have tokens := reserved.committedOf tokensDim auth.callTokens fresh distinct held fun _ => rfl
  have cost := reserved.committedOf costDim auth.callCost fresh distinct held fun _ => rfl
  simp [LlmSpend.remainingSpend, found, committed, calls, tokens, cost]

/-- One more call is covered after `n` of them. -/
structure Covers (auth : SpendAuthorization) (n : ℕ) : Prop where
  calls : 1 ≤ auth.maxCalls - n
  tokens : auth.callTokens ≤ auth.maxTokens - n * auth.callTokens
  cost : auth.callCost ≤
    Decimal.round contextPrecision (auth.maxCost - n * auth.callCost)

variable {call : Call}

theorem Reserved.reserveCall_eq (reserved : Reserved jcsSha256 auth db₀ made db)
    (fresh : Fresh auth db₀) (distinct : Distinct jcsSha256 auth db₀ made)
    (held : ∀ earlier ∈ made, call.now < earlier.expiresAt) (hnow : call.now < auth.expiresAt) :
    (Covers auth made.length → reserveCall jcsSha256 auth db call =
      (db.reservations.insert? (call.row jcsSha256 auth)).elim (.error .uniqueViolation)
        fun reservations => .ok { db with reservations := reservations }) ∧
    (¬ Covers auth made.length → ∃ left, reserveCall jcsSha256 auth db call =
      .error (.cannotCover auth.spendAuthorizationId 1 auth.callTokens auth.callCost left)) := by
  have found : db.authorizations.get? auth.spendAuthorizationId = some auth := by
    rw [reserved.authorizations]
    exact Table.get?_key fresh.authorized
  have left := reserved.remainingSpend fresh distinct held
  have positive : 0 < (1 : ℤ) ∧ 0 < auth.callTokens ∧ 0 ≤ auth.callCost :=
    ⟨one_pos, callTokens_pos auth, (callCost_pos auth).le⟩
  constructor
  · intro covers
    have within : ¬ (auth.maxCalls - made.length < 1 ∨
        auth.maxTokens - made.length * auth.callTokens < auth.callTokens ∨
        Decimal.round contextPrecision (auth.maxCost - made.length * auth.callCost) <
          auth.callCost) := by
      simp only [not_or, not_lt]
      exact ⟨covers.calls, covers.tokens, covers.cost⟩
    unfold LlmSpend.reserveCall reserveSpend
    simp only [found, not_le.mpr hnow, if_false, left, bind, Except.bind, if_neg within,
      dif_pos positive]
    unfold Call.row Call.reservationId Call.expiresAt
    generalize db.reservations.insert? _ = inserted
    cases inserted with
    | none => rfl
    | some reservations => rfl
  · intro short
    have beyond : auth.maxCalls - made.length < 1 ∨
        auth.maxTokens - made.length * auth.callTokens < auth.callTokens ∨
        Decimal.round contextPrecision (auth.maxCost - made.length * auth.callCost) <
          auth.callCost := by
      by_contra within
      simp only [not_or, not_lt] at within
      exact short ⟨within.1, within.2.1, within.2.2⟩
    refine ⟨⟨auth.maxCalls - made.length, auth.maxTokens - made.length * auth.callTokens,
      Decimal.round contextPrecision (auth.maxCost - made.length * auth.callCost)⟩, ?_⟩
    unfold LlmSpend.reserveCall reserveSpend
    simp only [found, not_le.mpr hnow, if_false, left, bind, Except.bind, if_pos beyond]

/-- The reservation's id is not taken. -/
def Free (jcsSha256 : ReservationContent → String) (auth : SpendAuthorization) (db : Db)
    (call : Call) : Prop :=
  ∀ r ∈ db.reservations, r.reservationId ≠ call.reservationId jcsSha256 auth

theorem Reserved.insert (reserved : Reserved jcsSha256 auth db₀ made db)
    {reservations : Table Reservation.reservationId}
    (hins : db.reservations.insert? (call.row jcsSha256 auth) = some reservations) :
    Reserved jcsSha256 auth db₀ (made ++ [call]) { db with reservations := reservations } where
  authorizations := reserved.authorizations
  settlements := reserved.settlements
  reservations := by
    have rows := (Table.rows_of_insert? hins).1
    simp [rows, reserved.reservations]

theorem Reserved.exists_reserveCall (reserved : Reserved jcsSha256 auth db₀ made db)
    (fresh : Fresh auth db₀) (distinct : Distinct jcsSha256 auth db₀ made)
    (held : ∀ earlier ∈ made, call.now < earlier.expiresAt) (hnow : call.now < auth.expiresAt)
    (covers : Covers auth made.length) (free : Free jcsSha256 auth db call) :
    ∃ db', reserveCall jcsSha256 auth db call = .ok db' ∧
      Reserved jcsSha256 auth db₀ (made ++ [call]) db' := by
  rw [(reserved.reserveCall_eq fresh distinct held hnow).1 covers]
  cases hins : db.reservations.insert? (call.row jcsSha256 auth) with
  | none =>
      obtain ⟨r, hr, same⟩ := Table.insert?_eq_none.mp hins
      exact absurd same (free r hr)
  | some reservations => exact ⟨_, rfl, reserved.insert hins⟩

theorem Reserved.of_reserveCall {db' : Db} (reserved : Reserved jcsSha256 auth db₀ made db)
    (fresh : Fresh auth db₀) (distinct : Distinct jcsSha256 auth db₀ made)
    (held : ∀ earlier ∈ made, call.now < earlier.expiresAt) (hnow : call.now < auth.expiresAt)
    (h : reserveCall jcsSha256 auth db call = .ok db') :
    Covers auth made.length ∧ Free jcsSha256 auth db call ∧
      Reserved jcsSha256 auth db₀ (made ++ [call]) db' := by
  have both := reserved.reserveCall_eq fresh distinct held hnow
  by_cases covers : Covers auth made.length
  · rw [both.1 covers] at h
    cases hins : db.reservations.insert? (call.row jcsSha256 auth) with
    | none =>
        rw [hins] at h
        cases h
    | some reservations =>
        rw [hins] at h
        cases h
        exact ⟨covers, (Table.rows_of_insert? hins).2, reserved.insert hins⟩
  · obtain ⟨left, refused⟩ := both.2 covers
    rw [refused] at h
    cases h

theorem Reserved.distinct_append (reserved : Reserved jcsSha256 auth db₀ made db)
    (distinct : Distinct jcsSha256 auth db₀ made) :
    Free jcsSha256 auth db call ↔ Distinct jcsSha256 auth db₀ (made ++ [call]) := by
  have taken : ∀ r, r ∈ db.reservations ↔
      r ∈ db₀.reservations ∨ r ∈ made.map (·.row jcsSha256 auth) := by
    intro r
    rw [← Table.mem_rows, reserved.reservations, List.mem_append, Table.mem_rows]
  constructor
  · intro free
    constructor
    · rw [List.map_append, List.map_singleton, List.nodup_append]
      refine ⟨distinct.1, List.nodup_singleton _, ?_⟩
      intro id hid id' hid'
      obtain ⟨earlier, hearlier, rfl⟩ := List.mem_map.mp hid
      rw [List.mem_singleton.mp hid']
      exact free _ ((taken _).mpr (Or.inr (List.mem_map.mpr ⟨earlier, hearlier, rfl⟩)))
    · intro call' hcall' r hr
      rcases List.mem_append.mp hcall' with old | new
      · exact distinct.2 call' old r hr
      · rw [List.mem_singleton.mp new]
        exact free r ((taken r).mpr (Or.inl hr))
  · intro all r hr
    rcases (taken r).mp hr with old | new
    · exact all.2 call (List.mem_append_right _ (List.mem_singleton.mpr rfl)) r old
    · obtain ⟨earlier, hearlier, rfl⟩ := List.mem_map.mp new
      have nodup := all.1
      rw [List.map_append, List.map_singleton, List.nodup_append] at nodup
      exact nodup.2.2 _ (List.mem_map.mpr ⟨earlier, hearlier, rfl⟩) _ (List.mem_singleton.mpr rfl)

end Reserved

section Runs

variable {jcsSha256 : ReservationContent → String} {auth : SpendAuthorization} {db₀ : Db}

theorem Reserved.reserveCalls_iff {made calls : List Call} {db : Db}
    (reserved : Reserved jcsSha256 auth db₀ made db) (fresh : Fresh auth db₀)
    (distinct : Distinct jcsSha256 auth db₀ made)
    (consecutive : Consecutive auth (made ++ calls)) :
    (∃ db', reserveCalls jcsSha256 auth db calls = .ok db' ∧
        Reserved jcsSha256 auth db₀ (made ++ calls) db') ↔
      (∀ n, made.length ≤ n → n < made.length + calls.length → Covers auth n) ∧
        Distinct jcsSha256 auth db₀ (made ++ calls) := by
  induction calls generalizing made db with
  | nil =>
      rw [List.append_nil]
      constructor
      · intro _
        refine ⟨?_, distinct⟩
        intro n low high
        rw [List.length_nil] at high
        omega
      · intro _
        exact ⟨db, rfl, reserved⟩
  | cons call calls ih =>
      have hnow := consecutive.unexpired call (by simp)
      have held : ∀ earlier ∈ made, call.now < earlier.expiresAt := by
        intro earlier hearlier
        have pairs := List.pairwise_append.mp consecutive.together
        exact pairs.2.2 earlier hearlier call List.mem_cons_self
      have split : made ++ call :: calls = (made ++ [call]) ++ calls := by simp
      have length : (made ++ [call]).length = made.length + 1 := by simp
      rw [split] at consecutive ⊢
      constructor
      · intro all
        obtain ⟨db', run, after⟩ := all
        obtain ⟨db₁, first, rest⟩ := Checks.bind_eq_ok.mp run
        obtain ⟨covers, free, reserved₁⟩ := reserved.of_reserveCall fresh distinct held hnow first
        have distinct₁ := (reserved.distinct_append distinct).mp free
        have later := (ih reserved₁ distinct₁ consecutive).mp ⟨db', rest, after⟩
        refine ⟨?_, later.2⟩
        intro n low high
        rcases low.lt_or_eq with beyond | here
        · rw [List.length_cons] at high
          exact later.1 n (by omega) (by omega)
        · exact here ▸ covers
      · intro conditions
        obtain ⟨covers, all⟩ := conditions
        have distinct₁ : Distinct jcsSha256 auth db₀ (made ++ [call]) := by
          constructor
          · have nodup := all.1
            rw [List.map_append] at nodup
            exact (List.nodup_append.mp nodup).1
          · intro c hc
            exact all.2 c (List.mem_append_left _ hc)
        have free := (reserved.distinct_append distinct).mpr distinct₁
        obtain ⟨db₁, first, reserved₁⟩ := reserved.exists_reserveCall fresh distinct held hnow
          (covers made.length le_rfl (by simp)) free
        have later : ∀ n, (made ++ [call]).length ≤ n →
            n < (made ++ [call]).length + calls.length → Covers auth n := by
          intro n low high
          rw [List.length_cons] at covers
          exact covers n (by omega) (by omega)
        obtain ⟨db', rest, after⟩ := (ih reserved₁ distinct₁ consecutive).mpr ⟨later, all⟩
        exact ⟨db', Checks.bind_eq_ok.mpr ⟨db₁, first, rest⟩, after⟩

theorem Reserved.of_reserveCalls {made calls : List Call} {db db' : Db}
    (reserved : Reserved jcsSha256 auth db₀ made db) (fresh : Fresh auth db₀)
    (distinct : Distinct jcsSha256 auth db₀ made)
    (consecutive : Consecutive auth (made ++ calls))
    (h : reserveCalls jcsSha256 auth db calls = .ok db') :
    Reserved jcsSha256 auth db₀ (made ++ calls) db' := by
  induction calls generalizing made db with
  | nil =>
      cases h
      rwa [List.append_nil]
  | cons call calls ih =>
      have hnow := consecutive.unexpired call (by simp)
      have held : ∀ earlier ∈ made, call.now < earlier.expiresAt := by
        intro earlier hearlier
        have pairs := List.pairwise_append.mp consecutive.together
        exact pairs.2.2 earlier hearlier call List.mem_cons_self
      have split : made ++ call :: calls = (made ++ [call]) ++ calls := by simp
      rw [split] at consecutive ⊢
      obtain ⟨db₁, first, rest⟩ := Checks.bind_eq_ok.mp h
      obtain ⟨_, free, reserved₁⟩ := reserved.of_reserveCall fresh distinct held hnow first
      exact ih reserved₁ ((reserved.distinct_append distinct).mp free) consecutive rest

/-- The calls all fit just when the shares of tokens are not rounded up and the last
    share of the cost fits what the ones before it leave. -/
theorem covers_all_iff {n : ℕ} (hn : (n : ℤ) = auth.maxCalls) :
    (∀ k < n, Covers auth k) ↔ auth.maxCalls ∣ auth.maxTokens ∧
      auth.callCost ≤ Decimal.round contextPrecision
        (auth.maxCost - (auth.maxCalls - 1) * auth.callCost) := by
  have positive := auth.maxCalls_pos
  have last : ((n - 1 : ℕ) : ℚ) = (auth.maxCalls : ℚ) - 1 := by
    rw [Nat.cast_sub (by omega)]
    push_cast [← hn]
    ring
  constructor
  · intro all
    have final := all (n - 1) (by omega)
    constructor
    · rw [← mul_callTokens_le_iff]
      have tokens := final.tokens
      have count : ((n - 1 : ℕ) : ℤ) = auth.maxCalls - 1 := by omega
      rw [count] at tokens
      linarith
    · have cost := final.cost
      rwa [last] at cost
  · intro conditions k hk
    obtain ⟨divides, cost⟩ := conditions
    have fits := (mul_callTokens_le_iff auth).mpr divides
    constructor
    · omega
    · have share := callTokens_pos auth
      have fewer : ((k : ℤ) + 1) * auth.callTokens ≤ auth.maxCalls * auth.callTokens :=
        mul_le_mul_of_nonneg_right (by omega) share.le
      linarith
    · have share := callCost_pos auth
      have more : auth.maxCost - (auth.maxCalls - 1) * auth.callCost ≤
          auth.maxCost - k * auth.callCost := by
        have fewer : (k : ℚ) * auth.callCost ≤ (auth.maxCalls - 1) * auth.callCost := by
          refine mul_le_mul_of_nonneg_right ?_ share.le
          rw [← last]
          exact_mod_cast (show k ≤ n - 1 by omega)
        linarith
      have room : 0 < auth.maxCost - (auth.maxCalls - 1) * auth.callCost := by
        by_contra none
        have rounded : Decimal.round contextPrecision
            (auth.maxCost - (auth.maxCalls - 1) * auth.callCost) ≤ 0 :=
          Decimal.round_nonpos (not_lt.mp none)
        linarith
      exact cost.trans (Decimal.round_mono (by decide) room more)

/-- An approval for so many calls admits that many worst cases, and no more, just when
    the ceilings divide: the tokens exactly, the cost up to the last share. -/
theorem approval_admits_its_calls_iff (jcsSha256 : ReservationContent → String)
    (auth : SpendAuthorization) (db : Db) (fresh : Fresh auth db) (calls : List Call)
    (extra : Call) (hlength : (calls.length : ℤ) = auth.maxCalls)
    (consecutive : Consecutive auth (calls ++ [extra])) :
    Admits jcsSha256 auth db calls extra ↔
      (auth.maxCalls ∣ auth.maxTokens ∧
        auth.callCost ≤ Decimal.round contextPrecision
          (auth.maxCost - (auth.maxCalls - 1) * auth.callCost)) ∧
        Distinct jcsSha256 auth db calls := by
  have none : Distinct jcsSha256 auth db [] := ⟨List.nodup_nil, by simp⟩
  have pairs := List.pairwise_append.mp consecutive.together
  have before : Consecutive auth ([] ++ calls) :=
    ⟨fun c hc => consecutive.unexpired c (List.mem_append_left _ hc), pairs.1⟩
  have run := Reserved.refl.reserveCalls_iff fresh none before
  have counted : (∀ n, ([] : List Call).length ≤ n →
      n < ([] : List Call).length + calls.length → Covers auth n) ↔
      ∀ n < calls.length, Covers auth n := by
    simp
  rw [counted, covers_all_iff hlength, List.nil_append] at run
  rw [← run]
  constructor
  · intro admits
    obtain ⟨db', hrun, _⟩ := admits
    exact ⟨db', hrun, Reserved.refl.of_reserveCalls fresh none before hrun⟩
  · intro ran
    obtain ⟨db', hrun, reserved⟩ := ran
    have distinct : Distinct jcsSha256 auth db calls := (run.mp ⟨db', hrun, reserved⟩).2
    have exhausted : ¬ Covers auth calls.length := by
      intro covers
      have room := covers.calls
      omega
    have refused := (reserved.reserveCall_eq fresh distinct
      (fun earlier hearlier => pairs.2.2 earlier hearlier extra (List.mem_singleton.mpr rfl))
      (consecutive.unexpired extra (by simp))).2 exhausted
    exact ⟨db', hrun, refused⟩

end Runs

/-- An approval made at midnight of 2026-01-01, valid for a day. -/
def approval (maxCalls maxTokens : ℤ) (maxCost : ℚ) (calls : 0 < maxCalls)
    (tokens : 0 < maxTokens) (cost : 0 < maxCost) : SpendAuthorization where
  spendAuthorizationId := "sa-1"
  maxCalls := maxCalls
  maxTokens := maxTokens
  maxCost := maxCost
  expiresAt := 1767312000000000
  maxCalls_pos := calls
  maxTokens_pos := tokens
  maxCost_pos := cost

def approved (auth : SpendAuthorization) : Db where
  now := 1767225600000000
  authorizations := ⟨[auth], List.nodup_singleton _⟩
  reservations := Table.empty
  settlements := Table.empty
  outcomes := []

theorem fresh_approved (auth : SpendAuthorization) : Fresh auth (approved auth) where
  authorized := List.mem_singleton.mpr rfl
  unused _ hr := absurd hr Table.not_mem_empty
  foreignKey _ hs := absurd hs Table.not_mem_empty

def callAfter (seconds : ℕ) (dispatchRef : String) : Call :=
  ⟨1767225600000000 + seconds * microsPerSecond, defaultReservationTtlSeconds, some dispatchRef⟩

def dispatchDigest (content : ReservationContent) : String :=
  if content.d = some "d1" then "1a0669ee284dbf62d8446ec945ec9e1c"
  else if content.d = some "d2" then "7dd927ee747c4c3b03ffc879cacbba61"
  else "4fea88c35e53c5be811092dfc672d243"

def twoCalls : List Call := [callAfter 0 "d1", callAfter 1 "d2"]

theorem two_calls_pos : (0 : ℤ) < 2 := by decide

theorem even_tokens_pos : (0 : ℤ) < 1000 := by decide

theorem odd_tokens_pos : (0 : ℤ) < 1001 := by decide

theorem three_units_pos : (0 : ℚ) < 3 := by decide

/-- Two calls, a thousand tokens, three units of money: everything divides. -/
def evenApproval : SpendAuthorization :=
  approval 2 1000 3 two_calls_pos even_tokens_pos three_units_pos

theorem approval_admits_its_calls_even :
    Admits dispatchDigest evenApproval (approved evenApproval) twoCalls (callAfter 2 "d3") := by
  have consecutive : Consecutive evenApproval (twoCalls ++ [callAfter 2 "d3"]) :=
    ⟨by decide +kernel, by decide +kernel⟩
  exact (approval_admits_its_calls_iff dispatchDigest evenApproval (approved evenApproval)
    (fresh_approved _) twoCalls (callAfter 2 "d3") rfl consecutive).mpr
    ⟨⟨by decide +kernel, by decide +kernel⟩, by decide +kernel, fun _ _ r hr =>
      absurd hr Table.not_mem_empty⟩

/-- Two calls and a thousand and one tokens: the shares are rounded up, and the second
    call is refused. -/
def oddApproval : SpendAuthorization :=
  approval 2 1001 3 two_calls_pos odd_tokens_pos three_units_pos

theorem second_call_refused :
    Fresh oddApproval (approved oddApproval) ∧ (twoCalls.length : ℤ) = oddApproval.maxCalls ∧
      Consecutive oddApproval (twoCalls ++ [callAfter 2 "d3"]) ∧
      Distinct dispatchDigest oddApproval (approved oddApproval) twoCalls ∧
      ¬ Admits dispatchDigest oddApproval (approved oddApproval) twoCalls (callAfter 2 "d3") := by
  refine ⟨fresh_approved _, rfl, ⟨by decide +kernel, by decide +kernel⟩,
    ⟨by decide +kernel, fun _ _ r hr => absurd hr Table.not_mem_empty⟩, ?_⟩
  intro admits
  obtain ⟨db', run, _⟩ := admits
  have refused : (reserveCalls dispatchDigest oddApproval (approved oddApproval)
      twoCalls).toOption.isSome = false := by decide +kernel
  rw [run] at refused
  cases refused

end FeatureGen.LlmSpend
