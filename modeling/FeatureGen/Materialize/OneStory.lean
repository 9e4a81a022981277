import FeatureGen.Materialize.ProvedVerdicts
import FeatureGen.Materialize.Requests

/-! # One worker and one story

The UPDATE of a call matches a row by its state only, and the ids that it stamps were
checked against a row that the call has read before. A row that is running keeps its ids
until it ends, so what was read of it still holds; a row that was read before it ran does
not say which ids it runs under.
-/

namespace FeatureGen.Materialize

open FeatureGen.Runtime RowLocks Transition Relation
open Reconciler (Sound sound_row sound_accept sound_renew sound_move names_run sources_legal
  mem_legalFrom insertRequest_eq_rows)

def Edge (source target : RequestLifecycle) : Prop := target ∈ legalLifecycleTransitions source

def RequestLifecycle.rank : RequestLifecycle → ℕ
  | .requested => 0
  | .accepted => 1
  | .running => 2
  | .committed | .failed => 3

variable {source target : RequestLifecycle}

theorem Edge.rank (h : Edge source target) : source.rank < target.rank := by
  unfold Edge at h
  cases source <;> cases target <;> revert h <;> decide

theorem rank_le (h : ReflTransGen Edge source target) : source.rank ≤ target.rank := by
  induction h with
  | refl => exact le_rfl
  | tail _ edge ih => exact ih.trans edge.rank.le

theorem reach_antisymm (h : ReflTransGen Edge source target)
    (h' : ReflTransGen Edge target source) : source = target := by
  cases h with
  | refl => rfl
  | tail first edge =>
      have there := rank_le first
      have back := rank_le h'
      have along := edge.rank
      omega

theorem Edge.live (h : Edge source target) : source.isTerminal = false := by
  unfold Edge at h
  cases source <;> cases target <;> revert h <;> decide

structure Grows (old new : MaterializationRequest) : Prop where
  key : new.idempotencyKey = old.idempotencyKey
  identity : new.identity = old.identity
  moved : ReflTransGen Edge old.lifecycleState new.lifecycleState
  ended : old.lifecycleState.isTerminal = true → new.lifecycleState = old.lifecycleState
  generation : old.generationId.isSome = true → new.generationId = old.generationId
  run : old.runId.isSome = true → new.runId = old.runId
  still : new.lifecycleState = old.lifecycleState →
    new.generationId = old.generationId ∧ new.runId = old.runId

/-- A row stays, and becomes what it can. -/
def Grown (old new : Option MaterializationRequest) : Prop :=
  ∀ r, old = some r → ∃ r', new = some r' ∧ Grows r r'

variable {a b c r : MaterializationRequest}

theorem Grows.refl (r : MaterializationRequest) : Grows r r where
  key := rfl
  identity := rfl
  moved := .refl
  ended _ := rfl
  generation _ := rfl
  run _ := rfl
  still _ := ⟨rfl, rfl⟩

theorem Grows.trans (h : Grows a b) (h' : Grows b c) : Grows a c where
  key := h'.key.trans h.key
  identity := h'.identity.trans h.identity
  moved := h.moved.trans h'.moved
  ended ended := by
    have first := h.ended ended
    rw [← first] at ended
    exact (h'.ended ended).trans first
  generation stamped := by
    have first := h.generation stamped
    rw [← first] at stamped
    exact (h'.generation stamped).trans first
  run stamped := by
    have first := h.run stamped
    rw [← first] at stamped
    exact (h'.run stamped).trans first
  still same := by
    have back : ReflTransGen Edge b.lifecycleState a.lifecycleState := same ▸ h'.moved
    have first := reach_antisymm h.moved back
    obtain ⟨generation, run⟩ := h.still first.symm
    obtain ⟨generation', run'⟩ := h'.still (same.trans first)
    exact ⟨generation'.trans generation, run'.trans run⟩

theorem grown_refl (r : Option MaterializationRequest) : Grown r r :=
  fun r hr => ⟨r, hr, Grows.refl r⟩

theorem grown_trans (a b c : Option MaterializationRequest) (h : Grown a b) (h' : Grown b c) :
    Grown a c := by
  intro r hr
  obtain ⟨r', hr', first⟩ := h r hr
  obtain ⟨r'', hr'', second⟩ := h' r' hr'
  exact ⟨r'', hr'', first.trans second⟩

theorem grown_some (h : Grows a b) : Grown (some a) (some b) := by
  intro r hr
  cases hr
  exact ⟨b, rfl, h⟩

/-- The lease has been granted. -/
def claimed (row : Option MaterializationRequest) : Bool := row.any (·.lifecycleState ≠ .requested)

theorem claimed_mono (a b : Option MaterializationRequest) (h : Grown a b)
    (before : claimed a = true) : claimed b = true := by
  cases ha : a with
  | none => simp [ha, claimed] at before
  | some r =>
      obtain ⟨r', rfl, grows⟩ := h r ha
      have begun : r.lifecycleState ≠ .requested := by simpa [ha, claimed] using before
      refine decide_eq_true fun back => ?_
      have le := rank_le grows.moved
      rw [back] at le
      revert le begun
      cases r.lifecycleState <;> decide

theorem grows_accept {lease instant : Instant} (state : r.lifecycleState = .requested) :
    Grows r { r with
      lifecycleState := .accepted
      acceptedAt := some instant
      leaseExpiresAt := some lease
      updatedAt := instant } where
  key := rfl
  identity := rfl
  moved := .single (by rw [state]; exact List.mem_cons_self)
  ended ended := by simp [state, RequestLifecycle.isTerminal, legalLifecycleTransitions] at ended
  generation _ := rfl
  run _ := rfl
  still same := ⟨rfl, rfl⟩

theorem grows_renew {lease instant : Instant} :
    Grows r { r with leaseExpiresAt := some lease, updatedAt := instant } where
  key := rfl
  identity := rfl
  moved := .refl
  ended _ := rfl
  generation _ := rfl
  run _ := rfl
  still _ := ⟨rfl, rfl⟩

namespace Advance

/-- An id that is supplied is not the one that the row has. -/
def contradicts (advance : Advance) (r : MaterializationRequest) : Bool :=
  !((advance.generationId.isNone || r.generationId.isNone ||
      advance.generationId = r.generationId) &&
    (advance.runId.isNone || r.runId.isNone || advance.runId = r.runId))

theorem or_eq_of_agrees {supplied stored : Option String}
    (agrees : (supplied.isNone || stored.isNone || supplied = stored) = true)
    (stamped : stored.isSome = true) : supplied.or stored = stored := by
  cases supplied with
  | none => rfl
  | some id =>
      cases stored with
      | none => cases stamped
      | some id' => simpa using agrees

theorem grows_move {advance : Advance} (legal : Edge r.lifecycleState advance.toState)
    (agrees : advance.contradicts r = false) (instant : Instant) :
    Grows r (advance.move instant r) where
  key := rfl
  identity := rfl
  moved := .single legal
  ended ended := by rw [legal.live] at ended; cases ended
  generation stamped := by
    simp only [contradicts, Bool.not_eq_false', Bool.and_eq_true] at agrees
    exact or_eq_of_agrees agrees.1 stamped
  run stamped := by
    simp only [contradicts, Bool.not_eq_false', Bool.and_eq_true] at agrees
    exact or_eq_of_agrees agrees.2 stamped
  still same := by
    have rises := legal.rank
    have stays : advance.toState = r.lifecycleState := same
    rw [stays] at rises
    omega

theorem allows_agrees {advance : Advance} (h : advance.allows r = true) :
    advance.contradicts r = false := by
  simp only [allows, Bool.and_eq_true] at h
  simp only [contradicts, h.1.1.1.2, h.1.1.2, Bool.and_self, Bool.not_true]

end Advance

namespace RequestStore

variable {s s' : RequestStore} {txn : ℕ} {id : String} {action : StoreAction}

def keyOf (r : MaterializationRequest) : Option String := some r.idempotencyKey

/-- What a call of `advance_lifecycle` that is under way has read. -/
structure Called (rows : Requests) (txn : ℕ) (call : AdvanceCall) : Prop where
  checked : call.advance.checked = true
  allowed : call.advance.allows call.existing = true
  sound : Sound call.advance.requestId call.existing
  read : Grown (some call.existing) (rows.visible txn call.advance.requestId)

structure Kept (s : RequestStore) : Prop where
  listed : s.requests.Listed
  sound : s.requests.All Sound
  growing : s.requests.Follow Grown
  unique : s.requests.Unique keyOf
  calls : ∀ txn call, s.advances txn = some call → Called s.requests txn call
  recorded : s.requests.Stand Grown (·.row.requestId) (some ·.row) s.recorded
  named : ∀ o ∈ s.recorded, o.value.row.idempotencyKey = o.value.new.idempotencyKey ∧
    o.value.row.identity = (o.value.new.row 0).identity
  credited : s.requests.Credited claimed s.accepted

theorem kept_empty : empty.Kept where
  listed := ⟨by simp [empty], by simp [empty], by simp [empty]⟩
  sound := ⟨by simp [empty], by simp [empty]⟩
  growing := by simp [Rows.Follow, empty]
  unique := ⟨by simp [empty], by simp [empty], by simp [empty]⟩
  calls := by simp [empty]
  recorded := by simp [Rows.Stand, empty]
  named := by simp [empty]
  credited _ := rfl

theorem Kept.one_row (h : s.Kept) {who who' : Option ℕ} {id' : String}
    {r r' : MaterializationRequest} (hr : s.requests.seen who id = some r)
    (hr' : s.requests.seen who' id' = some r') (same : r.idempotencyKey = r'.idempotencyKey) :
    id = id' := by
  have version {who : Option ℕ} {id : String} {r : MaterializationRequest}
      (hr : s.requests.seen who id = some r) :
      (∃ d, s.requests.drafts id = some d ∧ d.row = some r) ∨
        s.requests.committed id = some r := by
    cases who with
    | none => exact Or.inr hr
    | some txn =>
        rcases s.requests.visible_cases txn id with ⟨row, held, hrow⟩ | ⟨_, hrow⟩
        · exact Or.inl ⟨_, held, hrow.symm.trans hr⟩
        · exact Or.inr (hrow.symm.trans hr)
  -- The row of a draft has the key of the committed row that it stands over.
  have replaced {id id' : String} {r r' : MaterializationRequest} {d : Draft _} (hne : id ≠ id')
      (held : s.requests.drafts id = some d) (row : d.row = some r)
      (committed : s.requests.committed id' = some r') : r.idempotencyKey ≠ r'.idempotencyKey := by
    intro same
    obtain ⟨row', held'⟩ := h.unique.replaced id id' d r.idempotencyKey hne held
      (by rw [row]; rfl) (by rw [committed, same]; rfl)
    obtain ⟨r'', hr'', grows⟩ := h.growing id' _ held' r' committed
    refine h.unique.drafts id id' d _ r.idempotencyKey hne held held' (by rw [row]; rfl) ?_
    simp only at hr''
    rw [hr'', same, ← grows.key]
    rfl
  by_contra hne
  rcases version hr with ⟨d, held, row⟩ | committed <;>
    rcases version hr' with ⟨d', held', row'⟩ | committed'
  · exact h.unique.drafts id id' d d' r.idempotencyKey hne held held' (by rw [row]; rfl)
      (by rw [row', same]; rfl)
  · exact replaced hne held row committed' same
  · exact replaced (Ne.symm hne) held' row' committed same.symm
  · exact h.unique.committed id id' r.idempotencyKey hne (by rw [committed]; rfl)
      (by rw [committed', same]; rfl)

theorem Kept.change (h : s.Kept) (c : Change String MaterializationRequest)
    (proper : c.Proper Sound Grown s.requests) (listed : (c.apply s.requests).Listed)
    (unique : (c.apply s.requests).Unique keyOf) {accepted : List (Outcome String)}
    (credited : (c.apply s.requests).Credited claimed accepted)
    (stays : ∀ txn, s.advances txn ≠ none → c ≠ .rollback txn) :
    Kept { s.change c with accepted := accepted } where
  listed := listed
  sound := h.sound.apply c proper
  growing := h.growing.apply grown_refl grown_trans c proper
  unique := unique
  calls txn call under := by
    have called := h.calls txn call under
    refine ⟨called.checked, called.allowed, called.sound, grown_trans _ _ _ called.read ?_⟩
    have kept (t : ℕ) (undone : c = .rollback t) : some txn ≠ some t := by
      intro own
      cases own
      exact stays txn (by simp [show s.advances txn = some call from under]) undone
    exact h.growing.seen_apply grown_refl c proper kept
  recorded := h.recorded.apply grown_refl grown_trans h.growing c proper
  named o ho := by
    cases c with
    | write _ _ _ => exact h.named o ho
    | commit txn =>
        obtain ⟨o, mem, rfl⟩ := List.mem_map.mp ho
        exact h.named o mem
    | rollback txn => exact h.named o (List.mem_filter.mp ho).1
  credited := credited

theorem Kept.write (h : s.Kept) {old new : MaterializationRequest}
    {accepted : List (Outcome String)} (seen : s.requests.visible txn id = some old)
    (free : s.requests.free txn id = true) (sound : Sound id new) (grows : Grows old new)
    (credited : (s.requests.write txn id (some new)).Credited claimed accepted) :
    Kept { s with requests := s.requests.write txn id (some new), accepted := accepted } := by
  refine h.change (.write txn id (some new)) ⟨free, fun r hr => ?_, ?_⟩ h.listed.write ?_ credited
    (by simp)
  · cases hr
    exact sound
  · rw [seen]
    exact grown_some grows
  · refine h.unique.rewrite h.listed free fun i hi => ?_
    rw [seen]
    rw [← hi]
    simp [keyOf, grows.key]

theorem Kept.write_same (h : s.Kept) {old new : MaterializationRequest}
    (seen : s.requests.visible txn id = some old) (free : s.requests.free txn id = true)
    (sound : Sound id new) (grows : Grows old new)
    (same : claimed (some old) = claimed (some new)) :
    Kept { s with requests := s.requests.write txn id (some new) } := by
  refine h.write seen free sound grows ?_
  refine h.credited.apply claimed_mono h.growing (.write txn id (some new)) fun t k row hc => ?_
  cases hc
  exact ⟨free, by rw [seen, same]⟩

/-- What one step keeps of the table. -/
def KeepsRows (s s' : RequestStore) : Prop :=
  s'.Kept ∧ ∀ id, Grown (s.requests.committed id) (s'.requests.committed id)

theorem KeepsRows.of_committed (h : s'.Kept)
    (same : s'.requests.committed = s.requests.committed) : KeepsRows s s' :=
  ⟨h, fun id => by rw [same]; exact grown_refl _⟩

theorem Kept.idle (h : s.Kept) (txn : ℕ) (recordings : ℕ → Option NewRequest) :
    Kept { s with recordings := recordings, advances := Function.update s.advances txn none } := by
  refine ⟨h.listed, h.sound, h.growing, h.unique, fun t call under => ?_, h.recorded, h.named,
    h.credited⟩
  by_cases same : t = txn
  · subst same
    simp at under
  · exact h.calls t call (by simpa [same] using under)

theorem Kept.rollback (h : s.Kept) : KeepsRows s (s.rollback txn) := by
  have idle := h.idle txn (Function.update s.recordings txn none)
  have credited := h.credited.apply claimed_mono h.growing (.rollback txn) (by simp)
  refine .of_committed (idle.change (.rollback txn) trivial h.listed.rollback h.unique.rollback
    credited fun t under undone => ?_) rfl
  cases undone
  simp at under

theorem Kept.commit (h : s.Kept) : KeepsRows s (s.change (.commit txn)) := by
  refine ⟨h.change (.commit txn) trivial h.listed.commit h.unique.commit
    (h.credited.apply claimed_mono h.growing (.commit txn) (by simp)) (by simp), fun id => ?_⟩
  exact h.growing.committed grown_refl (.commit txn) id

theorem Kept.returns (h : s.Kept) {new : NewRequest} {row : MaterializationRequest}
    (seen : s.requests.visible txn row.requestId = some row)
    (key : row.idempotencyKey = new.idempotencyKey)
    (identity : row.identity = (new.row 0).identity) :
    Kept { s with recorded := s.recorded ++ [⟨some txn, ⟨new, row⟩⟩] } where
  listed := h.listed
  sound := h.sound
  growing := h.growing
  unique := h.unique
  calls := h.calls
  recorded o ho := by
    rcases List.mem_append.mp ho with ho | ho
    · exact h.recorded o ho
    · obtain rfl := List.mem_singleton.mp ho
      rw [show s.requests.seen (some txn) row.requestId = some row from seen]
      exact grown_refl _
  named o ho := by
    rcases List.mem_append.mp ho with ho | ho
    · exact h.named o ho
    · obtain rfl := List.mem_singleton.mp ho
      exact ⟨key, identity⟩
  credited := h.credited

theorem storedRequest_eq_some (listed : s.requests.Listed) {new : NewRequest}
    {row : MaterializationRequest} (h : storedRequest s.requests txn new = some row) :
    (∃ id, s.requests.visible txn id = some row) ∧ row.idempotencyKey = new.idempotencyKey ∧
      row.identity = (new.row 0).identity := by
  obtain ⟨found, identity⟩ := Option.filter_eq_some_iff.mp h
  obtain ⟨id, first, seen⟩ := Option.bind_eq_some_iff.mp found
  obtain ⟨row', seen', key⟩ := listed.mem_scan.mp (List.mem_of_mem_head? first)
  obtain rfl : row = row' := Option.some.inj (seen.symm.trans seen')
  exact ⟨⟨id, seen⟩, of_decide_eq_true key, of_decide_eq_true identity⟩

theorem Kept.insert (h : s.Kept) {new : NewRequest} {instant : Instant} {rows : Requests}
    (inserted : insertRequest s.requests txn new instant = .rows rows) :
    Kept { s with requests := rows } ∧ rows.visible txn new.requestId = some (new.row instant) := by
  obtain ⟨free, unseen, rfl⟩ := insertRequest_eq_rows inserted
  have clear : keyHeld s.requests txn new.idempotencyKey = false ∧
      s.requests.scan txn (·.idempotencyKey = new.idempotencyKey) = [] := by
    unfold insertRequest at inserted
    split at inserted
    · cases inserted
    split at inserted
    · cases inserted
    split at inserted
    · cases inserted
    · simp_all
  have proper : (Change.write txn new.requestId (some (new.row instant))).Proper Sound Grown
      s.requests := by
    refine ⟨free, fun r hr => ?_, ?_⟩
    · cases hr
      exact sound_row
    · rw [unseen]
      exact fun r hr => by cases hr
  refine ⟨h.change _ proper h.listed.write (h.unique.write h.listed free ?_ ?_)
    (h.credited.apply claimed_mono h.growing _ ?_) (by simp), Rows.visible_write_self⟩
  · suffices apart : s.requests.contended keyOf txn new.requestId new.idempotencyKey ≠ true by
      simpa [Rows.clear, keyOf, NewRequest.row] using apart
    intro contended
    obtain ⟨id, mem, hid⟩ := List.any_eq_true.mp contended
    obtain ⟨_, held, has⟩ := of_decide_eq_true hid
    have apart := List.any_eq_false.mp clear.1 id mem
    simp only [Bool.not_eq_true] at held
    simp only [held, Bool.not_false, Bool.true_and, Bool.or_eq_true, not_or,
      Bool.not_eq_true] at apart
    rcases has with has | has
    · obtain ⟨r, hr, key⟩ := Option.bind_eq_some_iff.mp has
      simp [hr, Option.some.inj key] at apart
    · obtain ⟨r, hr, key⟩ := Option.bind_eq_some_iff.mp has
      simp [hr, Option.some.inj key] at apart
  · suffices apart : s.requests.taken keyOf txn new.requestId new.idempotencyKey ≠ true by
      simpa [Rows.violates, keyOf, NewRequest.row] using apart
    intro taken
    obtain ⟨id, mem, hid⟩ := List.any_eq_true.mp taken
    obtain ⟨_, has⟩ := of_decide_eq_true hid
    obtain ⟨r, hr, key⟩ := Option.bind_eq_some_iff.mp has
    have found : id ∈ s.requests.scan txn (·.idempotencyKey = new.idempotencyKey) :=
      h.listed.mem_scan.mpr ⟨r, hr, decide_eq_true (Option.some.inj key)⟩
    rw [clear.2] at found
    cases found
  · intro t k row hc
    cases hc
    exact ⟨free, by rw [unseen]; rfl⟩

theorem Kept.accept (h : s.Kept) {leaseSeconds : ℚ} {instant : Instant}
    {row : MaterializationRequest} {rows : Requests}
    (updated : acceptRequest s.requests txn id leaseSeconds instant = .rows row rows) :
    Kept { s with requests := rows, accepted := s.accepted ++ [⟨some txn, id⟩] } := by
  unfold acceptRequest at updated
  split at updated
  · cases updated
  · obtain ⟨old, seen, hp, free, rfl, rfl⟩ := Rows.update_eq_rows updated
    have state : old.lifecycleState = .requested := of_decide_eq_true hp
    refine h.write seen free (sound_accept (h.sound.visible seen) state) (grows_accept state) ?_
    refine h.credited.append claimed_mono grown_refl h.growing free ?_ rfl
    simp [seen, claimed, state]

theorem Kept.renew (h : s.Kept) {leaseSeconds : ℚ} {instant : Instant}
    {row : MaterializationRequest} {rows : Requests}
    (updated : renewLease s.requests txn id leaseSeconds instant = .rows row rows) :
    Kept { s with requests := rows } := by
  unfold renewLease at updated
  split at updated
  · cases updated
  · obtain ⟨old, seen, _, free, rfl, rfl⟩ := Rows.update_eq_rows updated
    exact h.write_same seen free (sound_renew (h.sound.visible seen)) grows_renew rfl

/-- The UPDATE matches a row that was `accepted` when the call read it, runs now, and has
    another id than the call supplies. -/
def overtaken (s : RequestStore) : StoreAction → Bool
  | .advanceUpdate txn _ => (s.advances txn).any fun call =>
      (s.requests.visible txn call.advance.requestId).any fun row =>
        row.lifecycleState ∈ call.advance.sources && call.existing.lifecycleState = .accepted &&
          row.lifecycleState = .running && call.advance.contradicts row
  | _ => false

theorem Called.agrees {call : AdvanceCall} {r : MaterializationRequest}
    (called : Called s.requests txn call) (sound : Sound call.advance.requestId r)
    (seen : s.requests.visible txn call.advance.requestId = some r)
    (matched : r.lifecycleState ∈ call.advance.sources) {instant : Instant}
    (kept : s.overtaken (.advanceUpdate txn instant) = false)
    (under : s.advances txn = some call) : call.advance.contradicts r = false := by
  have legal : Edge r.lifecycleState call.advance.toState := sources_legal called.allowed matched
  have read : Edge call.existing.lifecycleState call.advance.toState := by
    have allowed := called.allowed
    simp only [Advance.allows, Bool.and_eq_true, decide_eq_true_eq] at allowed
    exact allowed.1.1.1.1
  have unaccepted : call.advance.toState ≠ .accepted := by
    have checked := called.checked
    simp only [Advance.checked, Bool.and_eq_true, decide_eq_true_eq] at checked
    exact checked.2
  obtain ⟨_, hr, grows⟩ := called.read call.existing rfl
  obtain rfl := Option.some.inj (seen.symm.trans hr)
  cases state : r.lifecycleState with
  | requested =>
      rw [state] at legal
      exact absurd (List.mem_singleton.mp legal) unaccepted
  | accepted =>
      obtain ⟨generation, run⟩ := sound.unstamped (Or.inr state)
      simp [Advance.contradicts, generation, run]
  | running =>
      cases before : call.existing.lifecycleState with
      | requested =>
          rw [before] at read
          exact absurd (List.mem_singleton.mp read) unaccepted
      | accepted =>
          cases agrees : call.advance.contradicts r with
          | false => rfl
          | true =>
              rw [state] at matched
              simp [overtaken, under, seen, matched, before, state, agrees] at kept
      | running =>
          obtain ⟨generation, run⟩ := grows.still (state.trans before.symm)
          have agreed := Advance.allows_agrees called.allowed
          simpa only [Advance.contradicts, generation, run] using agreed
      | committed | failed =>
          rw [before] at read
          cases read
  | committed | failed =>
      rw [state] at legal
      cases legal

theorem Kept.advance (h : s.Kept) {call : AdvanceCall} (under : s.advances txn = some call)
    {instant : Instant} (kept : s.overtaken (.advanceUpdate txn instant) = false)
    {row : MaterializationRequest} {rows : Requests}
    (updated : call.advance.update s.requests txn instant = .rows row rows) :
    Kept { s with requests := rows, advances := Function.update s.advances txn none } := by
  have called := h.calls txn call under
  obtain ⟨old, seen, hp, free, rfl, rfl⟩ := Rows.update_eq_rows updated
  have matched : old.lifecycleState ∈ call.advance.sources := of_decide_eq_true hp
  have legal := sources_legal called.allowed matched
  have unaccepted : call.advance.toState ≠ .accepted := by
    have checked := called.checked
    simp only [Advance.checked, Bool.and_eq_true, decide_eq_true_eq] at checked
    exact checked.2
  have sound := h.sound.visible seen
  have moved := sound_move call.advance sound legal unaccepted
    (names_run called.sound called.allowed) instant
  have grows := Advance.grows_move legal (called.agrees sound seen matched kept under) instant
  have before : old.lifecycleState ≠ .requested := by
    intro state
    rw [state] at legal
    exact unaccepted (List.mem_singleton.mp legal)
  have after : call.advance.toState ≠ .requested := by
    intro state
    have rises := Edge.rank legal
    rw [state] at rises
    cases rises
  have idle := h.idle txn s.recordings
  refine idle.write_same seen free moved grows ?_
  simp [claimed, before, Advance.move, after]

theorem Kept.step (h : s.Kept) (kept : s.overtaken action = false)
    (hstep : s.step action = some s') : KeepsRows s s' := by
  cases action with
  | record txn new instant =>
      simp only [RequestStore.step] at hstep
      split at hstep
      · cases hstep
      split at hstep
      · cases hstep
        exact .of_committed h rfl
      split at hstep
      · cases hstep
      · cases hstep
        exact h.rollback
      · cases hstep
        exact .of_committed ⟨h.listed, h.sound, h.growing, h.unique, h.calls, h.recorded, h.named,
          h.credited⟩ rfl
      · rename_i rows inserted
        cases hstep
        obtain ⟨written, seen⟩ := h.insert inserted
        obtain ⟨_, _, rfl⟩ := insertRequest_eq_rows inserted
        exact .of_committed (written.returns seen rfl rfl) rfl
  | readRecorded txn =>
      simp only [RequestStore.step] at hstep
      split at hstep
      · cases hstep
      · rename_i new under
        cases hstep
        have idle : Kept { s with recordings := Function.update s.recordings txn none } :=
          ⟨h.listed, h.sound, h.growing, h.unique, h.calls, h.recorded, h.named, h.credited⟩
        cases stored : storedRequest s.requests txn new with
        | none => exact .of_committed (by simpa using idle) rfl
        | some row =>
            obtain ⟨⟨id, seen⟩, key, identity⟩ := storedRequest_eq_some h.listed stored
            have named : row.requestId = id := (h.sound.visible seen).id
            rw [← named] at seen
            exact .of_committed (by simpa using idle.returns seen key identity) rfl
  | accept txn requestId leaseSeconds instant =>
      simp only [RequestStore.step] at hstep
      split at hstep
      · cases hstep
      split at hstep
      · cases hstep
      · cases hstep
        exact .of_committed h rfl
      · rename_i updated
        cases hstep
        refine .of_committed (h.accept updated) ?_
        unfold acceptRequest at updated
        split at updated
        · cases updated
        · obtain ⟨_, _, _, _, _, rfl⟩ := Rows.update_eq_rows updated
          rfl
  | renew txn requestId leaseSeconds instant =>
      simp only [RequestStore.step, afterUpdate] at hstep
      split at hstep
      · cases hstep
      split at hstep
      · cases hstep
      · cases hstep
        exact .of_committed h rfl
      · rename_i updated
        cases hstep
        refine .of_committed (h.renew updated) ?_
        unfold renewLease at updated
        split at updated
        · cases updated
        · obtain ⟨_, _, _, _, _, rfl⟩ := Rows.update_eq_rows updated
          rfl
  | advance txn advance =>
      simp only [RequestStore.step] at hstep
      split at hstep
      · cases hstep
      split at hstep
      · cases hstep
        exact .of_committed h rfl
      · rename_i existing seen
        split at hstep
        · rename_i passed
          cases hstep
          obtain ⟨checked, allowed⟩ := (Bool.and_eq_true _ _).mp passed
          refine .of_committed ⟨h.listed, h.sound, h.growing, h.unique, fun t call under => ?_,
            h.recorded, h.named, h.credited⟩ rfl
          by_cases same : t = txn
          · subst same
            obtain rfl : (⟨advance, existing⟩ : AdvanceCall) = call := by simpa using under
            exact ⟨checked, allowed, h.sound.visible seen, by rw [seen]; exact grown_refl _⟩
          · exact h.calls t call (by simpa [same] using under)
        · cases hstep
          exact .of_committed h rfl
  | advanceUpdate txn instant =>
      simp only [RequestStore.step] at hstep
      split at hstep
      · cases hstep
      · rename_i call under
        simp only [afterUpdate] at hstep
        split at hstep
        · cases hstep
        · cases hstep
          exact .of_committed (h.idle txn s.recordings) rfl
        · rename_i updated
          cases hstep
          refine .of_committed (h.advance under kept updated) ?_
          obtain ⟨_, _, _, _, _, rfl⟩ := Rows.update_eq_rows updated
          rfl
  | commit txn =>
      simp only [RequestStore.step] at hstep
      split at hstep
      · cases hstep
      · cases hstep
        exact h.commit
  | rollback txn =>
      cases hstep
      exact h.rollback

structure OneStory (s : RequestStore) : Prop where
  /-- No two calls of `accept_request` have the request. -/
  once : ∀ id, (Outcome.about (· = id) s.accepted).length ≤ 1
  /-- The request is past `requested` where one has committed. -/
  granted : ∀ id, claimed (s.requests.committed id) = true ↔ ⟨none, id⟩ ∈ s.accepted
  /-- The rows that are returned for one idempotency key are one. -/
  one_row : ∀ o ∈ s.recorded, ∀ o' ∈ s.recorded,
    o.value.new.idempotencyKey = o'.value.new.idempotencyKey →
      o.value.row.requestId = o'.value.row.requestId
  agrees : ∀ o ∈ s.recorded, ∃ r, s.requests.seen o.pending o.value.row.requestId = some r ∧
    r.idempotencyKey = o.value.new.idempotencyKey ∧ r.identity = (o.value.new.row 0).identity

theorem Kept.agrees (h : s.Kept) {o : Outcome ReturnedRequest} (ho : o ∈ s.recorded) :
    ∃ r, s.requests.seen o.pending o.value.row.requestId = some r ∧
      r.idempotencyKey = o.value.new.idempotencyKey ∧
        r.identity = (o.value.new.row 0).identity := by
  obtain ⟨r, seen, grows⟩ := h.recorded o ho o.value.row rfl
  obtain ⟨key, identity⟩ := h.named o ho
  exact ⟨r, seen, grows.key.trans key, grows.identity.trans identity⟩

theorem Kept.oneStory (h : s.Kept) : s.OneStory where
  once id := by
    rw [h.credited id]
    cases s.requests.reached claimed id <;> simp
  granted id := by
    have mem : ⟨none, id⟩ ∈ s.accepted ↔
        (⟨none, id⟩ : Outcome String) ∈ Outcome.about (· = id) s.accepted := by
      simp [Outcome.about]
    rw [mem, h.credited id]
    by_cases met : claimed (s.requests.committed id) = true
    · simp [Rows.reached, met]
    · simp [Rows.reached, met]
  one_row o ho o' ho' same := by
    obtain ⟨r, seen, key, _⟩ := h.agrees ho
    obtain ⟨r', seen', key', _⟩ := h.agrees ho'
    exact h.one_row seen seen' (key.trans (same.trans key'.symm))
  agrees o ho := h.agrees ho

/-- However the calls interleave, a request has one worker, and its story goes on as it began,
    where no UPDATE is overtaken. -/
theorem requests_have_one_story {as bs : List StoreAction}
    (kept : Along step (fun s action => s.overtaken action = false) empty (as ++ bs))
    (first : exec step empty as = some s) (rest : exec step s bs = some s') :
    s'.OneStory ∧ ∀ id, Grown (s.requests.committed id) (s'.requests.committed id) := by
  have keptFirst : Along step (fun s action => s.overtaken action = false) empty as :=
    fun m hm => kept m (by rw [history_append first]; exact List.mem_append_left _ hm)
  have keptRest : Along step (fun s action => s.overtaken action = false) s bs :=
    fun m hm => kept m (by rw [history_append first]; exact List.mem_append_right _ hm)
  have before : s.Kept := exec_induction_along kept_empty
    (fun s action s' h kept hstep => (h.step kept hstep).1) keptFirst first
  have after : KeepsRows s s' := by
    refine exec_induction_along (P := KeepsRows s) ⟨before, fun id => grown_refl _⟩
      (fun t action t' h kept hstep => ?_) keptRest rest
    obtain ⟨kept', grown⟩ := h.1.step kept hstep
    exact ⟨kept', fun id => grown_trans _ _ _ (h.2 id) (grown id)⟩
  exact ⟨after.1.oneStory, after.2⟩

def customerRequest : NewRequest where
  requestId := "request"
  logicalGroupName := "customers"
  requestedBy := "analyst"
  authorizedRoles := ["analyst"]
  idempotencyKey := "key"
  activationState := .obj .nil
  resolvedInputDigest := none
  consideredRevisionId := none
  optionId := none

def prepare : Advance := ⟨"request", .running, some "generation", some "run", none⟩

def complete : Advance := ⟨"request", .committed, none, none, some .running⟩

/-- Another worker fails the request, under an id of its own. -/
def giveUp : Advance := ⟨"request", .failed, some "other", none, none⟩

def untilAccepted : List StoreAction :=
  [.record 0 customerRequest 1, .accept 0 "request" 60 2, .commit 0]

def running : List StoreAction := [.advance 1 prepare, .advanceUpdate 1 3, .commit 1]

def completed : List StoreAction := [.advance 1 complete, .advanceUpdate 1 4, .commit 1]

theorem requests_have_one_story_completed : ∃ s s',
    exec step empty (untilAccepted ++ running) = some s ∧ exec step s completed = some s' ∧
      s'.OneStory ∧ ∀ id, Grown (s.requests.committed id) (s'.requests.committed id) := by
  have runs : (exec step empty (untilAccepted ++ running)).any (fun s =>
      (exec step s completed).isSome) = true := by decide +kernel
  have kept : ∀ m ∈ history step empty ((untilAccepted ++ running) ++ completed),
      m.before.overtaken m.action = false := by decide +kernel
  obtain ⟨s, first, runs⟩ := (Option.any_eq_true _ _).mp runs
  obtain ⟨s', rest⟩ := Option.isSome_iff_exists.mp runs
  exact ⟨s, s', first, rest, requests_have_one_story kept first rest⟩

def generationOf (s : RequestStore) (id : String) : Option String :=
  (s.requests.committed id).bind (·.generationId)

/-- An UPDATE that is overtaken stamps its id over the one that the run has. -/
theorem generation_overwritten : ∃ s s',
    exec step empty (untilAccepted ++ .advance 2 giveUp :: running) = some s ∧
      exec step s [.advanceUpdate 2 4, .commit 2] = some s' ∧
        s.generationOf "request" = some "generation" ∧
          s'.generationOf "request" = some "other" := by
  have runs : (exec step empty (untilAccepted ++ .advance 2 giveUp :: running)).any (fun s =>
      (exec step s [.advanceUpdate 2 4, .commit 2]).any fun s' =>
        s.generationOf "request" = some "generation" &&
          s'.generationOf "request" = some "other") = true := by decide +kernel
  obtain ⟨s, first, runs⟩ := (Option.any_eq_true _ _).mp runs
  obtain ⟨s', rest, stamps⟩ := (Option.any_eq_true _ _).mp runs
  simp only [Bool.and_eq_true, decide_eq_true_eq] at stamps
  exact ⟨s, s', first, rest, stamps⟩

end RequestStore

end FeatureGen.Materialize
