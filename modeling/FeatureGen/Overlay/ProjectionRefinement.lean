import FeatureGen.Overlay.Log

/-! # The projection against the fold

Applied in order, with any replays, the overlay projection keeps one fact's rows
in step with the fold of its stream, but for one column: a confirmation clears
the fold's partial confirmers and leaves the projection's. They differ from the
first confirmation that follows a partial one, until the next proposal.
-/

namespace FeatureGen.Overlay

/-- Since the last proposal a confirmation came after a partial one. -/
def CarriesOver (stream : List OverlayEvent) : Prop :=
  ∃ first last, (partialConfirmer first).isSome ∧ isConfirmed last = true ∧
    [first, last].Sublist (sinceProposed stream)

instance {stream : List OverlayEvent} : Decidable (CarriesOver stream) :=
  decidable_of_iff (∃ first ∈ sinceProposed stream, ∃ last ∈ sinceProposed stream,
    (partialConfirmer first).isSome ∧ isConfirmed last = true ∧
      [first, last].Sublist (sinceProposed stream)) <| by
    constructor
    · rintro ⟨first, _, last, _, found⟩
      exact ⟨first, last, found⟩
    · rintro ⟨first, last, hfirst, hlast, hsub⟩
      exact ⟨first, hsub.subset (by simp), last, hsub.subset (by simp), hfirst, hlast, hsub⟩

section SinceProposed

variable {stream : List OverlayEvent} {e : OverlayEvent}

def allPartials (stream : List OverlayEvent) : List Confirmer :=
  (sinceProposed stream).filterMap partialConfirmer

theorem allPartials_snoc : allPartials (stream ++ [e]) =
    if isProposed e then [] else allPartials stream ++ (partialConfirmer e).toList := by
  unfold allPartials
  rw [sinceProposed_snoc]
  split
  · rfl
  · cases h : partialConfirmer e <;> simp [h]

theorem carriesOver_snoc : CarriesOver (stream ++ [e]) ↔
    isProposed e = false ∧
      (CarriesOver stream ∨ isConfirmed e = true ∧ allPartials stream ≠ []) := by
  unfold CarriesOver allPartials
  rw [sinceProposed_snoc]
  cases hp : isProposed e with
  | true => simp
  | false =>
      simp only [if_false, Bool.false_eq_true, true_and, ne_eq, List.filterMap_eq_nil_iff,
        not_forall]
      constructor
      · rintro ⟨first, last, hfirst, hlast, hsub⟩
        obtain ⟨l₁, l₂, hsplit, h₁, h₂⟩ := List.sublist_append_iff.mp hsub
        cases l₂ with
        | nil =>
            rw [List.append_nil] at hsplit
            exact Or.inl ⟨first, last, hfirst, hlast, hsplit ▸ h₁⟩
        | cons x l₂ =>
            -- the only event left to match is the last one
            have hx : x = e ∧ l₂ = [] := by
              have hmem := h₂.subset List.mem_cons_self
              have hlen := h₂.length_le
              simp only [List.mem_singleton] at hmem
              simp only [List.length_cons, List.length_nil] at hlen
              exact ⟨hmem, List.length_eq_zero_iff.mp (by omega)⟩
            obtain ⟨rfl, rfl⟩ := hx
            have hl₁ : l₁ = [first] ∧ last = x := by
              cases l₁ with
              | nil => simp at hsplit
              | cons y l₁ =>
                  cases l₁ with
                  | nil => simp_all
                  | cons z l₁ => simp at hsplit
            obtain ⟨rfl, rfl⟩ := hl₁
            have hmem := h₁.subset List.mem_cons_self
            exact Or.inr ⟨hlast, first, hmem, by
              intro hnone
              simp [hnone] at hfirst⟩
      · rintro (⟨first, last, hfirst, hlast, hsub⟩ | ⟨hlast, first, hmem, hfirst⟩)
        · exact ⟨first, last, hfirst, hlast, hsub.trans (List.sublist_append_left _ _)⟩
        · refine ⟨first, e, Option.isSome_iff_ne_none.mpr hfirst, hlast, ?_⟩
          exact (List.singleton_sublist.mpr hmem).append (List.Sublist.refl [e])

end SinceProposed

structure Agrees (rows : Rows) (st : OverlayState) : Prop where
  proposal : ∃ p, rows.proposal = some p ∧ some p.status = st.status ∧
    some p.draftEventId = st.draftEventId ∧ p.partialConfirmers = st.partialConfirmers
  verified : (∃ s, rows.factState = some s ∧ s.status = .verified) ↔ st.status = some .verified
  carries : ∀ s, rows.factState = some s → st.status = some .verified →
    s.value = st.value ∧ s.confirmers = st.confirmers ∧ s.expiresAt = st.expiresAt ∧
      some s.confirmedEventId = st.confirmedEventId

/-- The proposal row of a fact whose applied events are `stream`, all numbered
    below `n`. -/
def TracksProposal (row : Option ProposalRow) (key : FactKey) (stream : List OverlayEvent)
    (n : ℕ) : Prop :=
  ∃ p, row = some p ∧ p.factType = key.factType ∧
    some p.status = (foldOverlayState stream).status ∧
    some p.draftEventId = (foldOverlayState stream).draftEventId ∧
    p.partialConfirmers = allPartials stream ∧
    p.updatedSeq < n ∧ ∀ e ∈ stream, e.globalSeq ≤ p.updatedSeq

/-- Its state row; partial confirmations leave that row's number behind. -/
structure TracksState (row : Option StateRow) (stream : List OverlayEvent) (n : ℕ) : Prop where
  verified : (∃ s, row = some s ∧ s.status = .verified) ↔
    (foldOverlayState stream).status = some .verified
  carries : ∀ s, row = some s → (foldOverlayState stream).status = some .verified →
    s.value = (foldOverlayState stream).value ∧
      s.confirmers = (foldOverlayState stream).confirmers ∧
      s.expiresAt = (foldOverlayState stream).expiresAt ∧
      some s.confirmedEventId = (foldOverlayState stream).confirmedEventId
  below : ∀ s, row = some s → s.updatedSeq < n
  written : ∀ s, row = some s → ∀ e ∈ stream, partialConfirmer e = none →
    e.globalSeq ≤ s.updatedSeq
  inserted : ∀ e ∈ stream, isConfirmed e = true → row ≠ none

section Next

variable {key : FactKey} {stream : List OverlayEvent} {e : OverlayEvent} {m n : ℕ}

theorem TracksProposal.write {row : Option ProposalRow} {f : ProposalRow → ProposalRow}
    (h : TracksProposal row key stream n) (after : n ≤ e.globalSeq) (below : e.globalSeq < m)
    (notProposed : isProposed e = false)
    (status : ∀ p, some (f p).status = (foldOverlayState (stream ++ [e])).status)
    (draft : (foldOverlayState (stream ++ [e])).draftEventId = (foldOverlayState stream).draftEventId)
    (keeps : ∀ p, (f p).factType = p.factType ∧ (f p).draftEventId = p.draftEventId ∧
      (f p).partialConfirmers = p.partialConfirmers ++ (partialConfirmer e).toList) :
    TracksProposal (row.map (ProposalRow.write e.globalSeq f)) key (stream ++ [e]) m := by
  obtain ⟨p, rfl, factType, _, hdraft, partials, hn, _⟩ := h
  obtain ⟨keepsType, keepsDraft, keepsPartials⟩ := keeps p
  refine ⟨_, by rw [Option.map_some, ProposalRow.write_of_lt (by omega)], ?_⟩
  refine ⟨keepsType.trans factType, status p, ?_, ?_, below, ?_⟩
  · rw [draft, ← hdraft]
    exact congrArg some keepsDraft
  · rw [allPartials_snoc, notProposed, ← partials]
    exact keepsPartials
  · intro x hx
    rw [List.mem_append, List.mem_singleton] at hx
    cases hx with
    | inl earlier =>
        have := (‹∀ e ∈ stream, e.globalSeq ≤ p.updatedSeq› x earlier)
        show x.globalSeq ≤ e.globalSeq
        omega
    | inr last => subst last; exact le_rfl

theorem TracksState.write {row : Option StateRow} {f : StateRow → StateRow}
    (h : TracksState row stream n) (after : n ≤ e.globalSeq) (below : e.globalSeq < m)
    (seqs : ∀ x ∈ stream, x.globalSeq < n) (notConfirmed : isConfirmed e = false)
    (left : (foldOverlayState (stream ++ [e])).status ≠ some .verified)
    (leaves : ∀ s, (f s).status ≠ .verified) :
    TracksState (row.map (StateRow.write e.globalSeq f)) (stream ++ [e]) m := by
  have written : ∀ s', row.map (StateRow.write e.globalSeq f) = some s' →
      s'.status ≠ .verified ∧ s'.updatedSeq = e.globalSeq := by
    intro s' hs'
    obtain ⟨s, hs, rfl⟩ := Option.map_eq_some_iff.mp hs'
    have hlt := h.below s hs
    rw [StateRow.write_of_lt (by omega)]
    exact ⟨leaves s, rfl⟩
  constructor
  · constructor
    · rintro ⟨s', hs', hverified⟩
      exact absurd hverified (written s' hs').1
    · intro hverified
      exact absurd hverified left
  · intro s' hs' hverified
    exact absurd hverified left
  · intro s' hs'
    rw [(written s' hs').2]
    exact below
  · intro s' hs' x hx _
    rw [(written s' hs').2]
    rw [List.mem_append, List.mem_singleton] at hx
    cases hx with
    | inl earlier =>
        have := seqs x earlier
        omega
    | inr last => exact last ▸ le_rfl
  · intro x hx hconfirmed
    rw [List.mem_append, List.mem_singleton] at hx
    cases hx with
    | inl earlier =>
        have hrow := h.inserted x earlier hconfirmed
        simpa using hrow
    | inr last =>
        subst last
        rw [notConfirmed] at hconfirmed
        cases hconfirmed

theorem TracksState.absent (left : (foldOverlayState stream).status ≠ some .verified)
    (unconfirmed : ∀ x ∈ stream, isConfirmed x = false) : TracksState none stream n := by
  constructor
  · constructor
    · rintro ⟨s, hs, _⟩
      cases hs
    · intro hverified
      exact absurd hverified left
  · intro s hs
    cases hs
  · intro s hs
    cases hs
  · intro s hs
    cases hs
  · intro x hx hconfirmed
    rw [unconfirmed x hx] at hconfirmed
    cases hconfirmed

theorem TracksState.partially {row : Option StateRow} (h : TracksState row stream n)
    (after : n ≤ e.globalSeq) (below : e.globalSeq < m) {c : Confirmer}
    (isPartial : partialConfirmer e = some c) (notConfirmed : isConfirmed e = false)
    (notVerified : (foldOverlayState stream).status ≠ some .verified)
    (left : (foldOverlayState (stream ++ [e])).status ≠ some .verified) :
    TracksState row (stream ++ [e]) m := by
  constructor
  · constructor
    · intro hrow
      exact absurd (h.verified.mp hrow) notVerified
    · intro hverified
      exact absurd hverified left
  · intro s hs hverified
    exact absurd hverified left
  · intro s hs
    have := h.below s hs
    omega
  · intro s hs x hx hnone
    rw [List.mem_append, List.mem_singleton] at hx
    cases hx with
    | inl earlier => exact h.written s hs x earlier hnone
    | inr last =>
        subst last
        rw [isPartial] at hnone
        cases hnone
  · intro x hx hconfirmed
    rw [List.mem_append, List.mem_singleton] at hx
    cases hx with
    | inl earlier => exact h.inserted x earlier hconfirmed
    | inr last =>
        subst last
        rw [notConfirmed] at hconfirmed
        cases hconfirmed

theorem TracksState.confirmed {row : Option StateRow} (h : TracksState row stream n)
    (after : n ≤ e.globalSeq) (below : e.globalSeq < m) (seqs : ∀ x ∈ stream, x.globalSeq < n)
    {c : Confirmed} (hc : e.payload = .confirmed c) (prop : ProposalRow) :
    TracksState (some ((row.map (StateRow.write e.globalSeq (StateRow.reconfirmed e c))).getD
      (StateRow.confirmed e c prop))) (stream ++ [e]) m := by
  obtain ⟨status, value, confirmers, expiresAt, confirmedEventId, _, _⟩ :=
    fold_confirmed (foldOverlayState stream) hc
  obtain ⟨s', hs', hstatus, hvalue, hconfirmers, hexpires, hid, hseq⟩ :
      ∃ s', (row.map (StateRow.write e.globalSeq (StateRow.reconfirmed e c))).getD
          (StateRow.confirmed e c prop) = s' ∧ s'.status = .verified ∧ s'.value = some c.value ∧
        s'.confirmers = c.confirmedBy.confirmerList ∧ s'.expiresAt = c.expiresAt ∧
        s'.confirmedEventId = e.eventId ∧ s'.updatedSeq = e.globalSeq := by
    cases row with
    | none => exact ⟨_, rfl, rfl, rfl, rfl, rfl, rfl, rfl⟩
    | some s =>
        have hlt := h.below s rfl
        rw [Option.map_some, Option.getD_some, StateRow.write_of_lt (by omega)]
        exact ⟨_, rfl, rfl, rfl, rfl, rfl, rfl, rfl⟩
  rw [hs']
  constructor
  · rw [foldOverlayState_snoc]
    exact ⟨fun _ => status, fun _ => ⟨s', rfl, hstatus⟩⟩
  · intro s hs _
    cases hs
    rw [foldOverlayState_snoc, value, confirmers, expiresAt, confirmedEventId, hid]
    exact ⟨hvalue, hconfirmers, hexpires, rfl⟩
  · intro s hs
    cases hs
    rw [hseq]
    exact below
  · intro s hs x hx _
    cases hs
    rw [hseq]
    rw [List.mem_append, List.mem_singleton] at hx
    cases hx with
    | inl earlier =>
        have := seqs x earlier
        omega
    | inr last => exact last ▸ le_rfl
  · intro x hx _
    simp

structure Tracks (rows : Rows) (key : FactKey) (stream : List OverlayEvent) (n : ℕ) : Prop where
  proposal : TracksProposal rows.proposal key stream n
  factState : TracksState rows.factState stream n

def Follows (rows : Rows) (key : FactKey) (stream : List OverlayEvent) (n : ℕ) : Prop :=
  if stream = [] then rows = ⟨none, none⟩ else Tracks rows key stream n

theorem Follows.proposed {rows : Rows} (h : Follows rows key stream n)
    (after : n ≤ e.globalSeq) (below : e.globalSeq < m) (seqs : ∀ x ∈ stream, x.globalSeq < n)
    {p : Proposed} (hp : e.payload = .proposed p) (notBridge : key.factType ≠ .entityBridge)
    (factType : p.factType = key.factType) {source : String}
    (hsource : catalogSourceOf p.catalogObjectRef = some source)
    (admitted : (foldOverlayState stream).status = none ∨
      (foldOverlayState stream).status = some .rejected) :
    Tracks (rows.apply e) key (stream ++ [e]) m := by
  obtain ⟨status, draft, _, _⟩ := fold_proposed _ hp admitted
  have notType : p.factType ≠ .entityBridge := factType ▸ notBridge
  have proposed : isProposed e = true := by simp [isProposed, hp]
  have opened : TracksProposal (rows.apply e).proposal key (stream ++ [e]) m := by
    obtain ⟨p', hp', hrow⟩ : ∃ p', (rows.apply e).proposal = some p' ∧
        p' = { ProposalRow.opened e p source with factKey := p'.factKey } := by
      simp only [Rows.apply, hp, notType, if_false, hsource]
      cases hprop : rows.proposal with
      | none => exact ⟨_, rfl, rfl⟩
      | some prop =>
          have hlt : prop.updatedSeq < e.globalSeq := by
            unfold Follows at h
            split at h
            · simp [h] at hprop
            · obtain ⟨p₀, hp₀, _, _, _, _, hn, _⟩ := h.proposal
              rw [hprop] at hp₀
              cases hp₀
              omega
          rw [Option.map_some, Option.getD_some, ProposalRow.write_of_lt hlt]
          exact ⟨_, rfl, rfl⟩
    refine ⟨p', hp', ?_⟩
    rw [hrow, foldOverlayState_snoc, status, draft, allPartials_snoc, proposed]
    refine ⟨factType, rfl, rfl, rfl, below, ?_⟩
    intro x hx
    rw [List.mem_append, List.mem_singleton] at hx
    cases hx with
    | inl earlier =>
        have := seqs x earlier
        show x.globalSeq ≤ e.globalSeq
        omega
    | inr last => exact last ▸ le_rfl
  refine ⟨opened, ?_⟩
  have hstate : (rows.apply e).factState =
      rows.factState.map (StateRow.write e.globalSeq StateRow.redrafted) := by
    simp [Rows.apply, hp, notType, hsource]
  have left : (foldOverlayState (stream ++ [e])).status ≠ some .verified := by
    rw [foldOverlayState_snoc, status]
    decide
  rw [hstate]
  unfold Follows at h
  split at h
  · next empty =>
      subst empty
      rw [h]
      exact .absent left fun x hx => by simp_all [isConfirmed]
  · exact h.factState.write after below seqs (by simp [isConfirmed, hp]) left
      (fun s => by simp [StateRow.redrafted])

theorem Follows.next {d : Deployment} {rows : Rows} (h : Follows rows key stream n)
    (after : n ≤ e.globalSeq) (below : e.globalSeq < m) (seqs : ∀ x ∈ stream, x.globalSeq < n)
    (notBridge : key.factType ≠ .entityBridge) (single : key.ofBridge = false)
    (admissible : Admissible d stream key e.actor e.payload) :
    Tracks (rows.apply e) key (stream ++ [e]) m := by
  have tracked : (foldOverlayState stream).status ≠ none → Tracks rows key stream n := by
    intro hstatus
    unfold Follows at h
    split at h
    · next empty => simp [empty] at hstatus
    · exact h
  have awaited : Awaiting (foldOverlayState stream) → Tracks rows key stream n := by
    intro awaiting
    apply tracked
    rcases awaiting_iff.mp awaiting with hs | hs | hs | hs <;> rw [hs] <;> decide
  cases hp : e.payload with
  | proposed p =>
      rw [hp] at admissible
      obtain ⟨admitted, factType, href, _⟩ := admissible
      have hsource := catalogSourceOf_isSome href
      rw [single, Bool.not_false] at hsource
      obtain ⟨source, hsource⟩ := Option.isSome_iff_exists.mp hsource
      exact h.proposed after below seqs hp notBridge factType hsource admitted
  | partiallyConfirmed byOwner role draft note =>
      rw [hp] at admissible
      obtain ⟨proposal, factState⟩ := awaited admissible.1
      have fold := fold_partial (foldOverlayState stream) hp
      have hpart : partialConfirmer e = some ⟨byOwner, role⟩ := by simp [partialConfirmer, hp]
      have left : (foldOverlayState (stream ++ [e])).status ≠ some .verified := by
        rw [foldOverlayState_snoc, fold]
        simp
      have notVerified : (foldOverlayState stream).status ≠ some .verified := by
        rcases awaiting_iff.mp admissible.1 with hs | hs | hs | hs <;> rw [hs] <;> decide
      constructor
      · simp only [Rows.apply, hp]
        refine proposal.write after below (by simp [isProposed, hp]) ?_ ?_ ?_
        · intro p
          rw [foldOverlayState_snoc, fold]
          rfl
        · rw [foldOverlayState_snoc, fold]
        · intro p
          rw [hpart]
          exact ⟨rfl, rfl, rfl⟩
      · simp only [Rows.apply, hp]
        exact factState.partially after below hpart (by simp [isConfirmed, hp]) notVerified left
  | confirmed c =>
      rw [hp] at admissible
      obtain ⟨proposal, factState⟩ : Tracks rows key stream n := by
        cases admissible.1 with
        | inl awaiting => exact awaited awaiting
        | inr verified => exact tracked (by rw [verified]; decide)
      obtain ⟨status, _, _, _, _, _, draft⟩ := fold_confirmed (foldOverlayState stream) hp
      have hpart : partialConfirmer e = none := by simp [partialConfirmer, hp]
      constructor
      · simp only [Rows.apply, hp]
        refine proposal.write after below (by simp [isProposed, hp]) ?_ ?_ ?_
        · intro p
          rw [foldOverlayState_snoc, status]
          rfl
        · rw [foldOverlayState_snoc, draft]
        · intro p
          rw [hpart]
          exact ⟨rfl, rfl, (List.append_nil _).symm⟩
      · obtain ⟨prop, hprop, _⟩ := proposal
        simp only [Rows.apply, hp, hprop]
        exact factState.confirmed after below seqs hp prop
  | expired target =>
      rw [hp] at admissible
      have verified : (foldOverlayState stream).status = some .verified := admissible
      obtain ⟨proposal, factState⟩ := tracked (by rw [verified]; decide)
      obtain ⟨s, hs, _⟩ := factState.verified.mpr verified
      have hpart : partialConfirmer e = none := by simp [partialConfirmer, hp]
      constructor
      · simp only [Rows.apply, hp, hs, Option.map_some]
        refine proposal.write after below (by simp [isProposed, hp]) ?_ ?_ ?_
        · intro p
          rw [foldOverlayState_snoc]
          simp [foldEvent, hp, ProposalRow.retired]
        · rw [foldOverlayState_snoc]
          simp [foldEvent, hp]
        · intro p
          rw [hpart]
          exact ⟨rfl, rfl, (List.append_nil _).symm⟩
      · simp only [Rows.apply, hp]
        refine factState.write after below seqs (by simp [isConfirmed, hp]) ?_
          (fun s => by simp [StateRow.expired])
        rw [foldOverlayState_snoc]
        simp [foldEvent, hp]
  | staled change target =>
      rw [hp] at admissible
      have verified : (foldOverlayState stream).status = some .verified := admissible
      obtain ⟨proposal, factState⟩ := tracked (by rw [verified]; decide)
      obtain ⟨s, hs, _⟩ := factState.verified.mpr verified
      have hpart : partialConfirmer e = none := by simp [partialConfirmer, hp]
      constructor
      · simp only [Rows.apply, hp, hs, Option.map_some]
        refine proposal.write after below (by simp [isProposed, hp]) ?_ ?_ ?_
        · intro p
          rw [foldOverlayState_snoc]
          simp [foldEvent, hp, ProposalRow.retired]
        · rw [foldOverlayState_snoc]
          simp [foldEvent, hp]
        · intro p
          rw [hpart]
          exact ⟨rfl, rfl, (List.append_nil _).symm⟩
      · simp only [Rows.apply, hp]
        refine factState.write after below seqs (by simp [isConfirmed, hp]) ?_
          (fun s => by simp [StateRow.staled])
        rw [foldOverlayState_snoc]
        simp [foldEvent, hp]
  | rejected rejectedBy reason category target retired =>
      rw [hp] at admissible
      obtain ⟨proposal, factState⟩ := awaited admissible
      have hpart : partialConfirmer e = none := by simp [partialConfirmer, hp]
      constructor
      · simp only [Rows.apply, hp]
        refine proposal.write after below (by simp [isProposed, hp]) ?_ ?_ ?_
        · intro p
          rw [foldOverlayState_snoc]
          simp [foldEvent, hp, ProposalRow.rejected]
        · rw [foldOverlayState_snoc]
          simp [foldEvent, hp]
        · intro p
          rw [hpart]
          exact ⟨rfl, rfl, (List.append_nil _).symm⟩
      · simp only [Rows.apply, hp]
        refine factState.write after below seqs (by simp [isConfirmed, hp]) ?_
          (fun s => by simp [StateRow.rejected])
        rw [foldOverlayState_snoc]
        simp [foldEvent, hp]

theorem Tracks.replay {rows : Rows} (h : Tracks rows key stream n) (he : e ∈ stream) :
    rows.apply e = rows := by
  obtain ⟨p, hp, _, _, _, _, _, proposalSeq⟩ := h.proposal
  have proposal : ∀ f, rows.proposal.map (ProposalRow.write e.globalSeq f) = rows.proposal := by
    intro f
    rw [hp, Option.map_some, ProposalRow.write_of_le (proposalSeq e he)]
  have factState : partialConfirmer e = none →
      ∀ f, rows.factState.map (StateRow.write e.globalSeq f) = rows.factState := by
    intro notPartial f
    cases hs : rows.factState with
    | none => rfl
    | some s =>
        rw [Option.map_some, StateRow.write_of_le (h.factState.written s hs e he notPartial)]
  obtain ⟨proposalRow, stateRow⟩ := rows
  simp only at hp proposal factState
  cases hpayload : e.payload with
  | proposed p =>
      simp only [Rows.apply, hpayload]
      split
      · rfl
      · split
        · rfl
        · rw [proposal, hp, factState (by simp [partialConfirmer, hpayload])]
          rfl
  | partiallyConfirmed byOwner role draft note =>
      simp only [Rows.apply, hpayload, proposal]
  | confirmed c =>
      have inserted := h.factState.inserted e he (by simp [isConfirmed, hpayload])
      obtain ⟨s, hs⟩ := Option.ne_none_iff_exists'.mp inserted
      simp only at hs
      simp only [Rows.apply, hpayload, proposal,
        factState (by simp [partialConfirmer, hpayload])]
      rw [hp, hs]
      rfl
  | expired target =>
      simp only [Rows.apply, hpayload, proposal, factState (by simp [partialConfirmer, hpayload])]
      cases stateRow <;> rfl
  | staled change target =>
      simp only [Rows.apply, hpayload, proposal, factState (by simp [partialConfirmer, hpayload])]
      cases stateRow <;> rfl
  | rejected rejectedBy reason category target retired =>
      simp only [Rows.apply, hpayload, proposal, factState (by simp [partialConfirmer, hpayload])]

theorem Follows.mono {rows : Rows} (h : Follows rows key stream m) (hmn : m ≤ n) :
    Follows rows key stream n := by
  unfold Follows at h ⊢
  split
  · next empty => simpa [empty] using h
  · next events =>
      rw [if_neg events] at h
      obtain ⟨⟨p, hp, factType, status, draft, partials, hlt, hle⟩, factState⟩ := h
      refine ⟨⟨p, hp, factType, status, draft, partials, lt_of_lt_of_le hlt hmn, hle⟩, ?_⟩
      exact ⟨factState.verified, factState.carries,
        fun s hs => lt_of_lt_of_le (factState.below s hs) hmn, factState.written,
        factState.inserted⟩

end Next

/-- A schedule of a log: its events in order, with replays of applied ones. -/
inductive Schedule : List OverlayEvent → List OverlayEvent → Prop
  | nil : Schedule [] []
  | next {done applied : List OverlayEvent} {e : OverlayEvent} (sched : Schedule done applied) :
      Schedule (done ++ [e]) (applied ++ [e])
  | replay {done applied : List OverlayEvent} {e : OverlayEvent} (sched : Schedule done applied)
      (again : e ∈ done) : Schedule done (applied ++ [e])

theorem Schedule.refl (log : List OverlayEvent) : Schedule log log := by
  induction log using List.reverseRecOn with
  | nil => exact .nil
  | append_singleton log e ih => exact .next ih

theorem Schedule.mem {log applied : List OverlayEvent} (sched : Schedule log applied)
    {e : OverlayEvent} (he : e ∈ log) : e ∈ applied := by
  induction sched with
  | nil => exact he
  | next sched ih =>
      rw [List.mem_append] at he ⊢
      exact he.imp_left ih
  | replay sched again ih => exact List.mem_append_left _ (ih he)

/-- Apply events from the first to the last, if none raises. -/
def Tables.applyAll (t : Tables) (events : List OverlayEvent) : Option Tables :=
  events.foldlM Tables.apply t

theorem applyAll_snoc {t : Tables} {events : List OverlayEvent} {e : OverlayEvent} :
    t.applyAll (events ++ [e]) = (t.applyAll events).bind (·.apply e) := by
  cases h : t.applyAll events <;> simp_all [Tables.applyAll]

section Applied

variable {d : Deployment}

theorem apply_isSome {t : Tables} {e : OverlayEvent} {stream : List OverlayEvent}
    (admissible : Admissible d stream e.factKey e.actor e.payload)
    (notBridge : e.factKey.factType ≠ .entityBridge) (single : e.factKey.ofBridge = false)
    (prop : ∀ p, (t.rows e.factKey).proposal = some p → p.factType = e.factKey.factType) :
    ∃ t', t.apply e = some t' := by
  cases hp : e.payload with
  | proposed p =>
      rw [hp] at admissible
      obtain ⟨_, factType, href, indexable⟩ := admissible
      have hsource := catalogSourceOf_isSome href
      rw [single, Bool.not_false] at hsource
      obtain ⟨source, hsource⟩ := Option.isSome_iff_exists.mp hsource
      obtain ⟨deps, hdeps⟩ := indexable.dependencies notBridge p.objectRef source
      simp [Tables.apply, hp, hsource, factType, hdeps, notBridge]
  | confirmed c =>
      rw [hp] at admissible
      simp only [Tables.apply, hp]
      split
      · exact ⟨_, rfl⟩
      · next row hrow =>
          have factType : row.factType = e.factKey.factType := by
            have hrows : (((t.confirmState e c).writeProposal e
                (ProposalRow.verified e.eventId)).rows e.factKey).proposal = some row := hrow
            rw [rows_writeProposal, if_pos rfl, rows_confirmState, if_pos rfl] at hrows
            obtain ⟨p, hprop, rfl⟩ := Option.map_eq_some_iff.mp hrows
            rw [← prop p hprop]
            unfold ProposalRow.write
            split <;> rfl
          obtain ⟨deps, hdeps⟩ :=
            admissible.2.dependencies notBridge row.objectRef row.catalogSource
          exact ⟨_, by rw [factType, hdeps]; rfl⟩
  | partiallyConfirmed byOwner role draft note => exact ⟨_, by simp only [Tables.apply, hp]; rfl⟩
  | expired target => exact ⟨_, by simp only [Tables.apply, hp]; rfl⟩
  | staled change target => exact ⟨_, by simp only [Tables.apply, hp]; rfl⟩
  | rejected rejectedBy reason category target retired =>
      exact ⟨_, by simp only [Tables.apply, hp]; rfl⟩

theorem applyAll_follows {log applied : List OverlayEvent} {n : ℕ} (valid : ValidLog d log n)
    (single : ∀ e ∈ log, e.factKey.factType ≠ .entityBridge ∧ e.factKey.ofBridge = false)
    (sched : Schedule log applied) : ∃ t, Tables.applyAll .empty applied = some t ∧
      ∀ key, Follows (t.rows key) key (loadFact log key) n := by
  induction sched generalizing n with
  | nil => exact ⟨.empty, rfl, fun key => rfl⟩
  | @next done applied e sched ih =>
      obtain ⟨m, valid, after, below, admissible⟩ := valid.of_snoc
      obtain ⟨t, happlied, follows⟩ := ih valid fun x hx =>
        single x (List.mem_append_left _ hx)
      obtain ⟨notBridge, ofBridge⟩ := single e (List.mem_append_right _ List.mem_cons_self)
      have prop : ∀ p, (t.rows e.factKey).proposal = some p →
          p.factType = e.factKey.factType := by
        intro p hp
        have hrows := follows e.factKey
        unfold Follows at hrows
        split at hrows
        · simp [hrows] at hp
        · obtain ⟨p', hp', factType, _⟩ := hrows.proposal
          rw [hp] at hp'
          cases hp'
          exact factType
      obtain ⟨t', ht'⟩ := apply_isSome admissible notBridge ofBridge prop
      refine ⟨t', ?_, ?_⟩
      · rw [applyAll_snoc, happlied]
        exact ht'
      · intro key
        rw [rows_apply ht', loadFact_snoc]
        by_cases here : e.factKey = key
        · subst here
          rw [if_pos rfl, if_pos rfl, Follows, if_neg (by simp)]
          refine (follows e.factKey).next after below ?_ notBridge ofBridge admissible
          intro x hx
          exact (valid.lt (List.mem_filter.mp hx).1).2
        · rw [if_neg here, if_neg here]
          exact (follows key).mono (by omega)
  | @replay done applied e sched again ih =>
      obtain ⟨t, happlied, follows⟩ := ih valid single
      obtain ⟨notBridge, ofBridge⟩ := single e again
      have hmem : e ∈ loadFact done e.factKey := List.mem_filter.mpr ⟨again, by simp⟩
      have tracks : Tracks (t.rows e.factKey) e.factKey (loadFact done e.factKey) n := by
        have hrows := follows e.factKey
        rw [Follows, if_neg (List.ne_nil_of_mem hmem)] at hrows
        exact hrows
      obtain ⟨stream, admissible⟩ := valid.admissible again
      have prop : ∀ p, (t.rows e.factKey).proposal = some p →
          p.factType = e.factKey.factType := by
        intro p hp
        obtain ⟨p', hp', factType, _⟩ := tracks.proposal
        rw [hp] at hp'
        cases hp'
        exact factType
      obtain ⟨t', ht'⟩ := apply_isSome admissible notBridge ofBridge prop
      refine ⟨t', ?_, ?_⟩
      · rw [applyAll_snoc, happlied]
        exact ht'
      · intro key
        rw [rows_apply ht']
        by_cases here : e.factKey = key
        · subst here
          rw [if_pos rfl, tracks.replay hmem]
          exact follows e.factKey
        · rw [if_neg here]
          exact follows key

end Applied

section Split

variable {d : Deployment} {log : List OverlayEvent} {n : ℕ}

/-- The projection's partial confirmers are the fold's after those a confirmation
    should have cleared. -/
theorem ValidLog.partials_split (h : ValidLog d log n) (key : FactKey) :
    ∃ carried, allPartials (loadFact log key) =
        carried ++ (foldOverlayState (loadFact log key)).partialConfirmers ∧
      (carried ≠ [] ↔ CarriesOver (loadFact log key)) := by
  apply h.stream_induction (P := fun stream => ∃ carried, allPartials stream =
    carried ++ (foldOverlayState stream).partialConfirmers ∧
      (carried ≠ [] ↔ CarriesOver stream)) key
  · refine ⟨[], rfl, ?_⟩
    simp [CarriesOver]
  · rintro stream e _ ⟨carried, split, carries⟩ admissible
    cases hp : e.payload with
    | proposed p =>
        rw [hp] at admissible
        obtain ⟨_, _, cleared, _⟩ := fold_proposed _ hp admissible.1
        refine ⟨[], ?_, ?_⟩
        · rw [allPartials_snoc, foldOverlayState_snoc, cleared]
          simp [isProposed, hp]
        · rw [carriesOver_snoc]
          simp [isProposed, hp]
    | confirmed c =>
        obtain ⟨_, _, _, _, _, cleared, _⟩ := fold_confirmed (foldOverlayState stream) hp
        refine ⟨allPartials stream, ?_, ?_⟩
        · rw [allPartials_snoc, foldOverlayState_snoc, cleared]
          simp [isProposed, partialConfirmer, hp]
        · rw [carriesOver_snoc, ← carries]
          constructor
          · intro partials
            exact ⟨by simp [isProposed, hp], Or.inr ⟨by simp [isConfirmed, hp], partials⟩⟩
          · rintro ⟨_, earlier | ⟨_, partials⟩⟩
            · intro empty
              rw [split, List.append_eq_nil_iff] at empty
              exact earlier empty.1
            · exact partials
    | partiallyConfirmed byOwner role draft note =>
        refine ⟨carried, ?_, ?_⟩
        · rw [allPartials_snoc, foldOverlayState_snoc, fold_partial _ hp, split]
          simp [isProposed, partialConfirmer, hp]
        · rw [carriesOver_snoc, ← carries]
          simp [isProposed, isConfirmed, hp]
    | rejected rejectedBy reason category target retired =>
        refine ⟨carried, ?_, ?_⟩
        · rw [allPartials_snoc, foldOverlayState_snoc, split]
          simp [isProposed, partialConfirmer, foldEvent, hp]
        · rw [carriesOver_snoc, ← carries]
          simp [isProposed, isConfirmed, hp]
    | expired target =>
        refine ⟨carried, ?_, ?_⟩
        · rw [allPartials_snoc, foldOverlayState_snoc, split]
          simp [isProposed, partialConfirmer, foldEvent, hp]
        · rw [carriesOver_snoc, ← carries]
          simp [isProposed, isConfirmed, hp]
    | staled change target =>
        refine ⟨carried, ?_, ?_⟩
        · rw [allPartials_snoc, foldOverlayState_snoc, split]
          simp [isProposed, partialConfirmer, foldEvent, hp]
        · rw [carriesOver_snoc, ← carries]
          simp [isProposed, isConfirmed, hp]

theorem ValidLog.partials_eq_iff (h : ValidLog d log n) (key : FactKey) :
    allPartials (loadFact log key) = (foldOverlayState (loadFact log key)).partialConfirmers ↔
      ¬ CarriesOver (loadFact log key) := by
  obtain ⟨carried, split, carries⟩ := h.partials_split key
  rw [split, ← carries, not_not]
  simp

theorem ValidLog.proposed (h : ValidLog d log n) {key : FactKey} (some_event : loadFact log key ≠ []) :
    ∃ e ∈ log, ∃ p, e.payload = .proposed p ∧ p.factType = key.factType ∧
      key.ref = refIdentity d.lower p.catalogObjectRef := by
  have found : loadFact log key ≠ [] → ∃ e ∈ loadFact log key, ∃ p, e.payload = .proposed p ∧
      p.factType = key.factType ∧ key.ref = refIdentity d.lower p.catalogObjectRef := by
    apply h.stream_induction (P := fun stream => stream ≠ [] → ∃ e ∈ stream, ∃ p,
      e.payload = .proposed p ∧ p.factType = key.factType ∧
        key.ref = refIdentity d.lower p.catalogObjectRef) key
    · intro nonempty
      exact absurd rfl nonempty
    · intro stream e _ ih admissible _
      cases hp : e.payload with
      | proposed p =>
          rw [hp] at admissible
          exact ⟨e, by simp, p, hp, admissible.2.1, admissible.2.2.1⟩
      | _ =>
          -- only a proposal is admissible in an empty stream
          have nonempty : stream ≠ [] := by
            rintro rfl
            rw [hp] at admissible
            simp [Admissible, Awaiting] at admissible
          obtain ⟨x, hx, found⟩ := ih nonempty
          exact ⟨x, List.mem_append_left _ hx, found⟩
  obtain ⟨e, he, found⟩ := found some_event
  exact ⟨e, (List.mem_filter.mp he).1, found⟩

theorem applyAll_stuck {t : Tables} {applied : List OverlayEvent} {e : OverlayEvent}
    (he : e ∈ applied) (raises : ∀ t : Tables, t.apply e = none) : t.applyAll applied = none := by
  induction applied generalizing t with
  | nil => simp at he
  | cons x applied ih =>
      rw [Tables.applyAll, List.foldlM_cons]
      cases hx : t.apply x with
      | none => rfl
      | some t' =>
          rw [List.mem_cons] at he
          cases he with
          | inl here =>
              rw [← here, raises t] at hx
              cases hx
          | inr later => exact ih later

end Split

def withoutBridges (events : List OverlayEvent) : List OverlayEvent :=
  events.filter fun e => decide (e.factKey.factType ≠ .entityBridge)

theorem loadFact_withoutBridges {events : List OverlayEvent} {key : FactKey}
    (notBridge : key.factType ≠ .entityBridge) :
    loadFact (withoutBridges events) key = loadFact events key :=
  loadFact_filter events (fun key => decide (key.factType ≠ .entityBridge))
    (decide_eq_true notBridge)

/-- The projection applied to the schedule shows every fact as its fold does. -/
def ProjectionAgrees (events applied : List OverlayEvent) : Prop :=
  ∃ t, Tables.applyAll .empty applied = some t ∧ ∀ key : FactKey,
    key.factType ≠ .entityBridge → loadFact events key ≠ [] →
      Agrees (t.rows key) (foldOverlayState (loadFact events key))

/-- In step, the rows agree with the fold if and only if no partial confirmer is
    carried over. -/
theorem Tracks.agrees_iff {d : Deployment} {log : List OverlayEvent} {m n : ℕ} {rows : Rows}
    {key : FactKey} (valid : ValidLog d log n) (tracks : Tracks rows key (loadFact log key) m) :
    Agrees rows (foldOverlayState (loadFact log key)) ↔ ¬ CarriesOver (loadFact log key) := by
  rw [← valid.partials_eq_iff]
  obtain ⟨⟨p, hp, _, status, draft, partials, _⟩, factState⟩ := tracks
  constructor
  · intro agrees
    obtain ⟨p', hp', _, _, same⟩ := agrees.proposal
    rw [hp] at hp'
    cases hp'
    rw [← partials, same]
  · intro same
    exact ⟨⟨p, hp, status, draft, partials.trans same⟩, factState.verified, factState.carries⟩

theorem projection_agrees_iff {d : Deployment} {w₀ w : World} {as : List Action}
    {applied : List OverlayEvent} (init : Init w₀)
    (run : Transition.exec (step d) w₀ as = some w)
    (sched : Schedule (withoutBridges w.events) applied) :
    ProjectionAgrees w.events applied ↔ ∀ key : FactKey, key.factType ≠ .entityBridge →
      loadFact w.events key ≠ [] → key.ofBridge = false ∧ ¬ CarriesOver (loadFact w.events key) := by
  have whole : ValidLog d w.events w.nextSeq := validLog_of_run init run
  have valid : ValidLog d (withoutBridges w.events) w.nextSeq :=
    whole.filter fun key => decide (key.factType ≠ .entityBridge)
  have follows : (∀ key : FactKey, key.factType ≠ .entityBridge → loadFact w.events key ≠ [] →
      key.ofBridge = false) → ∃ t, Tables.applyAll .empty applied = some t ∧ ∀ key : FactKey,
        key.factType ≠ .entityBridge → loadFact w.events key ≠ [] →
          Tracks (t.rows key) key (loadFact w.events key) w.nextSeq := by
    intro single
    obtain ⟨t, happlied, follows⟩ := applyAll_follows valid (by
      intro e he
      obtain ⟨hmem, hkeep⟩ := List.mem_filter.mp he
      have notBridge := of_decide_eq_true hkeep
      exact ⟨notBridge, single e.factKey notBridge
        (List.ne_nil_of_mem (List.mem_filter.mpr ⟨hmem, decide_eq_true rfl⟩))⟩) sched
    refine ⟨t, happlied, ?_⟩
    intro key notBridge events
    have tracks := follows key
    rw [loadFact_withoutBridges notBridge, Follows, if_neg events] at tracks
    exact tracks
  constructor
  · rintro ⟨t, happlied, agrees⟩
    have single : ∀ key : FactKey, key.factType ≠ .entityBridge → loadFact w.events key ≠ [] →
        key.ofBridge = false := by
      intro key notBridge events
      by_contra bridged
      rw [← loadFact_withoutBridges notBridge] at events
      obtain ⟨e, he, p, hp, factType, href⟩ := valid.proposed events
      have hsource := catalogSourceOf_isSome href
      rw [Bool.not_eq_false] at bridged
      rw [bridged, Bool.not_true, Option.isSome_eq_false_iff, Option.isNone_iff_eq_none] at hsource
      have stuck := applyAll_stuck (t := .empty) (sched.mem he) fun t => by
        simp [Tables.apply, hp, factType, notBridge, hsource]
      rw [stuck] at happlied
      cases happlied
    intro key notBridge events
    obtain ⟨t', happlied', tracks⟩ := follows single
    rw [happlied] at happlied'
    cases happlied'
    exact ⟨single key notBridge events,
      ((tracks key notBridge events).agrees_iff whole).mp (agrees key notBridge events)⟩
  · intro holds
    obtain ⟨t, happlied, tracks⟩ := follows fun key notBridge events =>
      (holds key notBridge events).1
    refine ⟨t, happlied, ?_⟩
    intro key notBridge events
    exact ((tracks key notBridge events).agrees_iff whole).mpr (holds key notBridge events).2

/-- After the first owner's confirmation the rows agree, also when an event is
    applied again. -/
theorem projection_agrees_after_first_owner :
    ∃ w, Transition.exec (step shopDeployment) shopOverlay
        (bothOwnersConfirm.take 2) = some w ∧ w.events.length = 2 ∧
      ∀ e ∈ withoutBridges w.events, ProjectionAgrees w.events (withoutBridges w.events ++ [e]) := by
  have computed : ((Transition.exec (step shopDeployment) shopOverlay
      (bothOwnersConfirm.take 2)).any fun w => decide (w.events.length = 2 ∧ ∀ e ∈ w.events,
        e.factKey.ofBridge = false ∧ ¬ CarriesOver (loadFact w.events e.factKey))) = true := by
    decide +kernel
  obtain ⟨w, run, holds⟩ := Option.any_eq_true _ _ |>.mp computed
  obtain ⟨length, holds⟩ := of_decide_eq_true holds
  refine ⟨w, run, length, ?_⟩
  intro e he
  apply (projection_agrees_iff World.fresh_init run (.replay (.refl _) he)).mpr
  intro key _ events
  obtain ⟨x, hx⟩ := List.exists_mem_of_ne_nil _ events
  obtain ⟨hmem, rfl⟩ : x ∈ w.events ∧ x.factKey = key := by simpa [loadFact] using hx
  exact holds x hmem

/-- After the second owner's the proposal row still names the first one. -/
theorem projection_keeps_confirmed_owner :
    ∃ w, Transition.exec (step shopDeployment) shopOverlay
        bothOwnersConfirm = some w ∧ Schedule (withoutBridges w.events) (withoutBridges w.events) ∧
      ¬ ProjectionAgrees w.events (withoutBridges w.events) := by
  have computed : ((Transition.exec (step shopDeployment) shopOverlay
      bothOwnersConfirm).any fun w =>
        (Tables.applyAll .empty (withoutBridges w.events)).any fun t =>
          decide (∃ e ∈ w.events, e.factKey.factType = .approvedJoin ∧
            (t.rows e.factKey).proposal.map (·.partialConfirmers) ≠
              some (foldOverlayState (loadFact w.events e.factKey)).partialConfirmers)) = true := by
    decide +kernel
  obtain ⟨w, run, computed⟩ := Option.any_eq_true _ _ |>.mp computed
  obtain ⟨t, happlied, differs⟩ := Option.any_eq_true _ _ |>.mp computed
  obtain ⟨e, he, factType, differs⟩ := of_decide_eq_true differs
  refine ⟨w, run, .refl _, ?_⟩
  rintro ⟨t', happlied', agrees⟩
  rw [happlied] at happlied'
  cases happlied'
  have hmem : e ∈ loadFact w.events e.factKey := List.mem_filter.mpr ⟨he, decide_eq_true rfl⟩
  obtain ⟨p, hp, _, _, same⟩ :=
    (agrees e.factKey (by simp [factType]) (List.ne_nil_of_mem hmem)).proposal
  simp [hp, same] at differs

end FeatureGen.Overlay
