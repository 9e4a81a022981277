import FeatureGen.Overlay.DraftTickets

/-! # The life of a draft

One draft of an identity holds its slot at a time, whatever is requested, moved, withdrawn and
approved, and a draft comes to an answer through every stage of the work.
-/

namespace FeatureGen.FormulaDraftStore

open Transition

section Steps

variable {ext : Externals} {db db' : Db}

/-- A draft was there and stays or moves on, or it is new and its slot was free. -/
def Origin (db db' : Db) : Prop :=
  ∀ d' ∈ db'.drafts,
    (∃ d ∈ db.drafts, d.formulaDraftId = d'.formulaDraftId ∧
      d.formulaIdentityHash = d'.formulaIdentityHash ∧
      (d'.state = d.state ∨ d'.state ∈ d.state.permitted)) ∨
    (d'.state = .requested ∧ holder db d'.formulaIdentityHash = none ∧
      ∀ x ∈ db'.drafts, x = d' ∨ x ∈ db.drafts)

theorem origin_of_drafts (h : db'.drafts = db.drafts) : Origin db db' :=
  fun d' hd' => Or.inl ⟨d', h ▸ hd', rfl, rfl, Or.inl rfl⟩

theorem origin_request {req : DraftRequest} {g : Granted} (h : requestDraft ext db req = .ok g) :
    Origin db g.db := by
  obtain ⟨drafts, found, free, -, hi, hconsume, -⟩ | ⟨d, -, -, rfl⟩ := request_ok h
  · have rest : g.db.drafts = drafts := by rw [(consumeAll_rest hconsume).2]
    intro d' hd'
    rw [rest] at hd'
    rcases (Table.mem_insert? hi).mp hd' with old | rfl
    · exact Or.inl ⟨d', old, rfl, rfl, Or.inl rfl⟩
    · refine Or.inr ⟨rfl, free, fun x hx => ?_⟩
      rw [rest] at hx
      exact ((Table.mem_insert? hi).mp hx).symm
  · exact origin_of_drafts rfl

theorem origin_advance {id : String} {target : DraftState} {p : AdvancePayload}
    (h : advance ext db id target p = .ok db') : Origin db db' := by
  obtain ⟨d, hd, -, legal, -, hmem⟩ := advance_ok h
  intro d' hd'
  obtain ⟨r, hr, rfl⟩ := (hmem d').mp hd'
  refine Or.inl ⟨r, hr, ?_⟩
  split
  · next same =>
      obtain rfl := Table.eq_of_key_eq hr hd same
      exact ⟨rfl, rfl, Or.inr legal⟩
  · exact ⟨rfl, rfl, Or.inl rfl⟩

theorem origin_step {a : Action} (h : step ext db a = some db') : Origin db db' := by
  apply step_cases h (P := Origin db) (origin_of_drafts rfl)
  · intro req g hg
    exact origin_request hg
  · intro id target p next hn
    exact origin_advance hn
  · intro tombstones
    exact origin_of_drafts rfl
  · intro r _
    exact origin_of_drafts rfl
  · intro a acc ha
    exact origin_of_drafts (by rw [(follows_approve ha).2])
  · intro ledger'
    exact origin_of_drafts rfl

end Steps

section Slot

variable {ext : Externals} {db db' : Db}

def OneHolder (db : Db) : Prop :=
  ∀ d ∈ db.drafts, ∀ d' ∈ db.drafts, d.formulaIdentityHash = d'.formulaIdentityHash →
    d.state.holdsSlot = true → d'.state.holdsSlot = true → d = d'

def WithinUses (db : Db) : Prop :=
  ∀ e ∈ db.exceptions, 0 ≤ e.usesConsumed ∧ e.usesConsumed ≤ e.binding.maxUses

theorem holdsSlot_of_permitted {s s' : DraftState} (h : s' = s ∨ s' ∈ s.permitted)
    (holds : s'.holdsSlot = true) : s.holdsSlot = true := by
  cases s with
  | failed | cancelled =>
      obtain rfl | moved := h
      · exact holds
      · cases moved
  | _ => rfl

theorem OneHolder.step (inv : OneHolder db) (h : Origin db db') : OneHolder db' := by
  intro d hd d' hd' same holds holds'
  -- a new draft found its slot free, so that no older one holds it
  have alone {new old : FormulaDraft} (free : holder db new.formulaIdentityHash = none)
      (hold : old ∈ db.drafts) (same : old.formulaIdentityHash = new.formulaIdentityHash)
      (holds : old.state.holdsSlot = true) : False := by
    have none_holds := List.find?_eq_none.mp free old hold
    simp [isHolderOf, same, holds] at none_holds
  rcases h d hd with ⟨r, hr, hid, hhash, hstate⟩ | ⟨-, free, new⟩ <;>
    rcases h d' hd' with ⟨r', hr', hid', hhash', hstate'⟩ | ⟨-, free', new'⟩
  · have one := inv r hr r' hr' (hhash.trans (same.trans hhash'.symm))
      (holdsSlot_of_permitted hstate holds) (holdsSlot_of_permitted hstate' holds')
    exact Table.eq_of_key_eq hd hd' (hid.symm.trans ((congrArg _ one).trans hid'))
  · exact (alone free' hr (hhash.trans same) (holdsSlot_of_permitted hstate holds)).elim
  · exact (alone free hr' (hhash'.trans same.symm) (holdsSlot_of_permitted hstate' holds')).elim
  · rcases new d' hd' with rfl | old
    · rfl
    · exact (alone free old same.symm holds').elim

theorem WithinUses.consume {id : String} (inv : WithinUses db)
    (h : consumeException db id = some db') : WithinUses db' := by
  intro e he
  obtain ⟨r, hr, rfl⟩ := (mem_consumeException h).mp he
  obtain ⟨nonneg, within⟩ := inv r hr
  split
  · next hc =>
      simp only [consumable, Bool.and_eq_true, decide_eq_true_eq] at hc
      have once : r.consumed.usesConsumed = r.usesConsumed + 1 := rfl
      have same : r.consumed.binding = r.binding := rfl
      rw [once, same]
      omega
  · exact ⟨nonneg, within⟩

theorem WithinUses.step {a : Action} (inv : WithinUses db) (h : step ext db a = some db') :
    WithinUses db' := by
  apply step_cases h (P := WithinUses) inv
  · intro req g hg
    obtain ⟨drafts, found, -, -, -, hconsume, -⟩ | ⟨d, -, -, rfl⟩ := request_ok hg
    · have start : WithinUses { db with drafts := drafts } := inv
      refine foldlM_except_induction (P := WithinUses) (fun c _ b b' hb hstep => ?_) start hconsume
      exact hb.consume (consumeOne_eq_ok.mp hstep)
    · exact inv
  · intro id target p next hn
    obtain ⟨d, -, -, -, rest, -⟩ := advance_ok hn
    rw [rest]
    exact inv
  · exact fun _ => inv
  · exact fun _ _ => inv
  · intro a acc ha
    refine foldlM_except_induction (P := fun b : Approving => WithinUses b.db)
      (fun name _ b b' hb hstep => ?_) inv ha
    obtain ⟨uses, hdb⟩ := approveOne_ok hstep
    rw [hdb]
    intro e he
    rcases Table.mem_insertNew.mp he with old | ⟨rfl, -⟩
    · exact hb e old
    · have fresh : (0 : ℤ) ≤ a.maxUses := by omega
      exact ⟨le_rfl, fresh⟩
  · exact fun _ => inv

/-- Over every run one draft of an identity holds its slot, and no coupon is used more often than
    it was approved for. -/
theorem one_draft_holds_slot (reach : Reachable (step ext) Init db) :
    OneHolder db ∧ WithinUses db := by
  refine reach.induction (P := fun db => OneHolder db ∧ WithinUses db) (fun db h => ?_)
    fun db a db' inv h => ⟨inv.1.step (origin_step h), inv.2.step h⟩
  constructor
  · intro d hd
    rw [← Table.mem_rows, h.1] at hd
    cases hd
  · intro e he
    rw [← Table.mem_rows, h.2.2.2] at he
    cases he

theorem one_draft_holds_slot_failed :
    OneHolder (InFlight.withdrawn InFlight.asTexts .failed (some "refused")) ∧
      WithinUses (InFlight.withdrawn InFlight.asTexts .failed (some "refused")) :=
  one_draft_holds_slot (InFlight.reachable_failed InFlight.asTexts)

end Slot

/-- The stages on the way to a state. -/
def DraftState.path : DraftState → List DraftState
  | .requested => [.requested]
  | .authoring => [.requested, .authoring]
  | .criticReview => [.requested, .authoring, .criticReview]
  | .validating => [.requested, .authoring, .criticReview, .validating]
  | .admission => [.requested, .authoring, .criticReview, .validating, .admission]
  | .ready => [.requested, .authoring, .criticReview, .validating, .admission, .ready]
  | s => [.requested, s]

def states (formulaDraftId : String) (moves : List (Move Db Action)) : List DraftState :=
  moves.filterMap fun m => (m.after.drafts.get? formulaDraftId).map (·.state)

theorem path_sublist {s s' : DraftState} (h : s' = s ∨ s' ∈ s.permitted) :
    s'.path.Sublist (s.path ++ [s']) := by
  revert h
  cases s <;> cases s' <;> decide

/-- A draft has been through the stages before the one it is in, in their order, and it ends
    where it first ended. -/
theorem draft_passed_every_stage {ext : Externals} {db db' : Db} {as : List Action}
    (hinit : Init db) (run : exec (step ext) db as = some db') {d : FormulaDraft}
    (hd : d ∈ db'.drafts) :
    d.state.path.Sublist (states d.formulaDraftId (history (step ext) db as)) ∧
      ∀ m ∈ history (step ext) db as, ∀ r ∈ m.after.drafts,
        r.formulaDraftId = d.formulaDraftId → r.state.isTerminal = true → d.state = r.state := by
  constructor
  · refine exec_history_induction (P := fun past db => ∀ d ∈ db.drafts,
      d.state.path.Sublist (states d.formulaDraftId past)) (fun d hd => ?_)
      (fun past s a s' inv hs d hd => ?_) run d hd
    · rw [← Table.mem_rows, hinit.1] at hd
      cases hd
    · have last : states d.formulaDraftId (past ++ [⟨s, a, s'⟩]) =
          states d.formulaDraftId past ++ [d.state] := by
        simp [states, Table.get?_key hd]
      rw [last]
      rcases origin_step hs d hd with ⟨r, hr, hid, -, hstate⟩ | ⟨new, -, -⟩
      · exact (path_sublist hstate).trans (((hid ▸ inv r hr).append (List.Sublist.refl _)))
      · rw [new]
        exact List.sublist_append_right _ _
  · intro m hm r hr hid ended
    obtain ⟨post, hpost⟩ := exists_run_of_mem_history hm run
    obtain ⟨r', hr', hid', -, -, kept⟩ := (follows_exec hpost).drafts r hr
    obtain rfl := Table.eq_of_key_eq hr' hd (hid'.trans hid)
    exact kept ended

section Examples

open InFlight

/-- A draft goes from stage to stage until it is ready; it cannot fail then any more. -/
def passes : List Action :=
  [.request (asks "draft-1"), .advance "draft-1" .authoring ⟨some "run-1", none, none, [], none⟩,
    .advance "draft-1" .criticReview ⟨none, none, none, [], none⟩,
    .advance "draft-1" .validating ⟨none, none, none, [], none⟩,
    .advance "draft-1" .admission ⟨none, none, none, [], none⟩,
    .advance "draft-1" .ready ⟨none, some "content-1", some [("operation", "sum")], [], none⟩,
    .advance "draft-1" .failed ⟨none, none, none, [], some "refused"⟩]

/-- The store that holds one draft. -/
def alone (d : FormulaDraft) : Db := { start with drafts := Table.empty.insertNew d }

def readyDraft (ext : Externals) : FormulaDraft :=
  { draft ext .ready none with
    authoringRunId := some "run-1"
    formulaContentHash := some "content-1"
    formulaJson := some [("operation", "sum")] }

theorem mem_alone (d : FormulaDraft) : d ∈ (alone d).drafts := List.mem_singleton_self d

theorem step_advance_alone {ext : Externals} {d : FormulaDraft} {target : DraftState}
    {p : AdvancePayload} (permitted : target ∈ d.state.permitted)
    (stated : (d.moved target p 0).wellStated = true) :
    step ext (alone d) (.advance d.formulaDraftId target p) = some (alone (d.moved target p 0)) := by
  have drafts : (alone d).drafts.update d.formulaDraftId (FormulaDraft.moved target p 0)
      (FormulaDraft.moved_formulaDraftId target p 0) = (alone (d.moved target p 0)).drafts := by
    refine Table.mk.injEq .. |>.mpr ?_
    show [if decide (d.formulaDraftId = d.formulaDraftId) then d.moved target p 0 else d] =
      [d.moved target p 0]
    simp
  have moved : move (alone d) d target p = .ok (alone (d.moved target p 0)) := by
    rw [move, if_pos permitted]
    show (if (d.moved target p 0).wellStated = true then _ else _) = _
    rw [if_pos stated]
    exact congrArg (fun drafts => Except.ok { alone d with drafts := drafts }) drafts
  have unfenced : fence ext (alone d) d = .ok () := rfl
  rw [step, advance, Table.get?_key (mem_alone d)]
  simp only [unfenced, moved]
  rfl

theorem step_refused_alone {ext : Externals} {d : FormulaDraft} {target : DraftState}
    {p : AdvancePayload} (refused : target ∉ d.state.permitted) :
    step ext (alone d) (.advance d.formulaDraftId target p) = some (alone d) := by
  have unmoved : move (alone d) d target p =
      .error (.invalidTransition d.formulaDraftId (some d.state) target) := by
    rw [move, if_neg refused]
  have unfenced : fence ext (alone d) d = .ok () := rfl
  rw [step, advance, Table.get?_key (mem_alone d)]
  simp only [unfenced, unmoved]
  rfl

theorem passes_run : exec (step asTexts) start passes = some (alone (readyDraft asTexts)) := by
  have requested : step asTexts start (.request (asks "draft-1")) =
      some (alone (draft asTexts .requested none)) := rfl
  refine exec_cons_eq_some.mpr ⟨_, requested, ?_⟩
  refine exec_cons_eq_some.mpr ⟨_, step_advance_alone (by decide) rfl, ?_⟩
  refine exec_cons_eq_some.mpr ⟨_, step_advance_alone (by decide) rfl, ?_⟩
  refine exec_cons_eq_some.mpr ⟨_, step_advance_alone (by decide) rfl, ?_⟩
  refine exec_cons_eq_some.mpr ⟨_, step_advance_alone (by decide) rfl, ?_⟩
  refine exec_cons_eq_some.mpr ⟨_, step_advance_alone (by decide) rfl, ?_⟩
  exact exec_cons_eq_some.mpr ⟨_, step_refused_alone (by decide), rfl⟩

theorem draft_passed_every_stage_ready :
    [.requested, .authoring, .criticReview, .validating, .admission, .ready].Sublist
        (states "draft-1" (history (step asTexts) start passes)) ∧
      ∀ m ∈ history (step asTexts) start passes, ∀ r ∈ m.after.drafts,
        r.formulaDraftId = "draft-1" → r.state.isTerminal = true → r.state = .ready := by
  obtain ⟨passed, ended⟩ := draft_passed_every_stage start_init passes_run
    (mem_alone (readyDraft asTexts))
  exact ⟨passed, fun m hm r hr same terminal => (ended m hm r hr same terminal).symm⟩

end Examples

end FeatureGen.FormulaDraftStore
