import Mathlib
import FeatureGen.Overlay.InvalidationEpochs

/-! # Calls of `invalidate_contracts_for`

Whatever transactions run beside it, a call that commits returns the number of
events it has added and leaves every contract that its refs affected when it began
with an event in the contract's current epoch.
-/

namespace FeatureGen.ContractInvalidation

variable {w w' : World} {txn other : ℕ} {t : Txn}

/-- A call has still to read a ref, or has the contracts it needs for it. -/
def Gathers (changed : List ChangedRef) (needs : ChangedRef → List String) : Txn → Prop
  | .reading targets left => ∀ ref ∈ changed, ref ∈ left ∨ ∀ id ∈ needs ref, ⟨id, ref⟩ ∈ targets
  | .locking targets => ∀ ref ∈ changed, ∀ id ∈ needs ref, ⟨id, ref⟩ ∈ targets
  | .testing done left _ => ∀ ref ∈ changed, ∀ id ∈ needs ref, ⟨id, ref⟩ ∈ done ++ left
  | .comparing done target left _ _ =>
      ∀ ref ∈ changed, ∀ id ∈ needs ref, ⟨id, ref⟩ ∈ done ++ target :: left
  | .inserting done target left _ =>
      ∀ ref ∈ changed, ∀ id ∈ needs ref, ⟨id, ref⟩ ∈ done ++ target :: left
  | .returned targets _ => ∀ ref ∈ changed, ∀ id ∈ needs ref, ⟨id, ref⟩ ∈ targets
  | .waiting _ | .appending _ => False

/-- A running call, and the dependencies there were. -/
def Gathering (lower : String → String) (txn : ℕ) (changed : List ChangedRef)
    (dependencies : List MetadataDependency) (w : World) : Prop :=
  dependencies ⊆ w.dependencies ∧ ∃ t, w.txns txn = some t ∧
    Gathers changed (affectedContractIds lower dependencies) t

theorem affectedContractIds_mono {lower : String → String} {less more : List MetadataDependency}
    (h : less ⊆ more) (ref : ChangedRef) :
    affectedContractIds lower less ref ⊆ affectedContractIds lower more ref := by
  intro id hid
  unfold affectedContractIds at hid ⊢
  rw [List.mem_dedup] at hid ⊢
  obtain ⟨row, hrow, rfl⟩ := List.mem_map.mp hid
  obtain ⟨mem, affects⟩ := List.mem_filter.mp hrow
  exact List.mem_map_of_mem (List.mem_filter.mpr ⟨h mem, affects⟩)

theorem Runs.dependencies {lower : String → String} (h : Runs lower w txn t w') :
    w'.dependencies = w.dependencies := by
  cases h <;> rfl

theorem Runs.txns {lower : String → String} (h : Runs lower w txn t w') (ne : other ≠ txn) :
    w'.txns other = w.txns other := by
  cases h <;> exact Function.update_of_ne ne _ _

theorem Gathers.statement {lower : String → String} {changed : List ChangedRef}
    {needs : ChangedRef → List String}
    (upTo : ∀ ref, needs ref ⊆ affectedContractIds lower w.dependencies ref)
    (h : Gathers changed needs t) (runs : Runs lower w txn t w') :
    ∃ t', w'.txns txn = some t' ∧ Gathers changed needs t' := by
  cases runs with
  | @read targets ref left contractIds affected =>
      refine ⟨_, Function.update_self _ _ _, fun ref' href' => ?_⟩
      rcases h ref' href' with unread | gathered
      · rcases List.mem_cons.mp unread with rfl | later
        · right
          intro id hid
          have found := affected.mem_iff.mpr (upTo ref' hid)
          exact List.mem_append_right _ (List.mem_map_of_mem found)
        · exact Or.inl later
      · exact Or.inr fun id hid => List.mem_append_left _ (gathered id hid)
  | untouched =>
      refine ⟨_, Function.update_self _ _ _, fun ref href => ?_⟩
      exact (h ref href).resolve_left List.not_mem_nil
  | gathered =>
      refine ⟨_, Function.update_self _ _ _, fun ref href => ?_⟩
      exact (h ref href).resolve_left List.not_mem_nil
  | locked free => exact ⟨_, Function.update_self _ _ _, h⟩
  | epoch => exact ⟨_, Function.update_self _ _ _, h⟩
  | tested =>
      refine ⟨_, Function.update_self _ _ _, fun ref href id hid => ?_⟩
      simpa using h ref href id hid
  | found already =>
      refine ⟨_, Function.update_self _ _ _, fun ref href id hid => ?_⟩
      simpa using h ref href id hid
  | missing fresh => exact ⟨_, Function.update_self _ _ _, h⟩
  | inserted =>
      refine ⟨_, Function.update_self _ _ _, fun ref href id hid => ?_⟩
      simpa using h ref href id hid
  | waited free => exact absurd h id
  | wrote => exact absurd h id

theorem Gathering.step {lower : String → String} {a : Action} {changed : List ChangedRef}
    {dependencies : List MetadataDependency} (inv : Gathering lower txn changed dependencies w)
    (runs : a ≠ .commit txn ∧ a ≠ .rollback txn) (h : step lower w a = some w') :
    Gathering lower txn changed dependencies w' := by
  obtain ⟨less, t, current, gathers⟩ := inv
  have begun (other : ℕ) (fresh : w.txns other = none) (t' : Txn) :
      Gathering lower txn changed dependencies (w.goes other t') := by
    have ne : txn ≠ other := by
      rintro rfl
      rw [fresh] at current
      cases current
    exact ⟨less, t, (Function.update_of_ne ne _ _).trans current, gathers⟩
  have ended (other : ℕ) (ne : txn ≠ other) (log : EventLog) :
      Gathering lower txn changed dependencies (w.ends other log) :=
    ⟨less, t, (Function.update_of_ne ne _ _).trans current, gathers⟩
  cases a with
  | depend rows =>
      obtain rfl := Option.some.inj h
      exact ⟨List.subset_append_of_subset_left _ less, t, current, gathers⟩
  | invalidate other changed' =>
      simp only [ContractInvalidation.step] at h
      split at h
      · rename_i fresh
        obtain rfl := Option.some.inj h
        exact begun other (Option.isNone_iff_eq_none.mp fresh) _
      · cases h
  | append other events =>
      simp only [ContractInvalidation.step] at h
      split at h
      · rename_i fresh
        obtain rfl := Option.some.inj h
        exact begun other (Option.isNone_iff_eq_none.mp fresh.1) _
      · cases h
  | statement other choice =>
      obtain ⟨t', current', hstatement⟩ := Option.bind_eq_some_iff.mp h
      have next := statement_cases hstatement
      refine ⟨next.dependencies ▸ less, ?_⟩
      by_cases self : txn = other
      · subst self
        obtain rfl := Option.some.inj (current.symm.trans current')
        exact gathers.statement (affectedContractIds_mono less) next
      · exact ⟨t, (next.txns self).trans current, gathers⟩
  | commit other =>
      simp only [ContractInvalidation.step] at h
      split at h
      · obtain rfl := Option.some.inj h
        exact ended other (fun same => runs.1 (same ▸ rfl)) _
      · cases h
  | rollback other =>
      simp only [ContractInvalidation.step] at h
      split at h
      · obtain rfl := Option.some.inj h
        exact ended other (fun same => runs.2 (same ▸ rfl)) _
      · cases h

abbrev InvalidationMove := Transition.Move World Action

structure Call (history : List InvalidationMove) (txn : ℕ) (changed : List ChangedRef)
    (first last : InvalidationMove) : Prop where
  split : ∃ past between rest, history = past ++ first :: (between ++ last :: rest) ∧
    ∀ m ∈ between, m.action ≠ .commit txn ∧ m.action ≠ .rollback txn
  first : first.action = .invalidate txn changed
  last : last.action = .commit txn

/-- A call returns the number of events it adds, and leaves the contracts it affects covered. -/
def Settled (lower : String → String) (txn : ℕ) (changed : List ChangedRef)
    (first last : InvalidationMove) : Prop :=
  ∃ targets appended, last.before.txns txn = some (.returned targets appended) ∧
    (∃ added, last.after.log.committed = last.before.log.committed ++ added ∧
      added.length = appended) ∧
    (∀ ref ∈ changed, ∀ id ∈ affectedContractIds lower first.before.dependencies ref,
      ⟨id, ref⟩ ∈ targets) ∧
    ∀ target ∈ targets, Covered last.after.log.committed target

theorem invalidated_once_per_epoch {lower : String → String} {w₀ : World} {as : List Action}
    (start : Init w₀) :
    (∀ m ∈ Transition.history (step lower) w₀ as, OneEach m.after.log.committed) ∧
      ∀ txn changed first last,
        Call (Transition.history (step lower) w₀ as) txn changed first last →
          Settled lower txn changed first last := by
  have invariant : ∀ m ∈ Transition.history (step lower) w₀ as, EpochInv m.before := by
    intro m hm
    have reached := Transition.reachable_of_mem_history start hm
    exact reached.induction (P := EpochInv) (fun _ init => .init init)
      fun _ _ _ inv hstep => inv.step hstep
  constructor
  · intro m hm
    exact ((invariant m hm).step (Transition.step_of_mem_history hm)).one.left
  · intro txn changed first last call
    obtain ⟨past, between, rest, hsplit, running⟩ := call.split
    obtain ⟨pre, post, rfl, -, -, hafter⟩ := Transition.exists_split_of_history_eq hsplit
    obtain ⟨mid, tail, rfl, hmid, hbetween, -⟩ := Transition.exists_split_of_history_eq hafter
    have hlast : last ∈ Transition.history (step lower) w₀ (pre ++ first.action ::
        (mid ++ last.action :: tail)) := by
      rw [hsplit]
      simp
    have hfirst : first ∈ Transition.history (step lower) w₀ (pre ++ first.action ::
        (mid ++ last.action :: tail)) := by
      rw [hsplit]
      simp
    have begun : Gathering lower txn changed first.before.dependencies first.after := by
      have hstep := Transition.step_of_mem_history hfirst
      simp only [call.first, ContractInvalidation.step] at hstep
      split at hstep
      · rw [← Option.some.inj hstep]
        exact ⟨List.Subset.refl _, _, Function.update_self _ _ _, fun ref href => Or.inl href⟩
      · cases hstep
    have goesOn : Transition.Along (step lower)
        (fun _ a => a ≠ .commit txn ∧ a ≠ .rollback txn) first.after mid :=
      fun m hm => running m (hbetween ▸ hm)
    have gathered : Gathering lower txn changed first.before.dependencies last.before :=
      Transition.exec_induction_along begun
        (fun _ _ _ inv runs hstep => inv.step runs hstep) goesOn hmid
    obtain ⟨-, t, current, gathers⟩ := gathered
    have hstep := Transition.step_of_mem_history hlast
    simp only [call.last, ContractInvalidation.step, current, Option.any_some] at hstep
    split at hstep
    · rename_i finished
      have after := Option.some.inj hstep
      cases t with
      | returned targets appended =>
          have inv := invariant last hlast
          have committed : last.after.log.committed =
              last.before.log.committed ++ last.before.log.own txn := by rw [← after]; rfl
          have known := inv.sound txn _ current
          refine ⟨targets, appended, current, ⟨_, committed, ?_⟩, gathers, ?_⟩
          · rcases known with holding | ⟨none, -, rfl⟩
            · exact holding.count
            · rw [none]
              rfl
          · intro target htarget
            rcases known with holding | ⟨-, rfl, -⟩
            · rw [committed]
              exact holding.covered target htarget
            · cases htarget
      | appending events => exact absurd gathers id
      | _ => cases finished
    · cases hstep

def noEvents : World := ⟨.empty, 1, none, [], fun _ => none⟩

theorem init_noEvents : Init noEvents := ⟨rfl, rfl, rfl, fun _ => rfl⟩

def retired : ChangedRef :=
  ⟨"orders", "FIELD_DECISION_RETIRED", none, some "decision-1", none⟩

/-- The same drift, naming an object that has no name. -/
def retiredNameless : ChangedRef := { retired with objectRef := some "" }

def oneDependency : Action :=
  .depend [⟨"contract-1", "orders", none, none, some "decision-1", none⟩]

def statements (txn : ℕ) (eventId : String) (n : ℕ) : List Action :=
  List.replicate n (.statement txn ⟨["contract-1"], eventId⟩)

def firstCall : List Action :=
  [oneDependency, .invalidate 1 [retired]] ++ statements 1 "event-1" 7 ++ [.commit 1]

/-- A call that finds its contract covered. -/
def secondCall : List Action := statements 2 "event-2" 6

theorem invalidated_once_per_epoch_firstCall :
    ((Transition.exec (step id) noEvents firstCall).any fun w =>
        decide (w.log.committed.map (·.eventType) = [.invalidated])) = true ∧
      (∀ m ∈ Transition.history (step id) noEvents firstCall, OneEach m.after.log.committed) ∧
        ∀ txn changed first last,
          Call (Transition.history (step id) noEvents firstCall) txn changed first last →
            Settled id txn changed first last :=
  ⟨by decide +kernel, invalidated_once_per_epoch init_noEvents⟩

/-- What a payload says, an absent id and an empty one apart. -/
def Payload.said (payload : Payload) : List (Option String) :=
  ["reason", "catalog_source", "object_ref", "decision_id", "fact_id"].map fun name =>
    payload.lookup name

theorem empty_id_suppressed :
    ¬ ∀ (lower : String → String) (w₀ : World) (as : List Action), Init w₀ →
      ∀ txn changed first last,
        Call (Transition.history (step lower) w₀ as) txn changed first last →
        ∀ ref ∈ changed, ∀ id ∈ affectedContractIds lower first.before.dependencies ref,
          ∃ e ∈ last.after.log.committed, e.contractId = id ∧ e.eventType = .invalidated ∧
            e.payload.said = ref.payload.said ∧
              lastReclear last.after.log.committed id < e.seq := by
  intro holds
  have computed : ((Transition.exec (step id) noEvents firstCall).any fun w₁ =>
      (step id w₁ (.invalidate 2 [retiredNameless])).any fun w₁' =>
        (Transition.exec (step id) w₁' secondCall).any fun w₂ =>
          (step id w₂ (.commit 2)).any fun w₂' => decide
            ("contract-1" ∈ affectedContractIds id w₁.dependencies retiredNameless ∧
              ∀ e ∈ w₂'.log.committed, e.payload.said ≠ retiredNameless.payload.said)) = true := by
    decide +kernel
  obtain ⟨w₁, run, h⟩ := (Option.any_eq_true _ _).mp computed
  obtain ⟨w₁', began, h⟩ := (Option.any_eq_true _ _).mp h
  obtain ⟨w₂, ran, h⟩ := (Option.any_eq_true _ _).mp h
  obtain ⟨w₂', committed, h⟩ := (Option.any_eq_true _ _).mp h
  obtain ⟨affected, apart⟩ := of_decide_eq_true h
  have split : Transition.history (step id) noEvents
      (firstCall ++ .invalidate 2 [retiredNameless] :: (secondCall ++ [.commit 2])) =
        Transition.history (step id) noEvents firstCall ++
          ⟨w₁, .invalidate 2 [retiredNameless], w₁'⟩ ::
            (Transition.history (step id) w₁' secondCall ++ [⟨w₂, .commit 2, w₂'⟩]) := by
    rw [Transition.history_append run, Transition.history_cons began,
      Transition.history_append ran, Transition.history_cons committed]
    rfl
  have going : ∀ m ∈ Transition.history (step id) w₁' secondCall,
      m.action ≠ .commit 2 ∧ m.action ≠ .rollback 2 := by
    intro m hm
    rw [List.eq_of_mem_replicate (Transition.action_mem_of_mem_history hm)]
    simp
  obtain ⟨e, he, -, -, said, -⟩ := holds id noEvents _ init_noEvents 2 [retiredNameless] _ _
    ⟨⟨_, _, _, split, going⟩, rfl, rfl⟩ retiredNameless List.mem_cons_self "contract-1" affected
  exact apart e he said

end FeatureGen.ContractInvalidation
