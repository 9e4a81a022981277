import FeatureGen.Projections.Interleaving

/-! # No event is skipped

Whoever has uncommitted events holds the append lock, so at any time only one
transaction has any, and they carry the highest numbers drawn for an event so
far. The log therefore grows in the order of its numbers, and behind every
checkpoint: what a reader has passed is settled.
-/

namespace FeatureGen.Projections

open FeatureGen.Events SortedLog

variable {π S : Type}

/-- An open transaction's events come after everything committed, and it has
    them only under the append lock. -/
structure TxInv (committed : List (Event π)) (nextSeq : ℕ) (lock : Option ℕ) (t : Tx π) :
    Prop where
  ordered : Ordered Event.globalSeq t.events
  later : ∀ e ∈ t.events, ∀ c ∈ committed, c.globalSeq < e.globalSeq
  drawn : ∀ e ∈ t.events, 0 < e.globalSeq ∧ e.globalSeq < nextSeq
  holder : t.events ≠ [] → lock = some t.id
  appending : ∀ a ∈ t.append, a.locked = true → lock = some t.id

theorem TxInv.mono {committed : List (Event π)} {nextSeq nextSeq' : ℕ} {lock lock' : Option ℕ}
    {t : Tx π} (inv : TxInv committed nextSeq lock t) (hnext : nextSeq ≤ nextSeq')
    (hlock : lock = some t.id → lock' = some t.id) : TxInv committed nextSeq' lock' t := by
  refine ⟨inv.ordered, inv.later, fun e he => ?_, fun h => hlock (inv.holder h),
    fun a ha h => hlock (inv.appending a ha h)⟩
  have := inv.drawn e he
  omega

/-- The log is in the order of its numbers. -/
structure LogInv (w : World π S) : Prop where
  positive : 0 < w.nextSeq
  ordered : Ordered Event.globalSeq w.committed
  drawn : ∀ c ∈ w.committed, 0 < c.globalSeq ∧ c.globalSeq < w.nextSeq
  txs : ∀ t ∈ w.txs, TxInv w.committed w.nextSeq w.lock t

namespace LogInv

variable {w w' : World π S}

theorem init (start : Init w) : LogInv w := by
  obtain ⟨committed, positive, -, txs, -, -⟩ := start
  refine ⟨positive, ?_, ?_, ?_⟩
  · rw [committed]
    exact List.Pairwise.nil
  · simp [committed]
  · intro t ht
    rw [← Table.mem_rows, txs] at ht
    cases ht

theorem updateTx (inv : LogInv w) {t : Tx π} {id : ℕ} (ht : w.txs.get? id = some t)
    {f : Tx π → Tx π} {hf : ∀ r, (f r).id = r.id} {nextSeq : ℕ} {lock : Option ℕ}
    (hnext : w.nextSeq ≤ nextSeq) (hlock : ∀ holder, w.lock = some holder → lock = some holder)
    (hnew : TxInv w.committed nextSeq lock (f t)) :
    LogInv { w with nextSeq := nextSeq, lock := lock, txs := w.txs.update id f hf } := by
  obtain ⟨hmem, rfl⟩ := Table.get?_eq_some.mp ht
  refine ⟨lt_of_lt_of_le inv.positive hnext, inv.ordered, ?_, ?_⟩
  · intro c hc
    have := inv.drawn c hc
    dsimp only
    omega
  · intro t' ht'
    rw [Table.mem_update] at ht'
    obtain ⟨y, hy, rfl⟩ := ht'
    by_cases hid : y.id = t.id
    · rw [if_pos hid, Table.eq_of_key_eq hy hmem hid]
      exact hnew
    · rw [if_neg hid]
      exact (inv.txs y hy).mono hnext (hlock y.id)

theorem close (inv : LogInv w) (id : ℕ) : ∀ t ∈ (w.closed id).txs,
    t ∈ w.txs ∧ t.id ≠ id ∧ TxInv w.committed w.nextSeq (w.closed id).lock t := by
  intro t ht
  obtain ⟨hmem, hid⟩ := Table.mem_deleteWhere.mp ht
  have hne : t.id ≠ id := of_decide_eq_false hid
  refine ⟨hmem, hne, (inv.txs t hmem).mono le_rfl fun hlock => ?_⟩
  have hother : w.lock ≠ some id := by
    rw [hlock]
    simpa using hne
  simp only [World.closed, if_neg hother]
  exact hlock

theorem commit (inv : LogInv w) {t : Tx π} {id : ℕ} (ht : w.txs.get? id = some t) :
    LogInv { w.closed id with committed := w.committed ++ t.events } := by
  obtain ⟨hmem, rfl⟩ := Table.get?_eq_some.mp ht
  have htx := inv.txs t hmem
  refine ⟨inv.positive, ?_, ?_, ?_⟩
  · exact inv.ordered.append htx.ordered fun c hc e he => htx.later e he c hc
  · intro c hc
    rcases List.mem_append.mp hc with hc | hc
    · exact inv.drawn c hc
    · exact htx.drawn c hc
  · intro t' ht'
    obtain ⟨hmem', hne, hinv⟩ := inv.close t.id t' ht'
    refine ⟨hinv.ordered, ?_, hinv.drawn, hinv.holder, hinv.appending⟩
    intro e he c hc
    rcases List.mem_append.mp hc with hc | hc
    · exact hinv.later e he c hc
    · -- two transactions with events would both hold the lock
      have hlock' := (inv.txs t' hmem').holder (List.ne_nil_of_mem he)
      have hlock := htx.holder (List.ne_nil_of_mem hc)
      exact absurd (Option.some.inj (hlock'.symm.trans hlock)) hne

theorem step {d : Deployment π S} {a : Action π} (inv : LogInv w) (h : step d w a = some w') :
    LogInv w' := by
  cases a with
  | begin tx =>
      obtain ⟨txs, hins, rfl⟩ := Option.map_eq_some_iff.mp h
      refine ⟨inv.positive, inv.ordered, inv.drawn, fun t ht => ?_⟩
      rcases (Table.mem_insert? hins).mp ht with old | rfl
      · exact inv.txs t old
      · exact ⟨List.Pairwise.nil, (by simp), (by simp), (by simp), (by simp)⟩
  | appendCheck tx event expectedVersion tableVersion =>
      simp only [Projections.step] at h
      split at h
      · next htx =>
          split at h
          · cases h
            exact inv
          · cases h
            have old := inv.txs _ (Table.mem_of_get? htx)
            apply inv.updateTx htx le_rfl fun _ => id
            refine ⟨old.ordered, old.later, old.drawn, old.holder, ?_⟩
            rintro a ⟨⟩ locked
            cases locked
      · cases h
  | appendLock tx =>
      simp only [Projections.step] at h
      split at h
      · next htx =>
          split at h
          · next hfree =>
              cases h
              have old := inv.txs _ (Table.mem_of_get? htx)
              have hid := Table.key_of_get? htx
              have hkeep : ∀ holder, w.lock = some holder → some tx = some holder := by
                intro holder hlock
                rcases hfree with hnone | hown
                · rw [hnone] at hlock
                  cases hlock
                · exact hown.symm.trans hlock
              apply inv.updateTx htx le_rfl hkeep
              refine ⟨old.ordered, old.later, old.drawn, ?_, ?_⟩
              · exact fun _ => congrArg some hid.symm
              · exact fun _ _ _ => congrArg some hid.symm
          · cases h
      · cases h
  | appendInsert tx eventId fault =>
      simp only [Projections.step] at h
      split at h
      · next events savepoints event expectedVersion tableVersion htx =>
          split at h
          · cases h
          · cases h
            have old := inv.txs _ (Table.mem_of_get? htx)
            have hlock := old.appending _ rfl rfl
            apply inv.updateTx htx (Nat.le_succ _) fun _ => id
            generalize hresult : insertEvent _ _ fault = result
            cases result with
            | error e =>
                have grown := old.mono (Nat.le_succ _) id
                exact ⟨grown.ordered, grown.later, grown.drawn, grown.holder, (by rintro _ ⟨⟩)⟩
            | ok row =>
                obtain rfl := insertEvent_ok hresult
                refine ⟨old.ordered.append (List.pairwise_singleton _ _) ?_, ?_, ?_,
                  fun _ => hlock, (by rintro _ ⟨⟩)⟩
                · intro e he e' he'
                  obtain rfl := List.mem_singleton.mp he'
                  exact (old.drawn e he).2
                · intro e he c hc
                  rcases List.mem_append.mp he with he | he
                  · exact old.later e he c hc
                  · obtain rfl := List.mem_singleton.mp he
                    exact (inv.drawn c hc).2
                · intro e he
                  rcases List.mem_append.mp he with he | he
                  · have := old.drawn e he
                    omega
                  · obtain rfl := List.mem_singleton.mp he
                    exact ⟨inv.positive, Nat.lt_succ_self _⟩
      · cases h
  | savepoint tx =>
      simp only [Projections.step] at h
      split at h
      · next htx =>
          cases h
          have old := inv.txs _ (Table.mem_of_get? htx)
          apply inv.updateTx htx le_rfl fun _ => id
          exact ⟨old.ordered, old.later, old.drawn, old.holder, old.appending⟩
      · cases h
  | releaseSavepoint tx =>
      simp only [Projections.step] at h
      split at h
      · next htx =>
          cases h
          have old := inv.txs _ (Table.mem_of_get? htx)
          apply inv.updateTx htx le_rfl fun _ => id
          exact ⟨old.ordered, old.later, old.drawn, old.holder, old.appending⟩
      · cases h
  | rollbackToSavepoint tx =>
      simp only [Projections.step] at h
      split at h
      · next events kept savepoints htx =>
          cases h
          have old := inv.txs _ (Table.mem_of_get? htx)
          have sub : ∀ e ∈ events.take kept, e ∈ events := fun e he => List.mem_of_mem_take he
          apply inv.updateTx htx le_rfl fun _ => id
          refine ⟨List.Pairwise.sublist (List.take_sublist kept events) old.ordered,
            fun e he => old.later e (sub e he), fun e he => old.drawn e (sub e he), ?_, (by rintro _ ⟨⟩)⟩
          intro hne
          obtain ⟨e, he⟩ := List.exists_mem_of_ne_nil _ hne
          exact old.holder (List.ne_nil_of_mem (sub e he))
      · cases h
  | commit tx =>
      simp only [Projections.step] at h
      split at h
      · next htx =>
          cases h
          exact inv.commit htx
      · cases h
  | rollback tx =>
      cases h
      exact ⟨inv.positive, inv.ordered, inv.drawn, fun t ht => (inv.close tx t ht).2.2⟩
  | drawSeq =>
      cases h
      refine ⟨Nat.succ_pos _, inv.ordered, fun c hc => ?_,
        fun t ht => (inv.txs t ht).mono (Nat.le_succ _) id⟩
      have := inv.drawn c hc
      dsimp only
      omega
  | projectAbort name =>
      cases h
      exact ⟨inv.positive, inv.ordered, inv.drawn, inv.txs⟩
  | projectLock name | projectRead name batch | projectCommit name =>
      simp only [Projections.step] at h
      split at h <;> cases h
      exact ⟨inv.positive, inv.ordered, inv.drawn, inv.txs⟩
  | projectApply name =>
      simp only [Projections.step] at h
      split at h
      · split at h <;> cases h <;> exact ⟨inv.positive, inv.ordered, inv.drawn, inv.txs⟩
      · cases h

end LogInv

/-- What a step does to the committed log and to the projections. -/
inductive Effect (d : Deployment π S) (w w' : World π S) : Prop where
  | wrote (new : List (Event π)) (committed : w'.committed = w.committed ++ new)
      (drawn : ∀ e ∈ new, 0 < e.globalSeq ∧ ∀ c ∈ w.committed, c.globalSeq < e.globalSeq)
      (stored : w'.stored = w.stored) (runs : w'.runs = w.runs)
  | ran (name : String) (run : Option (Run π S))
      (rows : ∀ rows, run = some (.read rows) → ∃ batch,
        rows = nextEvents w.committed (w.stored name).checkpointSeq batch)
      (applied : ∀ next, run = some (.applied next) → ∃ rows done head,
        w.runs name = some (.read rows) ∧
        applyRows (d.projection name) rows (w.stored name) = some done ∧
        next = { done with headSeq := head })
      (committed : w'.committed = w.committed)
      (stored : w'.stored = w.stored)
      (runs : w'.runs = Function.update w.runs name run)
  | finished (name : String) (next : Stored π S) (run : w.runs name = some (.applied next))
      (committed : w'.committed = w.committed)
      (stored : w'.stored = Function.update w.stored name next)
      (runs : w'.runs = Function.update w.runs name none)

theorem Effect.unwritten {d : Deployment π S} {w w' : World π S}
    (committed : w'.committed = w.committed) (stored : w'.stored = w.stored)
    (runs : w'.runs = w.runs) : Effect d w w' :=
  .wrote [] (by rw [committed, List.append_nil]) (by simp) stored runs

theorem step_effect {d : Deployment π S} {w w' : World π S} {a : Action π} (inv : LogInv w)
    (h : step d w a = some w') : Effect d w w' := by
  cases a with
  | commit tx =>
      simp only [step] at h
      split at h
      · next htx =>
          cases h
          have htxInv := inv.txs _ (Table.mem_of_get? htx)
          exact .wrote _ rfl (fun e he => ⟨(htxInv.drawn e he).1, htxInv.later e he⟩) rfl rfl
      · cases h
  | projectLock name =>
      simp only [step] at h
      split at h
      · cases h
        exact .ran name (some .locked) (by simp) (by simp) rfl rfl rfl
      · cases h
  | projectRead name batch =>
      simp only [step] at h
      split at h
      · cases h
        refine .ran name _ ?_ ?_ rfl rfl rfl
        · rintro rows ⟨⟩
          exact ⟨batch, rfl⟩
        · rintro next ⟨⟩
      · cases h
  | projectApply name =>
      simp only [step] at h
      split at h
      · next rows hrun =>
          split at h
          · cases h
            exact .ran name none (by simp) (by simp) rfl rfl rfl
          · next done hdone =>
              cases h
              refine .ran name _ ?_ ?_ rfl rfl rfl
              · rintro rows ⟨⟩
              · rintro next ⟨⟩
                exact ⟨rows, done, _, hrun, hdone, rfl⟩
      · cases h
  | projectCommit name =>
      simp only [step] at h
      split at h
      · next next hrun =>
          cases h
          exact .finished name next hrun rfl rfl rfl
      · cases h
  | projectAbort name =>
      cases h
      exact .ran name none (by simp) (by simp) rfl rfl rfl
  | begin tx =>
      obtain ⟨txs, -, rfl⟩ := Option.map_eq_some_iff.mp h
      exact .unwritten rfl rfl rfl
  | rollback tx | drawSeq =>
      cases h
      exact .unwritten rfl rfl rfl
  | savepoint tx | releaseSavepoint tx | rollbackToSavepoint tx =>
      simp only [step] at h
      split at h <;> cases h
      exact .unwritten rfl rfl rfl
  | appendCheck tx event expectedVersion tableVersion =>
      simp only [step] at h
      split at h
      · split at h <;> cases h <;> exact .unwritten rfl rfl rfl
      · cases h
  | appendLock tx | appendInsert tx eventId fault =>
      simp only [step] at h
      split at h
      · split at h <;> cases h
        exact .unwritten rfl rfl rfl
      · cases h

/-- What a projection has consumed, and what its run is about to. `s₀` is what
    its tables held when the log was empty. -/
structure ReaderInv (p : Projection π S) (s₀ : S) (committed : List (Event π))
    (stored : Stored π S) (run : Option (Run π S)) : Prop where
  /-- The checkpoint is the number of a committed event, or zero. -/
  settled : ∀ seq, 0 < seq → (∀ c ∈ committed, c.globalSeq < seq) → stored.checkpointSeq < seq
  complete : p.isAnalytics = false →
    stored.applied = upTo Event.globalSeq committed stored.checkpointSeq ∧
      applyAll p s₀ stored.applied = some stored.state
  reading : ∀ rows, run = some (.read rows) →
    rows <+: after Event.globalSeq committed stored.checkpointSeq
  pending : ∀ next, run = some (.applied next) → ∃ done,
    done <+: after Event.globalSeq committed stored.checkpointSeq ∧
    next.checkpointSeq = position Event.globalSeq stored.checkpointSeq done ∧
    (p.isAnalytics = false → next.applied = stored.applied ++ done ∧
      applyAll p stored.state done = some next.state)

namespace ReaderInv

variable {p : Projection π S} {s₀ : S} {committed : List (Event π)} {stored : Stored π S}
  {run : Option (Run π S)}

theorem grow (inv : ReaderInv p s₀ committed stored run) {new : List (Event π)}
    (drawn : ∀ e ∈ new, 0 < e.globalSeq ∧ ∀ c ∈ committed, c.globalSeq < e.globalSeq) :
    ReaderInv p s₀ (committed ++ new) stored run := by
  have hnew : ∀ e ∈ new, stored.checkpointSeq < e.globalSeq := fun e he =>
    inv.settled e.globalSeq (drawn e he).1 (drawn e he).2
  have hafter : after (·.globalSeq) (committed ++ new) stored.checkpointSeq =
      after (·.globalSeq) committed stored.checkpointSeq ++ new := after_append hnew
  refine ⟨fun seq hpos hall => ?_, fun halts => ?_, fun rows hrun => ?_, fun next hrun => ?_⟩
  · exact inv.settled seq hpos fun c hc => hall c (List.mem_append_left _ hc)
  · rw [upTo_append hnew]
    exact inv.complete halts
  · rw [hafter]
    exact (inv.reading rows hrun).trans (List.prefix_append _ _)
  · obtain ⟨done, htaken, hdone⟩ := inv.pending next hrun
    rw [hafter]
    exact ⟨done, htaken.trans (List.prefix_append _ _), hdone⟩

theorem finish (inv : ReaderInv p s₀ committed stored run)
    (ordered : Ordered Event.globalSeq committed) {next : Stored π S}
    (hrun : run = some (.applied next)) : ReaderInv p s₀ committed next none := by
  obtain ⟨done, htaken, hcheckpoint, hdone⟩ := inv.pending next hrun
  refine ⟨fun seq hpos hall => ?_, fun halts => ?_, (by simp), (by simp)⟩
  · rw [hcheckpoint]
    rcases position_eq Event.globalSeq stored.checkpointSeq done with hstart | ⟨e, he, hlast⟩
    · rw [hstart]
      exact inv.settled seq hpos hall
    · rw [hlast]
      exact hall e (mem_after.mp (htaken.subset he)).1
  · obtain ⟨happlied, hstate⟩ := inv.complete halts
    obtain ⟨hmore, hnext⟩ := hdone halts
    rw [hcheckpoint, upTo_position ordered htaken, hmore, ← happlied]
    refine ⟨rfl, ?_⟩
    rw [applyAll_append, hstate]
    exact hnext

end ReaderInv

/-- What holds of the whole world. -/
structure Inv (d : Deployment π S) (s₀ : String → S) (w : World π S) : Prop where
  log : LogInv w
  readers : ∀ name,
    ReaderInv (d.projection name) (s₀ name) w.committed (w.stored name) (w.runs name)

namespace Inv

variable {d : Deployment π S} {s₀ : String → S} {w w' : World π S}

theorem init (start : Init w) : Inv d (fun name => (w.stored name).state) w := by
  refine ⟨LogInv.init start, fun name => ?_⟩
  obtain ⟨committed, -, -, -, readers, runs⟩ := start
  obtain ⟨checkpoint, applied⟩ := readers name
  refine ⟨fun seq hpos _ => checkpoint ▸ hpos, fun _ => ?_, ?_, ?_⟩
  · rw [applied, committed]
    exact ⟨rfl, rfl⟩
  · simp [runs]
  · simp [runs]

theorem step {a : Action π} (inv : Inv d s₀ w) (h : Projections.step d w a = some w') :
    Inv d s₀ w' := by
  refine ⟨inv.log.step h, fun name => ?_⟩
  have reader := inv.readers name
  cases step_effect inv.log h with
  | wrote new committed drawn stored runs =>
      rw [committed, stored, runs]
      exact reader.grow drawn
  | ran other run rows applied committed stored runs =>
      rw [committed, stored, runs]
      by_cases hname : name = other
      · subst hname
        rw [Function.update_self]
        refine ⟨reader.settled, reader.complete, fun read hread => ?_, fun next hnext => ?_⟩
        · obtain ⟨batch, rfl⟩ := rows read hread
          rw [nextEvents_ordered inv.log.ordered]
          exact List.take_prefix _ _
        · obtain ⟨read, done, head, hread, hdone, rfl⟩ := applied next hnext
          have htaken := reader.reading read hread
          cases halts : (d.projection name).isAnalytics with
          | true =>
              obtain ⟨consumed, hconsumed, hcheckpoint⟩ := applyRows_checkpoint hdone
              exact ⟨consumed, hconsumed.trans htaken, hcheckpoint, (by simp)⟩
          | false =>
              obtain ⟨consumed, hconsumed, happlied, hcheckpoint, hstate⟩ :=
                applyRows_halting halts hdone
              exact ⟨consumed, hconsumed.trans htaken, hcheckpoint,
                fun _ => ⟨happlied, hstate⟩⟩
      · rw [Function.update_of_ne hname]
        exact reader
  | finished other next run committed stored runs =>
      rw [committed, stored, runs]
      by_cases hname : name = other
      · subst hname
        rw [Function.update_self, Function.update_self]
        exact reader.finish inv.log.ordered run
      · rw [Function.update_of_ne hname, Function.update_of_ne hname]
        exact reader

theorem of_exec {as : List (Action π)} (inv : Inv d s₀ w)
    (run : Transition.exec (Projections.step d) w as = some w') : Inv d s₀ w' :=
  Transition.exec_induction inv (fun _ _ _ inv h => inv.step h) run

theorem committed_grows {as : List (Action π)} (inv : Inv d s₀ w)
    (run : Transition.exec (Projections.step d) w as = some w') :
    ∃ new, w'.committed = w.committed ++ new ∧
      ∀ e ∈ new, 0 < e.globalSeq ∧ ∀ c ∈ w.committed, c.globalSeq < e.globalSeq := by
  have grown : Inv d s₀ w' ∧ ∃ new, w'.committed = w.committed ++ new ∧
      ∀ e ∈ new, 0 < e.globalSeq ∧ ∀ c ∈ w.committed, c.globalSeq < e.globalSeq := by
    apply Transition.exec_induction (P := fun v => Inv d s₀ v ∧
      ∃ new, v.committed = w.committed ++ new ∧
        ∀ e ∈ new, 0 < e.globalSeq ∧ ∀ c ∈ w.committed, c.globalSeq < e.globalSeq)
      ⟨inv, [], by simp, (by simp)⟩ _ run
    rintro v a v' ⟨hinv, new, hcommitted, hnew⟩ h
    refine ⟨hinv.step h, ?_⟩
    cases step_effect hinv.log h with
    | wrote more committed drawn stored runs =>
        refine ⟨new ++ more, by rw [committed, hcommitted, List.append_assoc], fun e he => ?_⟩
        rcases List.mem_append.mp he with he | he
        · exact hnew e he
        · refine ⟨(drawn e he).1, fun c hc => (drawn e he).2 c ?_⟩
          rw [hcommitted]
          exact List.mem_append_left _ hc
    | ran _ _ _ _ committed => exact ⟨new, committed.trans hcommitted, hnew⟩
    | finished _ _ _ committed => exact ⟨new, committed.trans hcommitted, hnew⟩
  exact grown.2

end Inv

theorem exec_runProjection {d : Deployment π S} {w : World π S} {name : String} {batch : ℕ}
    {state : S} (idle : w.runs name = none)
    (applies : applyAll (d.projection name) (w.stored name).state
      (nextEvents w.committed (w.stored name).checkpointSeq batch) = some state) :
    ∃ w', Transition.exec (step d) w (runProjection name batch) = some w' ∧
      w'.committed = w.committed ∧ w'.runs name = none ∧ (w'.stored name).state = state ∧
      (w'.stored name).checkpointSeq = position Event.globalSeq (w.stored name).checkpointSeq
        (nextEvents w.committed (w.stored name).checkpointSeq batch) := by
  have hrows := applyRows_of_applyAll applies
  set rows := nextEvents w.committed (w.stored name).checkpointSeq batch with hread
  let stored : Stored π S := { w.stored name with
    state := state
    checkpointSeq := position Event.globalSeq (w.stored name).checkpointSeq rows
    applied := (w.stored name).applied ++ rows
    headSeq := headSeq w.committed }
  refine ⟨{ w with
    stored := Function.update w.stored name stored
    runs := Function.update w.runs name none }, ?_, rfl, ?_, ?_, ?_⟩
  · simp [runProjection, Transition.exec, step, World.setRun, idle, ← hread, hrows, stored]
  · exact Function.update_self _ _ _
  · simp [stored]
  · simp [stored]

theorem exec_drains {d : Deployment π S} {s₀ : String → S} {name : String} {batch : ℕ}
    (hbatch : 0 < batch) : ∀ (left : ℕ) {w : World π S}, Inv d s₀ w → w.runs name = none →
    (applyAll (d.projection name) (w.stored name).state
      (after Event.globalSeq w.committed (w.stored name).checkpointSeq)).isSome →
    (after Event.globalSeq w.committed (w.stored name).checkpointSeq).length ≤ left →
    ∃ n w', Transition.exec (step d) w (List.replicate n (runProjection name batch)).flatten =
        some w' ∧ w'.committed = w.committed ∧
      after Event.globalSeq w'.committed (w'.stored name).checkpointSeq = [] := by
  intro left
  induction left with
  | zero =>
      intro w _ _ _ hlength
      exact ⟨0, w, rfl, rfl, List.length_eq_zero_iff.mp (Nat.le_zero.mp hlength)⟩
  | succ left ih =>
      intro w inv idle applies hlength
      have hsplit := List.take_append_drop batch
        (after Event.globalSeq w.committed (w.stored name).checkpointSeq)
      rw [← nextEvents_ordered inv.log.ordered] at hsplit
      rw [← hsplit, applyAll_append, Option.isSome_bind, Option.any_eq_true] at applies
      obtain ⟨state, hstate, hrest⟩ := applies
      obtain ⟨w₁, hexec, hcommitted, hidle, hstored, hcheckpoint⟩ :=
        exec_runProjection idle hstate
      have hleft : after Event.globalSeq w₁.committed (w₁.stored name).checkpointSeq =
          (after Event.globalSeq w.committed (w.stored name).checkpointSeq).drop batch := by
        rw [hcommitted, hcheckpoint]
        exact after_position inv.log.ordered hsplit
      obtain ⟨n, w', hrun, hsame, hdone⟩ := ih (inv.of_exec hexec) hidle
        (by rw [hstored, hleft]; exact hrest)
        (by rw [hleft, List.length_drop]; omega)
      refine ⟨n + 1, w', ?_, hsame.trans hcommitted, hdone⟩
      rw [List.replicate_succ, List.flatten_cons]
      exact Transition.exec_append_eq_some.mpr ⟨w₁, hexec, hrun⟩

/-- However appends, rollbacks and projection runs interleave: nothing becomes
    visible at or behind a checkpoint any more; a projection that is not analytics
    has applied exactly the committed events up to its checkpoint, each once and in
    the order of their numbers; and while it meets no poison, running it on
    applies every committed event. -/
theorem no_event_skipped {d : Deployment π S} {w₀ w : World π S} {as : List (Action π)}
    (start : Init w₀) (run : Transition.exec (step d) w₀ as = some w) :
    (∀ bs w', Transition.exec (step d) w bs = some w' → ∀ name, ∀ e ∈ w'.committed,
      e.globalSeq ≤ (w.stored name).checkpointSeq → e ∈ w.committed) ∧
    ∀ name, (d.projection name).isAnalytics = false →
      Ordered Event.globalSeq (w.stored name).applied ∧
      (∀ e, e ∈ (w.stored name).applied ↔
        e ∈ w.committed ∧ e.globalSeq ≤ (w.stored name).checkpointSeq) ∧
      applyAll (d.projection name) (w₀.stored name).state (w.stored name).applied =
        some (w.stored name).state ∧
      ∀ batch, 0 < batch → w.runs name = none →
        (applyAll (d.projection name) (w.stored name).state
          (after Event.globalSeq w.committed (w.stored name).checkpointSeq)).isSome →
        ∃ n w', Transition.exec (step d) w
            (List.replicate n (runProjection name batch)).flatten = some w' ∧
          w'.committed = w.committed ∧ (w'.stored name).applied = w.committed := by
  have inv : Inv d (fun name => (w₀.stored name).state) w := (Inv.init start).of_exec run
  refine ⟨fun bs w' hbs name e he hle => ?_, fun name halts => ?_⟩
  · obtain ⟨new, hcommitted, hnew⟩ := inv.committed_grows hbs
    rw [hcommitted] at he
    rcases List.mem_append.mp he with he | he
    · exact he
    · have hlt := (inv.readers name).settled e.globalSeq (hnew e he).1 (hnew e he).2
      omega
  · obtain ⟨happlied, hstate⟩ := (inv.readers name).complete halts
    refine ⟨?_, fun e => ?_, hstate, fun batch hbatch idle applies => ?_⟩
    · rw [happlied]
      exact List.Pairwise.filter _ inv.log.ordered
    · rw [happlied, mem_upTo]
    · obtain ⟨n, w', hrun, hsame, hdone⟩ := exec_drains hbatch _ inv idle applies le_rfl
      have inv' := inv.of_exec hrun
      refine ⟨n, w', hrun, hsame, ?_⟩
      rw [((inv'.readers name).complete halts).1, ← hsame]
      have hsplit := upTo_append_after inv'.log.ordered (w'.stored name).checkpointSeq
      rw [hdone, List.append_nil] at hsplit
      exact hsplit

def counting : Deployment Unit ℕ where
  accepts := fun _ => true
  projection := fun _ => ⟨false, fun count _ => .ok (count + 1)⟩

def emptyLog : World Unit ℕ where
  committed := []
  nextSeq := 1
  lock := none
  txs := Table.empty
  stored := fun _ => ⟨0, 0, 0, [], [], []⟩
  runs := fun _ => none

def started : NewEvent Unit := ⟨"run", "run-1", "RUN_STARTED", 1, ()⟩

/-- Transactions 1 and 2 both pass their checks; 2 wins the append lock, and 1
    loses the race for the stream position. 3 rolls its event back, while the
    projection reads. -/
def racing : List (Action Unit) :=
  ([.begin 1, .begin 2, .appendCheck 1 started 0 1, .appendCheck 2 started 0 1,
   .appendLock 2, .appendInsert 2 "evt-1" false, .projectLock "overlay", .commit 2,
   .appendLock 1, .appendInsert 1 "evt-2" false, .projectRead "overlay" 500,
   .projectApply "overlay", .rollback 1, .projectCommit "overlay",
   .begin 3, .appendCheck 3 started 1 1, .appendLock 3, .appendInsert 3 "evt-3" false, .rollback 3,
   .begin 4, .appendCheck 4 started 1 1, .appendLock 4, .appendInsert 4 "evt-4" false, .commit 4] :
    List (Action Unit)) ++
  runProjection "overlay" 500

theorem no_event_skipped_racing :
    ∃ w, Transition.exec (step counting) emptyLog racing = some w ∧
      (w.stored "overlay").applied.map (·.globalSeq) = [1, 4] ∧
    (∀ bs w', Transition.exec (step counting) w bs = some w' → ∀ name, ∀ e ∈ w'.committed,
      e.globalSeq ≤ (w.stored name).checkpointSeq → e ∈ w.committed) ∧
    ∀ name, (counting.projection name).isAnalytics = false →
      Ordered Event.globalSeq (w.stored name).applied ∧
      (∀ e, e ∈ (w.stored name).applied ↔
        e ∈ w.committed ∧ e.globalSeq ≤ (w.stored name).checkpointSeq) ∧
      applyAll (counting.projection name) (emptyLog.stored name).state (w.stored name).applied =
        some (w.stored name).state ∧
      ∀ batch, 0 < batch → w.runs name = none →
        (applyAll (counting.projection name) (w.stored name).state
          (after Event.globalSeq w.committed (w.stored name).checkpointSeq)).isSome →
        ∃ n w', Transition.exec (step counting) w
            (List.replicate n (runProjection name batch)).flatten = some w' ∧
          w'.committed = w.committed ∧ (w'.stored name).applied = w.committed := by
  have run : ((Transition.exec (step counting) emptyLog racing).any fun w =>
      decide ((w.stored "overlay").applied.map (·.globalSeq) = [1, 4])) = true := by
    decide +kernel
  obtain ⟨w, hw, happlied⟩ := Option.any_eq_true _ _ |>.mp run
  exact ⟨w, hw, of_decide_eq_true happlied,
    no_event_skipped ⟨rfl, by decide, rfl, rfl, fun _ => ⟨rfl, rfl⟩, fun _ => rfl⟩ hw⟩

end FeatureGen.Projections
