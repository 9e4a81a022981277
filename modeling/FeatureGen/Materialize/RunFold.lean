import FeatureGen.Materialize.RunEvents

/-! # A run's events fold

The trigger's reads see neither the rows of open transactions nor what commits after
them. So an event can come to follow a terminal one, and it cannot where no event is
begun while another open transaction has one that clashes with it.
-/

namespace FeatureGen.Materialize

open RowLocks Transition

/-- The event `b` goes on after the terminal event `a`. -/
def Clash (a b : RunEvent) : Prop :=
  a.runId = b.runId ∧ a.isTerminal = true ∧ b.isTerminal = false ∧ a.seq < b.seq

namespace RunTable

/-- An event of an open transaction: written, or in an insert under way. -/
def Holds (w : RunTable) (txn : ℕ) (event : RunEvent) : Prop :=
  w.events.Drafted txn event ∨ ∃ append, w.appends txn = some append ∧ append.event = event

/-- An append begins where no other open transaction has an event that it clashes with. -/
def Apart (w : RunTable) : RunAction → Prop
  | .append txn event => ∀ other ≠ txn, ∀ e, w.Holds other e → ¬ Clash event e ∧ ¬ Clash e event
  | _ => True

structure Ordered (w : RunTable) : Prop where
  listed : w.events.Listed
  fresh : w.events.Fresh
  keyed : w.events.All fun k e => e.key = k
  unique : w.events.Unique RunEvent.oneTerminal
  seen : ∀ txn a b, w.events.Sees txn a → w.events.Sees txn b → ¬ Clash a b
  appending : ∀ txn append, w.appends txn = some append → ∀ e, w.events.Sees txn e →
    ¬ Clash e append.event ∧ (append.seqRead = true → ¬ Clash append.event e)
  apart : ∀ txn other, txn ≠ other → ∀ a b, w.Holds txn a → w.Holds other b → ¬ Clash a b

variable {w w' : RunTable} {txn : ℕ} {event : RunEvent}

theorem ordered_empty : empty.Ordered where
  listed := ⟨by simp [empty], by simp [empty], by simp [empty]⟩
  fresh := by simp [Rows.Fresh, empty]
  keyed := ⟨by simp [empty], by simp [empty]⟩
  unique := ⟨by simp [empty], by simp [empty], by simp [empty]⟩
  seen := by simp [Rows.Sees, Rows.visible, empty]
  appending := by simp [empty]
  apart := by simp [Holds, Rows.Drafted, empty]

theorem holds_of_rollback {t : ℕ} {e : RunEvent} (h : (w.rollback txn).Holds t e) :
    w.Holds t e := by
  rcases h with drafted | ⟨append, happend, rfl⟩
  · exact Or.inl drafted.of_rollback.1
  · by_cases ht : t = txn
    · subst ht
      simp [RunTable.rollback] at happend
    · exact Or.inr ⟨append, by simpa [RunTable.rollback, ht] using happend, rfl⟩

theorem holds_of_commit {t : ℕ} {e : RunEvent}
    (h : Holds { w with events := w.events.commit txn } t e) : w.Holds t e :=
  h.imp_left fun drafted => drafted.of_commit.1

theorem holds_of_begin {append : Append} {t : ℕ} {e : RunEvent}
    (h : Holds { w with appends := Function.update w.appends txn (some append) } t e) :
    w.Holds t e ∨ t = txn ∧ e = append.event := by
  rcases h with drafted | ⟨append', happend, rfl⟩
  · exact Or.inl (Or.inl drafted)
  · by_cases ht : t = txn
    · subst ht
      obtain rfl : append = append' := by simpa using happend
      exact Or.inr ⟨rfl, rfl⟩
    · exact Or.inl (Or.inr ⟨append', by simpa [ht] using happend, rfl⟩)

theorem holds_of_insert {append : Append} (begun : w.appends txn = some append)
    {k : String × ℕ} (free : w.events.free txn k = true) (unseen : w.events.visible txn k = none)
    {t : ℕ} {e : RunEvent} (h : Holds ⟨w.events.write txn k (some append.event),
      Function.update w.appends txn none⟩ t e) : w.Holds t e := by
  rcases h with drafted | ⟨append', happend, rfl⟩
  · rcases (Rows.drafted_write free unseen).mp drafted with drafted | ⟨rfl, rfl⟩
    · exact Or.inl drafted
    · exact Or.inr ⟨_, begun, rfl⟩
  · by_cases ht : t = txn
    · subst ht
      simp at happend
    · exact Or.inr ⟨append', by simpa [ht] using happend, rfl⟩

/-- What a step can do. -/
inductive Stepped (w : RunTable) : RunAction → RunTable → Prop
  | rolledBack (action : RunAction) : Stepped w action (w.rollback action.txn)
  | begun (txn : ℕ) (event : RunEvent) (going : w.ended txn event = false) :
      Stepped w (.append txn event)
        { w with appends := Function.update w.appends txn (some ⟨event, false⟩) }
  | extended (txn : ℕ) (event : RunEvent) (begun : w.appends txn = some ⟨event, false⟩)
      (last : w.reached txn event = false) :
      Stepped w (.readSeq txn)
        { w with appends := Function.update w.appends txn (some ⟨event, true⟩) }
  | inserted (txn : ℕ) (event : RunEvent) (begun : w.appends txn = some ⟨event, true⟩)
      (rows : RunEvents)
      (inserted : w.events.insert RunEvent.oneTerminal txn event.key event = .rows rows) :
      Stepped w (.insert txn) ⟨rows, Function.update w.appends txn none⟩
  | committed (txn : ℕ) (idle : w.appends txn = none) :
      Stepped w (.commit txn) { w with events := w.events.commit txn }

theorem stepped {action : RunAction} (h : w.step action = some w') : Stepped w action w' := by
  cases action with
  | append txn event =>
      simp only [RunTable.step] at h
      split at h
      · simp at h
      · split at h
        · obtain rfl := Option.some.inj h
          exact .rolledBack (.append txn event)
        · rename_i going
          obtain rfl := Option.some.inj h
          exact .begun txn event (by simpa using going)
  | readSeq txn =>
      simp only [RunTable.step] at h
      split at h
      · rename_i event begun
        split at h
        · obtain rfl := Option.some.inj h
          exact .rolledBack (.readSeq txn)
        · rename_i last
          obtain rfl := Option.some.inj h
          exact .extended txn event begun (by simpa using last)
      · simp at h
  | insert txn =>
      simp only [RunTable.step] at h
      split at h
      · rename_i event begun
        split at h
        · simp at h
        · obtain rfl := Option.some.inj h
          exact .rolledBack (.insert txn)
        · rename_i rows inserted
          obtain rfl := Option.some.inj h
          exact .inserted txn event begun rows inserted
      · simp at h
  | commit txn =>
      simp only [RunTable.step] at h
      split at h
      · simp at h
      · rename_i idle
        obtain rfl := Option.some.inj h
        exact .committed txn idle
  | rollback txn =>
      obtain rfl := Option.some.inj h
      exact .rolledBack (.rollback txn)

theorem Ordered.rollback (h : w.Ordered) : (w.rollback txn).Ordered where
  listed := h.listed.rollback
  fresh := h.fresh.rollback
  keyed := h.keyed.apply (.rollback txn) (R := fun _ _ => True) trivial
  unique := h.unique.rollback
  seen t a b ha hb := h.seen t a b (ha.of_rollback h.fresh) (hb.of_rollback h.fresh)
  appending t append happend e he := by
    have hne : t ≠ txn := by
      rintro rfl
      simp [RunTable.rollback] at happend
    simp only [RunTable.rollback, Function.update_of_ne hne] at happend
    exact h.appending t append happend e (he.of_rollback h.fresh)
  apart t u hne a b ha hb :=
    h.apart t u hne a b (holds_of_rollback ha) (holds_of_rollback hb)

theorem Ordered.sees_drafted (h : w.Ordered) {other : ℕ} {a b : RunEvent}
    (ha : w.events.Sees txn a) (hb : w.events.Drafted other b) : ¬ Clash a b ∧ ¬ Clash b a := by
  rcases ha.cases with drafted | ⟨k, hk⟩
  · by_cases hne : txn = other
    · subst hne
      have hb := Rows.sees_of_drafted hb
      exact ⟨h.seen txn a b ha hb, h.seen txn b a hb ha⟩
    · exact ⟨h.apart txn other hne a b (Or.inl drafted) (Or.inl hb),
        h.apart other txn (Ne.symm hne) b a (Or.inl hb) (Or.inl drafted)⟩
  · have ha : w.events.Sees other a := Rows.sees_of_committed h.fresh hk
    have hb := Rows.sees_of_drafted hb
    exact ⟨h.seen other a b ha hb, h.seen other b a hb ha⟩

theorem Ordered.commit (h : w.Ordered) (idle : w.appends txn = none) :
    ({ w with events := w.events.commit txn } : RunTable).Ordered where
  listed := h.listed.commit
  fresh := h.fresh.commit
  keyed := h.keyed.apply (.commit txn) (R := fun _ _ => True) trivial
  unique := h.unique.commit
  seen t a b ha hb := by
    rcases ha.of_commit h.fresh with ha | ha
    · rcases hb.of_commit h.fresh with hb | hb
      · exact h.seen t a b ha hb
      · exact (h.sees_drafted ha hb).1
    · rcases hb.of_commit h.fresh with hb | hb
      · exact (h.sees_drafted hb ha).2
      · exact h.seen txn a b (Rows.sees_of_drafted ha) (Rows.sees_of_drafted hb)
  appending t append happend e he := by
    rcases he.of_commit h.fresh with he | he
    · exact h.appending t append happend e he
    · have hne : txn ≠ t := by
        rintro rfl
        simp [idle] at happend
      have holds : w.Holds t append.event := Or.inr ⟨append, happend, rfl⟩
      exact ⟨h.apart txn t hne e append.event (Or.inl he) holds,
        fun _ => h.apart t txn hne.symm append.event e holds (Or.inl he)⟩
  apart t u hne a b ha hb := h.apart t u hne a b (holds_of_commit ha) (holds_of_commit hb)

theorem not_ended (listed : w.events.Listed) (h : w.ended txn event = false) {e : RunEvent}
    (he : w.events.Sees txn e) : ¬ (e.runId = event.runId ∧ e.isTerminal = true) := by
  intro hend
  obtain ⟨k, hk⟩ := he
  have hscan : k ∈ w.events.scan txn fun e => e.runId = event.runId ∧ e.isTerminal :=
    listed.mem_scan.mpr ⟨e, hk, by simpa using hend⟩
  simp only [ended, ne_eq, decide_not, Bool.not_eq_false', decide_eq_true_eq] at h
  rw [h] at hscan
  cases hscan

theorem not_reached (listed : w.events.Listed) (h : w.reached txn event = false) {e : RunEvent}
    (he : w.events.Sees txn e) : ¬ (e.runId = event.runId ∧ event.seq ≤ e.seq) := by
  intro hend
  obtain ⟨k, hk⟩ := he
  have hscan : k ∈ w.events.scan txn fun e => e.runId = event.runId ∧ event.seq ≤ e.seq :=
    listed.mem_scan.mpr ⟨e, hk, by simpa using hend⟩
  simp only [reached, ne_eq, decide_not, Bool.not_eq_false', decide_eq_true_eq] at h
  rw [h] at hscan
  cases hscan

theorem Ordered.append (h : w.Ordered) (going : w.ended txn event = false)
    (apart : w.Apart (.append txn event)) :
    Ordered { w with appends := Function.update w.appends txn (some ⟨event, false⟩) } where
  listed := h.listed
  fresh := h.fresh
  keyed := h.keyed
  unique := h.unique
  seen := h.seen
  appending t append happend e he := by
    by_cases ht : t = txn
    · subst ht
      obtain rfl : (⟨event, false⟩ : Append) = append := by simpa using happend
      exact ⟨fun clash => not_ended h.listed going he ⟨clash.1, clash.2.1⟩, by simp⟩
    · exact h.appending t append (by simpa [ht] using happend) e he
  apart t u hne a b ha hb := by
    rcases holds_of_begin ha with oldA | ⟨rfl, rfl⟩
    · rcases holds_of_begin hb with oldB | ⟨rfl, rfl⟩
      · exact h.apart t u hne a b oldA oldB
      · exact (apart t hne a oldA).2
    · rcases holds_of_begin hb with oldB | ⟨rfl, rfl⟩
      · exact (apart u hne.symm b oldB).1
      · exact absurd rfl hne

theorem Ordered.readSeq (h : w.Ordered) (begun : w.appends txn = some ⟨event, false⟩)
    (last : w.reached txn event = false) :
    Ordered { w with appends := Function.update w.appends txn (some ⟨event, true⟩) } where
  listed := h.listed
  fresh := h.fresh
  keyed := h.keyed
  unique := h.unique
  seen := h.seen
  appending t append happend e he := by
    by_cases ht : t = txn
    · subst ht
      obtain rfl : (⟨event, true⟩ : Append) = append := by simpa using happend
      refine ⟨(h.appending t _ begun e he).1, fun _ clash => ?_⟩
      exact not_reached h.listed last he ⟨clash.1.symm, clash.2.2.2.le⟩
    · exact h.appending t append (by simpa [ht] using happend) e he
  apart t u hne a b ha hb := by
    have held {t : ℕ} {e : RunEvent} (he : Holds
        { w with appends := Function.update w.appends txn (some ⟨event, true⟩) } t e) :
        w.Holds t e := by
      rcases holds_of_begin he with he | ⟨rfl, rfl⟩
      · exact he
      · exact Or.inr ⟨_, begun, rfl⟩
    exact h.apart t u hne a b (held ha) (held hb)

theorem Ordered.insert (h : w.Ordered) (begun : w.appends txn = some ⟨event, true⟩)
    {rows : RunEvents}
    (inserted : w.events.insert RunEvent.oneTerminal txn event.key event = .rows rows) :
    Ordered ⟨rows, Function.update w.appends txn none⟩ := by
  obtain ⟨free, unseen, clear, kept, rfl⟩ := Rows.insert_eq_rows inserted
  have checked := h.appending txn _ begun
  refine ⟨h.listed.write, h.fresh.write free unseen, ?_, h.unique.write h.listed free clear kept,
    fun t a b ha hb => ?_, fun t append happend e he => ?_, fun t u hne a b ha hb => ?_⟩
  · exact h.keyed.apply (.write txn event.key (some event)) (R := fun _ _ => True)
      ⟨free, by simp, trivial⟩
  · rcases ha.of_write h.fresh free unseen with oldA | ⟨rfl, rfl⟩
    · rcases hb.of_write h.fresh free unseen with oldB | ⟨rfl, rfl⟩
      · exact h.seen t a b oldA oldB
      · exact (checked a oldA).1
    · rcases hb.of_write h.fresh free unseen with oldB | ⟨_, rfl⟩
      · exact (checked b oldB).2 rfl
      · exact fun clash => absurd clash.2.2.2 (lt_irrefl _)
  · by_cases ht : t = txn
    · subst ht
      simp at happend
    · have begun' : w.appends t = some append := by simpa [ht] using happend
      rcases he.of_write h.fresh free unseen with old | ⟨rfl, _⟩
      · exact h.appending t append begun' e old
      · exact absurd rfl ht
  · exact h.apart t u hne a b (holds_of_insert begun free unseen ha)
      (holds_of_insert begun free unseen hb)

theorem Ordered.step {action : RunAction} (h : w.Ordered) (apart : w.Apart action)
    (hstep : w.step action = some w') : w'.Ordered := by
  cases stepped hstep with
  | rolledBack action => exact h.rollback
  | begun txn event going => exact h.append going apart
  | extended txn event begun last => exact h.readSeq begun last
  | inserted txn event begun rows inserted => exact h.insert begun inserted
  | committed txn idle => exact h.commit idle

end RunTable

theorem foldRunStatus_ok {events : List RunEvent} {runId : String} (recorded : events ≠ [])
    (one : ∀ e ∈ events, e.runId = runId) (seqs : (events.map (·.seq)).Nodup)
    (ends : ∀ a ∈ events, ∀ b ∈ events, a.isTerminal = true → ¬ a.seq < b.seq) :
    ∃ status, foldRunStatus events = .ok status := by
  have perm := KeySort.perm_sortBy (·.seq) events
  obtain ⟨init, last, hordered⟩ : ∃ init last,
      KeySort.sortBy (·.seq) events = init ++ [last] := by
    obtain ⟨last, init, h⟩ := (List.eq_nil_or_concat' (KeySort.sortBy (·.seq) events)).resolve_left
      fun hnil => recorded (by simpa [hnil] using perm)
    exact ⟨last, init, h⟩
  have runs : ¬ 1 < ((events.map (·.runId)).dedup).length := by
    have sub : (events.map (·.runId)).dedup ⊆ [runId] := by
      intro r hr
      obtain ⟨e, he, rfl⟩ := List.mem_map.mp (List.mem_dedup.mp hr)
      simp [one e he]
    have short := (List.subperm_of_subset (List.nodup_dedup _) sub).length_le
    simpa using short
  have distinct : ((init ++ [last]).map (·.seq)).Nodup := by
    rw [← hordered]
    exact (perm.map _).nodup_iff.mpr seqs
  have none : init.find? (·.isTerminal) = none := by
    refine List.find?_eq_none.mpr fun e he hterminal => ?_
    have mem : ∀ x ∈ init ++ [last], x ∈ events := fun x hx =>
      perm.mem_iff.mp (hordered ▸ hx)
    have sorted : (KeySort.sortBy (·.seq) events).Pairwise (·.seq ≤ ·.seq) :=
      @KeySort.pairwise_sortBy _ _ _ _ events
    rw [hordered] at sorted
    have before : e.seq ≤ last.seq := (List.pairwise_append.mp sorted).2.2 e he last (by simp)
    have apart : e.seq ≠ last.seq := by
      rw [List.map_append] at distinct
      exact (List.disjoint_of_nodup_append distinct) |> fun h heq =>
        h (List.mem_map_of_mem he) (by simp [heq])
    exact ends e (mem e (List.mem_append_left _ he)) last (mem last (by simp)) hterminal
      (lt_of_le_of_ne before apart)
  refine ⟨last.status, ?_⟩
  simp only [foldRunStatus, hordered, List.getLast?_concat, if_neg runs, List.dropLast_concat,
    distinct, not_true, if_false, none]

namespace RunTable

variable {w : RunTable} {runId : String}

theorem mem_readRunEvents (listed : w.events.Listed) {e : RunEvent} :
    e ∈ w.readRunEvents runId ↔ (∃ k, w.events.committed k = some e) ∧ e.runId = runId := by
  simp only [readRunEvents, KeySort.mem_sortBy, List.mem_filter, List.mem_filterMap,
    decide_eq_true_eq, and_congr_left_iff]
  rintro -
  constructor
  · rintro ⟨k, _, hk⟩
    exact ⟨k, hk⟩
  · rintro ⟨k, hk⟩
    exact ⟨k, listed.committed k (by simp [hk]), hk⟩

theorem Ordered.nodup_seqs (h : w.Ordered) : ((w.readRunEvents runId).map (·.seq)).Nodup := by
  have keys : (w.events.keys.filterMap w.events.committed).Pairwise fun a b => a.key ≠ b.key := by
    refine List.pairwise_filterMap.mpr (h.listed.nodup.imp fun {k k'} hne a ha b hb same => hne ?_)
    rw [← h.keyed.committed k a ha, ← h.keyed.committed k' b hb, same]
  have perm := (KeySort.perm_sortBy (·.seq)
    ((w.events.keys.filterMap w.events.committed).filter fun e => e.runId = runId)).map (·.seq)
  rw [readRunEvents, perm.nodup_iff]
  refine List.pairwise_map.mpr ((keys.filter _).imp_of_mem fun {a b} ha hb hne same => hne ?_)
  have hrun : a.runId = b.runId :=
    (of_decide_eq_true (List.mem_filter.mp ha).2).trans
      (of_decide_eq_true (List.mem_filter.mp hb).2).symm
  exact Prod.ext hrun same

theorem Ordered.folds (h : w.Ordered) {k : String × ℕ} {e : RunEvent}
    (recorded : w.events.committed k = some e) :
    ∃ status, foldRunStatus (w.readRunEvents e.runId) = .ok status := by
  refine foldRunStatus_ok ?_ (fun e' he' => ((mem_readRunEvents h.listed).mp he').2) h.nodup_seqs ?_
  · exact List.ne_nil_of_mem ((mem_readRunEvents h.listed).mpr ⟨⟨k, recorded⟩, rfl⟩)
  · intro a ha b hb hterminal hlt
    obtain ⟨⟨ka, hka⟩, hrunA⟩ := (mem_readRunEvents h.listed).mp ha
    obtain ⟨⟨kb, hkb⟩, hrunB⟩ := (mem_readRunEvents h.listed).mp hb
    have run : a.runId = b.runId := hrunA.trans hrunB.symm
    cases hb' : b.isTerminal with
    | false =>
        exact h.seen 0 a b (Rows.sees_of_committed h.fresh hka) (Rows.sees_of_committed h.fresh hkb)
          ⟨run, hterminal, hb', hlt⟩
    | true =>
        have keys : ka ≠ kb := by
          rw [← h.keyed.committed ka a hka, ← h.keyed.committed kb b hkb]
          exact fun same => absurd (congrArg Prod.snd same) hlt.ne
        refine h.unique.committed ka kb a.runId keys ?_ ?_
        · simp [hka, RunEvent.oneTerminal, hterminal]
        · simp [hkb, RunEvent.oneTerminal, hb', run]

/-- In every interleaving where no event is begun while another open transaction has one that
    it clashes with, the events of every run that has any fold. -/
theorem run_events_fold {actions : List RunAction} (run : exec step empty actions = some w)
    (apart : Along step Apart empty actions) {k : String × ℕ} {e : RunEvent}
    (recorded : w.events.committed k = some e) :
    ∃ status, foldRunStatus (w.readRunEvents e.runId) = .ok status := by
  have ordered : w.Ordered :=
    exec_induction_along ordered_empty (fun _ _ _ h apart hstep => h.step apart hstep) apart run
  exact ordered.folds recorded

def runEvent (seq : ℕ) (eventKind : RunEventKind) : RunEvent where
  runId := "run_1"
  seq := seq
  generationId := "gen_1"
  eventKind := eventKind
  occurredAt := "2026-08-15T10:00:00+00:00"
  detail := ""

/-- One session appends the terminal event of a run, another the next event after it, and
    neither sees the other's. -/
def overtaking : List RunAction :=
  [.append 1 (runEvent 0 .published), .readSeq 1, .insert 1,
    .append 2 (runEvent 1 .runSubmitted), .readSeq 2, .insert 2, .commit 1, .commit 2]

theorem overtaken : ∃ w, exec step empty overtaking = some w ∧
    foldRunStatus (w.readRunEvents "run_1") = .error (.continues (runEvent 0 .published)) := by
  have computed : ((exec step empty overtaking).map fun w =>
      foldRunStatus (w.readRunEvents "run_1")) =
        some (.error (.continues (runEvent 0 .published))) := by
    rfl
  exact Option.map_eq_some_iff.mp computed

/-- No other transaction has an event. -/
def Alone (w : RunTable) (txn : ℕ) : Prop := ∀ other ≠ txn, ∀ e, ¬ w.Holds other e

theorem Alone.step {action : RunAction} (alone : w.Alone action.txn)
    (hstep : w.step action = some w') : w'.Alone action.txn := by
  intro other hne e he
  refine alone other hne e ?_
  cases stepped hstep with
  | rolledBack action => exact holds_of_rollback he
  | begun txn event going => exact (holds_of_begin he).resolve_right fun same => hne same.1
  | extended txn event begun last =>
      exact (holds_of_begin he).resolve_right fun same => hne same.1
  | inserted txn event begun rows inserted =>
      obtain ⟨free, unseen, _, _, rfl⟩ := Rows.insert_eq_rows inserted
      exact holds_of_insert begun free unseen he
  | committed txn idle => exact holds_of_commit he

theorem Alone.apart {action : RunAction} (alone : w.Alone action.txn) : w.Apart action := by
  cases action with
  | append txn event => exact fun other hne e he => absurd he (alone other hne e)
  | _ => trivial

theorem apart_of_alone {actions : List RunAction} (alone : w.Alone txn)
    (own : ∀ action ∈ actions, action.txn = txn) : Along step Apart w actions := by
  induction actions generalizing w with
  | nil => simp [Along]
  | cons action actions ih =>
      obtain rfl := own action List.mem_cons_self
      cases hstep : w.step action with
      | none => simp [Along, history, hstep]
      | some w' =>
          intro m hm
          rw [history_cons hstep] at hm
          rcases List.mem_cons.mp hm with rfl | hm
          · exact alone.apart
          · exact ih (alone.step hstep) (fun a ha => own a (List.mem_cons_of_mem _ ha)) m hm

/-- A session that appends two events and commits. -/
def inTurn : List RunAction :=
  [.append 1 (runEvent 0 .runSubmitted), .readSeq 1, .insert 1,
    .append 1 (runEvent 1 .published), .readSeq 1, .insert 1, .commit 1]

theorem run_events_fold_inTurn : ∃ w, exec step empty inTurn = some w ∧
    ∃ status, foldRunStatus (w.readRunEvents "run_1") = .ok status := by
  have computed : ((exec step empty inTurn).bind fun w => w.events.committed ("run_1", 1)) =
      some (runEvent 1 .published) := by
    rfl
  obtain ⟨w, run, recorded⟩ := Option.bind_eq_some_iff.mp computed
  have alone : empty.Alone 1 := by simp [Alone, Holds, Rows.Drafted, empty]
  have apart : Along step Apart empty inTurn := apart_of_alone alone (by decide)
  exact ⟨w, run, run_events_fold run apart recorded⟩

end RunTable

end FeatureGen.Materialize
