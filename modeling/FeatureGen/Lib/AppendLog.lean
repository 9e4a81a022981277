import Mathlib

/-! # Append-only tables

A table that takes inserts only, as transactions at READ COMMITTED see it: the
committed rows in commit order, and the rows of the open transactions. A row that
conflicts with another's uncommitted one waits for it; one that conflicts with a
row its own transaction sees is a violation.
-/

/-- Committed rows in commit order, and the rows of open transactions, oldest first. -/
structure AppendLog (ρ : Type*) where
  committed : List ρ
  drafts : List (ℕ × ρ)

namespace AppendLog

variable {ρ : Type*}

inductive Inserted (ρ : Type*) where
  | waits
  | violation
  | log (log : AppendLog ρ)

def empty : AppendLog ρ := ⟨[], []⟩

/-- The rows a transaction has written. -/
def own (log : AppendLog ρ) (txn : ℕ) : List ρ :=
  (log.drafts.filter fun d => d.1 = txn).map (·.2)

/-- The rows a transaction reads. -/
def visible (log : AppendLog ρ) (txn : ℕ) : List ρ := log.committed ++ log.own txn

def insert (conflicts : ρ → ρ → Bool) (log : AppendLog ρ) (txn : ℕ) (r : ρ) : Inserted ρ :=
  if log.drafts.any fun d => d.1 ≠ txn && conflicts d.2 r then .waits
  else if (log.visible txn).any fun r' => conflicts r' r then .violation
  else .log ⟨log.committed, log.drafts ++ [(txn, r)]⟩

def commit (log : AppendLog ρ) (txn : ℕ) : AppendLog ρ where
  committed := log.committed ++ log.own txn
  drafts := log.drafts.filter fun d => d.1 ≠ txn

def rollback (log : AppendLog ρ) (txn : ℕ) : AppendLog ρ where
  committed := log.committed
  drafts := log.drafts.filter fun d => d.1 ≠ txn

/-- The rows with a property, in the same order. -/
def only (p : ρ → Bool) (log : AppendLog ρ) : AppendLog ρ where
  committed := log.committed.filter p
  drafts := log.drafts.filter fun d => p d.2

variable {log log' : AppendLog ρ} {txn other : ℕ} {r r' : ρ} {conflicts : ρ → ρ → Bool}

theorem mem_own : r ∈ log.own txn ↔ (txn, r) ∈ log.drafts := by
  simp [own]

@[simp] theorem own_empty : (empty : AppendLog ρ).own txn = [] := rfl

theorem insert_eq_log (h : log.insert conflicts txn r = .log log') :
    (∀ other, other ≠ txn → ∀ r' ∈ log.own other, conflicts r' r = false) ∧
      (∀ r' ∈ log.visible txn, conflicts r' r = false) ∧
        log' = ⟨log.committed, log.drafts ++ [(txn, r)]⟩ := by
  unfold insert at h
  split at h
  · simp at h
  · rename_i clear
    split at h
    · simp at h
    · rename_i kept
      simp only [Inserted.log.injEq] at h
      refine ⟨fun other hne r' hr' => ?_, fun r' hr' => ?_, h.symm⟩
      · simp only [List.any_eq_true, not_exists, not_and] at clear
        have := clear (other, r') (mem_own.mp hr')
        simpa [hne] using this
      · simp only [List.any_eq_true, not_exists, not_and] at kept
        simpa using kept r' hr'

theorem insert_eq_waits (h : log.insert conflicts txn r = .waits) :
    ∃ other, other ≠ txn ∧ ∃ r' ∈ log.own other, conflicts r' r = true := by
  unfold insert at h
  split at h
  · rename_i held
    obtain ⟨⟨other, r'⟩, hmem, hd⟩ := List.any_eq_true.mp held
    simp only [ne_eq, decide_not, Bool.and_eq_true, Bool.not_eq_true',
      decide_eq_false_iff_not] at hd
    exact ⟨other, hd.1, r', mem_own.mpr hmem, hd.2⟩
  · split at h
    · simp at h
    · simp at h

theorem own_insert_self {committed : List ρ} :
    (⟨committed, log.drafts ++ [(txn, r)]⟩ : AppendLog ρ).own txn = log.own txn ++ [r] := by
  simp [own]

theorem own_insert_ne (hne : other ≠ txn) {committed : List ρ} :
    (⟨committed, log.drafts ++ [(txn, r)]⟩ : AppendLog ρ).own other = log.own other := by
  simp [own, hne.symm]

theorem own_commit_self : (log.commit txn).own txn = [] := by
  simp [own, commit, List.filter_filter]

theorem own_commit_ne (hne : other ≠ txn) : (log.commit txn).own other = log.own other := by
  simp only [own, commit, List.filter_filter]
  congr 1
  refine List.filter_congr fun d _ => ?_
  by_cases hd : d.1 = other
  · simp [hd, hne]
  · simp [hd]

theorem own_rollback_self : (log.rollback txn).own txn = [] := own_commit_self

theorem own_rollback_ne (hne : other ≠ txn) : (log.rollback txn).own other = log.own other :=
  own_commit_ne hne

theorem rollback_of_own (none : log.own txn = []) : log.rollback txn = log := by
  have kept : log.drafts.filter (fun d => d.1 ≠ txn) = log.drafts := by
    refine List.filter_eq_self.mpr fun d hd => decide_eq_true ?_
    rintro rfl
    exact absurd (mem_own.mpr hd) (none ▸ List.not_mem_nil)
  rw [rollback, kept]

def written (log : AppendLog ρ) : List ρ := log.committed ++ log.drafts.map (·.2)

/-- Only the holder of a lock has written rows. -/
def Held (log : AppendLog ρ) (lock : Option ℕ) : Prop := ∀ d ∈ log.drafts, lock = some d.1

section Held

variable {lock : Option ℕ}

theorem Held.visible (held : log.Held lock) (holds : lock = some txn) :
    log.visible txn = log.written := by
  have all : log.drafts.filter (fun d => d.1 = txn) = log.drafts := by
    apply List.filter_eq_self.mpr
    intro d hd
    have same := (held d hd).symm.trans holds
    exact decide_eq_true (Option.some.inj same)
  rw [AppendLog.visible, own, all, written]

theorem Held.own (held : log.Held lock) (not : lock ≠ some txn) : log.own txn = [] := by
  apply List.eq_nil_iff_forall_not_mem.mpr
  intro r hr
  exact not (held _ (mem_own.mp hr))

theorem commit_of_own (none : log.own txn = []) : log.commit txn = log := by
  have same := rollback_of_own none
  rw [commit, none, List.append_nil]
  exact same

theorem Held.drafts (held : log.Held lock) (holds : lock = some txn) :
    log.drafts.filter (fun d => d.1 ≠ txn) = [] := by
  apply List.filter_eq_nil_iff.mpr
  intro d hd
  have same := (held d hd).symm.trans holds
  simpa using Option.some.inj same

theorem Held.insert (free : ∀ holder ∈ lock, holder = txn) (held : log.Held lock) :
    Held ⟨log.committed, log.drafts ++ [(txn, r)]⟩ (some txn) := by
  intro d hd
  rcases List.mem_append.mp hd with old | new
  · exact congrArg some (free d.1 (held d old)).symm
  · rw [List.mem_singleton.mp new]

theorem written_insert :
    (⟨log.committed, log.drafts ++ [(txn, r)]⟩ : AppendLog ρ).written = log.written ++ [r] := by
  simp [written]

theorem Held.written_commit (held : log.Held lock) : (log.commit txn).written = log.written := by
  by_cases holds : lock = some txn
  · rw [← held.visible holds, written, commit, held.drafts holds]
    exact List.append_nil _
  · rw [commit_of_own (held.own holds)]

theorem Held.written_rollback (held : log.Held lock) :
    (log.rollback txn).written <+: log.written := by
  by_cases holds : lock = some txn
  · have first : log.committed <+: log.written := List.prefix_append _ _
    rw [written, rollback, held.drafts holds]
    simpa using first
  · rw [rollback_of_own (held.own holds)]

end Held

/-- No two rows conflict, whoever has written them. -/
def Distinct (conflicts : ρ → ρ → Bool) (log : AppendLog ρ) : Prop :=
  (log.committed ++ log.drafts.map (·.2)).Pairwise fun a b => conflicts a b = false

theorem distinct_empty : (empty : AppendLog ρ).Distinct conflicts := List.Pairwise.nil

theorem Distinct.insert (h : log.Distinct conflicts)
    (inserted : log.insert conflicts txn r = .log log') : log'.Distinct conflicts := by
  obtain ⟨others, own, rfl⟩ := insert_eq_log inserted
  simp only [Distinct, List.map_append, List.map_cons, List.map_nil, ← List.append_assoc]
  refine List.pairwise_append.mpr ⟨h, List.pairwise_singleton .., fun r' hr' new hnew => ?_⟩
  obtain rfl := List.mem_singleton.mp hnew
  rcases List.mem_append.mp hr' with committed | draft
  · exact own r' (List.mem_append_left _ committed)
  · obtain ⟨⟨t, r'⟩, hd, rfl⟩ := List.mem_map.mp draft
    by_cases ht : t = txn
    · subst ht
      exact own r' (List.mem_append_right _ (mem_own.mpr hd))
    · exact others t ht r' (mem_own.mpr hd)

theorem Distinct.commit (symm : ∀ a b, conflicts a b = false → conflicts b a = false)
    (h : log.Distinct conflicts) : (log.commit txn).Distinct conflicts := by
  have split : (log.own txn ++ (log.drafts.filter fun d => d.1 ≠ txn).map (·.2)).Perm
      (log.drafts.map (·.2)) := by
    rw [own, ← List.map_append]
    simp only [ne_eq, decide_not]
    exact (List.filter_append_perm _ _).map _
  simp only [Distinct, AppendLog.commit, List.append_assoc]
  exact (split.append_left log.committed).symm.pairwise h fun hab => symm _ _ hab

theorem Distinct.rollback (h : log.Distinct conflicts) : (log.rollback txn).Distinct conflicts :=
  h.sublist ((List.Sublist.refl _).append (List.filter_sublist.map _))

theorem Distinct.committed (h : log.Distinct conflicts) :
    log.committed.Pairwise fun a b => conflicts a b = false :=
  h.sublist (List.sublist_append_left _ _)

section Only

variable (p : ρ → Bool)

theorem own_only : (log.only p).own txn = (log.own txn).filter p := by
  simp only [own, only, List.filter_filter, List.filter_map]
  congr 1
  exact List.filter_congr fun d _ => Bool.and_comm _ _

theorem visible_only : (log.only p).visible txn = (log.visible txn).filter p := by
  rw [visible, visible, own_only, List.filter_append]
  rfl

theorem commit_only : (log.commit txn).only p = (log.only p).commit txn := by
  simp only [commit, own_only]
  simp only [only, List.filter_append, List.filter_filter, AppendLog.mk.injEq, true_and]
  exact List.filter_congr fun d _ => Bool.and_comm _ _

theorem rollback_only : (log.rollback txn).only p = (log.only p).rollback txn := by
  simp only [rollback, only, List.filter_filter, AppendLog.mk.injEq, true_and]
  exact List.filter_congr fun d _ => Bool.and_comm _ _

theorem any_filter_of_imp {α : Type*} {l : List α} {p q : α → Bool}
    (h : ∀ a ∈ l, q a = true → p a = true) : (l.filter p).any q = l.any q := by
  induction l with
  | nil => rfl
  | cons a l ih =>
      have rest := ih fun b hb => h b (List.mem_cons_of_mem _ hb)
      cases hp : p a with
      | true => simp [hp, rest]
      | false =>
          have hq : q a = false := by
            have := h a List.mem_cons_self
            simpa [hp] using this
          simp [hp, hq, rest]

theorem insert_only (kind : ∀ r', (r' ∈ log.committed ∨ ∃ t, r' ∈ log.own t) →
      conflicts r' r = true → p r' = true) :
    (log.only p).insert conflicts txn r =
      match log.insert conflicts txn r with
      | .waits => .waits
      | .violation => .violation
      | .log _ => .log ⟨(log.only p).committed, (log.only p).drafts ++ [(txn, r)]⟩ := by
  have held : ((log.only p).drafts.any fun d => d.1 ≠ txn && conflicts d.2 r) =
      log.drafts.any fun d => d.1 ≠ txn && conflicts d.2 r := by
    refine any_filter_of_imp fun d hd clash => kind d.2 (Or.inr ⟨d.1, mem_own.mpr hd⟩) ?_
    exact (Bool.and_eq_true_iff.mp clash).2
  have kept : (((log.only p).visible txn).any fun r' => conflicts r' r) =
      (log.visible txn).any fun r' => conflicts r' r := by
    rw [visible_only]
    refine any_filter_of_imp fun r' hr' clash => kind r' ?_ clash
    exact (List.mem_append.mp hr').imp_right fun own => ⟨txn, own⟩
  rw [insert, held, kept, insert]
  split
  · rfl
  · split <;> rfl

theorem append_only (hr : p r = true) :
    (⟨log.committed, log.drafts ++ [(txn, r)]⟩ : AppendLog ρ).only p =
      ⟨(log.only p).committed, (log.only p).drafts ++ [(txn, r)]⟩ := by
  simp [only, hr]

theorem append_only_not (hr : p r = false) :
    (⟨log.committed, log.drafts ++ [(txn, r)]⟩ : AppendLog ρ).only p = log.only p := by
  simp [only, hr]

end Only

end AppendLog
