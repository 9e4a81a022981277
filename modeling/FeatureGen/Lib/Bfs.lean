import Mathlib

/-! # Breadth-first search for a path

The loop over a queue of vertices, each with the steps that lead to it. It returns
the walk that takes, at each vertex, the first listed step to a vertex one nearer
to the target; so of the walks it can return for some listing of the steps, every
one takes nearest steps of least rank, where steps are listed by rank.
-/

namespace Bfs

section First

variable {α β : Type}

/-- The first member with the property. -/
inductive First (p : α → Prop) : List α → α → Prop
  | here {a : α} {l : List α} (h : p a) : First p (a :: l) a
  | there {a b : α} {l : List α} (hb : ¬ p b) (h : First p l a) : First p (b :: l) a

variable {p : α → Prop} {l l' : List α} {a b : α}

theorem First.mem (h : First p l a) : a ∈ l := by
  induction h with
  | here _ => exact List.mem_cons_self
  | there _ _ ih => exact List.mem_cons_of_mem _ ih

theorem First.holds (h : First p l a) : p a := by
  induction h with
  | here h => exact h
  | there _ _ ih => exact ih

theorem First.unique (h : First p l a) (h' : First p l b) : a = b := by
  induction h with
  | here ha =>
      cases h' with
      | here _ => rfl
      | there hb _ => exact absurd ha hb
  | there hb _ ih =>
      cases h' with
      | here hb' => exact absurd hb' hb
      | there _ h' => exact ih h'

theorem exists_first (h : ∃ a ∈ l, p a) : ∃ a, First p l a := by
  induction l with
  | nil => simp at h
  | cons b l ih =>
      by_cases hb : p b
      · exact ⟨b, .here hb⟩
      · obtain ⟨a, ha, hpa⟩ := h
        rcases List.mem_cons.mp ha with rfl | ha
        · exact absurd hpa hb
        · obtain ⟨c, hc⟩ := ih ⟨a, ha, hpa⟩
          exact ⟨c, .there hb hc⟩

theorem First.append_right (h : First p l a) (l' : List α) : First p (l ++ l') a := by
  induction h with
  | here h => exact .here h
  | there hb _ ih => exact .there hb ih

theorem First.append_left (none : ∀ b ∈ l, ¬ p b) (h : First p l' a) : First p (l ++ l') a := by
  induction l with
  | nil => exact h
  | cons b l ih =>
      exact .there (none b List.mem_cons_self)
        (ih fun c hc => none c (List.mem_cons_of_mem _ hc))

theorem First.map {f : β → α} {m : List β} {c : β} (h : First (fun x => p (f x)) m c) :
    First p (m.map f) (f c) := by
  induction h with
  | here h => exact .here h
  | there hb _ ih => exact .there hb ih

theorem First.flatMap {q : β → Prop} {g : β → List α} {m : List β} {c : β}
    (any : ∀ x ∈ m, q x ↔ ∃ y ∈ g x, p y) (h : First q m c) (ha : First p (g c) a) :
    First p (m.flatMap g) a := by
  induction h with
  | here _ =>
      rw [List.flatMap_cons]
      exact ha.append_right _
  | @there _ b _ hb _ ih =>
      rw [List.flatMap_cons]
      refine .append_left (fun y hy hpy => hb ?_)
        (ih (fun x hx => any x (List.mem_cons_of_mem _ hx)) ha)
      exact (any b List.mem_cons_self).mpr ⟨y, hy, hpy⟩

theorem First.rel {r : α → α → Prop} (h : First p l a) (pairwise : l.Pairwise r) (hb : b ∈ l)
    (hp : p b) : b = a ∨ r a b := by
  induction h with
  | here _ =>
      rcases List.mem_cons.mp hb with rfl | hb
      · exact Or.inl rfl
      · exact Or.inr (List.rel_of_pairwise_cons pairwise hb)
  | there hc _ ih =>
      rcases List.mem_cons.mp hb with rfl | hb
      · exact absurd hp hc
      · exact ih pairwise.of_cons hb

end First

section Loop

variable {V S : Type} [DecidableEq V]

/-- What a scan of neighbours ends with: the target's path, or the seen vertices and the queue. -/
inductive Scanned (V S : Type) where
  | found (path : List S)
  | more (seen : List V) (queue : List (V × List S))

/-- Go on with the seen vertices and the queue, unless the target was found. -/
def Scanned.resolve (next : List V → List (V × List S) → Option (List S)) :
    Scanned V S → Option (List S)
  | .found path => some path
  | .more seen queue => next seen queue

/-- Neighbours with the paths to them, one after the other. -/
def scan (target : V) (seen : List V) (queue : List (V × List S)) :
    List (V × List S) → Scanned V S
  | [] => .more seen queue
  | (neighbor, path) :: rest =>
      if neighbor ∈ seen then scan target seen queue rest
      else if neighbor = target then .found path
      else scan target (neighbor :: seen) (queue ++ [(neighbor, path)]) rest

variable (adj : V → List (V × S)) (target : V)

/-- The neighbours of a queued vertex, each with the path to it. -/
def extended (entry : V × List S) : List (V × List S) :=
  (adj entry.1).map fun e => (e.1, entry.2 ++ [e.2])

def loop : ℕ → List V → List (V × List S) → Option (List S)
  | 0, _, _ => none
  | _ + 1, _, [] => none
  | fuel + 1, seen, entry :: queue =>
      (scan target seen queue (extended adj entry)).resolve (loop fuel)

/-- The path found from a vertex other than the target. -/
def search (fuel : ℕ) (source : V) : Option (List S) :=
  loop adj target fuel [source] [(source, [])]

/-- The entries whose vertices are new, each vertex once. -/
def fresh : List V → List (V × List S) → List (V × List S)
  | _, [] => []
  | seen, entry :: rest =>
      if entry.1 ∈ seen then fresh seen rest else entry :: fresh (entry.1 :: seen) rest

/-- The seen vertices after a scan that finds nothing. -/
def seenAfter (seen : List V) (entries : List (V × List S)) : List V :=
  ((fresh seen entries).map Prod.fst).reverse ++ seen

variable {adj target}

theorem scan_found {seen : List V} {queue entries : List (V × List S)} {entry : V × List S}
    (unseen : target ∉ seen) (h : First (fun e => e.1 = target) entries entry) :
    scan target seen queue entries = .found entry.2 := by
  induction h generalizing seen queue with
  | @here a _ ha => simp [scan, ha, unseen]
  | @there _ b _ hb _ ih =>
      have hne : b.1 ≠ target := hb
      by_cases hseen : b.1 ∈ seen
      · simpa [scan, hseen] using ih unseen
      · have hcons := @ih (b.1 :: seen) (queue ++ [b]) (by simp [unseen, hne.symm])
        simpa [scan, hseen, hne] using hcons

theorem scan_more {seen : List V} {queue entries : List (V × List S)}
    (h : ∀ e ∈ entries, e.1 ≠ target) :
    scan target seen queue entries =
      .more (seenAfter seen entries) (queue ++ fresh seen entries) := by
  induction entries generalizing seen queue with
  | nil => simp [scan, seenAfter, fresh]
  | cons entry rest ih =>
      have hrest := fun e he => h e (List.mem_cons_of_mem _ he)
      by_cases hseen : entry.1 ∈ seen
      · simp [scan, seenAfter, fresh, hseen, ih hrest]
      · simp [scan, seenAfter, fresh, hseen, h entry List.mem_cons_self, ih hrest]

theorem fresh_subset {seen : List V} {entries : List (V × List S)} {e : V × List S}
    (h : e ∈ fresh seen entries) : e ∈ entries := by
  induction entries generalizing seen with
  | nil => simp [fresh] at h
  | cons entry rest ih =>
      unfold fresh at h
      split at h
      · exact List.mem_cons_of_mem _ (ih h)
      · rcases List.mem_cons.mp h with rfl | h
        · exact List.mem_cons_self
        · exact List.mem_cons_of_mem _ (ih h)

theorem mem_seenAfter {seen : List V} {entries : List (V × List S)} {v : V} :
    v ∈ seenAfter seen entries ↔ v ∈ (fresh seen entries).map Prod.fst ∨ v ∈ seen := by
  simp [seenAfter]

theorem covered {seen : List V} {entries : List (V × List S)} {e : V × List S}
    (h : e ∈ entries) : e.1 ∈ seenAfter seen entries := by
  rw [mem_seenAfter]
  induction entries generalizing seen with
  | nil => simp at h
  | cons entry rest ih =>
      by_cases hseen : entry.1 ∈ seen
      · rcases List.mem_cons.mp h with rfl | h
        · exact Or.inr hseen
        · simpa [fresh, hseen] using ih h
      · rcases List.mem_cons.mp h with rfl | h
        · simp [fresh, hseen]
        · have hrest := @ih (entry.1 :: seen) h
          simp only [fresh, if_neg hseen, List.map_cons, List.mem_cons] at hrest ⊢
          tauto

theorem nodup_seenAfter {seen : List V} (entries : List (V × List S)) (h : seen.Nodup) :
    (seenAfter seen entries).Nodup := by
  induction entries generalizing seen with
  | nil => simpa [seenAfter, fresh] using h
  | cons entry rest ih =>
      by_cases hseen : entry.1 ∈ seen
      · simpa [seenAfter, fresh, hseen] using ih h
      · have hcons := @ih (entry.1 :: seen) (List.nodup_cons.mpr ⟨hseen, h⟩)
        simpa [seenAfter, fresh, hseen] using hcons

theorem First.fresh {p : V → Prop} {seen : List V} {entries : List (V × List S)}
    {entry : V × List S} (old : ∀ v ∈ seen, ¬ p v) (h : First (fun e => p e.1) entries entry) :
    First (fun e => p e.1) (fresh seen entries) entry := by
  induction h generalizing seen with
  | here ha =>
      rw [Bfs.fresh, if_neg fun hmem => old _ hmem ha]
      exact .here ha
  | @there _ b _ hb _ ih =>
      rw [Bfs.fresh]
      split
      · exact ih old
      · refine .there hb (ih fun v hv => ?_)
        rcases List.mem_cons.mp hv with rfl | hv
        · exact hb
        · exact old v hv

theorem scan_queue (seen : List V) (before queue entries : List (V × List S))
    (next : List V → List (V × List S) → Option (List S)) :
    (scan target seen (before ++ queue) entries).resolve next =
      (scan target seen queue entries).resolve fun seen queue => next seen (before ++ queue) := by
  induction entries generalizing seen queue with
  | nil => rfl
  | cons entry rest ih =>
      by_cases hseen : entry.1 ∈ seen
      · simpa [scan, hseen] using ih seen queue
      · by_cases hfound : entry.1 = target
        · simp only [scan, if_neg hseen, if_pos hfound, Scanned.resolve]
        · simpa [scan, hseen, hfound] using ih (entry.1 :: seen) (queue ++ [entry])

theorem scan_append (seen : List V) (queue entries entries' : List (V × List S))
    (next : List V → List (V × List S) → Option (List S)) :
    (scan target seen queue (entries ++ entries')).resolve next =
      (scan target seen queue entries).resolve fun seen queue =>
        (scan target seen queue entries').resolve next := by
  induction entries generalizing seen queue with
  | nil => rfl
  | cons entry rest ih =>
      by_cases hseen : entry.1 ∈ seen
      · simpa [scan, hseen] using ih seen queue
      · by_cases hfound : entry.1 = target
        · simp only [List.cons_append, scan, if_neg hseen, if_pos hfound, Scanned.resolve]
        · simpa [scan, hseen, hfound] using ih (entry.1 :: seen) (queue ++ [entry])

theorem loop_frontier (fuel : ℕ) (seen : List V) (front queue : List (V × List S)) :
    loop adj target (fuel + front.length) seen (front ++ queue) =
      (scan target seen queue (front.flatMap (extended adj))).resolve (loop adj target fuel) := by
  induction front generalizing seen queue with
  | nil => rfl
  | cons entry front ih =>
      rw [List.flatMap_cons, scan_append]
      change (scan target seen (front ++ queue) (extended adj entry)).resolve
        (loop adj target (fuel + front.length)) = _
      rw [scan_queue]
      simp only [ih]

end Loop

section Distance

variable {V S : Type} (adj : V → List (V × S)) (target : V)

/-- A walk of that length leads to the target. -/
def Reach : ℕ → V → Prop
  | 0, v => v = target
  | n + 1, v => ∃ e ∈ adj v, Reach n e.1

/-- The length of a shortest walk to the target. -/
def Dist (n : ℕ) (v : V) : Prop := Reach adj target n v ∧ ∀ m < n, ¬ Reach adj target m v

/-- The walk of first listed steps to a vertex one nearer. -/
def Descends : ℕ → V → List S → Prop
  | 0, v, steps => v = target ∧ steps = []
  | n + 1, v, steps => ∃ e rest, First (fun e => Dist adj target n e.1) (adj v) e ∧
      steps = e.2 :: rest ∧ Descends n e.1 rest

/-- A shortest walk each of whose steps has the least rank of the nearer ones. -/
def Least (rank : S → ℕ) : ℕ → V → List S → Prop
  | 0, v, steps => v = target ∧ steps = []
  | n + 1, v, steps => ∃ e ∈ adj v, ∃ rest, steps = e.2 :: rest ∧ Dist adj target n e.1 ∧
      (∀ e' ∈ adj v, Dist adj target n e'.1 → rank e.2 ≤ rank e'.2) ∧ Least rank n e.1 rest

variable {adj target}

theorem Dist.unique {m n : ℕ} {v : V} (hm : Dist adj target m v) (hn : Dist adj target n v) :
    m = n := by
  by_contra hne
  rcases Nat.lt_or_gt_of_ne hne with h | h
  · exact hn.2 m h hm.1
  · exact hm.2 n h hn.1

theorem exists_dist {v : V} (h : ∃ n, Reach adj target n v) : ∃ n, Dist adj target n v := by
  classical
  exact ⟨Nat.find h, Nat.find_spec h, fun m hm => Nat.find_min h hm⟩

theorem dist_zero {v : V} : Dist adj target 0 v ↔ v = target := by
  simp [Dist, Reach]

theorem Dist.exists_nearer {n : ℕ} {v : V} (h : Dist adj target (n + 1) v) :
    ∃ e ∈ adj v, Dist adj target n e.1 := by
  obtain ⟨⟨e, he, hreach⟩, least⟩ := h
  exact ⟨e, he, hreach, fun m hm hreach' => least (m + 1) (by omega) ⟨e, he, hreach'⟩⟩

theorem dist_succ_of_nearer {n : ℕ} {v : V} (least : ∀ m ≤ n, ¬ Reach adj target m v)
    {e : V × S} (he : e ∈ adj v) (h : Dist adj target n e.1) : Dist adj target (n + 1) v :=
  ⟨⟨e, he, h.1⟩, fun m hm => least m (by omega)⟩

theorem Descends.unique {n : ℕ} {v : V} {steps steps' : List S}
    (h : Descends adj target n v steps) (h' : Descends adj target n v steps') :
    steps = steps' := by
  induction n generalizing v steps steps' with
  | zero => exact h.2.trans h'.2.symm
  | succ n ih =>
      obtain ⟨e, rest, first, rfl, hrest⟩ := h
      obtain ⟨e', rest', first', rfl, hrest'⟩ := h'
      obtain rfl := first.unique first'
      rw [ih hrest hrest']

theorem Reach.mono {adj' : V → List (V × S)} (sub : ∀ v, ∀ e ∈ adj v, e ∈ adj' v) {n : ℕ} {v : V}
    (h : Reach adj target n v) : Reach adj' target n v := by
  induction n generalizing v with
  | zero => exact h
  | succ n ih =>
      obtain ⟨e, he, hreach⟩ := h
      exact ⟨e, sub v e he, ih hreach⟩

section Congr

variable {adj' : V → List (V × S)} (same : ∀ v e, e ∈ adj' v ↔ e ∈ adj v)

include same

theorem reach_congr {n : ℕ} {v : V} : Reach adj' target n v ↔ Reach adj target n v :=
  ⟨Reach.mono fun v e => (same v e).mp, Reach.mono fun v e => (same v e).mpr⟩

theorem dist_congr {n : ℕ} {v : V} : Dist adj' target n v ↔ Dist adj target n v := by
  simp only [Dist, reach_congr same]

theorem least_congr {rank : S → ℕ} {n : ℕ} {v : V} {steps : List S} :
    Least adj' target rank n v steps ↔ Least adj target rank n v steps := by
  induction n generalizing v steps with
  | zero => rfl
  | succ n ih => simp only [Least, same, ih, dist_congr same]

end Congr

end Distance

section Result

variable {V S : Type} [DecidableEq V] {adj : V → List (V × S)} {target : V}

/-- Between two frontiers: every neighbour of a vertex behind the frontier is seen. -/
structure Frontier (adj : V → List (V × S)) (target : V) (seen : List V)
    (front : List (V × List S)) : Prop where
  unseen : target ∉ seen
  queued : ∀ entry ∈ front, entry.1 ∈ seen
  closed : ∀ v ∈ seen, v ∉ front.map Prod.fst → ∀ e ∈ adj v, e.1 ∈ seen

theorem Frontier.exit {seen : List V} {front : List (V × List S)}
    (h : Frontier adj target seen front) {n : ℕ} {v : V} (hv : v ∈ seen)
    (reach : Reach adj target n v) : ∃ entry ∈ front, ∃ m ≤ n, Reach adj target m entry.1 := by
  induction n generalizing v with
  | zero => exact absurd (reach ▸ hv) h.unseen
  | succ n ih =>
      by_cases hfront : v ∈ front.map Prod.fst
      · obtain ⟨entry, hentry, rfl⟩ := List.mem_map.mp hfront
        exact ⟨entry, hentry, n + 1, le_refl _, reach⟩
      · obtain ⟨e, he, hreach⟩ := reach
        obtain ⟨entry, hentry, m, hm, hm'⟩ := ih (h.closed v hv hfront e he) hreach
        exact ⟨entry, hentry, m, by omega, hm'⟩

omit [DecidableEq V] in
theorem mem_extended {entry : V × List S} {x : V × List S} :
    x ∈ extended adj entry ↔ ∃ e ∈ adj entry.1, x = (e.1, entry.2 ++ [e.2]) := by
  simp [extended, eq_comm]

theorem Frontier.next {seen : List V} {front : List (V × List S)}
    (h : Frontier adj target seen front)
    (far : ∀ x ∈ front.flatMap (extended adj), x.1 ≠ target) :
    Frontier adj target (seenAfter seen (front.flatMap (extended adj)))
      (fresh seen (front.flatMap (extended adj))) where
  unseen hmem := by
    rcases mem_seenAfter.mp hmem with hmem | hmem
    · obtain ⟨x, hx, rfl⟩ := List.mem_map.mp hmem
      exact far x (fresh_subset hx) rfl
    · exact h.unseen hmem
  queued x hx := mem_seenAfter.mpr (Or.inl (List.mem_map_of_mem hx))
  closed v hv hnew e he := by
    have hseen : v ∈ seen := (mem_seenAfter.mp hv).resolve_left hnew
    by_cases hfront : v ∈ front.map Prod.fst
    · obtain ⟨entry, hentry, rfl⟩ := List.mem_map.mp hfront
      exact @covered _ _ _ seen _ (e.1, entry.2 ++ [e.2])
        (List.mem_flatMap.mpr ⟨entry, hentry, mem_extended.mpr ⟨e, he, rfl⟩⟩)
    · exact mem_seenAfter.mpr (Or.inr (h.closed v hseen hfront e he))

/-- The fuel left for vertices not seen yet, all of them among `all`. -/
structure Enough (adj : V → List (V × S)) (all seen : List V) (fuel : ℕ) : Prop where
  neighbours : ∀ v, ∀ e ∈ adj v, e.1 ∈ all
  nodup : seen.Nodup
  subset : ∀ v ∈ seen, v ∈ all
  fuel : all.length ≤ fuel + seen.length

theorem Enough.next {all seen : List V} {fuel : ℕ} (h : Enough adj all seen fuel)
    (front : List (V × List S)) :
    ∃ rest, fuel = rest + (fresh seen (front.flatMap (extended adj))).length ∧
      Enough adj all (seenAfter seen (front.flatMap (extended adj))) rest := by
  have nodup := nodup_seenAfter (front.flatMap (extended adj)) h.nodup
  have subset : ∀ v ∈ seenAfter seen (front.flatMap (extended adj)), v ∈ all := by
    intro v hv
    rcases mem_seenAfter.mp hv with hv | hv
    · obtain ⟨x, hx, rfl⟩ := List.mem_map.mp hv
      obtain ⟨entry, _, hx⟩ := List.mem_flatMap.mp (fresh_subset hx)
      obtain ⟨e, he, rfl⟩ := mem_extended.mp hx
      exact h.neighbours _ e he
    · exact h.subset v hv
  have hlength : (seenAfter seen (front.flatMap (extended adj))).length =
      (fresh seen (front.flatMap (extended adj))).length + seen.length := by
    simp [seenAfter]
  have hle := (nodup.subperm subset).length_le
  have hfuel := h.fuel
  refine ⟨fuel - (fresh seen (front.flatMap (extended adj))).length, by omega,
    h.neighbours, nodup, subset, by omega⟩

omit [DecidableEq V] in
theorem first_extended {n : ℕ} {front : List (V × List S)} {entry : V × List S} {e : V × S}
    (nearest : ∀ x ∈ front, ∀ m ≤ n, ¬ Reach adj target m x.1)
    (hentry : First (fun x => Dist adj target (n + 1) x.1) front entry)
    (he : First (fun e => Dist adj target n e.1) (adj entry.1) e) :
    First (fun x => Dist adj target n x.1) (front.flatMap (extended adj))
      (e.1, entry.2 ++ [e.2]) := by
  have any : ∀ x ∈ front, Dist adj target (n + 1) x.1 ↔
      ∃ y ∈ extended adj x, Dist adj target n y.1 := by
    intro x hx
    constructor
    · intro hdist
      obtain ⟨e', he', hnear⟩ := hdist.exists_nearer
      exact ⟨_, mem_extended.mpr ⟨e', he', rfl⟩, hnear⟩
    · rintro ⟨y, hy, hnear⟩
      obtain ⟨e', he', rfl⟩ := mem_extended.mp hy
      exact dist_succ_of_nearer (nearest x hx) he' hnear
  have here : First (fun x => Dist adj target n x.1) (extended adj entry)
      (e.1, entry.2 ++ [e.2]) :=
    @First.map _ (V × S) (fun x => Dist adj target n x.1) (fun e => (e.1, entry.2 ++ [e.2])) _ _ he
  exact .flatMap any hentry here

theorem loop_descends {n : ℕ} {all seen : List V} {front : List (V × List S)} {fuel : ℕ}
    (h : Frontier adj target seen front) (enough : Enough adj all seen fuel)
    {entry : V × List S} (hentry : First (fun x => Dist adj target (n + 1) x.1) front entry)
    (nearest : ∀ x ∈ front, ∀ m ≤ n, ¬ Reach adj target m x.1) :
    ∃ steps, loop adj target (fuel + front.length) seen front = some (entry.2 ++ steps) ∧
      Descends adj target (n + 1) entry.1 steps := by
  have scanned : loop adj target (fuel + front.length) seen front =
      (scan target seen [] (front.flatMap (extended adj))).resolve (loop adj target fuel) := by
    simpa using @loop_frontier _ _ _ adj target fuel seen front []
  induction n generalizing seen front fuel entry with
  | zero =>
      obtain ⟨e, he⟩ := exists_first (hentry.holds).exists_nearer
      have first := first_extended nearest hentry he
      simp only [dist_zero] at first
      rw [scanned, scan_found h.unseen first]
      exact ⟨[e.2], rfl, e, [], he, rfl, dist_zero.mp he.holds, rfl⟩
  | succ n ih =>
      obtain ⟨e, he⟩ := exists_first (hentry.holds).exists_nearer
      have first := first_extended nearest hentry he
      have far : ∀ x ∈ front.flatMap (extended adj), x.1 ≠ target := by
        intro x hx htarget
        obtain ⟨entry', hentry', hx⟩ := List.mem_flatMap.mp hx
        obtain ⟨e', he', rfl⟩ := mem_extended.mp hx
        exact nearest entry' hentry' 1 (by omega) ⟨e', he', htarget⟩
      have old : ∀ v ∈ seen, ¬ Dist adj target (n + 1) v := by
        intro v hv hdist
        obtain ⟨entry', hentry', m, hm, hreach⟩ := h.exit hv hdist.1
        exact nearest entry' hentry' m hm hreach
      have nearest' : ∀ x ∈ fresh seen (front.flatMap (extended adj)), ∀ m ≤ n,
          ¬ Reach adj target m x.1 := by
        intro x hx m hm hreach
        obtain ⟨entry', hentry', hx⟩ := List.mem_flatMap.mp (fresh_subset hx)
        obtain ⟨e', he', rfl⟩ := mem_extended.mp hx
        exact nearest entry' hentry' (m + 1) (by omega) ⟨e', he', hreach⟩
      obtain ⟨rest, rfl, enough'⟩ := enough.next front
      obtain ⟨steps, hloop, hsteps⟩ := ih (h.next far) enough' (first.fresh old) nearest' (by
        simpa using @loop_frontier _ _ _ adj target rest _
          (fresh seen (front.flatMap (extended adj))) [])
      refine ⟨e.2 :: steps, ?_, e, steps, he, rfl, hsteps⟩
      rw [scanned, scan_more far, Scanned.resolve, List.nil_append, hloop]
      simp

theorem search_descends {all : List V} {source : V} {n fuel : ℕ}
    (enough : Enough adj all [source] fuel) (hdist : Dist adj target (n + 1) source) :
    ∃ steps, search adj target (fuel + 1) source = some steps ∧
      Descends adj target (n + 1) source steps := by
  have start : Frontier adj target [source] [(source, ([] : List S))] := by
    refine ⟨fun hmem => hdist.2 0 (by omega) (List.mem_singleton.mp hmem).symm, ?_, ?_⟩
    · intro entry hentry
      rw [List.mem_singleton.mp hentry]
      exact List.mem_singleton_self _
    · intro v hv hnew
      exact absurd hv hnew
  have nearest : ∀ x ∈ [(source, ([] : List S))], ∀ m ≤ n, ¬ Reach adj target m x.1 := by
    intro x hx m hm
    rw [List.mem_singleton.mp hx]
    exact hdist.2 m (by omega)
  exact loop_descends start enough (.here hdist) nearest

theorem exists_reach_of_loop {fuel : ℕ} {seen : List V} {queue : List (V × List S)}
    {path : List S} (h : loop adj target fuel seen queue = some path) :
    ∃ entry ∈ queue, ∃ n, Reach adj target n entry.1 := by
  induction fuel generalizing seen queue with
  | zero => simp [loop] at h
  | succ fuel ih =>
      cases queue with
      | nil => simp [loop] at h
      | cons entry queue =>
          by_cases near : ∃ x ∈ extended adj entry, x.1 = target
          · obtain ⟨x, hx, htarget⟩ := near
            obtain ⟨e, he, rfl⟩ := mem_extended.mp hx
            exact ⟨entry, List.mem_cons_self, 1, e, he, htarget⟩
          · have far : ∀ x ∈ extended adj entry, x.1 ≠ target := fun x hx htarget =>
              near ⟨x, hx, htarget⟩
            rw [loop, scan_more far, Scanned.resolve] at h
            obtain ⟨entry', hentry', n, hreach⟩ := ih h
            rcases List.mem_append.mp hentry' with hqueue | hnew
            · exact ⟨entry', List.mem_cons_of_mem _ hqueue, n, hreach⟩
            · obtain ⟨e, he, rfl⟩ := mem_extended.mp (fresh_subset hnew)
              exact ⟨entry, List.mem_cons_self, n + 1, e, he, hreach⟩

theorem search_eq_none {source : V} (h : ∀ n, ¬ Reach adj target n source) (fuel : ℕ) :
    search adj target fuel source = none := by
  cases hsearch : search adj target fuel source with
  | none => rfl
  | some path =>
      obtain ⟨entry, hentry, n, hreach⟩ := exists_reach_of_loop hsearch
      rw [List.mem_singleton.mp hentry] at hreach
      exact absurd hreach (h n)

end Result

section Rank

variable {V S : Type} {adj adj' : V → List (V × S)} {target : V} {rank : S → ℕ}

theorem least_of_descends (sorted : ∀ v, (adj v).Pairwise fun a b => rank a.2 ≤ rank b.2) {n : ℕ}
    {v : V} {steps : List S} (h : Descends adj target n v steps) :
    Least adj target rank n v steps := by
  induction n generalizing v steps with
  | zero => exact h
  | succ n ih =>
      obtain ⟨e, rest, first, rfl, hrest⟩ := h
      refine ⟨e, first.mem, rest, rfl, first.holds, fun e' he' hnear => ?_, ih hrest⟩
      rcases first.rel (sorted v) he' hnear with rfl | hle
      · exact le_refl _
      · exact hle

variable {src dst : S → V}

theorem Least.levels (ends : ∀ v, ∀ e ∈ adj v, src e.2 = v ∧ dst e.2 = e.1) {n : ℕ} {v : V}
    {steps : List S} (hdist : Dist adj target n v) (h : Least adj target rank n v steps) {s : S}
    (hs : s ∈ steps) : ∃ m < n, Dist adj target (m + 1) (src s) ∧ Dist adj target m (dst s) := by
  induction n generalizing v steps with
  | zero =>
      obtain ⟨_, rfl⟩ := h
      simp at hs
  | succ n ih =>
      obtain ⟨e, he, rest, rfl, hnear, _, hrest⟩ := h
      obtain ⟨hsrc, hdst⟩ := ends v e he
      rcases List.mem_cons.mp hs with rfl | hs
      · exact ⟨n, by omega, hsrc ▸ hdist, hdst ▸ hnear⟩
      · obtain ⟨m, hm, hlevels⟩ := ih hnear hrest hs
        exact ⟨m, by omega, hlevels⟩

theorem descends_of_least (same : ∀ v e, e ∈ adj' v ↔ e ∈ adj v)
    (ends : ∀ v, ∀ e ∈ adj v, src e.2 = v ∧ dst e.2 = e.1) {used : S → Prop}
    (listed : ∀ v, (adj' v).Pairwise fun a b =>
      rank a.2 < rank b.2 ∨ rank a.2 = rank b.2 ∧ (used b.2 → used a.2))
    {n : ℕ} {v : V} {steps : List S} (hdist : Dist adj target n v)
    (h : Least adj target rank n v steps) (hused : ∀ s ∈ steps, used s)
    (thin : ∀ s, used s → ∀ m < n, Dist adj target (m + 1) (src s) →
      Dist adj target m (dst s) → s ∈ steps) :
    Descends adj' target n v steps := by
  induction n generalizing v steps with
  | zero => exact h
  | succ n ih =>
      obtain ⟨e, he, rest, rfl, hnear, least, hrest⟩ := h
      have nearer : ∃ e ∈ adj' v, Dist adj' target n e.1 :=
        ⟨e, (same v e).mpr he, (dist_congr same).mpr hnear⟩
      obtain ⟨first, hfirst⟩ := exists_first nearer
      have hmem := (same v first).mp hfirst.mem
      have near := (dist_congr same).mp hfirst.holds
      have hfirst_used : e = first ∨ used first.2 := by
        rcases hfirst.rel (listed v) ((same v e).mpr he) ((dist_congr same).mpr hnear) with
          heq | hlt | ⟨_, hkeep⟩
        · exact Or.inl heq
        · have hle := least first hmem near
          omega
        · exact Or.inr (hkeep (hused _ List.mem_cons_self))
      have heq : e = first := by
        rcases hfirst_used with heq | hfirst_used
        · exact heq
        obtain ⟨hsrc, hdst⟩ := ends v first hmem
        obtain ⟨_, hdst'⟩ := ends v e he
        have hstep := thin first.2 hfirst_used n (by omega) (hsrc ▸ hdist) (hdst ▸ near)
        rcases List.mem_cons.mp hstep with hstep | hstep
        · exact Prod.ext (by rw [← hdst, ← hdst', hstep]) hstep.symm
        · obtain ⟨m, hm, hlevel, _⟩ := hrest.levels ends hnear hstep
          rw [hsrc] at hlevel
          have hm' := hlevel.unique hdist
          omega
      subst heq
      refine ⟨e, rest, hfirst, rfl, ih hnear hrest
        (fun s hs => hused s (List.mem_cons_of_mem _ hs)) fun s hs m hm hsrc hdst => ?_⟩
      rcases List.mem_cons.mp (thin s hs m (by omega) hsrc hdst) with rfl | hmem'
      · rw [(ends v e he).1] at hsrc
        have hm' := hsrc.unique hdist
        omega
      · exact hmem'

end Rank

end Bfs
