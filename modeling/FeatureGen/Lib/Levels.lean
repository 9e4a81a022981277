import Mathlib

/-! # Distances by breadth-first search

The loop that gives each vertex the number of steps at which it is first seen. It
does not look past a bound, and what it has seen in the end are the vertices within
the bound, each with its distance from the source.
-/

namespace Levels

variable {V : Type}

section Distance

variable (adj : V → List V) (source : V)

/-- A walk of that many steps leads from the source to the vertex. -/
def Walk : ℕ → V → Prop
  | 0, v => v = source
  | n + 1, v => ∃ u, Walk n u ∧ v ∈ adj u

/-- The least number of steps from the source. -/
def Distance (n : ℕ) (v : V) : Prop := Walk adj source n v ∧ ∀ m < n, ¬ Walk adj source m v

variable {adj source}

theorem Distance.unique {m n : ℕ} {v : V} (hm : Distance adj source m v)
    (hn : Distance adj source n v) : m = n := by
  by_contra hne
  cases Nat.lt_or_gt_of_ne hne with
  | inl h => exact hn.2 m h hm.1
  | inr h => exact hm.2 n h hn.1

theorem distance_source : Distance adj source 0 source := by
  constructor
  · rfl
  · intro m hm
    omega

end Distance

def Within (bound : Option ℤ) (n : ℕ) : Prop := ∀ b ∈ bound, (n : ℤ) ≤ b

instance (bound : Option ℤ) : DecidablePred (Within bound) := fun n =>
  match bound with
  | none => isTrue (by simp [Within])
  | some b => decidable_of_iff ((n : ℤ) ≤ b) (by simp [Within])

theorem Within.mono {bound : Option ℤ} {m n : ℕ} (h : Within bound n) (le : m ≤ n) :
    Within bound m := by
  intro b hb
  have := h b hb
  omega

/-- The vertices with the steps at which they were first seen, and those still to be looked
    from. -/
structure State (V : Type) where
  seen : List (V × ℕ)
  queue : List V

def State.keys (s : State V) : List V := s.seen.map Prod.fst

section Loop

variable [DecidableEq V]

/-- A neighbour that is new is seen and queued. -/
def see (hop : ℕ) (s : State V) (v : V) : State V :=
  if v ∈ s.keys then s else { seen := s.seen ++ [(v, hop)], queue := s.queue ++ [v] }

def level (seen : List (V × ℕ)) (v : V) : ℕ := (seen.lookup v).getD 0

variable (adj : V → List V) (bound : Option ℤ)

def loop : ℕ → State V → List (V × ℕ)
  | 0, s => s.seen
  | fuel + 1, s =>
      match s.queue with
      | [] => s.seen
      | v :: queue =>
          if Within bound (level s.seen v + 1) then
            loop fuel ((adj v).foldl (see (level s.seen v + 1)) { s with queue := queue })
          else loop fuel { s with queue := queue }

/-- The vertices within the bound, with their distances. -/
def distances (fuel : ℕ) (source : V) : List (V × ℕ) :=
  loop adj bound fuel { seen := [(source, 0)], queue := [source] }

variable {adj bound}

theorem level_eq {seen : List (V × ℕ)} (nodup : (seen.map Prod.fst).Nodup) {v : V} {n : ℕ}
    (h : (v, n) ∈ seen) : level seen v = n := by
  induction seen with
  | nil => simp at h
  | cons e seen ih =>
      rw [List.map_cons, List.nodup_cons] at nodup
      cases List.mem_cons.mp h with
      | inl eq => simp [level, List.lookup, ← eq]
      | inr h =>
          have other : v ≠ e.1 := by
            intro same
            exact nodup.1 (same ▸ List.mem_map_of_mem h)
          have step : level (e :: seen) v = level seen v := by
            rw [level, level, List.lookup_cons, beq_false_of_ne other]
          rw [step, ih nodup.2 h]

theorem foldl_see (hop : ℕ) (vs : List V) (s : State V) :
    ∃ fresh, vs.foldl (see hop) s =
        { seen := s.seen ++ fresh.map (·, hop), queue := s.queue ++ fresh } ∧
      fresh.Nodup ∧ (∀ v ∈ fresh, v ∈ vs ∧ v ∉ s.keys) ∧ ∀ v ∈ vs, v ∈ s.keys ∨ v ∈ fresh := by
  induction vs generalizing s with
  | nil => exact ⟨[], by simp⟩
  | cons w vs ih =>
      rw [List.foldl_cons]
      by_cases old : w ∈ s.keys
      · obtain ⟨fresh, run, nodup, new, all⟩ := ih s
        rw [see, if_pos old]
        refine ⟨fresh, run, nodup, ?_, ?_⟩
        · intro v hv
          exact ⟨List.mem_cons_of_mem _ (new v hv).1, (new v hv).2⟩
        · intro v hv
          cases List.mem_cons.mp hv with
          | inl eq => exact Or.inl (eq ▸ old)
          | inr hv => exact all v hv
      · obtain ⟨fresh, run, nodup, new, all⟩ :=
          ih { seen := s.seen ++ [(w, hop)], queue := s.queue ++ [w] }
        have keys : ∀ v, v ∈ ({ seen := s.seen ++ [(w, hop)], queue := s.queue ++ [w] } :
            State V).keys ↔ v ∈ s.keys ∨ v = w := by
          intro v
          simp [State.keys, or_comm]
        rw [see, if_neg old]
        refine ⟨w :: fresh, ?_, ?_, ?_, ?_⟩
        · rw [run]
          simp
        · rw [List.nodup_cons]
          exact ⟨fun hw => (new w hw).2 ((keys w).mpr (Or.inr rfl)), nodup⟩
        · intro v hv
          cases List.mem_cons.mp hv with
          | inl eq =>
              rw [eq]
              exact ⟨List.mem_cons_self, old⟩
          | inr hv =>
              have off := (new v hv).2
              rw [keys] at off
              exact ⟨List.mem_cons_of_mem _ (new v hv).1, fun hk => off (Or.inl hk)⟩
        · intro v hv
          cases List.mem_cons.mp hv with
          | inl eq => exact Or.inr (eq ▸ List.mem_cons_self)
          | inr hv =>
              cases all v hv with
              | inl hk =>
                  cases (keys v).mp hk with
                  | inl hk => exact Or.inl hk
                  | inr eq => exact Or.inr (eq ▸ List.mem_cons_self)
              | inr hf => exact Or.inr (List.mem_cons_of_mem _ hf)

/-- The queue holds vertices of one distance, then of the next one. -/
structure Waves (adj : V → List V) (source : V) (k : ℕ) (queue near far : List V) : Prop where
  split : queue = near ++ far
  near : ∀ v ∈ near, Distance adj source k v
  far : ∀ v ∈ far, Distance adj source (k + 1) v

structure Held (adj : V → List V) (source : V) (bound : Option ℤ) (s : State V) : Prop where
  nodup : s.keys.Nodup
  sound : ∀ e ∈ s.seen, Distance adj source e.2 e.1
  within : ∀ e ∈ s.seen, e.2 = 0 ∨ Within bound e.2
  started : source ∈ s.keys
  queued : ∀ v ∈ s.queue, v ∈ s.keys
  /-- The queue holds vertices of one distance, then of the next one. -/
  waves : ∃ k near far, Waves adj source k s.queue near far
  /-- What was looked from has all its neighbours seen, within the bound. -/
  closed : ∀ e ∈ s.seen, e.1 ∉ s.queue → Within bound (e.2 + 1) → ∀ v ∈ adj e.1, v ∈ s.keys

variable {source : V}

omit [DecidableEq V] in
theorem mem_keys {s : State V} {v : V} : v ∈ s.keys ↔ ∃ n, (v, n) ∈ s.seen := by
  simp [State.keys]

omit [DecidableEq V] in
theorem Waves.head {k : ℕ} {v : V} {queue near far : List V}
    (h : Waves adj source k (v :: queue) near far) :
    ∃ k' near' far', Waves adj source k' queue near' far' ∧ Distance adj source k' v := by
  cases near with
  | nil =>
      have split : v :: queue = far := h.split
      refine ⟨k + 1, queue, [], ⟨by simp, ?_, by simp⟩, h.far v (split ▸ List.mem_cons_self)⟩
      intro w hw
      exact h.far w (split ▸ List.mem_cons_of_mem _ hw)
  | cons u near =>
      obtain ⟨hv, hqueue⟩ := List.cons.inj h.split
      refine ⟨k, near, far, ⟨hqueue, ?_, h.far⟩, hv ▸ h.near u List.mem_cons_self⟩
      intro w hw
      exact h.near w (List.mem_cons_of_mem _ hw)

omit [DecidableEq V] in
theorem Waves.le {k n : ℕ} {queue near far : List V} (h : Waves adj source k queue near far)
    {v : V} (hv : v ∈ queue) (dist : Distance adj source n v) : k ≤ n := by
  rw [h.split] at hv
  cases List.mem_append.mp hv with
  | inl hv => rw [(h.near v hv).unique dist]
  | inr hv =>
      have := (h.far v hv).unique dist
      omega

omit [DecidableEq V] in
theorem Held.seen_of_walk {s : State V} (h : Held adj source bound s) {k : ℕ}
    (least : ∀ v ∈ s.queue, ∀ n, Distance adj source n v → k ≤ n)
    (reach : k = 0 ∨ Within bound k) {m : ℕ} (le : m ≤ k) {w : V}
    (walk : Walk adj source m w) : w ∈ s.keys := by
  induction m generalizing w with
  | zero =>
      rw [show w = source from walk]
      exact h.started
  | succ m ih =>
      obtain ⟨u, hu, hw⟩ := walk
      obtain ⟨n, hn⟩ := mem_keys.mp (ih (by omega) hu)
      have dist := h.sound _ hn
      have near : n ≤ m := by
        by_contra far
        exact dist.2 m (by simpa using far) hu
      have left : u ∉ s.queue := by
        intro inQueue
        have := least u inQueue n dist
        omega
      have within : Within bound (n + 1) := by
        cases reach with
        | inl zero => omega
        | inr within => exact within.mono (by omega)
      exact h.closed _ hn left within w hw

theorem Held.skip {v : V} {queue : List V} {seen : List (V × ℕ)}
    (h : Held adj source bound { seen := seen, queue := v :: queue })
    (past : ¬ Within bound (level seen v + 1)) :
    Held adj source bound { seen := seen, queue := queue } := by
  obtain ⟨k, near, far, waves⟩ := h.waves
  obtain ⟨k', near', far', waves', _⟩ := waves.head
  constructor
  · exact h.nodup
  · exact h.sound
  · exact h.within
  · exact h.started
  · intro w hw
    exact h.queued w (List.mem_cons_of_mem _ hw)
  · exact ⟨k', near', far', waves'⟩
  · intro e he left within w hw
    by_cases same : e.1 = v
    · have known : level seen v = e.2 := level_eq h.nodup (same ▸ he)
      rw [known] at past
      exact absurd within past
    · have out : e.1 ∉ v :: queue := by
        rw [List.mem_cons]
        intro hmem
        cases hmem with
        | inl eq => exact same eq
        | inr inQueue => exact left inQueue
      exact h.closed e he out within w hw

theorem Held.look {v : V} {queue : List V} {seen : List (V × ℕ)}
    (h : Held adj source bound { seen := seen, queue := v :: queue })
    (within : Within bound (level seen v + 1)) :
    Held adj source bound
      ((adj v).foldl (see (level seen v + 1)) { seen := seen, queue := queue }) := by
  obtain ⟨k₀, near₀, far₀, waves₀⟩ := h.waves
  obtain ⟨k, near, far, waves, front⟩ := waves₀.head
  obtain ⟨n, hn⟩ := mem_keys.mp (h.queued v List.mem_cons_self)
  have same : n = k := (h.sound _ hn).unique front
  rw [same] at hn
  have known : level seen v = k := level_eq h.nodup hn
  rw [known] at within ⊢
  obtain ⟨fresh, run, nodup, new, all⟩ :=
    foldl_see (k + 1) (adj v) { seen := seen, queue := queue }
  have least : ∀ w ∈ v :: queue, ∀ n, Distance adj source n w → k ≤ n := by
    intro w hw n dist
    cases List.mem_cons.mp hw with
    | inl eq => rw [front.unique (eq ▸ dist)]
    | inr hw => exact waves.le hw dist
  have level : ∀ w ∈ fresh, Distance adj source (k + 1) w := by
    intro w hw
    constructor
    · exact ⟨v, front.1, (new w hw).1⟩
    · intro m hm walk
      exact (new w hw).2 (h.seen_of_walk least (h.within _ hn) (by omega) walk)
  have keys : ∀ w, w ∈ ({ seen := seen ++ fresh.map (·, k + 1), queue := queue ++ fresh } :
      State V).keys ↔ w ∈ seen.map Prod.fst ∨ w ∈ fresh := by
    intro w
    simp [State.keys]
  rw [run]
  constructor
  · rw [State.keys, List.map_append, List.nodup_append]
    refine ⟨h.nodup, by simpa [Function.comp_def] using nodup, ?_⟩
    intro a ha b hb eq
    have hb' : b ∈ fresh := by simpa using hb
    exact (new b hb').2 (eq ▸ ha)
  · intro e he
    cases List.mem_append.mp he with
    | inl he => exact h.sound e he
    | inr he =>
        obtain ⟨w, hw, eq⟩ := List.mem_map.mp he
        rw [← eq]
        exact level w hw
  · intro e he
    cases List.mem_append.mp he with
    | inl he => exact h.within e he
    | inr he =>
        obtain ⟨w, _, eq⟩ := List.mem_map.mp he
        rw [← eq]
        exact Or.inr within
  · exact (keys source).mpr (Or.inl h.started)
  · intro w hw
    rw [keys]
    cases List.mem_append.mp hw with
    | inl hw => exact Or.inl (h.queued w (List.mem_cons_of_mem _ hw))
    | inr hw => exact Or.inr hw
  · refine ⟨k, near, far ++ fresh, ?_, waves.near, ?_⟩
    · rw [waves.split, List.append_assoc]
    · intro w hw
      cases List.mem_append.mp hw with
      | inl hw => exact waves.far w hw
      | inr hw => exact level w hw
  · intro e he left reach w hw
    rw [keys]
    cases List.mem_append.mp he with
    | inl he =>
        by_cases same : e.1 = v
        · cases all w (same ▸ hw) with
          | inl old => exact Or.inl old
          | inr hf => exact Or.inr hf
        · have out : e.1 ∉ v :: queue := by
            rw [List.mem_cons]
            intro hmem
            cases hmem with
            | inl eq => exact same eq
            | inr inQueue => exact left (List.mem_append_left _ inQueue)
          exact Or.inl (h.closed e he out reach w hw)
    | inr he =>
        obtain ⟨u, hu, eq⟩ := List.mem_map.mp he
        rw [← eq] at left
        exact absurd (List.mem_append_right _ hu) left

/-- Turns left for the vertices that are not seen yet, all of them among `all`. -/
structure Enough (adj : V → List V) (all : List V) (fuel : ℕ) (s : State V) : Prop where
  neighbours : ∀ v, ∀ w ∈ adj v, w ∈ all
  inside : ∀ v ∈ s.keys, v ∈ all
  fuel : all.length + s.queue.length ≤ fuel + s.keys.length

omit [DecidableEq V] in
theorem Enough.skip {all : List V} {fuel : ℕ} {v : V} {queue : List V} {seen : List (V × ℕ)}
    (h : Enough adj all (fuel + 1) { seen := seen, queue := v :: queue }) :
    Enough adj all fuel { seen := seen, queue := queue } := by
  constructor
  · exact h.neighbours
  · exact h.inside
  · have := h.fuel
    simp only [State.keys, List.length_cons] at this ⊢
    omega

theorem Enough.look {all : List V} {fuel hop : ℕ} {v : V} {queue : List V}
    {seen : List (V × ℕ)}
    (h : Enough adj all (fuel + 1) { seen := seen, queue := v :: queue }) :
    Enough adj all fuel ((adj v).foldl (see hop) { seen := seen, queue := queue }) := by
  obtain ⟨fresh, run, _, new, _⟩ := foldl_see hop (adj v) { seen := seen, queue := queue }
  rw [run]
  constructor
  · exact h.neighbours
  · intro w hw
    have parts : w ∈ seen.map Prod.fst ∨ w ∈ fresh := by simpa [State.keys] using hw
    cases parts with
    | inl old => exact h.inside w old
    | inr hf => exact h.neighbours v w (new w hf).1
  · have := h.fuel
    simp only [State.keys, List.length_cons, List.length_append, List.length_map] at this ⊢
    omega

theorem loop_exact {all : List V} {fuel : ℕ} {s : State V} (h : Held adj source bound s)
    (enough : Enough adj all fuel s) :
    ((loop adj bound fuel s).map Prod.fst).Nodup ∧
      ∀ v n, (v, n) ∈ loop adj bound fuel s ↔
        Distance adj source n v ∧ (n = 0 ∨ Within bound n) := by
  have done : ∀ seen : List (V × ℕ), Held adj source bound { seen := seen, queue := [] } →
      (seen.map Prod.fst).Nodup ∧ ∀ v n, (v, n) ∈ seen ↔
        Distance adj source n v ∧ (n = 0 ∨ Within bound n) := by
    intro seen h
    refine ⟨h.nodup, ?_⟩
    intro v n
    constructor
    · intro hmem
      exact ⟨h.sound _ hmem, h.within _ hmem⟩
    · intro hv
      obtain ⟨dist, within⟩ := hv
      have seenHere : v ∈ ({ seen := seen, queue := [] } : State V).keys := by
        have nothing : ∀ w ∈ ([] : List V), ∀ m, Distance adj source m w → n ≤ m := by simp
        exact h.seen_of_walk nothing within (le_refl n) dist.1
      obtain ⟨m, hm⟩ := mem_keys.mp seenHere
      rw [dist.unique (h.sound _ hm)]
      exact hm
  induction fuel generalizing s with
  | zero =>
      have keysLe := (h.nodup.subperm enough.inside).length_le
      have fuel := enough.fuel
      have empty : s.queue = [] := List.length_eq_zero_iff.mp (by omega)
      obtain ⟨seen, queue⟩ := s
      rw [show queue = [] from empty] at h
      exact done seen h
  | succ fuel ih =>
      obtain ⟨seen, queue⟩ := s
      cases queue with
      | nil => exact done seen h
      | cons v queue =>
          by_cases within : Within bound (level seen v + 1)
          · have next := ih (h.look within) enough.look
            rw [loop]
            simp only [if_pos within]
            exact next
          · have next := ih (h.skip within) enough.skip
            rw [loop]
            simp only [if_neg within]
            exact next

theorem mem_distances {all : List V} {fuel : ℕ} (neighbours : ∀ v, ∀ w ∈ adj v, w ∈ all)
    (here : source ∈ all) (enough : all.length ≤ fuel) :
    ((distances adj bound fuel source).map Prod.fst).Nodup ∧
      ∀ v n, (v, n) ∈ distances adj bound fuel source ↔
        Distance adj source n v ∧ (n = 0 ∨ Within bound n) := by
  apply loop_exact
  · constructor
    · simp [State.keys]
    · intro e he
      rw [List.mem_singleton.mp he]
      exact distance_source
    · intro e he
      rw [List.mem_singleton.mp he]
      exact Or.inl rfl
    · simp [State.keys]
    · intro v hv
      simpa [State.keys] using hv
    · refine ⟨0, [source], [], rfl, ?_, by simp⟩
      intro v hv
      rw [List.mem_singleton.mp hv]
      exact distance_source
    · intro e he left
      rw [List.mem_singleton.mp he] at left
      simp at left
  · constructor
    · exact neighbours
    · intro v hv
      have eq : v = source := by simpa [State.keys] using hv
      exact eq ▸ here
    · simpa [State.keys] using enough

end Loop

end Levels
