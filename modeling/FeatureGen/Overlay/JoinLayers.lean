import FeatureGen.Overlay.JoinOrder

/-! # The layers of a join path

`classify_join_path` over a multigraph of join edges: its outcome is the first layer
that joins the tables, with a shortest chain of that layer. The hops it reports are
looked up by their column pair afterwards, so they are the unverified ones of the
chain exactly when no other edge answers for a pair.
-/

namespace FeatureGen.Overlay

open Bfs

/-- The join edges of one catalog, with the sensitivities of the columns they join. -/
structure Multigraph where
  sensitivity : String → Option String
  edges : List Edge

namespace Multigraph

def rows (g : Multigraph) : List FetchedEdge :=
  g.edges.map fun e =>
    { edge := e
      fromSensitivity := g.sensitivity e.fromRef
      toSensitivity := g.sensitivity e.toRef }

/-- Both columns of the hop are in the roles' read scope. -/
def Visible (g : Multigraph) (roles : List String) (s : JoinStep) : Prop :=
  visible (allowedSensitivities roles) (g.sensitivity s.fromRef) = true ∧
    visible (allowedSensitivities roles) (g.sensitivity s.toRef) = true

instance (g : Multigraph) (roles : List String) : DecidablePred (g.Visible roles) := fun _ =>
  inferInstanceAs (Decidable (_ ∧ _))

/-- The edges of the first layer. -/
def Clears (g : Multigraph) (roles : List String) (e : Edge) : Prop :=
  e ∈ g.edges ∧ g.Visible roles e ∧ e.cleared = true

/-- The edges of the second layer. -/
def Reads (g : Multigraph) (roles : List String) (e : Edge) : Prop :=
  e ∈ g.edges ∧ g.Visible roles e

/-- The visible edges that wait for their fact, in the order of the rows. -/
def unverified (g : Multigraph) (roles : List String) : List Edge :=
  g.edges.filter fun e => g.Visible roles e ∧ e.cleared = false

/-- The visible edges, those that clear first. -/
def readable (g : Multigraph) (roles : List String) : List Edge :=
  (g.edges.filter fun e => g.Visible roles e ∧ e.cleared = true) ++ g.unverified roles

end Multigraph

/-- A hop along an edge, or back along it with the cardinality read the other way. -/
inductive Hop (layer : Edge → Prop) : JoinStep → Prop
  | along {e : Edge} (h : layer e) : Hop layer e
  | back {e : Edge} (h : layer e) :
      Hop layer
        { e with
          fromRef := e.toRef
          toRef := e.fromRef
          cardinality := invert e.cardinality }

/-- Hops of a layer that lead from a table to a table, one after the other. -/
def Chain (layer : Edge → Prop) : String → List JoinStep → String → Prop
  | fromTable, [], toTable => fromTable = toTable
  | fromTable, s :: rest, toTable =>
      Hop layer s ∧ s.fromTable = fromTable ∧ Chain layer s.toTable rest toTable

def Joined (layer : Edge → Prop) (fromTable toTable : String) : Prop :=
  ∃ steps, Chain layer fromTable steps toTable

/-- A chain of the layer with the least number of hops. -/
def Shortest (layer : Edge → Prop) (fromTable : String) (steps : List JoinStep)
    (toTable : String) : Prop :=
  Chain layer fromTable steps toTable ∧
    ∀ other, Chain layer fromTable other toTable → steps.length ≤ other.length

theorem Hop.mono {layer layer' : Edge → Prop} {s : JoinStep} (h : Hop layer s)
    (sub : ∀ e, layer e → layer' e) : Hop layer' s := by
  cases h with
  | along he => exact .along (sub _ he)
  | back he => exact .back (sub _ he)

theorem Chain.mono {layer layer' : Edge → Prop} (sub : ∀ e, layer e → layer' e)
    {fromTable toTable : String} {steps : List JoinStep} (h : Chain layer fromTable steps toTable) :
    Chain layer' fromTable steps toTable := by
  induction steps generalizing fromTable with
  | nil => exact h
  | cons s rest ih => exact ⟨h.1.mono sub, h.2.1, ih h.2.2⟩

theorem Chain.hops {layer : Edge → Prop} {fromTable toTable : String} {steps : List JoinStep}
    (h : Chain layer fromTable steps toTable) : ∀ s ∈ steps, Hop layer s := by
  induction steps generalizing fromTable with
  | nil => simp
  | cons s rest ih =>
      intro t ht
      cases List.mem_cons.mp ht with
      | inl eq =>
          rw [eq]
          exact h.1
      | inr ht => exact ih h.2.2 t ht

section Search

variable {layer : Edge → Prop} {edges : List Edge} (same : ∀ e, e ∈ edges ↔ layer e)
  {fromTable toTable : String}

include same

theorem hop_iff {s : JoinStep} : Hop layer s ↔ s ∈ edges ∨ s.reverse ∈ edges := by
  constructor
  · intro h
    cases h with
    | along he => exact Or.inl ((same _).mpr he)
    | @back e he =>
        right
        have back : e.reverse.reverse ∈ edges := by
          rw [reverse_reverse]
          exact (same _).mpr he
        exact back
  · intro h
    cases h with
    | inl hs => exact .along ((same _).mp hs)
    | inr hs =>
        have back := Hop.back ((same _).mp hs)
        rw [show ({ s.reverse with
          fromRef := s.reverse.toRef
          toRef := s.reverse.fromRef
          cardinality := invert s.reverse.cardinality } : JoinStep) = s from
            reverse_reverse s] at back
        exact back

theorem mem_adjacency_iff {n : String × JoinStep} :
    n ∈ adjacency edges fromTable ↔
      Hop layer n.2 ∧ n.2.fromTable = fromTable ∧ n.2.toTable = n.1 := by
  rw [mem_adjacency, hop_iff same]

theorem reach_iff {n : ℕ} :
    Reach (adjacency edges) toTable n fromTable ↔
      ∃ steps, steps.length = n ∧ Chain layer fromTable steps toTable := by
  induction n generalizing fromTable with
  | zero =>
      constructor
      · intro h
        exact ⟨[], rfl, h⟩
      · intro h
        obtain ⟨steps, hlength, hchain⟩ := h
        rw [List.length_eq_zero_iff.mp hlength] at hchain
        exact hchain
  | succ n ih =>
      constructor
      · intro h
        obtain ⟨e, he, hreach⟩ := h
        obtain ⟨hop, hfrom, hto⟩ := (mem_adjacency_iff same).mp he
        obtain ⟨rest, hlength, hchain⟩ := ih.mp hreach
        exact ⟨e.2 :: rest, by rw [List.length_cons, hlength], hop, hfrom, hto ▸ hchain⟩
      · intro h
        obtain ⟨steps, hlength, hchain⟩ := h
        cases steps with
        | nil => simp at hlength
        | cons s rest =>
            obtain ⟨hop, hfrom, hrest⟩ := hchain
            have entry : (s.toTable, s) ∈ adjacency edges fromTable :=
              (mem_adjacency_iff same).mpr ⟨hop, hfrom, rfl⟩
            exact ⟨_, entry, ih.mpr ⟨rest, by simpa using hlength, hrest⟩⟩

theorem connected_iff : Connected edges fromTable toTable ↔ Joined layer fromTable toTable := by
  constructor
  · intro h
    obtain ⟨n, hreach⟩ := h
    obtain ⟨steps, _, hchain⟩ := (reach_iff same).mp hreach
    exact ⟨steps, hchain⟩
  · intro h
    obtain ⟨steps, hchain⟩ := h
    exact ⟨steps.length, (reach_iff same).mpr ⟨steps, rfl, hchain⟩⟩

theorem chain_of_descends {n : ℕ} {steps : List JoinStep}
    (h : Descends (adjacency edges) toTable n fromTable steps) :
    steps.length = n ∧ Chain layer fromTable steps toTable := by
  induction n generalizing fromTable steps with
  | zero =>
      obtain ⟨here, empty⟩ := h
      rw [empty]
      exact ⟨rfl, here⟩
  | succ n ih =>
      obtain ⟨e, rest, first, hsteps, hrest⟩ := h
      obtain ⟨hop, hfrom, hto⟩ := (mem_adjacency_iff same).mp first.mem
      obtain ⟨hlength, hchain⟩ := ih hrest
      rw [hsteps]
      exact ⟨by rw [List.length_cons, hlength], hop, hfrom, hto ▸ hchain⟩

theorem shortest_of_descends {n : ℕ} {steps : List JoinStep}
    (hdist : Dist (adjacency edges) toTable n fromTable)
    (h : Descends (adjacency edges) toTable n fromTable steps) :
    Shortest layer fromTable steps toTable := by
  obtain ⟨hlength, hchain⟩ := chain_of_descends same h
  constructor
  · exact hchain
  · intro other hother
    by_contra shorter
    have reach := (reach_iff same).mpr ⟨other, rfl, hother⟩
    exact hdist.2 other.length (by omega) reach

theorem bfs_of_joined (hne : fromTable ≠ toTable) (joined : Joined layer fromTable toTable) :
    ∃ steps, bfs edges fromTable toTable = some steps ∧
      Shortest layer fromTable steps toTable := by
  obtain ⟨n, hdist⟩ := exists_dist ((connected_iff same).mpr joined)
  obtain ⟨steps, hbfs, hsteps⟩ := bfs_descends hne hdist
  exact ⟨steps, hbfs, shortest_of_descends same hdist hsteps⟩

theorem bfs_of_not_joined (apart : ¬ Joined layer fromTable toTable) :
    bfs edges fromTable toTable = none :=
  bfs_eq_none (mt (connected_iff same).mp apart)

end Search

/-- The shortest chain that takes at each table the first listed hop to a table one nearer. -/
def Traversed (edges : List Edge) (fromTable toTable : String) (steps : List JoinStep) : Prop :=
  ∃ n, Dist (adjacency edges) toTable n fromTable ∧
    Descends (adjacency edges) toTable n fromTable steps

theorem Traversed.bfs_eq {edges : List Edge} {fromTable toTable : String} {steps : List JoinStep}
    (hne : fromTable ≠ toTable) (h : Traversed edges fromTable toTable steps) :
    bfs edges fromTable toTable = some steps := by
  obtain ⟨n, hdist, hsteps⟩ := h
  obtain ⟨steps', hbfs, hsteps'⟩ := bfs_descends hne hdist
  rw [hbfs, hsteps'.unique hsteps]

theorem traversed_of_bfs {edges : List Edge} {fromTable toTable : String} {steps : List JoinStep}
    (hne : fromTable ≠ toTable) (h : bfs edges fromTable toTable = some steps) :
    Traversed edges fromTable toTable steps := by
  by_cases connected : Connected edges fromTable toTable
  · obtain ⟨n, hdist⟩ := exists_dist connected
    obtain ⟨steps', hbfs, hsteps⟩ := bfs_descends hne hdist
    rw [h] at hbfs
    rw [Option.some.inj hbfs]
    exact ⟨n, hdist, hsteps⟩
  · rw [bfs_eq_none connected] at h
    simp at h

theorem Traversed.joined {edges : List Edge} {layer : Edge → Prop}
    (same : ∀ e, e ∈ edges ↔ layer e) {fromTable toTable : String} {steps : List JoinStep}
    (h : Traversed edges fromTable toTable steps) : Joined layer fromTable toTable := by
  obtain ⟨n, _, hsteps⟩ := h
  exact ⟨steps, (chain_of_descends same hsteps).2⟩

namespace Multigraph

variable {g : Multigraph} {roles : List String} {e : Edge}

theorem edgeClass_rows (g : Multigraph) (roles : List String) (e : Edge) :
    ({ edge := e
       fromSensitivity := g.sensitivity e.fromRef
       toSensitivity := g.sensitivity e.toRef } : FetchedEdge).edgeClass
        (allowedSensitivities roles) =
      if g.Visible roles e then if e.cleared then .clearing else .unverified else .denied := by
  by_cases hvisible : g.Visible roles e
  · rw [if_pos hvisible]
    exact if_neg (not_not_intro hvisible)
  · rw [if_neg hvisible]
    exact if_pos hvisible

theorem edgesOf_rows (c : EdgeClass) :
    edgesOf c (allowedSensitivities roles) g.rows =
      g.edges.filter fun e =>
        (if g.Visible roles e then if e.cleared then .clearing else .unverified else .denied :
          EdgeClass) = c := by
  rw [edgesOf, rows, List.filter_map, List.map_map]
  have filtered : g.edges.filter ((fun row : FetchedEdge =>
      decide (row.edgeClass (allowedSensitivities roles) = c)) ∘ fun e : Edge =>
        { edge := e
          fromSensitivity := g.sensitivity e.fromRef
          toSensitivity := g.sensitivity e.toRef }) =
      g.edges.filter fun e =>
        (if g.Visible roles e then if e.cleared then .clearing else .unverified else .denied :
          EdgeClass) = c := by
    apply List.filter_congr
    intro e _
    simp only [Function.comp_apply, edgeClass_rows]
  rw [filtered]
  exact List.map_id _

theorem clearing_rows : (classifiedEdges g.rows roles).clearing =
    g.edges.filter fun e => g.Visible roles e ∧ e.cleared = true := by
  rw [classifiedEdges, edgesOf_rows]
  apply List.filter_congr
  intro e _
  apply decide_eq_decide.mpr
  split
  · split <;> simp_all
  · simp_all

theorem unverified_rows : (classifiedEdges g.rows roles).unverified = g.unverified roles := by
  rw [classifiedEdges, unverified]
  dsimp only
  rw [edgesOf_rows]
  apply List.filter_congr
  intro e _
  apply decide_eq_decide.mpr
  split
  · split <;> simp_all
  · simp_all

theorem authorized_rows : (classifiedEdges g.rows roles).authorized = g.readable roles := by
  rw [ClassifiedEdges.authorized, clearing_rows, unverified_rows, readable]

theorem mem_denied : e ∈ (classifiedEdges g.rows roles).denied ↔
    e ∈ g.edges ∧ ¬ g.Visible roles e := by
  rw [classifiedEdges]
  dsimp only
  rw [edgesOf_rows, List.mem_filter, decide_eq_true_eq]
  apply and_congr_right
  intro _
  split
  · split <;> simp_all
  · simp_all

theorem mem_clearing : e ∈ (classifiedEdges g.rows roles).clearing ↔ g.Clears roles e := by
  rw [clearing_rows, List.mem_filter, decide_eq_true_eq, Clears]

theorem mem_unverified : e ∈ g.unverified roles ↔ g.Reads roles e ∧ e.cleared = false := by
  rw [unverified, List.mem_filter, decide_eq_true_eq, Reads, and_assoc]

theorem mem_readable : e ∈ g.readable roles ↔ g.Reads roles e := by
  rw [readable, List.mem_append, List.mem_filter, decide_eq_true_eq, mem_unverified, Reads]
  constructor
  · intro h
    cases h with
    | inl h => exact ⟨h.1, h.2.1⟩
    | inr h => exact h.1
  · intro h
    cases cleared : e.cleared with
    | true => exact Or.inl ⟨h.1, h.2, rfl⟩
    | false => exact Or.inr ⟨h, rfl⟩

theorem mem_authorized : e ∈ (classifiedEdges g.rows roles).authorized ↔ g.Reads roles e := by
  rw [authorized_rows, mem_readable]

theorem mem_all : e ∈ (classifiedEdges g.rows roles).all ↔ e ∈ g.edges := by
  rw [ClassifiedEdges.all, List.mem_append, mem_authorized, mem_denied, Reads]
  by_cases hvisible : g.Visible roles e
  · simp [hvisible]
  · simp [hvisible]

end Multigraph

end FeatureGen.Overlay
