import FeatureGen.Lib.KeySort
import FeatureGen.Lib.Levels
import FeatureGen.Overlay.JoinLayers
import FeatureGen.Overlay.JoinPath

/-! # The join neighbourhood of a table

`clearing_neighbourhood` and `clearing_reachable_tables` of `join_path.py`: the tables
that clearing joins reach, all of them or the nearest within three bounds.

The kept neighbours are the longest prefix of the candidates that fits both caps, the
candidates are the tables within the hop bound by distance and name, and every larger
bound keeps what a smaller one kept.
-/

namespace FeatureGen.Overlay

/-- `_reachable(_adjacency(edges), from_table, max_hops)`: tables with their hop distances. Each
    edge queues two tables at most. -/
def reachable (edges : List Edge) (fromTable : String) (maxHops : Option ℤ) :
    List (String × ℕ) :=
  Levels.distances (fun table => (adjacency edges table).map Prod.fst) maxHops
    (2 * edges.length + 1) fromTable

def clearingReachableTables (rows : List FetchedEdge) (fromTable : String)
    (roles : List String) : List String :=
  (reachable (classifiedEdges rows roles).clearing fromTable none).map Prod.fst

def maxHopsDefault : ℤ := 1

def maxNeighbourTables : ℤ := 20

def maxColumnsConsidered : ℤ := 300

inductive LimitReason where
  | tableCap
  | columnBudget

structure JoinNeighbourhood where
  /-- The anchor, then the kept neighbours. -/
  tables : List String
  tablesConsidered : ℕ
  tablesAvailable : ℕ
  truncated : Bool
  maxHops : ℤ
  limitReason : Option LimitReason

def JoinNeighbourhood.neighbours (neighbourhood : JoinNeighbourhood) : List String :=
  neighbourhood.tables.tail

inductive NodeKind where
  | table
  | column
  deriving DecidableEq

/-- A row of `graph_node`: what prices the budget. -/
structure PricedNode where
  kind : NodeKind
  catalogSource : String
  tableName : String
  visibleRequires : List String

/-- The row is a column of the catalog that these roles may see. -/
def PricedNode.counted (catalogSource : String) (roles : List String) (node : PricedNode) : Bool :=
  node.kind = .column ∧ node.catalogSource = catalogSource ∧
    ∀ c ∈ node.visibleRequires, c ∈ allowedSensitivities roles

/-- `_visible_column_counts`: one row for each table that has a column to count. -/
def visibleColumnCounts (nodes : List PricedNode) (catalogSource : String)
    (tables roles : List String) : List (String × ℕ) :=
  let rows := nodes.filter fun node => node.counted catalogSource roles ∧ node.tableName ∈ tables
  (rows.map (·.tableName)).dedup.map fun table =>
    (table, rows.countP fun node => node.tableName = table)

/-- `counts.get(table, 0)`. -/
def countOf (counts : List (String × ℕ)) (table : String) : ℕ := (counts.lookup table).getD 0

/-- The loop over `ordered`: it stops at the first table that would breach a bound. -/
def keepTables (tableCap columnBudget : ℤ) (count : String → ℕ) :
    List String → List String → ℤ → List String × Option LimitReason
  | [], kept, _ => (kept, none)
  | table :: rest, kept, used =>
      if tableCap ≤ kept.length then (kept, some .tableCap)
      else if columnBudget < used + count table then (kept, some .columnBudget)
      else keepTables tableCap columnBudget count rest (kept ++ [table]) (used + count table)

/-- `sorted((t for t in distance if t != from_table), key=lambda t: (distance[t], t))`. -/
def orderedTables (distance : List (String × ℕ)) (fromTable : String) : List String :=
  KeySort.sortBy (fun table => toLex (Levels.level distance table, table))
    ((distance.map Prod.fst).filter (· ≠ fromTable))

def clearingNeighbourhood (rows : List FetchedEdge) (nodes : List PricedNode)
    (catalogSource fromTable : String) (roles : List String)
    (maxHops maxTables maxColumns : Option ℤ) : JoinNeighbourhood :=
  let hops := maxHops.getD maxHopsDefault
  let tableCap := maxTables.getD maxNeighbourTables
  let columnBudget := maxColumns.getD maxColumnsConsidered
  let ordered :=
    orderedTables (reachable (classifiedEdges rows roles).clearing fromTable (some hops)) fromTable
  if ordered = [] then
    { tables := [fromTable]
      tablesConsidered := 0
      tablesAvailable := 0
      truncated := false
      maxHops := hops
      limitReason := none }
  else
    let counts := visibleColumnCounts nodes catalogSource (fromTable :: ordered) roles
    let kept := keepTables tableCap columnBudget (countOf counts) ordered []
      (countOf counts fromTable)
    { tables := fromTable :: kept.1
      tablesConsidered := kept.1.length
      tablesAvailable := ordered.length
      truncated := kept.1.length < ordered.length
      maxHops := hops
      limitReason := kept.2 }

end FeatureGen.Overlay

namespace FeatureGen.Overlay

/-- The least number of hops of a chain to the table. -/
def AtDistance (layer : Edge → Prop) (fromTable : String) (n : ℕ) (table : String) : Prop :=
  (∃ steps, steps.length = n ∧ Chain layer fromTable steps table) ∧
    ∀ steps, Chain layer fromTable steps table → n ≤ steps.length

theorem chain_append {layer : Edge → Prop} {fromTable toTable : String} {steps : List JoinStep}
    {s : JoinStep} :
    Chain layer fromTable (steps ++ [s]) toTable ↔
      Chain layer fromTable steps s.fromTable ∧ Hop layer s ∧ s.toTable = toTable := by
  induction steps generalizing fromTable with
  | nil =>
      constructor
      · intro h
        obtain ⟨hop, hfrom, hto⟩ := h
        exact ⟨hfrom.symm, hop, hto⟩
      · intro h
        obtain ⟨hfrom, hop, hto⟩ := h
        exact ⟨hop, Eq.symm hfrom, hto⟩
  | cons t rest ih =>
      rw [List.cons_append, Chain, Chain, ih]
      constructor
      · intro h
        exact ⟨⟨h.1, h.2.1, h.2.2.1⟩, h.2.2.2⟩
      · intro h
        exact ⟨h.1.1, h.1.2.1, h.1.2.2, h.2⟩

section Layer

variable {layer : Edge → Prop} {edges : List Edge} (same : ∀ e, e ∈ edges ↔ layer e)
  {fromTable : String}

def nextTables (edges : List Edge) (table : String) : List String :=
  (adjacency edges table).map Prod.fst

include same

theorem mem_nextTables {table next : String} :
    next ∈ nextTables edges table ↔
      ∃ s, Hop layer s ∧ s.fromTable = table ∧ s.toTable = next := by
  rw [nextTables, List.mem_map]
  constructor
  · intro h
    obtain ⟨n, hn, eq⟩ := h
    obtain ⟨hop, hfrom, hto⟩ := (mem_adjacency_iff same).mp hn
    exact ⟨n.2, hop, hfrom, hto.trans eq⟩
  · intro h
    obtain ⟨s, hop, hfrom, hto⟩ := h
    exact ⟨(s.toTable, s), (mem_adjacency_iff same).mpr ⟨hop, hfrom, rfl⟩, hto⟩

theorem walk_iff {n : ℕ} {table : String} :
    Levels.Walk (nextTables edges) fromTable n table ↔
      ∃ steps, steps.length = n ∧ Chain layer fromTable steps table := by
  induction n generalizing table with
  | zero =>
      constructor
      · intro h
        exact ⟨[], rfl, Eq.symm h⟩
      · intro h
        obtain ⟨steps, hlength, chain⟩ := h
        rw [List.length_eq_zero_iff.mp hlength] at chain
        exact Eq.symm chain
  | succ n ih =>
      constructor
      · intro h
        obtain ⟨u, hu, hnext⟩ := h
        obtain ⟨steps, hlength, chain⟩ := ih.mp hu
        obtain ⟨s, hop, hfrom, hto⟩ := (mem_nextTables same).mp hnext
        refine ⟨steps ++ [s], by simp [hlength], chain_append.mpr ⟨hfrom ▸ chain, hop, hto⟩⟩
      · intro h
        obtain ⟨steps, hlength, chain⟩ := h
        cases steps using List.reverseRecOn with
        | nil => simp at hlength
        | append_singleton steps s =>
            obtain ⟨before, hop, hto⟩ := chain_append.mp chain
            refine ⟨s.fromTable, ih.mpr ⟨steps, by simpa using hlength, before⟩, ?_⟩
            exact (mem_nextTables same).mpr ⟨s, hop, rfl, hto⟩

theorem distance_iff {n : ℕ} {table : String} :
    Levels.Distance (nextTables edges) fromTable n table ↔
      AtDistance layer fromTable n table := by
  rw [Levels.Distance, AtDistance, walk_iff same]
  apply and_congr_right
  intro _
  constructor
  · intro h steps chain
    by_contra shorter
    exact h steps.length (by omega) ((walk_iff same).mpr ⟨steps, rfl, chain⟩)
  · intro h m hm walk
    obtain ⟨steps, hlength, chain⟩ := (walk_iff same).mp walk
    have := h steps chain
    omega

theorem mem_reachable (maxHops : Option ℤ) :
    ((reachable edges fromTable maxHops).map Prod.fst).Nodup ∧
      ∀ table n, (table, n) ∈ reachable edges fromTable maxHops ↔
        AtDistance layer fromTable n table ∧ (n = 0 ∨ Levels.Within maxHops n) := by
  have search := @Levels.mem_distances String _ (nextTables edges) maxHops fromTable
    (fromTable :: edges.flatMap fun e => [e.fromTable, e.toTable]) (2 * edges.length + 1)
  have exact := search (by
    intro table next hnext
    obtain ⟨s, hop, _, hto⟩ := (mem_nextTables same).mp hnext
    rw [← hto]
    cases (hop_iff same).mp hop with
    | inl h => exact List.mem_cons_of_mem _ (List.mem_flatMap.mpr ⟨_, h, by simp⟩)
    | inr h => exact List.mem_cons_of_mem _ (List.mem_flatMap.mpr ⟨_, h, by simp⟩))
    List.mem_cons_self (by simp [List.length_flatMap, Nat.mul_comm])
  simp only [distance_iff same] at exact
  exact exact

end Layer

theorem AtDistance.unique {layer : Edge → Prop} {fromTable table : String} {m n : ℕ}
    (hm : AtDistance layer fromTable m table) (hn : AtDistance layer fromTable n table) :
    m = n := by
  obtain ⟨⟨steps, hlength, chain⟩, least⟩ := hm
  obtain ⟨⟨steps', hlength', chain'⟩, least'⟩ := hn
  have := least steps' chain'
  have := least' steps chain
  omega

theorem atDistance_zero {layer : Edge → Prop} {fromTable table : String} :
    AtDistance layer fromTable 0 table ↔ table = fromTable := by
  constructor
  · intro h
    obtain ⟨⟨steps, hlength, chain⟩, _⟩ := h
    rw [List.length_eq_zero_iff.mp hlength] at chain
    exact Eq.symm chain
  · intro h
    rw [h]
    exact ⟨⟨[], rfl, rfl⟩, fun _ _ => Nat.zero_le _⟩

/-- The tables at distances from one hop to the bound, by distance and then by name. -/
structure Candidates (layer : Edge → Prop) (fromTable : String) (hops : ℤ)
    (ordered : List String) : Prop where
  members : ∀ table, table ∈ ordered ↔
    ∃ n, AtDistance layer fromTable n table ∧ 1 ≤ n ∧ (n : ℤ) ≤ hops
  sorted : ordered.Pairwise fun s t => ∀ m n, AtDistance layer fromTable m s →
    AtDistance layer fromTable n t → m < n ∨ m = n ∧ s < t

section Candidates

variable {layer : Edge → Prop} {fromTable : String} {hops : ℤ} {ordered ordered' : List String}

theorem Candidates.nodup (h : Candidates layer fromTable hops ordered) : ordered.Nodup := by
  apply h.sorted.imp_of_mem
  intro s t hs _ before eq
  obtain ⟨n, hn, _⟩ := (h.members s).mp hs
  cases before n n hn (eq ▸ hn) with
  | inl lt => omega
  | inr lt => exact absurd lt.2 (by rw [eq]; exact lt_irrefl t)

theorem Candidates.unique (h : Candidates layer fromTable hops ordered)
    (h' : Candidates layer fromTable hops ordered') : ordered = ordered' := by
  have perm : ordered.Perm ordered' := by
    rw [List.perm_ext_iff_of_nodup h.nodup h'.nodup]
    intro table
    rw [h.members, h'.members]
  apply perm.eq_of_pairwise _ h.sorted h'.sorted
  intro s t hs ht before after
  obtain ⟨m, hm, _⟩ := (h.members s).mp hs
  obtain ⟨n, hn, _⟩ := (h'.members t).mp ht
  have first := before m n hm hn
  have second := after n m hn hm
  rcases first with lt | ⟨_, lt⟩
  · omega
  · rcases second with lt' | ⟨_, lt'⟩
    · omega
    · exact absurd lt (lt_asymm lt')

theorem prefix_of_filter {α : Type} {p : α → Prop} [DecidablePred p] {l : List α}
    (down : l.Pairwise fun a b => p b → p a) : l.filter p <+: l := by
  induction l with
  | nil => exact List.prefix_refl _
  | cons a l ih =>
      obtain ⟨first, rest⟩ := List.pairwise_cons.mp down
      by_cases ha : p a
      · rw [List.filter_cons_of_pos (by simpa using ha)]
        exact List.cons_prefix_cons.mpr ⟨rfl, ih rest⟩
      · have none : (a :: l).filter p = [] := by
          rw [List.filter_eq_nil_iff]
          intro b hb
          cases List.mem_cons.mp hb with
          | inl eq => simpa [eq] using ha
          | inr hb =>
              intro holds
              exact ha (first b hb (of_decide_eq_true holds))
        rw [none]
        exact List.nil_prefix

theorem Candidates.grow (h : Candidates layer fromTable hops ordered) {hops' : ℤ}
    (h' : Candidates layer fromTable hops' ordered') (le : hops ≤ hops') :
    ordered <+: ordered' := by
  classical
  have near : Candidates layer fromTable hops
      (ordered'.filter fun t => ∃ n, AtDistance layer fromTable n t ∧ (n : ℤ) ≤ hops) := by
    constructor
    · intro table
      rw [List.mem_filter, h'.members, decide_eq_true_eq]
      constructor
      · intro hmem
        obtain ⟨⟨n, hn, one, _⟩, m, hm, within⟩ := hmem
        exact ⟨n, hn, one, hn.unique hm ▸ within⟩
      · intro hmem
        obtain ⟨n, hn, one, within⟩ := hmem
        exact ⟨⟨n, hn, one, by omega⟩, n, hn, within⟩
    · exact h'.sorted.sublist List.filter_sublist
  rw [h.unique near]
  apply prefix_of_filter
  apply h'.sorted.imp_of_mem
  intro s t hs _ before within
  obtain ⟨n, hn, le'⟩ := within
  obtain ⟨m, hm, _⟩ := (h'.members s).mp hs
  refine ⟨m, hm, ?_⟩
  rcases before m n hm hn with lt | ⟨eq, _⟩
  · omega
  · omega

theorem candidates_ordered {edges : List Edge} (same : ∀ e, e ∈ edges ↔ layer e) (hops : ℤ) :
    Candidates layer fromTable hops
      (orderedTables (reachable edges fromTable (some hops)) fromTable) := by
  obtain ⟨nodup, exact⟩ := @mem_reachable layer edges same fromTable (some hops)
  have members : ∀ table, table ∈ orderedTables (reachable edges fromTable (some hops)) fromTable ↔
      ∃ n, AtDistance layer fromTable n table ∧ 1 ≤ n ∧ (n : ℤ) ≤ hops := by
    intro table
    rw [orderedTables, KeySort.mem_sortBy, List.mem_filter, List.mem_map, decide_eq_true_eq]
    constructor
    · intro h
      obtain ⟨⟨e, he, eq⟩, ne⟩ := h
      obtain ⟨dist, within⟩ := (exact e.1 e.2).mp he
      rw [eq] at dist
      refine ⟨e.2, dist, ?_, ?_⟩
      · by_contra zero
        have zero : e.2 = 0 := by omega
        rw [zero, atDistance_zero] at dist
        exact ne dist
      · cases within with
        | inl zero =>
            rw [zero, atDistance_zero] at dist
            exact absurd dist ne
        | inr within => exact within hops rfl
    · intro h
      obtain ⟨n, dist, one, le⟩ := h
      constructor
      · refine ⟨(table, n), (exact table n).mpr ⟨dist, Or.inr ?_⟩, rfl⟩
        intro b hb
        rw [← Option.some.inj hb]
        exact le
      · intro eq
        rw [eq] at dist
        have := dist.unique (atDistance_zero.mpr rfl)
        omega
  constructor
  · exact members
  · have ordered := KeySort.pairwise_sortBy
      (fun table => toLex (Levels.level (reachable edges fromTable (some hops)) table, table))
      (((reachable edges fromTable (some hops)).map Prod.fst).filter (· ≠ fromTable))
    have distinct : (orderedTables (reachable edges fromTable (some hops)) fromTable).Nodup :=
      (KeySort.perm_sortBy _ _).nodup_iff.mpr (nodup.filter _)
    apply (ordered.and distinct).imp_of_mem
    intro s t hs ht both m n hm hn
    obtain ⟨le, ne⟩ := both
    have level : ∀ u k, u ∈ orderedTables (reachable edges fromTable (some hops)) fromTable →
        AtDistance layer fromTable k u →
          Levels.level (reachable edges fromTable (some hops)) u = k := by
      intro u k hu hk
      obtain ⟨j, hj, _, within⟩ := (members u).mp hu
      apply Levels.level_eq nodup
      rw [exact]
      refine ⟨hk, Or.inr ?_⟩
      intro b hb
      rw [← Option.some.inj hb, hk.unique hj]
      exact within
    rw [Prod.Lex.le_iff, level s m hs hm, level t n ht hn] at le
    rcases le with lt | ⟨eq, le⟩
    · exact Or.inl lt
    · exact Or.inr ⟨eq, lt_of_le_of_ne le ne⟩

end Candidates

structure Fits (tableCap columnBudget : ℤ) (columns : String → ℕ) (fromTable : String)
    (kept : List String) : Prop where
  tables : (kept.length : ℤ) ≤ tableCap
  columns : (columns fromTable : ℤ) + (kept.map columns).sum ≤ columnBudget

/-- The longest of the prefixes that fit; empty also where none does. -/
structure LongestFit (tableCap columnBudget : ℤ) (columns : String → ℕ) (fromTable : String)
    (ordered kept : List String) : Prop where
  first : kept <+: ordered
  fits : kept = [] ∨ Fits tableCap columnBudget columns fromTable kept
  longest : ∀ part, part <+: ordered → Fits tableCap columnBudget columns fromTable part →
    part.length ≤ kept.length

theorem keepTables_spec (tableCap columnBudget : ℤ) (count : String → ℕ)
    (ordered kept : List String) (used : ℤ) :
    ∃ more rest, ordered = more ++ rest ∧
      (keepTables tableCap columnBudget count ordered kept used).1 = kept ++ more ∧
      ((keepTables tableCap columnBudget count ordered kept used).2.isSome = true ↔ rest ≠ []) ∧
      (more = [] ∨ ((kept ++ more).length : ℤ) ≤ tableCap ∧
        used + (more.map count).sum ≤ columnBudget) ∧
      ∀ t ∈ rest.head?, tableCap ≤ (kept ++ more).length ∨
        columnBudget < used + (more.map count).sum + count t := by
  induction ordered generalizing kept used with
  | nil => exact ⟨[], [], rfl, by simp [keepTables], by simp [keepTables], Or.inl rfl, by simp⟩
  | cons table ordered ih =>
      rw [keepTables]
      by_cases capped : tableCap ≤ kept.length
      · rw [if_pos capped]
        exact ⟨[], table :: ordered, rfl, by simp, by simp, Or.inl rfl, by simp [capped]⟩
      rw [if_neg capped]
      by_cases spent : columnBudget < used + count table
      · rw [if_pos spent]
        exact ⟨[], table :: ordered, rfl, by simp, by simp, Or.inl rfl, by simp [spent]⟩
      rw [if_neg spent]
      obtain ⟨more, rest, split, run, stopped, fits, breach⟩ :=
        ih (kept ++ [table]) (used + count table)
      refine ⟨table :: more, rest, by rw [split, List.cons_append], ?_, stopped, ?_, ?_⟩
      · rw [run, List.append_assoc, List.singleton_append]
      · right
        rw [List.map_cons, List.sum_cons, Nat.cast_add, List.append_cons]
        cases fits with
        | inl empty =>
            rw [empty]
            simp only [List.append_nil, List.length_append, List.length_singleton, List.map_nil,
              List.sum_nil]
            push_cast
            omega
        | inr fits =>
            constructor
            · exact fits.1
            · have := fits.2
              omega
      · intro t ht
        rw [List.map_cons, List.sum_cons, Nat.cast_add, List.append_cons]
        cases breach t ht with
        | inl cap => exact Or.inl cap
        | inr budget => exact Or.inr (by omega)

theorem keepTables_longest (tableCap columnBudget : ℤ) (columns : String → ℕ)
    (fromTable : String) (ordered : List String) :
    LongestFit tableCap columnBudget columns fromTable ordered
        (keepTables tableCap columnBudget columns ordered [] (columns fromTable)).1 ∧
      ((keepTables tableCap columnBudget columns ordered [] (columns fromTable)).2.isSome = true ↔
        (keepTables tableCap columnBudget columns ordered [] (columns fromTable)).1 ≠ ordered) := by
  obtain ⟨more, rest, split, run, stopped, fits, breach⟩ :=
    keepTables_spec tableCap columnBudget columns ordered [] (columns fromTable)
  rw [List.nil_append] at run fits breach
  rw [run]
  refine ⟨⟨⟨rest, split.symm⟩, ?_, ?_⟩, ?_⟩
  · cases fits with
    | inl empty => exact Or.inl empty
    | inr fits => exact Or.inr ⟨fits.1, fits.2⟩
  · intro part first fit
    by_contra longer
    obtain ⟨after, hafter⟩ := first
    have inner : more <+: part := by
      have first' : more <+: ordered := ⟨rest, split.symm⟩
      exact List.prefix_of_prefix_length_le first' ⟨after, hafter⟩ (by omega)
    obtain ⟨tail, htail⟩ := inner
    cases tail with
    | nil =>
        rw [List.append_nil] at htail
        rw [htail] at longer
        omega
    | cons t tail =>
        have next : rest = t :: tail ++ after := by
          rw [← htail, split, List.append_assoc] at hafter
          exact (List.append_cancel_left hafter).symm
        have lengths := fit.tables
        have cols := fit.columns
        rw [← htail] at lengths cols
        simp only [List.length_append, List.length_cons, List.map_append, List.map_cons,
          List.sum_append, List.sum_cons, Nat.cast_add] at lengths cols
        cases breach t (by simp [next]) with
        | inl cap => omega
        | inr budget => omega
  · rw [stopped]
    constructor
    · intro left eq
      rw [eq] at split
      exact left (List.self_eq_append_right.mp split)
    · intro ne empty
      rw [empty, List.append_nil] at split
      exact ne split.symm

theorem Fits.mono {tableCap tableCap' columnBudget columnBudget' : ℤ} {columns : String → ℕ}
    {fromTable : String} {kept : List String}
    (h : Fits tableCap columnBudget columns fromTable kept) (tables : tableCap ≤ tableCap')
    (budget : columnBudget ≤ columnBudget') :
    Fits tableCap' columnBudget' columns fromTable kept :=
  ⟨h.tables.trans tables, h.columns.trans budget⟩

theorem LongestFit.grow {tableCap tableCap' columnBudget columnBudget' : ℤ}
    {columns : String → ℕ} {fromTable : String} {ordered ordered' kept kept' : List String}
    (h : LongestFit tableCap columnBudget columns fromTable ordered kept)
    (h' : LongestFit tableCap' columnBudget' columns fromTable ordered' kept')
    (more : ordered <+: ordered') (tables : tableCap ≤ tableCap')
    (budget : columnBudget ≤ columnBudget') : kept <+: kept' := by
  cases h.fits with
  | inl empty =>
      rw [empty]
      exact List.nil_prefix
  | inr fits =>
      have first := h.first.trans more
      have length := h'.longest kept first (fits.mono tables budget)
      exact List.prefix_of_prefix_length_le first h'.first length

/-- The columns of a table that these roles may see. -/
def visibleColumns (nodes : List PricedNode) (catalogSource : String) (roles : List String)
    (table : String) : ℕ :=
  nodes.countP fun node => node.counted catalogSource roles ∧ node.tableName = table

theorem lookup_map {β : Type} (f : String → β) (tables : List String) (table : String) :
    (tables.map fun t => (t, f t)).lookup table =
      if table ∈ tables then some (f table) else none := by
  induction tables with
  | nil => simp
  | cons t tables ih =>
      rw [List.map_cons, List.lookup_cons]
      by_cases same : table = t
      · simp [same]
      · have other : (table == t) = false := by simpa using same
        rw [other]
        simp only [ih, List.mem_cons, same, false_or]

theorem countOf_visible (nodes : List PricedNode) (catalogSource : String)
    {tables : List String} (roles : List String) {table : String} (h : table ∈ tables) :
    countOf (visibleColumnCounts nodes catalogSource tables roles) table =
      visibleColumns nodes catalogSource roles table := by
  have counted : (nodes.filter fun node =>
      node.counted catalogSource roles ∧ node.tableName ∈ tables).countP
        (fun node => node.tableName = table) = visibleColumns nodes catalogSource roles table := by
    rw [List.countP_filter, visibleColumns]
    apply List.countP_congr
    intro node _
    simp only [Bool.and_eq_true, decide_eq_true_eq]
    constructor
    · intro both
      exact ⟨both.2.1, both.1⟩
    · intro both
      exact ⟨both.2, both.1, both.2 ▸ h⟩
  rw [countOf, visibleColumnCounts, lookup_map]
  split
  · exact counted
  · rename_i absent
    rw [← counted]
    symm
    apply List.countP_eq_zero.mpr
    intro node hnode same
    apply absent
    rw [List.mem_dedup]
    exact List.mem_map.mpr ⟨node, hnode, of_decide_eq_true same⟩

theorem keepTables_congr {tableCap columnBudget : ℤ} {count count' : String → ℕ}
    {ordered : List String} (same : ∀ t ∈ ordered, count t = count' t) (kept : List String)
    (used : ℤ) :
    keepTables tableCap columnBudget count ordered kept used =
      keepTables tableCap columnBudget count' ordered kept used := by
  induction ordered generalizing kept used with
  | nil => rfl
  | cons t ordered ih =>
      rw [keepTables, keepTables, same t List.mem_cons_self,
        ih fun u hu => same u (List.mem_cons_of_mem _ hu)]

/-- What a neighbourhood says of the candidates it was taken from. -/
structure Honest (tableCap columnBudget : ℤ) (columns : String → ℕ) (fromTable : String)
    (ordered : List String) (neighbourhood : JoinNeighbourhood) : Prop where
  anchor : neighbourhood.tables = fromTable :: neighbourhood.neighbours
  longest : LongestFit tableCap columnBudget columns fromTable ordered neighbourhood.neighbours
  considered : neighbourhood.tablesConsidered = neighbourhood.neighbours.length
  available : neighbourhood.tablesAvailable = ordered.length
  truncated : neighbourhood.truncated = true ↔ neighbourhood.neighbours ≠ ordered
  limited : neighbourhood.limitReason.isSome = true ↔ neighbourhood.neighbours ≠ ordered

section Neighbourhood

variable (g : Multigraph) (nodes : List PricedNode) (catalogSource fromTable : String)
  (roles : List String)

theorem neighbourhood_honest (maxHops maxTables maxColumns : Option ℤ) :
    ∃ ordered, Candidates (g.Clears roles) fromTable (maxHops.getD maxHopsDefault) ordered ∧
      Honest (maxTables.getD maxNeighbourTables) (maxColumns.getD maxColumnsConsidered)
        (visibleColumns nodes catalogSource roles) fromTable ordered
        (clearingNeighbourhood g.rows nodes catalogSource fromTable roles maxHops maxTables
          maxColumns) := by
  have candidates := @candidates_ordered (g.Clears roles) fromTable
    (classifiedEdges g.rows roles).clearing (fun e => Multigraph.mem_clearing)
    (maxHops.getD maxHopsDefault)
  refine ⟨_, candidates, ?_⟩
  generalize hordered : orderedTables (reachable (classifiedEdges g.rows roles).clearing fromTable
    (some (maxHops.getD maxHopsDefault))) fromTable = ordered
  unfold clearingNeighbourhood
  simp only [hordered]
  by_cases empty : ordered = []
  · rw [if_pos empty, empty]
    refine ⟨rfl, ⟨List.nil_prefix, Or.inl rfl, ?_⟩, rfl, rfl, ?_, ?_⟩
    · intro part first _
      rw [List.prefix_nil.mp first]
      exact Nat.le_refl _
    · simp [JoinNeighbourhood.neighbours]
    · simp [JoinNeighbourhood.neighbours]
  rw [if_neg empty]
  rw [keepTables_congr fun t ht =>
      countOf_visible nodes catalogSource roles (List.mem_cons_of_mem fromTable ht),
    countOf_visible nodes catalogSource roles List.mem_cons_self]
  obtain ⟨longest, stopped⟩ := keepTables_longest (maxTables.getD maxNeighbourTables)
    (maxColumns.getD maxColumnsConsidered) (visibleColumns nodes catalogSource roles) fromTable
    ordered
  refine ⟨rfl, longest, rfl, rfl, ?_, stopped⟩
  rw [decide_eq_true_eq]
  constructor
  · intro shorter eq
    have shorter' := shorter
    rw [show (keepTables (maxTables.getD maxNeighbourTables)
      (maxColumns.getD maxColumnsConsidered) (visibleColumns nodes catalogSource roles) ordered []
      (visibleColumns nodes catalogSource roles fromTable)).1 = ordered from eq] at shorter'
    exact lt_irrefl _ shorter'
  · intro ne
    apply lt_of_le_of_ne longest.first.length_le
    intro same
    exact ne (longest.first.eq_of_length same)

/-- For every graph, anchor and bounds: the kept neighbours are the longest prefix of the
    candidates that fits, all of them are reachable, truncation is told of exactly when it took
    place, larger bounds keep them, and the order of the edges does not matter. -/
structure BoundedWidening (maxHops maxTables maxColumns : Option ℤ) : Prop where
  honest : ∃ ordered,
    Candidates (g.Clears roles) fromTable (maxHops.getD maxHopsDefault) ordered ∧
      Honest (maxTables.getD maxNeighbourTables) (maxColumns.getD maxColumnsConsidered)
        (visibleColumns nodes catalogSource roles) fromTable ordered
        (clearingNeighbourhood g.rows nodes catalogSource fromTable roles maxHops maxTables
          maxColumns)
  reachable : ∀ table ∈ (clearingNeighbourhood g.rows nodes catalogSource fromTable roles maxHops
      maxTables maxColumns).neighbours,
    table ∈ clearingReachableTables g.rows fromTable roles
  grows : ∀ maxHops' maxTables' maxColumns' : Option ℤ,
    maxHops.getD maxHopsDefault ≤ maxHops'.getD maxHopsDefault →
    maxTables.getD maxNeighbourTables ≤ maxTables'.getD maxNeighbourTables →
    maxColumns.getD maxColumnsConsidered ≤ maxColumns'.getD maxColumnsConsidered →
      ∀ table ∈ (clearingNeighbourhood g.rows nodes catalogSource fromTable roles maxHops
          maxTables maxColumns).neighbours,
        table ∈ (clearingNeighbourhood g.rows nodes catalogSource fromTable roles maxHops'
          maxTables' maxColumns').neighbours
  unordered : ∀ edges', edges'.Perm g.edges →
    clearingNeighbourhood { g with edges := edges' }.rows nodes catalogSource fromTable roles
        maxHops maxTables maxColumns =
      clearingNeighbourhood g.rows nodes catalogSource fromTable roles maxHops maxTables
        maxColumns

theorem bounded_widening_honest (maxHops maxTables maxColumns : Option ℤ) :
    BoundedWidening g nodes catalogSource fromTable roles maxHops maxTables maxColumns := by
  obtain ⟨ordered, candidates, honest⟩ :=
    neighbourhood_honest g nodes catalogSource fromTable roles maxHops maxTables maxColumns
  constructor
  · exact ⟨ordered, candidates, honest⟩
  · intro table htable
    obtain ⟨n, dist, _, _⟩ := (candidates.members table).mp (honest.longest.first.subset htable)
    obtain ⟨_, exact⟩ := @mem_reachable (g.Clears roles) (classifiedEdges g.rows roles).clearing
      (fun e => Multigraph.mem_clearing) fromTable none
    refine List.mem_map.mpr ⟨(table, n), (exact table n).mpr ⟨dist, Or.inr ?_⟩, rfl⟩
    intro b hb
    simp at hb
  · intro maxHops' maxTables' maxColumns' hops tables columns table htable
    obtain ⟨ordered', candidates', honest'⟩ :=
      neighbourhood_honest g nodes catalogSource fromTable roles maxHops' maxTables' maxColumns'
    have more := candidates.grow candidates' hops
    exact (honest.longest.grow honest'.longest more tables columns).subset htable
  · intro edges' perm
    have same : ∀ e, e ∈ (classifiedEdges { g with edges := edges' }.rows roles).clearing ↔
        g.Clears roles e := by
      intro e
      rw [Multigraph.mem_clearing, Multigraph.Clears, Multigraph.Clears, perm.mem_iff]
      rfl
    have ordered_eq := (@candidates_ordered (g.Clears roles) fromTable _ same
      (maxHops.getD maxHopsDefault)).unique (candidates_ordered
        (fun e => @Multigraph.mem_clearing g roles e) (maxHops.getD maxHopsDefault))
    unfold clearingNeighbourhood
    simp only [ordered_eq]

end Neighbourhood

end FeatureGen.Overlay
