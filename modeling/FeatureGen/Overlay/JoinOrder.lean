import FeatureGen.Overlay.JoinPath

/-! # The order of the rows

`classify_join_path` takes the edges as its query returns them, and the query has no
order. The outcome is one for every order exactly when the best paths of the first
layer that connects the tables agree.
-/

namespace FeatureGen.Overlay

open Bfs

@[simp] theorem reverse_fromTable (e : JoinStep) : e.reverse.fromTable = e.toTable := rfl

@[simp] theorem reverse_toTable (e : JoinStep) : e.reverse.toTable = e.fromTable := rfl

@[simp] theorem invert_invert (c : Option String) : invert (invert c) = c := by
  unfold invert
  split
  · simp [*]
  · split
    · simp [*]
    · simp [*]

@[simp] theorem reverse_reverse (e : JoinStep) : e.reverse.reverse = e := by
  simp [JoinStep.reverse]

theorem mem_adjacency {edges : List Edge} {table : String} {n : String × JoinStep} :
    n ∈ adjacency edges table ↔ (n.2 ∈ edges ∨ n.2.reverse ∈ edges) ∧
      n.2.fromTable = table ∧ n.2.toTable = n.1 := by
  obtain ⟨neighbour, step⟩ := n
  simp only [adjacency, List.mem_flatMap, Edge.neighbours, List.mem_append]
  constructor
  · rintro ⟨e, he, h | h⟩
    · split at h
      · rename_i hfrom
        obtain ⟨rfl, rfl⟩ := by simpa using h
        exact ⟨Or.inl he, hfrom, rfl⟩
      · simp at h
    · split at h
      · rename_i hto
        obtain ⟨rfl, rfl⟩ := by simpa using h
        exact ⟨Or.inr (by simpa using he), hto, rfl⟩
      · simp at h
  · rintro ⟨h | h, hfrom, hto⟩
    · exact ⟨step, h, Or.inl (by simp [hfrom, hto])⟩
    · exact ⟨step.reverse, h, Or.inr (by simp [hfrom, hto])⟩

theorem adjacency_ends {edges : List Edge} (table : String) :
    ∀ n ∈ adjacency edges table, n.2.fromTable = table ∧ n.2.toTable = n.1 :=
  fun _ hn => (mem_adjacency.mp hn).2

theorem adjacency_congr {edges edges' : List Edge} (same : ∀ e, e ∈ edges' ↔ e ∈ edges)
    (table : String) (n : String × JoinStep) :
    n ∈ adjacency edges' table ↔ n ∈ adjacency edges table := by
  simp only [mem_adjacency, same]

theorem pairwise_adjacency {κ : Type} {key : JoinStep → κ} (rev : ∀ s, key s.reverse = key s)
    {r : κ → κ → Prop} (refl : ∀ k, r k k) {edges : List Edge}
    (h : edges.Pairwise fun a b => r (key a) (key b)) (table : String) :
    (adjacency edges table).Pairwise fun a b => r (key a.2) (key b.2) := by
  have own (e : Edge) : ∀ n ∈ Edge.neighbours table e, key n.2 = key e := by
    intro n hn
    rcases List.mem_append.mp hn with hn | hn
    · split at hn
      · simp_all
      · simp at hn
    · split at hn
      · simp_all
      · simp at hn
  rw [adjacency, List.pairwise_flatMap]
  refine ⟨fun e _ => ?_, h.imp fun hab x hx y hy => ?_⟩
  · refine List.pairwise_of_forall_mem_list fun a ha b hb => ?_
    rw [own e a ha, own e b hb]
    exact refl _
  · rw [own _ x hx, own _ y hy]
    exact hab

def Connected (edges : List Edge) (fromTable toTable : String) : Prop :=
  ∃ n, Reach (adjacency edges) toTable n fromTable

/-- A shortest path that takes, at each table, a hop of the best rank among those that lead
    nearer. -/
def BestPath (rank : JoinStep → ℕ) (edges : List Edge) (fromTable toTable : String)
    (steps : List JoinStep) : Prop :=
  ∃ n, Dist (adjacency edges) toTable n fromTable ∧
    Least (adjacency edges) toTable rank n fromTable steps

section Search

variable {edges edges' : List Edge} {fromTable toTable : String} {rank : JoinStep → ℕ}

theorem connected_congr (same : ∀ e, e ∈ edges' ↔ e ∈ edges) :
    Connected edges' fromTable toTable ↔ Connected edges fromTable toTable :=
  exists_congr fun _ => reach_congr (adjacency_congr same)

theorem Connected.mono (sub : ∀ e ∈ edges, e ∈ edges') (h : Connected edges fromTable toTable) :
    Connected edges' fromTable toTable := by
  obtain ⟨n, hreach⟩ := h
  refine ⟨n, hreach.mono fun table e he => ?_⟩
  obtain ⟨hedge, ends⟩ := mem_adjacency.mp he
  exact mem_adjacency.mpr ⟨hedge.imp (sub _) (sub _), ends⟩

theorem bestPath_congr (same : ∀ e, e ∈ edges' ↔ e ∈ edges) {steps : List JoinStep} :
    BestPath rank edges' fromTable toTable steps ↔ BestPath rank edges fromTable toTable steps :=
  exists_congr fun _ =>
    and_congr (dist_congr (adjacency_congr same)) (least_congr (adjacency_congr same))

theorem enough_edges :
    Enough (adjacency edges) (fromTable :: edges.flatMap fun e => [e.fromTable, e.toTable])
      [fromTable] (2 * edges.length + 1) where
  neighbours table n hn := by
    obtain ⟨hedge, _, hto⟩ := mem_adjacency.mp hn
    rw [← hto]
    rcases hedge with h | h
    · exact List.mem_cons_of_mem _ (List.mem_flatMap.mpr ⟨_, h, by simp⟩)
    · exact List.mem_cons_of_mem _ (List.mem_flatMap.mpr ⟨_, h, by simp⟩)
  nodup := by simp
  subset := by simp
  fuel := by simp [List.length_flatMap, Nat.mul_comm]

theorem bfs_descends (hne : fromTable ≠ toTable) {n : ℕ}
    (hdist : Dist (adjacency edges) toTable n fromTable) :
    ∃ steps, bfs edges fromTable toTable = some steps ∧
      Descends (adjacency edges) toTable n fromTable steps := by
  cases n with
  | zero => exact absurd (dist_zero.mp hdist) hne
  | succ n => exact search_descends enough_edges hdist

theorem bfs_eq_none (h : ¬ Connected edges fromTable toTable) :
    bfs edges fromTable toTable = none :=
  search_eq_none (fun n hn => h ⟨n, hn⟩) _

theorem exists_bestPath (hne : fromTable ≠ toTable) (rev : ∀ s, rank s.reverse = rank s)
    (sorted : edges.Pairwise fun a b => rank a ≤ rank b)
    (connected : Connected edges fromTable toTable) :
    ∃ steps, bfs edges fromTable toTable = some steps ∧
      BestPath rank edges fromTable toTable steps := by
  obtain ⟨n, hdist⟩ := exists_dist connected
  obtain ⟨steps, hbfs, hsteps⟩ := bfs_descends hne hdist
  exact ⟨steps, hbfs, n, hdist,
    least_of_descends (pairwise_adjacency rev (fun _ => le_refl _) sorted) hsteps⟩

/-- The hops of a path, in either direction. -/
def Used (steps : List JoinStep) (s : JoinStep) : Prop := s ∈ steps ∨ s.reverse ∈ steps

theorem bfs_eq_bestPath (hne : fromTable ≠ toTable) (rev : ∀ s, rank s.reverse = rank s)
    (same : ∀ e, e ∈ edges' ↔ e ∈ edges) {steps : List JoinStep}
    (listed : edges'.Pairwise fun a b =>
      rank a < rank b ∨ rank a = rank b ∧ (Used steps b → Used steps a))
    (best : BestPath rank edges fromTable toTable steps) :
    bfs edges' fromTable toTable = some steps := by
  obtain ⟨n, hdist, hleast⟩ := best
  have key_rev : ∀ s : JoinStep, (rank s.reverse, Used steps s.reverse) =
      (rank s, Used steps s) := by
    intro s
    simp only [rev, Used, reverse_reverse, Prod.mk.injEq, true_and, eq_iff_iff]
    exact or_comm
  have order : ∀ table, (adjacency edges' table).Pairwise fun a b =>
      rank a.2 < rank b.2 ∨ rank a.2 = rank b.2 ∧ (Used steps b.2 → Used steps a.2) :=
    @pairwise_adjacency _ (fun s => (rank s, Used steps s)) key_rev
      (fun k l => k.1 < l.1 ∨ k.1 = l.1 ∧ (l.2 → k.2)) (fun k => Or.inr ⟨rfl, id⟩) _ listed
  have thin : ∀ s, Used steps s → ∀ m < n, Dist (adjacency edges) toTable (m + 1) s.fromTable →
      Dist (adjacency edges) toTable m s.toTable → s ∈ steps := by
    intro s hs m _ hfrom hto
    rcases hs with hs | hs
    · exact hs
    · obtain ⟨k, _, hk, hk'⟩ := hleast.levels (fun v => adjacency_ends v) hdist hs
      have up := hk.unique hto
      have down := hk'.unique hfrom
      omega
  have descends := descends_of_least (adjacency_congr same) (fun v => adjacency_ends v) order
    hdist hleast (fun s hs => Or.inl hs) thin
  obtain ⟨steps', hbfs, hsteps'⟩ := bfs_descends hne
    ((dist_congr (adjacency_congr same)).mpr hdist)
  rw [hbfs, hsteps'.unique descends]

end Search

/-- The layers in which the classes come in. -/
def EdgeClass.rank : EdgeClass → ℕ
  | .clearing => 0
  | .unverified => 1
  | .denied => 2

/-- A hop's rank in the layers: cleared, unverified, hidden. -/
def ClassifiedEdges.rank (edges : ClassifiedEdges) (s : JoinStep) : ℕ :=
  if edges.denied.any fun e => e = s ∨ e = s.reverse then 2
  else if s.cleared then 0
  else 1

def ClassifiedEdges.authorized (edges : ClassifiedEdges) : List Edge :=
  edges.clearing ++ edges.unverified

def ClassifiedEdges.all (edges : ClassifiedEdges) : List Edge :=
  edges.authorized ++ edges.denied

/-- In the first layer that connects the tables, all best paths give one outcome. -/
structure OneBest (edges : ClassifiedEdges) (fromTable toTable : String) : Prop where
  clearing : ∀ p q, BestPath edges.rank edges.clearing fromTable toTable p →
    BestPath edges.rank edges.clearing fromTable toTable q → p = q
  authorized : ¬ Connected edges.clearing fromTable toTable →
    ∀ p q, BestPath edges.rank edges.authorized fromTable toTable p →
      BestPath edges.rank edges.authorized fromTable toTable q → p = q
  hidden : ¬ Connected edges.authorized fromTable toTable →
    ∀ p q, BestPath edges.rank edges.all fromTable toTable p →
      BestPath edges.rank edges.all fromTable toTable q →
        edges.deniedEndpoints p = edges.deniedEndpoints q

theorem rank_reverse (edges : ClassifiedEdges) (s : JoinStep) :
    edges.rank s.reverse = edges.rank s := by
  have cleared : s.reverse.cleared = s.cleared := rfl
  simp only [ClassifiedEdges.rank, cleared, reverse_reverse]
  congr 3
  funext e
  exact decide_eq_decide.mpr or_comm

/-- The rows' sensitivities are those of the nodes they join, and no two rows join one pair. -/
structure Fetched (rows : List FetchedEdge) : Prop where
  sensitivities : ∃ sensitivity : String → Option String, ∀ row ∈ rows,
    row.fromSensitivity = sensitivity row.edge.fromRef ∧
      row.toSensitivity = sensitivity row.edge.toRef
  pairs : (rows.map fun row => (row.edge.fromRef, row.edge.toRef)).Nodup
  keyed : ∀ row ∈ rows, row.edge.approvedJoinFactKey ≠ some ""

theorem Fetched.perm {rows rows' : List FetchedEdge} (h : Fetched rows) (perm : rows'.Perm rows) :
    Fetched rows' where
  sensitivities := by
    obtain ⟨sensitivity, hs⟩ := h.sensitivities
    exact ⟨sensitivity, fun row hrow => hs row (perm.mem_iff.mp hrow)⟩
  pairs := (perm.map _).nodup_iff.mpr h.pairs
  keyed row hrow := h.keyed row (perm.mem_iff.mp hrow)

section Classified

variable {rows rows' : List FetchedEdge} {roles : List String} {e : Edge}

theorem mem_edgesOf {c : EdgeClass} {allowed : List String} :
    e ∈ edgesOf c allowed rows ↔ ∃ row ∈ rows, row.edgeClass allowed = c ∧ row.edge = e := by
  simp [edgesOf, and_assoc]

theorem edgeClass_eq_denied {allowed : List String} {row : FetchedEdge} :
    row.edgeClass allowed = .denied ↔
      ¬ (visible allowed row.fromSensitivity ∧ visible allowed row.toSensitivity) := by
  unfold FetchedEdge.edgeClass
  split
  · simp [*]
  · split <;> simp_all

theorem cleared_of_edgeClass {allowed : List String} {row : FetchedEdge} {c : EdgeClass}
    (h : row.edgeClass allowed = c) (hc : c ≠ .denied) :
    row.edge.cleared = true ↔ c = .clearing := by
  subst h
  unfold FetchedEdge.edgeClass at hc ⊢
  split at hc
  · exact absurd rfl hc
  · rename_i hvisible
    rw [if_neg hvisible]
    split <;> simp [*]

theorem Fetched.denied_iff (h : Fetched rows) {allowed : List String} {row row' : FetchedEdge}
    (hrow : row ∈ rows) (hrow' : row' ∈ rows)
    (same : row'.edge = row.edge ∨ row'.edge = row.edge.reverse) :
    row'.edgeClass allowed = .denied ↔ row.edgeClass allowed = .denied := by
  obtain ⟨sensitivity, hs⟩ := h.sensitivities
  rw [edgeClass_eq_denied, edgeClass_eq_denied, (hs row hrow).1, (hs row hrow).2,
    (hs row' hrow').1, (hs row' hrow').2]
  rcases same with same | same
  · rw [same]
  · rw [same]
    exact not_congr and_comm

theorem Fetched.rank_of_mem (h : Fetched rows) {c : EdgeClass}
    (he : e ∈ edgesOf c (allowedSensitivities roles) rows) :
    (classifiedEdges rows roles).rank e = c.rank := by
  obtain ⟨row, hrow, hc, rfl⟩ := mem_edgesOf.mp he
  have hidden : ((classifiedEdges rows roles).denied.any fun e' =>
      e' = row.edge ∨ e' = row.edge.reverse) = true ↔ c = .denied := by
    simp only [List.any_eq_true, decide_eq_true_eq]
    constructor
    · rintro ⟨e', he', same⟩
      obtain ⟨row', hrow', hdenied, rfl⟩ := mem_edgesOf.mp he'
      exact hc ▸ (h.denied_iff hrow hrow' same).mp hdenied
    · rintro rfl
      exact ⟨row.edge, he, Or.inl rfl⟩
  rw [ClassifiedEdges.rank]
  cases c with
  | denied => rw [if_pos (hidden.mpr rfl), EdgeClass.rank]
  | clearing =>
      rw [if_neg (mt hidden.mp (by simp)), if_pos ((cleared_of_edgeClass hc (by simp)).mpr rfl),
        EdgeClass.rank]
  | unverified =>
      rw [if_neg (mt hidden.mp (by simp)),
        if_neg (mt (cleared_of_edgeClass hc (by simp)).mp (by simp)), EdgeClass.rank]

theorem Fetched.pairwise_layers (h : Fetched rows) {r : Edge → Edge → Prop}
    (across : ∀ a b, (classifiedEdges rows roles).rank a < (classifiedEdges rows roles).rank b →
      r a b)
    (within : ∀ c, (edgesOf c (allowedSensitivities roles) rows).Pairwise r) :
    (classifiedEdges rows roles).all.Pairwise r := by
  have below {c c' : EdgeClass} (hlt : c.rank < c'.rank) :
      ∀ a ∈ edgesOf c (allowedSensitivities roles) rows,
        ∀ b ∈ edgesOf c' (allowedSensitivities roles) rows, r a b := fun a ha b hb =>
    across a b (by rw [h.rank_of_mem ha, h.rank_of_mem hb]; exact hlt)
  refine List.pairwise_append.mpr ⟨List.pairwise_append.mpr ⟨within _, within _,
    below (by decide)⟩, within _, fun a ha b hb => ?_⟩
  rcases List.mem_append.mp ha with ha | ha
  · exact below (by decide) a ha b hb
  · exact below (by decide) a ha b hb

theorem Fetched.pairwise_rank (h : Fetched rows) :
    (classifiedEdges rows roles).all.Pairwise fun a b =>
      (classifiedEdges rows roles).rank a ≤ (classifiedEdges rows roles).rank b := by
  refine h.pairwise_layers (fun _ _ hlt => hlt.le) fun c => ?_
  refine List.pairwise_of_forall_mem_list fun a ha b hb => ?_
  rw [h.rank_of_mem ha, h.rank_of_mem hb]

instance (steps : List JoinStep) : DecidablePred (Used steps) := fun _ =>
  inferInstanceAs (Decidable (_ ∨ _))

/-- The rows, those of a path's hops first. -/
def usedFirst (steps : List JoinStep) (rows : List FetchedEdge) : List FetchedEdge :=
  (rows.filter fun row => Used steps row.edge) ++ rows.filter fun row => ¬ Used steps row.edge

theorem usedFirst_perm (steps : List JoinStep) (rows : List FetchedEdge) :
    (usedFirst steps rows).Perm rows := by
  have h := List.filter_append_perm (fun row : FetchedEdge => decide (Used steps row.edge)) rows
  simpa [usedFirst] using h

variable (roles) in
theorem Fetched.pairwise_usedFirst (h : Fetched rows) (steps : List JoinStep) :
    (classifiedEdges (usedFirst steps rows) roles).all.Pairwise fun a b =>
      (classifiedEdges (usedFirst steps rows) roles).rank a <
          (classifiedEdges (usedFirst steps rows) roles).rank b ∨
        (classifiedEdges (usedFirst steps rows) roles).rank a =
            (classifiedEdges (usedFirst steps rows) roles).rank b ∧
          (Used steps b → Used steps a) := by
  have fetched := h.perm (usedFirst_perm steps rows)
  refine fetched.pairwise_layers (fun _ _ hlt => Or.inl hlt) fun c => ?_
  have ordered : (edgesOf c (allowedSensitivities roles) (usedFirst steps rows)).Pairwise
      fun a b => Used steps b → Used steps a := by
    have first : ∀ a ∈ edgesOf c (allowedSensitivities roles)
        (rows.filter fun row => Used steps row.edge), Used steps a := by
      intro a ha
      obtain ⟨row, hrow, _, rfl⟩ := mem_edgesOf.mp ha
      simpa using (List.mem_filter.mp hrow).2
    have last : ∀ b ∈ edgesOf c (allowedSensitivities roles)
        (rows.filter fun row => ¬ Used steps row.edge), ¬ Used steps b := by
      intro b hb
      obtain ⟨row, hrow, _, rfl⟩ := mem_edgesOf.mp hb
      simpa using (List.mem_filter.mp hrow).2
    rw [usedFirst, edgesOf, List.filter_append, List.map_append]
    exact List.pairwise_append.mpr
      ⟨List.pairwise_of_forall_mem_list fun a ha _ _ _ => first a ha,
        List.pairwise_of_forall_mem_list fun _ _ b hb huse => absurd huse (last b hb),
        fun a ha _ _ _ => first a ha⟩
  refine ordered.imp_of_mem fun {a b} ha hb huse => Or.inr ⟨?_, huse⟩
  rw [fetched.rank_of_mem ha, fetched.rank_of_mem hb]

theorem edgesOf_congr (perm : rows'.Perm rows) (c : EdgeClass) (allowed : List String) (e : Edge) :
    e ∈ edgesOf c allowed rows' ↔ e ∈ edgesOf c allowed rows := by
  simp only [mem_edgesOf, perm.mem_iff]

theorem any_congr {α : Type} {l l' : List α} (same : ∀ a, a ∈ l' ↔ a ∈ l) (p : α → Bool) :
    l'.any p = l.any p := by
  rw [Bool.eq_iff_iff]
  simp only [List.any_eq_true, same]

variable (roles) in
theorem rank_congr (perm : rows'.Perm rows) :
    (classifiedEdges rows' roles).rank = (classifiedEdges rows roles).rank := by
  funext s
  have denied := any_congr (edgesOf_congr perm .denied (allowedSensitivities roles))
    fun e => decide (e = s ∨ e = s.reverse)
  exact congrArg (fun b : Bool => if b then 2 else if s.cleared then 0 else 1) denied

theorem deniedEndpoints_congr (perm : rows'.Perm rows) :
    (classifiedEdges rows' roles).deniedEndpoints =
      (classifiedEdges rows roles).deniedEndpoints := by
  funext steps
  refine List.filter_congr fun pair _ => ?_
  exact any_congr (edgesOf_congr perm .denied (allowedSensitivities roles)) _

theorem Fetched.unverifiedFact_eq_some (h : Fetched rows) {pair : String × String} {key : String} :
    (classifiedEdges rows roles).unverifiedFact pair = some key ↔
      ∃ e ∈ (classifiedEdges rows roles).unverified, (e.fromRef, e.toRef) = pair ∧
        e.approvedJoinFactKey = some key := by
  have nodup : ((classifiedEdges rows roles).unverified.reverse.map
      fun e => (e.fromRef, e.toRef)).Nodup := by
    rw [List.map_reverse, List.nodup_reverse]
    have sub : ((edgesOf .unverified (allowedSensitivities roles) rows).map
        fun e => (e.fromRef, e.toRef)).Sublist
        (rows.map fun row => (row.edge.fromRef, row.edge.toRef)) := by
      rw [edgesOf, List.map_map]
      exact List.filter_sublist.map _
    exact sub.nodup h.pairs
  rw [ClassifiedEdges.unverifiedFact, Option.bind_eq_some_iff]
  simp only [find?_key_eq_some nodup, List.mem_reverse, and_assoc]

theorem Fetched.unverifiedFact_congr (h : Fetched rows) (perm : rows'.Perm rows) :
    (classifiedEdges rows' roles).unverifiedFact = (classifiedEdges rows roles).unverifiedFact := by
  funext pair
  refine Option.ext fun key => ?_
  rw [(h.perm perm).unverifiedFact_eq_some, h.unverifiedFact_eq_some]
  simp only [classifiedEdges, edgesOf_congr perm]

theorem unverifiedEndpoints_congr {edges edges' : ClassifiedEdges}
    (same : edges'.unverifiedFact = edges.unverifiedFact) :
    edges'.unverifiedEndpoints = edges.unverifiedEndpoints := by
  funext steps
  simp only [ClassifiedEdges.unverifiedEndpoints, same]

theorem factKey_congr {edges edges' : ClassifiedEdges}
    (same : edges'.unverifiedFact = edges.unverifiedFact) : edges'.factKey = edges.factKey := by
  funext pair
  simp only [ClassifiedEdges.factKey, same]

theorem exists_mapM {α β : Type} {f : α → Option β} {l : List α}
    (h : ∀ a ∈ l, (f a).isSome = true) : ∃ bs, l.mapM f = some bs := by
  induction l with
  | nil => exact ⟨[], rfl⟩
  | cons a l ih =>
      obtain ⟨b, hb⟩ := Option.isSome_iff_exists.mp (h a List.mem_cons_self)
      obtain ⟨bs, hbs⟩ := ih fun c hc => h c (List.mem_cons_of_mem _ hc)
      exact ⟨b :: bs, by simp [hb, hbs]⟩

variable (roles) in
theorem Fetched.exists_factKeys (h : Fetched rows) (steps : List JoinStep) :
    ∃ keys, ((classifiedEdges rows roles).unverifiedEndpoints steps).mapM
      (classifiedEdges rows roles).factKey = some keys := by
  refine exists_mapM fun pair hpair => ?_
  have kept := (List.mem_filter.mp hpair).2
  simp only [Bool.decide_or, Bool.or_eq_true, decide_eq_true_eq] at kept
  cases hfact : (classifiedEdges rows roles).unverifiedFact pair with
  | none =>
      rw [hfact] at kept
      simpa [ClassifiedEdges.factKey, hfact] using kept
  | some key =>
      obtain ⟨e, he, _, hkey⟩ := h.unverifiedFact_eq_some.mp hfact
      obtain ⟨row, hrow, _, rfl⟩ := mem_edgesOf.mp he
      have nonempty : key ≠ "" := by
        rintro rfl
        exact h.keyed row hrow hkey
      simp [ClassifiedEdges.factKey, hfact, Option.filter, nonempty]

end Classified

section Outcome

variable {rows rows' : List FetchedEdge} {roles : List String} {fromTable toTable : String}

theorem classify_clearing (hne : fromTable ≠ toTable) {steps : List JoinStep}
    (h : bfs (classifiedEdges rows roles).clearing fromTable toTable = some steps) :
    classifyJoinPath rows fromTable toTable roles = some (.operational steps) := by
  simp only [classifyJoinPath, if_neg hne, h]

theorem classify_authorized (hne : fromTable ≠ toTable) {steps : List JoinStep}
    (first : bfs (classifiedEdges rows roles).clearing fromTable toTable = none)
    (h : bfs (classifiedEdges rows roles).authorized fromTable toTable = some steps) :
    classifyJoinPath rows fromTable toTable roles =
      (((classifiedEdges rows roles).unverifiedEndpoints steps).mapM
        (classifiedEdges rows roles).factKey).map
          (.unverified steps ((classifiedEdges rows roles).unverifiedEndpoints steps)) := by
  rw [ClassifiedEdges.authorized] at h
  simp only [classifyJoinPath, if_neg hne, first, h]

theorem classify_all (hne : fromTable ≠ toTable) {steps : List JoinStep}
    (first : bfs (classifiedEdges rows roles).clearing fromTable toTable = none)
    (second : bfs (classifiedEdges rows roles).authorized fromTable toTable = none)
    (h : bfs (classifiedEdges rows roles).all fromTable toTable = some steps) :
    classifyJoinPath rows fromTable toTable roles =
      some (.denied ((classifiedEdges rows roles).deniedEndpoints steps)) := by
  rw [ClassifiedEdges.authorized] at second
  rw [ClassifiedEdges.all, ClassifiedEdges.authorized] at h
  simp only [classifyJoinPath, if_neg hne, first, second, h]

theorem classify_none (hne : fromTable ≠ toTable)
    (first : bfs (classifiedEdges rows roles).clearing fromTable toTable = none)
    (second : bfs (classifiedEdges rows roles).authorized fromTable toTable = none)
    (h : bfs (classifiedEdges rows roles).all fromTable toTable = none) :
    classifyJoinPath rows fromTable toTable roles = some .noPath := by
  rw [ClassifiedEdges.authorized] at second
  rw [ClassifiedEdges.all, ClassifiedEdges.authorized] at h
  simp only [classifyJoinPath, if_neg hne, first, second, h]

theorem Fetched.exists_bestPath (h : Fetched rows) (hne : fromTable ≠ toTable)
    {layer : List Edge} (part : layer.Sublist (classifiedEdges rows roles).all)
    (connected : Connected layer fromTable toTable) :
    ∃ steps, bfs layer fromTable toTable = some steps ∧
      BestPath (classifiedEdges rows roles).rank layer fromTable toTable steps :=
  Overlay.exists_bestPath hne (rank_reverse _) (h.pairwise_rank.sublist part) connected

theorem Fetched.bfs_usedFirst (h : Fetched rows) (hne : fromTable ≠ toTable)
    {layer layer' : List Edge} {steps : List JoinStep}
    (part : layer'.Sublist (classifiedEdges (usedFirst steps rows) roles).all)
    (same : ∀ e, e ∈ layer' ↔ e ∈ layer)
    (best : BestPath (classifiedEdges rows roles).rank layer fromTable toTable steps) :
    bfs layer' fromTable toTable = some steps := by
  have listed := (h.pairwise_usedFirst roles steps).sublist part
  rw [rank_congr _ (usedFirst_perm steps rows)] at listed
  exact bfs_eq_bestPath hne (rank_reverse _) same listed best

theorem clearing_sublist (edges : ClassifiedEdges) : edges.clearing.Sublist edges.all :=
  (List.sublist_append_left _ _).trans (List.sublist_append_left _ _)

theorem authorized_sublist (edges : ClassifiedEdges) : edges.authorized.Sublist edges.all :=
  List.sublist_append_left _ _

section Layers

variable (perm : rows'.Perm rows)
include perm

variable (roles) in
theorem clearing_congr (e : Edge) :
    e ∈ (classifiedEdges rows' roles).clearing ↔ e ∈ (classifiedEdges rows roles).clearing :=
  edgesOf_congr perm _ _ e

variable (roles) in
theorem authorized_congr (e : Edge) :
    e ∈ (classifiedEdges rows' roles).authorized ↔ e ∈ (classifiedEdges rows roles).authorized := by
  rw [ClassifiedEdges.authorized, ClassifiedEdges.authorized, List.mem_append, List.mem_append]
  exact or_congr (edgesOf_congr perm _ _ e) (edgesOf_congr perm _ _ e)

theorem all_congr (e : Edge) :
    e ∈ (classifiedEdges rows' roles).all ↔ e ∈ (classifiedEdges rows roles).all := by
  rw [ClassifiedEdges.all, ClassifiedEdges.all, List.mem_append, List.mem_append]
  exact or_congr (authorized_congr _ perm e) (edgesOf_congr perm _ _ e)

end Layers

theorem Fetched.classify_congr (h : Fetched rows)
    (best : OneBest (classifiedEdges rows roles) fromTable toTable) (perm : rows'.Perm rows) :
    classifyJoinPath rows' fromTable toTable roles =
      classifyJoinPath rows fromTable toTable roles := by
  by_cases hne : fromTable = toTable
  · simp only [classifyJoinPath, if_pos hne]
  have ranks := rank_congr roles perm
  by_cases clearing : Connected (classifiedEdges rows roles).clearing fromTable toTable
  · obtain ⟨p, hp, hbest⟩ := h.exists_bestPath hne (clearing_sublist _) clearing
    obtain ⟨q, hq, hbest'⟩ := (h.perm perm).exists_bestPath hne (clearing_sublist _)
      ((connected_congr (clearing_congr _ perm)).mpr clearing)
    rw [ranks, bestPath_congr (clearing_congr _ perm)] at hbest'
    rw [classify_clearing hne hp, classify_clearing hne hq, best.clearing p q hbest hbest']
  have none := bfs_eq_none clearing
  have none' := bfs_eq_none (mt (connected_congr (clearing_congr _ perm)).mp clearing)
  by_cases authorized : Connected (classifiedEdges rows roles).authorized fromTable toTable
  · obtain ⟨p, hp, hbest⟩ := h.exists_bestPath hne (authorized_sublist _) authorized
    obtain ⟨q, hq, hbest'⟩ := (h.perm perm).exists_bestPath hne (authorized_sublist _)
      ((connected_congr (authorized_congr _ perm)).mpr authorized)
    rw [ranks, bestPath_congr (authorized_congr _ perm)] at hbest'
    rw [classify_authorized hne none hp, classify_authorized hne none' hq,
      best.authorized clearing p q hbest hbest']
    rw [unverifiedEndpoints_congr (h.unverifiedFact_congr perm),
      factKey_congr (h.unverifiedFact_congr perm)]
  have second := bfs_eq_none authorized
  have second' := bfs_eq_none (mt (connected_congr (authorized_congr _ perm)).mp authorized)
  by_cases all : Connected (classifiedEdges rows roles).all fromTable toTable
  · obtain ⟨p, hp, hbest⟩ := h.exists_bestPath hne (List.Sublist.refl _) all
    obtain ⟨q, hq, hbest'⟩ := (h.perm perm).exists_bestPath hne (List.Sublist.refl _)
      ((connected_congr (all_congr perm)).mpr all)
    rw [ranks, bestPath_congr (all_congr perm)] at hbest'
    rw [classify_all hne none second hp, classify_all hne none' second' hq,
      deniedEndpoints_congr perm, best.hidden authorized p q hbest hbest']
  · rw [classify_none hne none second (bfs_eq_none all),
      classify_none hne none' second' (bfs_eq_none (mt (connected_congr (all_congr perm)).mp all))]

theorem Fetched.oneBest (h : Fetched rows) (hne : fromTable ≠ toTable)
    (one : ∀ rows', rows'.Perm rows → classifyJoinPath rows' fromTable toTable roles =
      classifyJoinPath rows fromTable toTable roles) :
    OneBest (classifiedEdges rows roles) fromTable toTable := by
  have perm := fun steps => usedFirst_perm steps rows
  have agree (p q : List JoinStep) :
      classifyJoinPath (usedFirst p rows) fromTable toTable roles =
        classifyJoinPath (usedFirst q rows) fromTable toTable roles :=
    (one _ (perm p)).trans (one _ (perm q)).symm
  have unclear (hclear : ¬ Connected (classifiedEdges rows roles).clearing fromTable toTable)
      (p : List JoinStep) :=
    bfs_eq_none (mt (connected_congr (clearing_congr roles (perm p))).mp hclear)
  constructor
  · intro p q hp hq
    have found := agree p q
    rw [classify_clearing hne
        (h.bfs_usedFirst hne (clearing_sublist _) (clearing_congr _ (perm p)) hp),
      classify_clearing hne
        (h.bfs_usedFirst hne (clearing_sublist _) (clearing_congr _ (perm q)) hq)] at found
    simpa using found
  · intro hclear p q hp hq
    have found := agree p q
    obtain ⟨keys, hkeys⟩ := (h.perm (perm p)).exists_factKeys roles p
    obtain ⟨keys', hkeys'⟩ := (h.perm (perm q)).exists_factKeys roles q
    rw [classify_authorized hne (unclear hclear p)
        (h.bfs_usedFirst hne (authorized_sublist _) (authorized_congr _ (perm p)) hp),
      classify_authorized hne (unclear hclear q)
        (h.bfs_usedFirst hne (authorized_sublist _) (authorized_congr _ (perm q)) hq),
      hkeys, hkeys'] at found
    exact (by simpa using found : p = q ∧ _).1
  · intro hauth p q hp hq
    have hclear : ¬ Connected (classifiedEdges rows roles).clearing fromTable toTable :=
      mt (Connected.mono fun _ => List.mem_append_left _) hauth
    have second (p : List JoinStep) :=
      bfs_eq_none (mt (connected_congr (authorized_congr roles (perm p))).mp hauth)
    have found := agree p q
    rw [classify_all hne (unclear hclear p) (second p)
        (h.bfs_usedFirst hne (List.Sublist.refl _) (all_congr (perm p)) hp),
      classify_all hne (unclear hclear q) (second q)
        (h.bfs_usedFirst hne (List.Sublist.refl _) (all_congr (perm q)) hq),
      deniedEndpoints_congr (perm p), deniedEndpoints_congr (perm q)] at found
    simpa using found

end Outcome

end FeatureGen.Overlay
