import FeatureGen.Materialize.Joins
import FeatureGen.Overlay.JoinOrder

/-! # Plans and the order of the rows

The edge query of `plan_join` names no order. A plan is one for every order the rows
can come in exactly when the best paths agree, and two parallel edges of different
cardinality do not.

The hops of a plan chain its source table to its destination, and each relates a row
to at most one row of the next table wherever the stored edges keep their
cardinalities. An instance has one table to a bare name; a plan exists only where no
name on its path resolves to two schemas.
-/

namespace FeatureGen.Materialize

open FeatureGen.Overlay

section Fetched

variable {graph : Graph} {catalogSource : String}

theorem fetchEdge_eq_some {e : GraphEdge} {row : FetchedEdge}
    (h : fetchEdge graph catalogSource e = some row) :
    (e.catalogSource = catalogSource ∧ e.kind = .joins) ∧ row.edge = e.step ∧
      row.fromSensitivity =
        (graph.nodes.get? (catalogSource, e.fromRef)).bind (·.sensitivity) ∧
      row.toSensitivity = (graph.nodes.get? (catalogSource, e.toRef)).bind (·.sensitivity) := by
  simp only [fetchEdge, Option.bind_eq_bind, Option.bind_eq_some_iff, Option.guard_eq_some'] at h
  obtain ⟨_, ⟨hsource, hkind, _⟩, fromNode, hfrom, toNode, hto, hrow⟩ := h
  obtain rfl := Option.some.inj hrow
  simp [hsource, hkind, hfrom, hto]

theorem mem_edgeQuery {row : FetchedEdge} :
    row ∈ edgeQuery graph catalogSource ↔
      ∃ e ∈ graph.edges, fetchEdge graph catalogSource e = some row :=
  List.mem_filterMap

theorem pairwise_edgeQuery :
    (edgeQuery graph catalogSource).Pairwise fun a b =>
      (a.edge.fromRef, a.edge.toRef) ≠ (b.edge.fromRef, b.edge.toRef) := by
  refine List.pairwise_filterMap.mpr ?_
  have keys := List.pairwise_map.mp graph.edges.keys_nodup
  refine keys.imp fun {e e'} hne row hrow row' hrow' hpair => hne ?_
  obtain ⟨⟨hsource, hkind⟩, hedge, _⟩ := fetchEdge_eq_some hrow
  obtain ⟨⟨hsource', hkind'⟩, hedge', _⟩ := fetchEdge_eq_some hrow'
  have pair : (e.fromRef, e.toRef) = (e'.fromRef, e'.toRef) := by
    simpa only [hedge, hedge', GraphEdge.step] using hpair
  rw [GraphEdge.key, GraphEdge.key, hsource, hkind, hsource', hkind', pair]

theorem fetched_edgeQuery : Fetched (edgeQuery graph catalogSource) where
  sensitivities := by
    refine ⟨fun ref => (graph.nodes.get? (catalogSource, ref)).bind (·.sensitivity), ?_⟩
    intro row hrow
    obtain ⟨e, _, he⟩ := mem_edgeQuery.mp hrow
    obtain ⟨_, hedge, sensitivities⟩ := fetchEdge_eq_some he
    rw [hedge]
    exact sensitivities
  pairs := List.pairwise_map.mpr pairwise_edgeQuery
  keyed row hrow := by
    obtain ⟨e, he, hfetch⟩ := mem_edgeQuery.mp hrow
    rw [(fetchEdge_eq_some hfetch).2.1]
    exact graph.keyed e he

end Fetched

theorem planJoin_congr {lower : String → String} {graph : Graph} {rows rows' : List FetchedEdge}
    {catalogSource : String} {fromIdentity toIdentity : PhysicalIdentity} {roles : List String}
    (same : classifyJoinPath rows' (fold lower fromIdentity.table) (fold lower toIdentity.table)
      roles =
        classifyJoinPath rows (fold lower fromIdentity.table) (fold lower toIdentity.table) roles) :
    planJoin lower graph rows' catalogSource fromIdentity toIdentity roles =
      planJoin lower graph rows catalogSource fromIdentity toIdentity roles := by
  simp only [planJoin, same]

/-- The outcome between two tables, and every plan between them, is one for every order of the
    fetched rows exactly when the best paths agree. -/
theorem planned_by_content_iff (lower : String → String) (graph : Graph)
    (catalogSource fromTable toTable : String) (roles : List String) :
    (∀ rows, rows.Perm (edgeQuery graph catalogSource) →
      classifyJoinPath rows fromTable toTable roles =
          classifyJoinPath (edgeQuery graph catalogSource) fromTable toTable roles ∧
        ∀ fromIdentity toIdentity : PhysicalIdentity,
          fold lower fromIdentity.table = fromTable → fold lower toIdentity.table = toTable →
            planJoin lower graph rows catalogSource fromIdentity toIdentity roles =
              planJoin lower graph (edgeQuery graph catalogSource) catalogSource fromIdentity
                toIdentity roles) ↔
      fromTable = toTable ∨
        OneBest (classifiedEdges (edgeQuery graph catalogSource) roles) fromTable toTable := by
  constructor
  · intro one
    rcases eq_or_ne fromTable toTable with heq | hne
    · exact Or.inl heq
    · exact Or.inr (fetched_edgeQuery.oneBest hne fun rows perm => (one rows perm).1)
  · intro best rows perm
    have outcome : classifyJoinPath rows fromTable toTable roles =
        classifyJoinPath (edgeQuery graph catalogSource) fromTable toTable roles := by
      rcases best with heq | best
      · simp only [classifyJoinPath, if_pos heq]
      · exact fetched_edgeQuery.classify_congr best perm
    refine ⟨outcome, ?_⟩
    rintro fromIdentity toIdentity rfl rfl
    exact planJoin_congr outcome

def txnRef (column : String) : String := "public.txn." ++ column

def accountRef (column : String) : String := "public.account." ++ column

/-- A column of one of the two tables. -/
def plainNode (table objectRef : String) : GraphNode where
  catalogSource := "deposits"
  objectRef := objectRef
  tableName := table
  schemaName := some "public"
  sensitivity := none

def declaredJoin (column cardinality : String) : GraphEdge where
  catalogSource := "deposits"
  kind := .joins
  fromRef := txnRef column
  toRef := accountRef column
  cardinality := some cardinality
  approvedJoinFactKey := none
  approvedJoinStatus := none
  authority := .operational

/-- Two joins of `txn` and `account`: many to one, and one to many. -/
def parallelGraph : Graph where
  nodes := ⟨[plainNode "txn" (txnRef "owner_id"), plainNode "account" (accountRef "owner_id"),
    plainNode "txn" (txnRef "branch_id"), plainNode "account" (accountRef "branch_id")], by decide⟩
  edges := ⟨[declaredJoin "owner_id" "N:1", declaredJoin "branch_id" "1:N"], by decide⟩
  keyed := by decide
  stripped := by decide

def depositsIdentity (table : String) : PhysicalIdentity where
  catalogSource := "deposits"
  schema := "public"
  table := table

/-- Whether the join is planned is the order of the two edges. -/
theorem planned_by_row_order :
    (edgeQuery parallelGraph "deposits").reverse.Perm (edgeQuery parallelGraph "deposits") ∧
      classifyJoinPath (edgeQuery parallelGraph "deposits").reverse "txn" "account" [] ≠
        classifyJoinPath (edgeQuery parallelGraph "deposits") "txn" "account" [] ∧
      (planJoin id parallelGraph (edgeQuery parallelGraph "deposits") "deposits"
        (depositsIdentity "txn") (depositsIdentity "account") []).code = none ∧
      (planJoin id parallelGraph (edgeQuery parallelGraph "deposits").reverse "deposits"
        (depositsIdentity "txn") (depositsIdentity "account") []).code =
          some .joinFanoutUnsupported := by
  refine ⟨List.reverse_perm _, ?_, rfl, rfl⟩
  decide +kernel

end FeatureGen.Materialize

namespace FeatureGen.Materialize

open FeatureGen.Overlay Relator

/-- Rows of type `R` under bare table names, and their cells; a `NULL` is none. -/
structure Instance (R V : Type) where
  rows : String → R → Prop
  cell : R → String → Option V

section Rows

variable {R V : Type} (I : Instance R V)

/-- Rows that the hop joins. -/
def Instance.Joins (s : JoinStep) (a b : R) : Prop :=
  I.rows s.fromTable a ∧ I.rows s.toTable b ∧
    ∃ v, I.cell a s.fromRef = some v ∧ I.cell b s.toRef = some v

structure Instance.Keeps (e : JoinStep) : Prop where
  forward : e.cardinality = some "N:1" ∨ e.cardinality = some "1:1" → RightUnique (I.Joins e)
  backward : e.cardinality = some "1:N" ∨ e.cardinality = some "1:1" → LeftUnique (I.Joins e)

/-- Rows at the two ends of a walk along the hops. -/
def Instance.Follows : List JoinStep → R → R → Prop
  | [] => Eq
  | s :: steps => Relation.Comp (I.Joins s) (Instance.Follows steps)

theorem joins_reverse {s : JoinStep} {a b : R} : I.Joins s.reverse a b ↔ I.Joins s b a := by
  constructor
  · rintro ⟨ha, hb, v, hva, hvb⟩
    exact ⟨hb, ha, v, hvb, hva⟩
  · rintro ⟨hb, ha, v, hvb, hva⟩
    exact ⟨ha, hb, v, hva, hvb⟩

theorem cardinality_of_fansIn {c : Option String} (h : cardinalityVerdict c = .fansIn) :
    c = some "N:1" ∨ c = some "1:1" := by
  cases c with
  | none => simp [cardinalityVerdict] at h
  | some c =>
      by_cases hin : c ∈ fansIn
      · simpa [fansIn] using hin
      · by_cases hout : c ∈ fansOut
        · simp [cardinalityVerdict, hin, hout] at h
        · simp [cardinalityVerdict, hin, hout] at h

theorem invert_eq_manyToOne {c : Option String} (h : invert c = some "N:1") : c = some "1:N" := by
  rw [← invert_invert c, h]
  decide

theorem invert_eq_oneToOne {c : Option String} (h : invert c = some "1:1") : c = some "1:1" := by
  rw [← invert_invert c, h]
  decide

variable {I}

theorem rightUnique_joins {e s : JoinStep} (keeps : I.Keeps e) (he : s = e ∨ s.reverse = e)
    (h : cardinalityVerdict s.cardinality = .fansIn) : RightUnique (I.Joins s) := by
  have cardinality := cardinality_of_fansIn h
  rcases he with rfl | he
  · exact keeps.forward cardinality
  · obtain rfl : s = e.reverse := by rw [← he, reverse_reverse]
    have stored : e.cardinality = some "1:N" ∨ e.cardinality = some "1:1" :=
      cardinality.imp invert_eq_manyToOne invert_eq_oneToOne
    intro a b c hab hac
    exact keeps.backward stored ((joins_reverse I).mp hab) ((joins_reverse I).mp hac)

theorem rightUnique_follows {steps : List JoinStep}
    (h : ∀ s ∈ steps, RightUnique (I.Joins s)) : RightUnique (I.Follows steps) := by
  induction steps with
  | nil => exact fun _ _ _ hb hc => hb.symm.trans hc
  | cons s steps ih =>
      rintro a b c ⟨x, hax, hxb⟩ ⟨y, hay, hyc⟩
      obtain rfl := h s List.mem_cons_self hax hay
      exact ih (fun t ht => h t (List.mem_cons_of_mem _ ht)) hxb hyc

end Rows

/-- The hops lead from table to table. -/
inductive Path : String → List JoinStep → String → Prop
  | nil (table : String) : Path table [] table
  | cons (s : JoinStep) {steps : List JoinStep} {table : String}
      (rest : Path s.toTable steps table) : Path s.fromTable (s :: steps) table

theorem path_of_descends {edges : List Edge} {n : ℕ} {fromTable toTable : String}
    {steps : List JoinStep} (h : Bfs.Descends (adjacency edges) toTable n fromTable steps) :
    Path fromTable steps toTable ∧ ∀ s ∈ steps, s ∈ edges ∨ s.reverse ∈ edges := by
  induction n generalizing fromTable steps with
  | zero =>
      obtain ⟨rfl, rfl⟩ := h
      exact ⟨.nil _, by simp⟩
  | succ n ih =>
      obtain ⟨⟨next, s⟩, rest, first, rfl, hrest⟩ := h
      obtain ⟨hedge, rfl, hto⟩ := mem_adjacency.mp first.mem
      obtain rfl : s.toTable = next := hto
      obtain ⟨path, edges⟩ := ih hrest
      refine ⟨.cons s path, fun t ht => ?_⟩
      rcases List.mem_cons.mp ht with rfl | ht
      · exact hedge
      · exact edges t ht

theorem path_of_bfs {edges : List Edge} {fromTable toTable : String} {steps : List JoinStep}
    (hne : fromTable ≠ toTable) (h : bfs edges fromTable toTable = some steps) :
    Path fromTable steps toTable ∧ ∀ s ∈ steps, s ∈ edges ∨ s.reverse ∈ edges := by
  have connected : Connected edges fromTable toTable := by
    by_contra hnot
    rw [bfs_eq_none hnot] at h
    simp at h
  obtain ⟨n, hdist⟩ := Bfs.exists_dist connected
  obtain ⟨steps', hbfs, descends⟩ := bfs_descends hne hdist
  obtain rfl : steps = steps' := Option.some.inj (h.symm.trans hbfs)
  exact path_of_descends descends

theorem Path.rows {R V : Type} {I : Instance R V} {fromTable toTable : String}
    {steps : List JoinStep} (path : Path fromTable steps toTable) {a b : R}
    (ha : I.rows fromTable a) (h : I.Follows steps a b) : I.rows toTable b := by
  induction path generalizing a with
  | nil _ => exact h ▸ ha
  | cons s _ ih =>
      obtain ⟨c, hac, hcb⟩ := h
      exact ih hac.2.1 hcb

section Plan

variable {lower : String → String} {graph : Graph} {rows : List FetchedEdge}
  {catalogSource : String} {fromIdentity toIdentity : PhysicalIdentity} {roles : List String}
  {plan : JoinPlan}

theorem refuseHop_eq_none {s : JoinStep} (h : refuseHop toIdentity s = none) :
    cardinalityVerdict s.cardinality = .fansIn := by
  cases hverdict : cardinalityVerdict s.cardinality with
  | fansIn => rfl
  | fansOut => simp [refuseHop, hverdict] at h
  | unknown => simp [refuseHop, hverdict] at h

theorem planSteps_eq_plan {steps : List JoinStep}
    (h : planSteps lower graph catalogSource fromIdentity toIdentity roles steps = .plan plan) :
    plan.steps = steps ∧
      refuseAmbiguity lower graph catalogSource steps fromIdentity toIdentity = none ∧
      ∀ s ∈ steps, cardinalityVerdict s.cardinality = .fansIn := by
  unfold planSteps at h
  split at h
  · simp at h
  · rename_i clear
    split at h
    · simp at h
    · rename_i hops
      simp only [Planned.plan.injEq] at h
      exact ⟨h ▸ rfl, clear,
        fun s hs => refuseHop_eq_none (List.findSome?_eq_none_iff.mp hops s hs)⟩

theorem planJoin_eq_plan
    (h : planJoin lower graph rows catalogSource fromIdentity toIdentity roles = .plan plan) :
    ∃ steps, classifyJoinPath rows (fold lower fromIdentity.table) (fold lower toIdentity.table)
        roles = some (.operational steps) ∧
      planSteps lower graph catalogSource fromIdentity toIdentity roles steps = .plan plan := by
  unfold planJoin at h
  split at h
  · simp at h
  · split at h
    · simp at h
    · split at h
      · simp at h
      · rename_i steps outcome
        exact ⟨steps, outcome, h⟩
      · simp at h

theorem path_of_classify {fromTable toTable : String} {steps : List JoinStep}
    (h : classifyJoinPath rows fromTable toTable roles = some (.operational steps)) :
    Path fromTable steps toTable ∧
      ∀ s ∈ steps, ∃ row ∈ rows, s = row.edge ∨ s.reverse = row.edge := by
  unfold classifyJoinPath at h
  split at h
  · rename_i heq
    obtain rfl : [] = steps := by simpa using h
    exact ⟨heq ▸ .nil _, by simp⟩
  · rename_i hne
    have found : bfs (classifiedEdges rows roles).clearing fromTable toTable = some steps := by
      simp only at h
      split at h
      · rename_i hclear
        rw [hclear]
        simpa using h
      · split at h
        · simp at h
        · split at h
          · simp at h
          · simp at h
    obtain ⟨path, edges⟩ := path_of_bfs hne found
    refine ⟨path, fun s hs => ?_⟩
    rcases edges s hs with hedge | hedge
    · obtain ⟨row, hrow, _, he⟩ := mem_edgesOf.mp hedge
      exact ⟨row, hrow, Or.inl he.symm⟩
    · obtain ⟨row, hrow, _, he⟩ := mem_edgesOf.mp hedge
      exact ⟨row, hrow, Or.inr he.symm⟩

end Plan

section Names

variable (lower : String → String) (graph : Graph) (catalogSource : String)

/-- The catalog, or the caller, resolves the bare name to that schema. Names and schemas are
    the same when they fold to the same. -/
def Resolves (endpoints : List PhysicalIdentity) (name schema : String) : Prop :=
  (∃ node ∈ graph.nodes, node.catalogSource = catalogSource ∧
      fold lower node.tableName = fold lower name ∧
        ∃ s, node.schemaName = some s ∧ s ≠ "" ∧ fold lower s = schema) ∨
    ∃ e ∈ endpoints, strip e.schema ≠ "" ∧ fold lower e.table = fold lower name ∧
      fold lower e.schema = schema

/-- The bare table names of a path, its endpoints included. -/
def namesOn (steps : List JoinStep) (fromIdentity toIdentity : PhysicalIdentity) : List String :=
  fromIdentity.table :: (steps.flatMap fun s => [s.fromTable, s.toTable]) ++ [toIdentity.table]

variable {lower graph catalogSource}

theorem mem_attestedSchemas {name schema : String} :
    schema ∈ attestedSchemas lower graph catalogSource (fold lower name) ↔
      ∃ node ∈ graph.nodes, node.catalogSource = catalogSource ∧
        fold lower node.tableName = fold lower name ∧
          ∃ s, node.schemaName = some s ∧ s ≠ "" ∧ fold lower s = schema := by
  have folded : ∀ node ∈ graph.nodes, fold lower node.tableName = lower node.tableName :=
    fun node hnode => congrArg lower (graph.stripped node hnode)
  simp only [attestedSchemas, List.mem_filterMap, List.mem_filter, decide_eq_true_eq,
    Option.map_eq_some_iff, Option.filter_eq_some_iff, ← Table.mem_rows]
  constructor
  · rintro ⟨node, ⟨hnode, hsource, hname⟩, s, ⟨hs, hne⟩, hschema⟩
    exact ⟨node, hnode, hsource, (folded node hnode).trans hname, s, hs, hne, hschema⟩
  · rintro ⟨node, hnode, hsource, hname, s, hs, hne, hschema⟩
    exact ⟨node, ⟨hnode, hsource, (folded node hnode).symm.trans hname⟩, s, ⟨hs, hne⟩, hschema⟩

theorem mem_resolvedSchemas {endpoints : List PhysicalIdentity} {name schema : String} :
    schema ∈ resolvedSchemas lower endpoints (fold lower name) ↔
      ∃ e ∈ endpoints, strip e.schema ≠ "" ∧ fold lower e.table = fold lower name ∧
        fold lower e.schema = schema := by
  simp only [resolvedSchemas, List.mem_map, List.mem_filter, decide_eq_true_eq, and_assoc]

theorem mem_schemaCandidates {endpoints : List PhysicalIdentity} {name schema : String} :
    schema ∈ schemaCandidates lower graph catalogSource endpoints (fold lower name) ↔
      Resolves lower graph catalogSource endpoints name schema := by
  rw [schemaCandidates, List.mem_insertionSort, List.mem_dedup, List.mem_append,
    mem_attestedSchemas, mem_resolvedSchemas, Resolves]

theorem fold_mem_tablesOn {steps : List JoinStep} {fromIdentity toIdentity : PhysicalIdentity}
    {name : String} (h : name ∈ namesOn steps fromIdentity toIdentity) :
    fold lower name ∈ tablesOn lower steps fromIdentity toIdentity := by
  have folds : tablesOn lower steps fromIdentity toIdentity =
      ((namesOn steps fromIdentity toIdentity).map (fold lower)).dedup := by
    simp [tablesOn, namesOn, List.map_flatMap]
  rw [folds]
  exact List.mem_dedup.mpr (List.mem_map_of_mem h)

theorem resolves_unique {steps : List JoinStep} {fromIdentity toIdentity : PhysicalIdentity}
    (clear : refuseAmbiguity lower graph catalogSource steps fromIdentity toIdentity = none)
    {name schema schema' : String} (hname : name ∈ namesOn steps fromIdentity toIdentity)
    (h : Resolves lower graph catalogSource [fromIdentity, toIdentity] name schema)
    (h' : Resolves lower graph catalogSource [fromIdentity, toIdentity] name schema') :
    schema = schema' := by
  have short : (schemaCandidates lower graph catalogSource [fromIdentity, toIdentity]
      (fold lower name)).length ≤ 1 := by
    unfold refuseAmbiguity at clear
    simp only [ite_eq_left_iff, reduceCtorEq, imp_false, not_not] at clear
    simpa using List.filter_eq_nil_iff.mp clear _ (fold_mem_tablesOn hname)
  obtain ⟨i, hi, rfl⟩ := List.mem_iff_getElem.mp (mem_schemaCandidates.mpr h)
  obtain ⟨j, hj, rfl⟩ := List.mem_iff_getElem.mp (mem_schemaCandidates.mpr h')
  obtain rfl : i = j := by omega
  rfl

end Names

theorem exists_storedEdge {graph : Graph} {catalogSource : String} {rows : List FetchedEdge}
    (perm : rows.Perm (edgeQuery graph catalogSource)) {s : JoinStep}
    (h : ∃ row ∈ rows, s = row.edge ∨ s.reverse = row.edge) :
    ∃ e ∈ graph.edges, (e.catalogSource = catalogSource ∧ e.kind = .joins) ∧
      (s = e.step ∨ s.reverse = e.step) := by
  obtain ⟨row, hrow, hs⟩ := h
  obtain ⟨e, he, hfetch⟩ := mem_edgeQuery.mp (perm.mem_iff.mp hrow)
  obtain ⟨stored, hedge, _⟩ := fetchEdge_eq_some hfetch
  exact ⟨e, he, stored, by rwa [hedge] at hs⟩

/-- Following a plan takes each row of the source table to at most one row, of the destination
    table, in every instance that keeps the cardinality of each edge it traverses; and every
    bare name on the plan's path resolves to one schema. -/
theorem governed_join_functional {lower : String → String} {graph : Graph}
    {catalogSource : String} {rows : List FetchedEdge} {fromIdentity toIdentity : PhysicalIdentity}
    {roles : List String} {plan : JoinPlan} (perm : rows.Perm (edgeQuery graph catalogSource))
    (planned : planJoin lower graph rows catalogSource fromIdentity toIdentity roles =
      .plan plan) :
    (∀ (R V : Type) (I : Instance R V),
      (∀ e ∈ graph.edges, e.catalogSource = catalogSource ∧ e.kind = .joins →
        e.step ∈ plan.steps ∨ e.step.reverse ∈ plan.steps → I.Keeps e.step) →
      ∀ a, I.rows (fold lower fromIdentity.table) a →
        (∀ b, I.Follows plan.steps a b → I.rows (fold lower toIdentity.table) b) ∧
          ∀ b c, I.Follows plan.steps a b → I.Follows plan.steps a c → b = c) ∧
      ∀ name ∈ namesOn plan.steps fromIdentity toIdentity, ∀ schema schema',
        Resolves lower graph catalogSource [fromIdentity, toIdentity] name schema →
          Resolves lower graph catalogSource [fromIdentity, toIdentity] name schema' →
            schema = schema' := by
  obtain ⟨steps, outcome, passed⟩ := planJoin_eq_plan planned
  obtain ⟨rfl, clear, fansIn⟩ := planSteps_eq_plan passed
  obtain ⟨path, edges⟩ := path_of_classify outcome
  constructor
  · intro R V I keeps a ha
    refine ⟨fun b hb => path.rows ha hb, fun b c hb hc => ?_⟩
    have functional : ∀ s ∈ plan.steps, RightUnique (I.Joins s) := by
      intro s hs
      obtain ⟨e, he, stored, hse⟩ := exists_storedEdge perm (edges s hs)
      refine rightUnique_joins (keeps e he stored ?_) hse (fansIn s hs)
      exact hse.imp (fun h => by rwa [← h]) fun h => by rwa [← h, reverse_reverse]
    exact rightUnique_follows functional hb hc
  · intro name hname schema schema' h h'
    exact resolves_unique clear hname h h'

def depositsJoin (fromRef toRef cardinality : String) : GraphEdge where
  catalogSource := "deposits"
  kind := .joins
  fromRef := fromRef
  toRef := toRef
  cardinality := some cardinality
  approvedJoinFactKey := none
  approvedJoinStatus := none
  authority := .operational

def ownsTxn : GraphEdge := depositsJoin (accountRef "id") (txnRef "account_id") "1:N"

def ownedBy : GraphEdge := depositsJoin (accountRef "owner_id") "public.customer.id" "N:1"

/-- An account's transactions, and its owner. -/
def ownedGraph : Graph where
  nodes := ⟨[plainNode "txn" (txnRef "account_id"), plainNode "account" (accountRef "id"),
    plainNode "account" (accountRef "owner_id"), plainNode "customer" "public.customer.id"],
    by decide⟩
  edges := ⟨[ownsTxn, ownedBy], by decide⟩
  keyed := by decide
  stripped := by decide

/-- The plan goes back along the first edge. -/
def ownerPlan : JoinPlan where
  steps := [ownsTxn.step.reverse, ownedBy.step]
  rolesUsed := []
  fansOut := false

/-- Two transactions of one account. -/
def ledger : Instance String String where
  rows table row :=
    (table, row) ∈ [("txn", "t1"), ("txn", "t2"), ("account", "a1"), ("customer", "c1")]
  cell row ref := [(("t1", txnRef "account_id"), "a1"), (("t2", txnRef "account_id"), "a1"),
    (("a1", accountRef "id"), "a1"), (("a1", accountRef "owner_id"), "c1"),
    (("c1", "public.customer.id"), "c1")].lookup (row, ref)

theorem ledger_keeps : ∀ e ∈ ownedGraph.edges, ledger.Keeps e.step := by
  have account : ∀ r, ledger.rows "account" r → r = "a1" := by
    intro r h
    simpa [ledger] using h
  have customer : ∀ r, ledger.rows "customer" r → r = "c1" := by
    intro r h
    simpa [ledger] using h
  intro e he
  rcases List.mem_cons.mp he with rfl | he
  · refine ⟨fun h => absurd h (by decide), fun _ a a' _ h h' => ?_⟩
    rw [account a h.1, account a' h'.1]
  · obtain rfl := List.mem_singleton.mp he
    refine ⟨fun _ _ b b' h h' => ?_, fun h => absurd h (by decide)⟩
    rw [customer b h.2.1, customer b' h'.2.1]

theorem owner_plan_functional :
    planJoin id ownedGraph (edgeQuery ownedGraph "deposits") "deposits"
        (depositsIdentity "txn") (depositsIdentity "customer") [] = .plan ownerPlan ∧
      ∀ b c, ledger.Follows ownerPlan.steps "t1" b → ledger.Follows ownerPlan.steps "t1" c →
        b = c := by
  have planned : planJoin id ownedGraph (edgeQuery ownedGraph "deposits") "deposits"
      (depositsIdentity "txn") (depositsIdentity "customer") [] = .plan ownerPlan := by
    rfl
  have row : ledger.rows (fold id (depositsIdentity "txn").table) "t1" := by
    have folded : fold id (depositsIdentity "txn").table = "txn" := by decide +kernel
    rw [folded]
    simp [ledger]
  have functional := (governed_join_functional (List.Perm.refl _) planned).1 String String ledger
    (fun e he _ _ => ledger_keeps e he) "t1" row
  exact ⟨planned, functional.2⟩

end FeatureGen.Materialize
