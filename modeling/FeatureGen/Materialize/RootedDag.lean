import Mathlib
import FeatureGen.Materialize.OperatorGraphV2

/-! # Operator graphs are rooted

What the construction of an operator graph admits, for any assignment of ids to the
nodes: a graph without a cycle, all of which leads to one terminal.
-/

namespace FeatureGen.OperatorGraph

variable {Payload : OperatorKindV2 → Type} (nodeId : OperatorNodeV2 Payload → String)

/-- The node `a` has the input `b`. -/
def Reads (nodes : List (OperatorNodeV2 Payload)) (a b : String) : Prop :=
  ∃ node ∈ nodes, nodeId node = a ∧ b ∈ node.inputs

/-- An edge of the graph: `a` is an input of `b`. -/
def Feeds (nodes : List (OperatorNodeV2 Payload)) (a b : String) : Prop := Reads nodeId nodes b a

/-- Every input names a node. -/
def Closed (nodes : List (OperatorNodeV2 Payload)) : Prop :=
  ∀ node ∈ nodes, ∀ input ∈ node.inputs, input ∈ ids nodeId nodes

structure RootedDag (nodes : List (OperatorNodeV2 Payload)) : Prop where
  nonempty : nodes ≠ []
  distinct : (ids nodeId nodes).Nodup
  closed : Closed nodeId nodes
  acyclic : ∀ id, ¬ Relation.TransGen (Reads nodeId nodes) id id
  root : ∃! id, id ∈ ids nodeId nodes ∧ ∀ node ∈ nodes, id ∉ node.inputs

variable {nodeId} {nodes : List (OperatorNodeV2 Payload)}

theorem mem_ids {id : String} : id ∈ ids nodeId nodes ↔ ∃ node ∈ nodes, nodeId node = id :=
  List.mem_map

theorem find?_of_distinct (distinct : (ids nodeId nodes).Nodup) {node : OperatorNodeV2 Payload}
    (hnode : node ∈ nodes) : (nodes.find? fun m => nodeId m = nodeId node) = some node := by
  have some' : (nodes.find? fun m => nodeId m = nodeId node).isSome := by
    rw [List.find?_isSome]
    exact ⟨node, hnode, by simp⟩
  obtain ⟨found, hfound⟩ := Option.isSome_iff_exists.mp some'
  have same : nodeId found = nodeId node := by simpa using List.find?_some hfound
  rw [hfound, List.inj_on_of_nodup_map distinct (List.mem_of_find?_eq_some hfound) hnode same]

theorem mem_inputsOf (distinct : (ids nodeId nodes).Nodup) {a b : String} :
    b ∈ inputsOf nodeId nodes a ↔ Reads nodeId nodes a b := by
  constructor
  · intro hb
    rw [inputsOf] at hb
    cases hfind : nodes.find? fun node => nodeId node = a with
    | none =>
        rw [hfind] at hb
        simp at hb
    | some node =>
        rw [hfind] at hb
        have same : nodeId node = a := by simpa using List.find?_some hfind
        exact ⟨node, List.mem_of_find?_eq_some hfind, same, by simpa using hb⟩
  · intro reads
    obtain ⟨node, hnode, rfl, hb⟩ := reads
    rw [inputsOf, find?_of_distinct distinct hnode]
    exact hb

theorem firstDuplicate_eq_none {seen keys : List String} :
    firstDuplicate seen keys = none ↔ keys.Nodup ∧ ∀ id ∈ keys, id ∉ seen := by
  induction keys generalizing seen with
  | nil => simp [firstDuplicate]
  | cons id rest ih =>
      rw [firstDuplicate]
      split
      · rename_i again
        have hid : id ∈ seen := by simpa using again
        simp [hid]
      · rename_i fresh
        have hid : id ∉ seen := by simpa using fresh
        rw [ih, List.nodup_cons]
        constructor
        · intro h
          have notLater : id ∉ rest := fun hmem => h.2 id hmem List.mem_cons_self
          refine ⟨⟨notLater, h.1⟩, ?_⟩
          intro other hother
          cases List.mem_cons.mp hother with
          | inl eq =>
              rw [eq]
              exact hid
          | inr later => exact fun hseen => h.2 other later (List.mem_cons_of_mem _ hseen)
        · intro h
          refine ⟨h.1.2, ?_⟩
          intro other later hother
          cases List.mem_cons.mp hother with
          | inl eq =>
              rw [eq] at later
              exact h.1.1 later
          | inr hseen => exact h.2 other (List.mem_cons_of_mem _ later) hseen

theorem firstDangling_eq_none : firstDangling nodeId nodes = none ↔ Closed nodeId nodes := by
  rw [firstDangling, List.findSome?_eq_none_iff, Closed]
  simp

theorem path_inputsOf (distinct : (ids nodeId nodes).Nodup) :
    Dfs.Path (inputsOf nodeId nodes) = Relation.TransGen (Reads nodeId nodes) := by
  rw [Dfs.Path]
  congr 1
  funext a b
  exact propext (mem_inputsOf distinct)

theorem closed_inputsOf (distinct : (ids nodeId nodes).Nodup) (closed : Closed nodeId nodes) :
    ∀ v ∈ ids nodeId nodes, ∀ y ∈ inputsOf nodeId nodes v, y ∈ ids nodeId nodes := by
  intro v _ y hy
  obtain ⟨node, hnode, _, hinput⟩ := (mem_inputsOf distinct).mp hy
  exact closed node hnode y hinput

theorem mem_ids_of_cycle {id : String} (h : Relation.TransGen (Reads nodeId nodes) id id) :
    id ∈ ids nodeId nodes := by
  obtain ⟨next, edge, _⟩ := Relation.TransGen.head'_iff.mp h
  obtain ⟨node, hnode, hid, _⟩ := edge
  exact mem_ids.mpr ⟨node, hnode, hid⟩

theorem checkAcyclic_cases (distinct : (ids nodeId nodes).Nodup) (closed : Closed nodeId nodes) :
    ((∀ id, ¬ Relation.TransGen (Reads nodeId nodes) id id) ∧
        checkAcyclic nodeId nodes = some (.ok ())) ∨
      ((∃ id, Relation.TransGen (Reads nodeId nodes) id id) ∧
        ∃ input, checkAcyclic nodeId nodes = some (.error input)) := by
  have walk := Dfs.walk_exact (closed_inputsOf distinct closed)
  rw [path_inputsOf distinct] at walk
  cases walk with
  | inl fine =>
      obtain ⟨acyclic, colour, run⟩ := fine
      left
      refine ⟨fun id cycle => acyclic id (mem_ids_of_cycle cycle) cycle, ?_⟩
      rw [checkAcyclic, run]
      rfl
  | inr cyclic =>
      obtain ⟨⟨id, _, cycle⟩, input, run⟩ := cyclic
      right
      refine ⟨⟨id, cycle⟩, input, ?_⟩
      rw [checkAcyclic, run]
      rfl

theorem mem_terminals {id : String} :
    id ∈ terminals nodeId nodes ↔ id ∈ ids nodeId nodes ∧ ∀ node ∈ nodes, id ∉ node.inputs := by
  simp [terminals, consumed]

theorem length_terminals (distinct : (ids nodeId nodes).Nodup) :
    (terminals nodeId nodes).length = 1 ↔
      ∃! id, id ∈ ids nodeId nodes ∧ ∀ node ∈ nodes, id ∉ node.inputs := by
  have nodup : (terminals nodeId nodes).Nodup := distinct.filter _
  constructor
  · intro one
    obtain ⟨id, hid⟩ := List.length_eq_one_iff.mp one
    exists id
    constructor
    · exact mem_terminals.mp (by simp [hid])
    · intro other hother
      have mem := mem_terminals.mpr hother
      rw [hid] at mem
      exact List.mem_singleton.mp mem
  · intro root
    obtain ⟨id, hid, unique⟩ := root
    have single : terminals nodeId nodes = [id] := by
      apply List.Perm.eq_singleton
      rw [List.perm_ext_iff_of_nodup nodup (List.nodup_singleton id)]
      intro other
      rw [List.mem_singleton]
      constructor
      · intro mem
        exact unique other (mem_terminals.mp mem)
      · intro eq
        rw [eq]
        exact mem_terminals.mpr hid
    rw [single]
    rfl

/-- The checks of the construction: they end, and they pass exactly for a rooted graph
    without a cycle. -/
theorem validate_cases :
    (∃ answer, validate nodeId nodes = some answer) ∧
      (validate nodeId nodes = some (.ok ()) ↔ RootedDag nodeId nodes) := by
  rw [validate]
  split
  · rename_i empty
    refine ⟨⟨_, rfl⟩, ?_⟩
    constructor
    · intro h
      simp at h
    · intro dag
      exact absurd (List.isEmpty_iff.mp empty) dag.nonempty
  · rename_i nonempty
    split
    · rename_i id _ duplicate
      refine ⟨⟨_, rfl⟩, ?_⟩
      constructor
      · intro h
        simp at h
      · intro dag
        rw [firstDuplicate_eq_none.mpr ⟨dag.distinct, by simp⟩] at duplicate
        simp at duplicate
    · rename_i edge _ dangling
      refine ⟨⟨_, rfl⟩, ?_⟩
      constructor
      · intro h
        simp at h
      · intro dag
        rw [firstDangling_eq_none.mpr dag.closed] at dangling
        simp at dangling
    · rename_i noDuplicate noDangling
      have distinct := (firstDuplicate_eq_none.mp noDuplicate).1
      have closed := firstDangling_eq_none.mp noDangling
      cases checkAcyclic_cases distinct closed with
      | inl fine =>
          rw [fine.2]
          dsimp only
          split
          · rename_i one
            refine ⟨⟨_, rfl⟩, ?_⟩
            constructor
            · intro _
              exact ⟨by simpa using nonempty, distinct, closed, fine.1,
                (length_terminals distinct).mp one⟩
            · intro _
              rfl
          · rename_i notOne
            refine ⟨⟨_, rfl⟩, ?_⟩
            constructor
            · intro h
              simp at h
            · intro dag
              exact absurd ((length_terminals distinct).mpr dag.root) notOne
      | inr cyclic =>
          obtain ⟨⟨id, cycle⟩, input, run⟩ := cyclic
          rw [run]
          refine ⟨⟨_, rfl⟩, ?_⟩
          constructor
          · intro h
            simp at h
          · intro dag
            exact absurd cycle (dag.acyclic id)

theorem OperatorGraphV2.rooted (graph : OperatorGraphV2 nodeId) :
    RootedDag nodeId graph.nodes := validate_cases.2.mp graph.valid

theorem OperatorGraphV2.terminal_spec (graph : OperatorGraphV2 nodeId) :
    graph.terminal ∈ graph.nodes ∧ ∀ node ∈ graph.nodes, nodeId graph.terminal ∉ node.inputs := by
  have found : (graph.nodes.find? fun node => !(consumed graph.nodes).contains (nodeId node))
      = some graph.terminal := (Option.some_get _).symm
  constructor
  · exact List.mem_of_find?_eq_some found
  · have free := List.find?_some found
    simpa [consumed] using free

theorem OperatorGraphV2.eq_terminal (graph : OperatorGraphV2 nodeId) {id : String}
    (mem : id ∈ ids nodeId graph.nodes) (free : ∀ node ∈ graph.nodes, id ∉ node.inputs) :
    id = nodeId graph.terminal := by
  obtain ⟨root, _, unique⟩ := graph.rooted.root
  have terminal := graph.terminal_spec
  rw [unique id ⟨mem, free⟩,
    unique (nodeId graph.terminal) ⟨mem_ids.mpr ⟨_, terminal.1, rfl⟩, terminal.2⟩]

theorem RootedDag.wellFounded (dag : RootedDag nodeId nodes) :
    WellFounded fun x y : {id // id ∈ ids nodeId nodes} =>
      Relation.TransGen (Reads nodeId nodes) x.1 y.1 := by
  have : IsTrans {id // id ∈ ids nodeId nodes} fun x y =>
      Relation.TransGen (Reads nodeId nodes) x.1 y.1 := ⟨fun _ _ _ h h' => h.trans h'⟩
  have : Std.Irrefl fun x y : {id // id ∈ ids nodeId nodes} =>
      Relation.TransGen (Reads nodeId nodes) x.1 y.1 := ⟨fun x => dag.acyclic x.1⟩
  exact Finite.wellFounded_of_trans_of_irrefl _

theorem OperatorGraphV2.leads_to_terminal (graph : OperatorGraphV2 nodeId) {id : String}
    (mem : id ∈ ids nodeId graph.nodes) :
    Relation.ReflTransGen (Feeds nodeId graph.nodes) id (nodeId graph.terminal) := by
  have downstream : ∀ x : {id // id ∈ ids nodeId graph.nodes},
      Relation.ReflTransGen (Feeds nodeId graph.nodes) x.1 (nodeId graph.terminal) := by
    intro x
    induction x using graph.rooted.wellFounded.induction with
    | _ x ih =>
        by_cases free : ∀ node ∈ graph.nodes, x.1 ∉ node.inputs
        · rw [graph.eq_terminal x.2 free]
        · push Not at free
          obtain ⟨node, hnode, input⟩ := free
          have reads : Reads nodeId graph.nodes (nodeId node) x.1 := ⟨node, hnode, rfl, input⟩
          have rest := ih ⟨nodeId node, mem_ids.mpr ⟨node, hnode, rfl⟩⟩ (.single reads)
          exact Relation.ReflTransGen.head reads rest
  exact downstream ⟨id, mem⟩

theorem reads_perm {nodes' : List (OperatorNodeV2 Payload)} (perm : nodes.Perm nodes') :
    Reads nodeId nodes = Reads nodeId nodes' := by
  funext a b
  simp only [Reads, perm.mem_iff]

theorem RootedDag.perm {nodes' : List (OperatorNodeV2 Payload)} (dag : RootedDag nodeId nodes)
    (perm : nodes.Perm nodes') : RootedDag nodeId nodes' := by
  have keys : (ids nodeId nodes).Perm (ids nodeId nodes') := perm.map nodeId
  constructor
  · intro empty
    rw [empty] at perm
    exact dag.nonempty perm.eq_nil
  · exact keys.nodup dag.distinct
  · intro node hnode input hinput
    rw [← keys.mem_iff]
    exact dag.closed node (perm.mem_iff.mpr hnode) input hinput
  · rw [← reads_perm perm]
    exact dag.acyclic
  · simp only [← keys.mem_iff, ← perm.mem_iff]
    exact dag.root

theorem graphHashV2_perm (payloadIdentity : (kind : OperatorKindV2) → Payload kind → Json)
    (materializeHash : Json → String) {graph graph' : OperatorGraphV2 nodeId}
    (perm : graph.nodes.Perm graph'.nodes) :
    graphHashV2 payloadIdentity materializeHash graph
      = graphHashV2 payloadIdentity materializeHash graph' := by
  have distinct := graph.rooted.distinct
  have sorted : KeySort.sortBy nodeId graph.nodes = KeySort.sortBy nodeId graph'.nodes := by
    apply (KeySort.sortBy_eq_iff _).mpr perm
    intro a ha b hb same
    exact List.inj_on_of_nodup_map distinct ha (perm.mem_iff.mpr hb) same
  rw [graphHashV2, graphHashV2, OperatorGraphV2.identityPayload,
    OperatorGraphV2.identityPayload, sorted]

/-- For any assignment of ids, any nodes and any payloads: the construction ends, it
    succeeds exactly for a rooted graph without a cycle, and then every node leads to the
    terminal; the cycle check ends, with an error exactly if some node leads to a cycle;
    and neither the construction nor the hash depends on the order of the nodes. -/
theorem operator_graph_rooted (nodeId : OperatorNodeV2 Payload → String)
    (payloadIdentity : (kind : OperatorKindV2) → Payload kind → Json)
    (materializeHash : Json → String) :
    (∀ nodes, (∃ answer, validate nodeId nodes = some answer) ∧
      (validate nodeId nodes = some (.ok ()) ↔ RootedDag nodeId nodes)) ∧
    (∀ graph : OperatorGraphV2 nodeId,
      (graph.terminal ∈ graph.nodes ∧
        ∀ node ∈ graph.nodes, nodeId graph.terminal ∉ node.inputs) ∧
      ∀ node ∈ graph.nodes, Relation.ReflTransGen (Feeds nodeId graph.nodes) (nodeId node)
        (nodeId graph.terminal)) ∧
    (∀ nodes, (ids nodeId nodes).Nodup → Closed nodeId nodes →
      (∃ answer, checkAcyclic nodeId nodes = some answer) ∧
      ((∃ input, checkAcyclic nodeId nodes = some (.error input)) ↔
        ∃ v ∈ ids nodeId nodes, ∃ w, Relation.ReflTransGen (Reads nodeId nodes) v w ∧
          Relation.TransGen (Reads nodeId nodes) w w)) ∧
    (∀ graph : OperatorGraphV2 nodeId, ∀ nodes, graph.nodes.Perm nodes →
      validate nodeId nodes = some (.ok ()) ∧
      ∀ graph' : OperatorGraphV2 nodeId, graph'.nodes = nodes →
        graphHashV2 payloadIdentity materializeHash graph
          = graphHashV2 payloadIdentity materializeHash graph') := by
  refine ⟨fun nodes => validate_cases, ?_, ?_, ?_⟩
  · intro graph
    refine ⟨graph.terminal_spec, ?_⟩
    intro node hnode
    exact graph.leads_to_terminal (mem_ids.mpr ⟨node, hnode, rfl⟩)
  · intro nodes distinct closed
    cases checkAcyclic_cases distinct closed with
    | inl fine =>
        rw [fine.2]
        refine ⟨⟨_, rfl⟩, ?_⟩
        constructor
        · intro h
          simp at h
        · intro h
          obtain ⟨_, _, w, _, cycle⟩ := h
          exact absurd cycle (fine.1 w)
    | inr cyclic =>
        obtain ⟨⟨id, cycle⟩, input, run⟩ := cyclic
        rw [run]
        refine ⟨⟨_, rfl⟩, ?_⟩
        constructor
        · intro _
          exact ⟨id, mem_ids_of_cycle cycle, id, .refl, cycle⟩
        · intro _
          exact ⟨input, rfl⟩
  · intro graph nodes perm
    refine ⟨validate_cases.2.mpr (graph.rooted.perm perm), ?_⟩
    intro graph' hnodes
    rw [← hnodes] at perm
    exact graphHashV2_perm payloadIdentity materializeHash perm

theorem scanNamed : ∀ input ∈ ["governed_scan"], Overlay.strip input ≠ "" := by decide

theorem filtersNamed :
    ∀ input ∈ ["semantic_selection", "eligible_status_filter"], Overlay.strip input ≠ "" := by
  decide

/-- A scan that two filters read, and their join: ids are the kinds' names. -/
def diamond : List (OperatorNodeV2 fun _ => Unit) :=
  [⟨.governedScan, (), [], List.forall_mem_nil _⟩,
    ⟨.semanticSelection, (), ["governed_scan"], scanNamed⟩,
    ⟨.eligibleStatusFilter, (), ["governed_scan"], scanNamed⟩,
    ⟨.aggregate, (), ["semantic_selection", "eligible_status_filter"], filtersNamed⟩]

theorem operator_graph_rooted_diamond :
    (∃ input, checkAcyclic (fun node => node.kind.value) diamond = some (.error input)) ↔
      ∃ v ∈ ids (fun node => node.kind.value) diamond, ∃ w,
        Relation.ReflTransGen (Reads (fun node => node.kind.value) diamond) v w ∧
        Relation.TransGen (Reads (fun node => node.kind.value) diamond) w w :=
  ((operator_graph_rooted (fun node : OperatorNodeV2 fun _ => Unit => node.kind.value)
    (fun _ _ => .null) (fun _ => "")).2.2.1 diamond (by decide) (by
      unfold Closed
      decide)).2

end FeatureGen.OperatorGraph
