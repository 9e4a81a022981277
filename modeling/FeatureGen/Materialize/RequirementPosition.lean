import Mathlib
import FeatureGen.Materialize.RootedDag
import FeatureGen.Materialize.OperatorGraphV2

/-! # Where required operators stand

A satisfied verdict puts each required operator on some way from its trigger to the
terminal, and on every way where there is only one. The order of the nodes does not
enter into the verdict.
-/

namespace FeatureGen.OperatorGraph

variable {Payload : OperatorKindV2 → Type} {nodeId : OperatorNodeV2 Payload → String}
  {graph graph' : OperatorGraphV2 nodeId}

theorem node_mem {node : OperatorNodeV2 Payload} (h : node ∈ graph.nodes) :
    nodeId node ∈ ids nodeId graph.nodes := List.mem_map_of_mem h

theorem mem_ancestors {id other : String} (mem : id ∈ ids nodeId graph.nodes) :
    other ∈ ancestors graph id ↔ Relation.ReflTransGen (Feeds nodeId graph.nodes) other id := by
  have distinct := graph.rooted.distinct
  have closed := closed_inputsOf distinct graph.rooted.closed
  have total : (Dfs.collect (inputsOf nodeId graph.nodes)
      (((ids nodeId graph.nodes).map fun id =>
        (inputsOf nodeId graph.nodes id).length).sum + 2) [] [id]).isSome := by
    apply Dfs.collect_isSome _ closed
    · simp only [List.length_singleton, List.contains_nil, Bool.false_eq_true, if_false]
      omega
    · intro x hx
      rw [List.mem_singleton.mp hx]
      exact mem
  obtain ⟨found, run⟩ := Option.isSome_iff_exists.mp total
  have spec := Dfs.mem_collect (w := other) (by simp) run
  have edges : (fun v y => y ∈ inputsOf nodeId graph.nodes v) = Reads nodeId graph.nodes := by
    funext a b
    exact propext (mem_inputsOf distinct)
  rw [ancestors, run, Option.getD_some, spec, edges]
  simp only [List.not_mem_nil, false_or, List.mem_singleton, exists_eq_left]
  exact Relation.reflTransGen_swap.symm

theorem mem_terminalAncestors {id : String} (mem : id ∈ ids nodeId graph.nodes) :
    id ∈ terminalAncestors graph :=
  (mem_ancestors (node_mem graph.terminal_spec.1)).mpr (graph.leads_to_terminal mem)

theorem mem_downstreamOf {trigger : OperatorNodeV2 Payload} {id : String} :
    id ∈ downstreamOf graph trigger ↔ id ∈ ids nodeId graph.nodes ∧
      Relation.ReflTransGen (Feeds nodeId graph.nodes) (nodeId trigger) id := by
  rw [downstreamOf, mem_ids, mem_ids]
  constructor
  · intro h
    obtain ⟨node, hnode, rfl⟩ := h
    rw [List.mem_filter, List.contains_iff_mem] at hnode
    have mem := node_mem hnode.1
    exact ⟨⟨node, hnode.1, rfl⟩, (mem_ancestors mem).mp hnode.2⟩
  · intro h
    obtain ⟨⟨node, hnode, rfl⟩, path⟩ := h
    have mem := node_mem hnode
    refine ⟨node, ?_, rfl⟩
    rw [List.mem_filter, List.contains_iff_mem]
    exact ⟨hnode, (mem_ancestors mem).mpr path⟩

def Positioned (graph : OperatorGraphV2 nodeId) (trigger : OperatorNodeV2 Payload)
    (kind : OperatorKindV2) : Prop :=
  ∃ node ∈ graph.nodes, node.kind = kind ∧
    Relation.ReflTransGen (Feeds nodeId graph.nodes) (nodeId trigger) (nodeId node) ∧
    Relation.ReflTransGen (Feeds nodeId graph.nodes) (nodeId node) (nodeId graph.terminal)

theorem mem_nodesByKind {kind : OperatorKindV2} {node : OperatorNodeV2 Payload} :
    node ∈ nodesByKind graph kind ↔ node ∈ graph.nodes ∧ node.kind = kind := by
  simp [nodesByKind]

theorem positioned_iff {trigger : OperatorNodeV2 Payload} {kind : OperatorKindV2} :
    ((nodesByKind graph kind).any fun node =>
      (downstreamOf graph trigger).contains (nodeId node)
        && (terminalAncestors graph).contains (nodeId node)) = true ↔
      Positioned graph trigger kind := by
  rw [List.any_eq_true]
  constructor
  · intro h
    obtain ⟨node, hnode, positioned⟩ := h
    rw [Bool.and_eq_true, List.contains_iff_mem, mem_downstreamOf] at positioned
    obtain ⟨hnode, hkind⟩ := mem_nodesByKind.mp hnode
    exact ⟨node, hnode, hkind, positioned.1.2, graph.leads_to_terminal positioned.1.1⟩
  · intro h
    obtain ⟨node, hnode, hkind, path, _⟩ := h
    have mem := node_mem hnode
    refine ⟨node, mem_nodesByKind.mpr ⟨hnode, hkind⟩, ?_⟩
    rw [Bool.and_eq_true, List.contains_iff_mem, List.contains_iff_mem, mem_downstreamOf]
    exact ⟨⟨mem, path⟩, mem_terminalAncestors mem⟩

theorem kindFindings_eq_nil {requirement : SubgraphRequirementV2}
    {trigger : OperatorNodeV2 Payload} {kind : OperatorKindV2} :
    kindFindings graph requirement trigger kind = [] ↔ Positioned graph trigger kind := by
  rw [kindFindings]
  split
  · rename_i none
    constructor
    · intro h
      simp at h
    · intro h
      obtain ⟨node, hnode, hkind, _⟩ := h
      have mem := mem_nodesByKind.mpr ⟨hnode, hkind⟩
      rw [List.isEmpty_iff.mp none] at mem
      simp at mem
  · split
    · rename_i positioned
      exact iff_of_true rfl (positioned_iff.mp positioned)
    · rename_i stray
      constructor
      · intro h
        simp at h
      · intro h
        exact absurd (positioned_iff.mpr h) stray

theorem triggerFindings_eq {requirement : SubgraphRequirementV2}
    {trigger : OperatorNodeV2 Payload} (mem : trigger ∈ graph.nodes) :
    triggerFindings graph requirement trigger
      = requirement.required.flatMap (kindFindings graph requirement trigger) := by
  have upstream := mem_terminalAncestors (node_mem mem)
  rw [triggerFindings, List.contains_iff_mem.mpr upstream]
  rfl

theorem satisfied_iff {requirements : List SubgraphRequirementV2} :
    (checkSubgraphRequirementsV2 graph requirements).satisfied = true ↔
      ∀ requirement ∈ requirements, ∀ trigger ∈ graph.nodes,
        trigger.kind = requirement.triggeredBy →
          ∀ kind ∈ requirement.required, Positioned graph trigger kind := by
  have sorted : (KeySort.sortBy findingKey (findings graph requirements)).isEmpty = true ↔
      findings graph requirements = [] := by
    rw [List.isEmpty_iff]
    constructor
    · intro h
      have perm := KeySort.perm_sortBy findingKey (findings graph requirements)
      rw [h] at perm
      exact perm.nil_eq.symm
    · intro h
      rw [h]
      rfl
  rw [checkSubgraphRequirementsV2]
  dsimp only
  rw [sorted, findings, List.flatMap_eq_nil_iff]
  constructor
  · intro h requirement hr trigger ht hkind kind hk
    have none := List.flatMap_eq_nil_iff.mp (h requirement hr) trigger
      (mem_nodesByKind.mpr ⟨ht, hkind⟩)
    rw [triggerFindings_eq ht] at none
    exact kindFindings_eq_nil.mp (List.flatMap_eq_nil_iff.mp none kind hk)
  · intro h requirement hr
    rw [List.flatMap_eq_nil_iff]
    intro trigger ht
    obtain ⟨ht, hkind⟩ := mem_nodesByKind.mp ht
    rw [triggerFindings_eq ht, List.flatMap_eq_nil_iff]
    intro kind hk
    exact kindFindings_eq_nil.mpr (h requirement hr trigger ht hkind kind hk)

theorem terminal_perm (perm : graph.nodes.Perm graph'.nodes) :
    nodeId graph.terminal = nodeId graph'.terminal := by
  have terminal := graph.terminal_spec
  apply graph'.eq_terminal
  · exact node_mem (perm.mem_iff.mp terminal.1)
  · intro node hnode
    exact terminal.2 node (perm.mem_iff.mpr hnode)

theorem positioned_perm (perm : graph.nodes.Perm graph'.nodes)
    (trigger : OperatorNodeV2 Payload) (kind : OperatorKindV2) :
    Positioned graph trigger kind ↔ Positioned graph' trigger kind := by
  have edges : Feeds nodeId graph.nodes = Feeds nodeId graph'.nodes := by
    funext a b
    rw [Feeds, Feeds, reads_perm perm]
  simp only [Positioned, perm.mem_iff, edges, terminal_perm perm]

theorem kindFindings_perm (perm : graph.nodes.Perm graph'.nodes)
    (requirement : SubgraphRequirementV2) (trigger : OperatorNodeV2 Payload)
    (kind : OperatorKindV2) :
    kindFindings graph requirement trigger kind = kindFindings graph' requirement trigger kind := by
  have kinds : (nodesByKind graph kind).isEmpty = (nodesByKind graph' kind).isEmpty :=
    (perm.filter _).isEmpty_eq
  have position := positioned_iff.trans
    ((positioned_perm perm trigger kind).trans positioned_iff.symm)
  rw [kindFindings, kindFindings, kinds, Bool.eq_iff_iff.mpr position]

theorem findings_perm (perm : graph.nodes.Perm graph'.nodes)
    (requirements : List SubgraphRequirementV2) :
    (findings graph requirements).Perm (findings graph' requirements) := by
  rw [findings, findings]
  apply List.Perm.flatMap_left
  intro requirement _
  have triggers : (nodesByKind graph requirement.triggeredBy).Perm
      (nodesByKind graph' requirement.triggeredBy) := perm.filter _
  have same : ∀ trigger ∈ nodesByKind graph requirement.triggeredBy,
      triggerFindings graph requirement trigger = triggerFindings graph' requirement trigger := by
    intro trigger htrigger
    obtain ⟨mem, _⟩ := mem_nodesByKind.mp htrigger
    rw [triggerFindings_eq mem, triggerFindings_eq (perm.mem_iff.mp mem)]
    congr 1
    funext kind
    exact kindFindings_perm perm requirement trigger kind
  rw [List.flatMap_congr same]
  exact triggers.flatMap_right _

theorem findingKey_injective : Function.Injective findingKey := by
  intro f g h
  simp only [findingKey, EmbeddingLike.apply_eq_iff_eq, Prod.mk.injEq] at h
  cases f
  cases g
  simpa using h

theorem check_perm (perm : graph.nodes.Perm graph'.nodes)
    (requirements : List SubgraphRequirementV2) :
    checkSubgraphRequirementsV2 graph requirements
      = checkSubgraphRequirementsV2 graph' requirements := by
  have ordered : KeySort.sortBy findingKey (findings graph requirements)
      = KeySort.sortBy findingKey (findings graph' requirements) :=
    (KeySort.sortBy_eq_iff fun _ _ _ _ same => findingKey_injective same).mpr
      (findings_perm perm requirements)
  have triggered : (fun requirement : SubgraphRequirementV2 =>
      !(nodesByKind graph requirement.triggeredBy).isEmpty) = fun requirement =>
      !(nodesByKind graph' requirement.triggeredBy).isEmpty := by
    funext requirement
    exact congrArg (!·) (perm.filter _).isEmpty_eq
  simp only [checkSubgraphRequirementsV2, ordered, triggered]

/-- A directed path and the nodes on it. -/
inductive Route (nodeId : OperatorNodeV2 Payload → String) (nodes : List (OperatorNodeV2 Payload)) :
    String → String → List String → Prop
  | here (a : String) : Route nodeId nodes a a [a]
  | step {a b c : String} {path : List String} (edge : Feeds nodeId nodes a b)
      (rest : Route nodeId nodes b c path) : Route nodeId nodes a c (a :: path)

def Passes (graph : OperatorGraphV2 nodeId) (kind : OperatorKindV2) (path : List String) : Prop :=
  ∃ node ∈ graph.nodes, node.kind = kind ∧ nodeId node ∈ path

theorem Route.head_mem {nodes : List (OperatorNodeV2 Payload)} {a b : String}
    {path : List String} (h : Route nodeId nodes a b path) : a ∈ path := by
  cases h with
  | here => exact List.mem_cons_self
  | step _ _ => exact List.mem_cons_self

theorem Route.path {nodes : List (OperatorNodeV2 Payload)} {a b : String}
    {path : List String} (h : Route nodeId nodes a b path) :
    Relation.ReflTransGen (Feeds nodeId nodes) a b := by
  induction h with
  | here => exact .refl
  | step edge _ ih => exact .head edge ih

theorem Route.through {nodes : List (OperatorNodeV2 Payload)} {a b x : String}
    {path : List String} (h : Route nodeId nodes a b path) (hx : x ∈ path) :
    Relation.ReflTransGen (Feeds nodeId nodes) a x ∧
      Relation.ReflTransGen (Feeds nodeId nodes) x b := by
  induction h with
  | here =>
      rw [List.mem_singleton.mp hx]
      exact ⟨.refl, .refl⟩
  | step edge rest ih =>
      cases List.mem_cons.mp hx with
      | inl eq =>
          rw [eq]
          exact ⟨.refl, .head edge rest.path⟩
      | inr later => exact ⟨.head edge (ih later).1, (ih later).2⟩

theorem exists_route {nodes : List (OperatorNodeV2 Payload)} {a b : String}
    (h : Relation.ReflTransGen (Feeds nodeId nodes) a b) :
    ∃ path, Route nodeId nodes a b path := by
  induction h using Relation.ReflTransGen.head_induction_on with
  | refl => exact ⟨_, .here b⟩
  | head edge _ ih =>
      obtain ⟨path, route⟩ := ih
      exact ⟨_, .step edge route⟩

theorem exists_route_through {nodes : List (OperatorNodeV2 Payload)} {a b x : String}
    (before : Relation.ReflTransGen (Feeds nodeId nodes) a x)
    (after : Relation.ReflTransGen (Feeds nodeId nodes) x b) :
    ∃ path, Route nodeId nodes a b path ∧ x ∈ path := by
  induction before using Relation.ReflTransGen.head_induction_on with
  | refl =>
      obtain ⟨path, route⟩ := exists_route after
      exact ⟨path, route, route.head_mem⟩
  | head edge _ ih =>
      obtain ⟨path, route, mem⟩ := ih
      exact ⟨_, .step edge route, List.mem_cons_of_mem _ mem⟩

theorem positioned_iff_route {trigger : OperatorNodeV2 Payload} {kind : OperatorKindV2} :
    Positioned graph trigger kind ↔
      ∃ path, Route nodeId graph.nodes (nodeId trigger) (nodeId graph.terminal) path ∧
        Passes graph kind path := by
  constructor
  · intro h
    obtain ⟨node, hnode, hkind, before, after⟩ := h
    obtain ⟨path, route, mem⟩ := exists_route_through before after
    exact ⟨path, route, node, hnode, hkind, mem⟩
  · intro h
    obtain ⟨path, route, node, hnode, hkind, mem⟩ := h
    exact ⟨node, hnode, hkind, (route.through mem).1, (route.through mem).2⟩

def kindId (node : OperatorNodeV2 fun _ => Unit) : String := node.kind.value

theorem noneNamed : ∀ input ∈ ([] : List String), Overlay.strip input ≠ "" :=
  List.forall_mem_nil _

theorem fxNamed : ∀ input ∈ ["as_of_fx_join"], Overlay.strip input ≠ "" := by decide

theorem duplicateNamed : ∀ input ∈ ["duplicate_rate_gate"], Overlay.strip input ≠ "" := by decide

theorem missingNamed : ∀ input ∈ ["missing_rate_gate"], Overlay.strip input ≠ "" := by decide

theorem bothNamed :
    ∀ input ∈ ["as_of_fx_join", "decimal_multiplication"], Overlay.strip input ≠ "" := by decide

theorem aggregateNamed : ∀ input ∈ ["aggregate"], Overlay.strip input ≠ "" := by decide

/-- The conversion, and an aggregate that reads the joined rows beside it. -/
def bypassed : List (OperatorNodeV2 fun _ => Unit) :=
  [⟨.governedScan, (), [], noneNamed⟩,
    ⟨.asOfFxJoin, (), ["governed_scan"], scanNamed⟩,
    ⟨.duplicateRateGate, (), ["as_of_fx_join"], fxNamed⟩,
    ⟨.missingRateGate, (), ["duplicate_rate_gate"], duplicateNamed⟩,
    ⟨.decimalMultiplication, (), ["missing_rate_gate"], missingNamed⟩,
    ⟨.aggregate, (), ["as_of_fx_join", "decimal_multiplication"], bothNamed⟩]

theorem bypassed_valid : validate kindId bypassed = some (.ok ()) := rfl

/-- A reversal filter over an aggregate. -/
def reversedLate : List (OperatorNodeV2 fun _ => Unit) :=
  [⟨.governedScan, (), [], noneNamed⟩,
    ⟨.aggregate, (), ["governed_scan"], scanNamed⟩,
    ⟨.linkedReversalSurvivor, (), ["aggregate"], aggregateNamed⟩]

theorem reversedLate_valid : validate kindId reversedLate = some (.ok ()) := rfl

/-- `reversedLate` as a graph. -/
def reversedGraph : OperatorGraphV2 kindId := ⟨reversedLate, reversedLate_valid⟩

/-- `bypassed` as a graph. -/
def bypassedGraph : OperatorGraphV2 kindId := ⟨bypassed, bypassed_valid⟩

theorem bypassed_feeds : Feeds kindId bypassed "as_of_fx_join" "aggregate" := by
  refine ⟨⟨.aggregate, (), ["as_of_fx_join", "decimal_multiplication"], bothNamed⟩, ?_, rfl, ?_⟩
  · simp [bypassed]
  · simp

theorem reversedLate_feeds :
    Feeds kindId reversedLate "aggregate" "linked_reversal_survivor" := by
  refine ⟨⟨.linkedReversalSurvivor, (), ["aggregate"], aggregateNamed⟩, ?_, rfl, ?_⟩
  · simp [reversedLate]
  · simp

/-- No reversal filter stands downstream of an aggregate. -/
def ReversalsFirst (graph : OperatorGraphV2 nodeId) : Prop :=
  ∀ aggregate ∈ graph.nodes, aggregate.kind = .aggregate →
    ∀ survivor ∈ graph.nodes, survivor.kind = .linkedReversalSurvivor →
      ¬Relation.ReflTransGen (Feeds nodeId graph.nodes) (nodeId aggregate) (nodeId survivor)

/-- A satisfied verdict on the pilot requirements puts, for each currency join, each required
    operator on some path from the join to the terminal, and so on every path where there is
    only one. Where the reversal filters come first, these positions are all that the verdict
    asks. It does not depend on the order of the nodes. -/
theorem satisfied_positions (nodeId : OperatorNodeV2 Payload → String) :
    (∀ graph : OperatorGraphV2 nodeId,
      (checkSubgraphRequirementsV2 graph pilotRequirements).satisfied = true →
        ∀ join ∈ graph.nodes, join.kind = .asOfFxJoin →
          ∀ kind ∈ [OperatorKindV2.duplicateRateGate, .missingRateGate, .decimalMultiplication],
            ∃ path, Route nodeId graph.nodes (nodeId join) (nodeId graph.terminal) path ∧
              Passes graph kind path) ∧
    (∀ graph : OperatorGraphV2 nodeId,
      (checkSubgraphRequirementsV2 graph pilotRequirements).satisfied = true →
        ∀ join ∈ graph.nodes, join.kind = .asOfFxJoin →
          (∀ path path', Route nodeId graph.nodes (nodeId join) (nodeId graph.terminal) path →
            Route nodeId graph.nodes (nodeId join) (nodeId graph.terminal) path' → path = path') →
          ∀ path, Route nodeId graph.nodes (nodeId join) (nodeId graph.terminal) path →
            ∀ kind ∈ [OperatorKindV2.duplicateRateGate, .missingRateGate, .decimalMultiplication],
              Passes graph kind path) ∧
    (∀ graph : OperatorGraphV2 nodeId, ReversalsFirst graph →
      (∀ join ∈ graph.nodes, join.kind = .asOfFxJoin →
        ∀ kind ∈ [OperatorKindV2.duplicateRateGate, .missingRateGate, .decimalMultiplication],
          ∃ path, Route nodeId graph.nodes (nodeId join) (nodeId graph.terminal) path ∧
            Passes graph kind path) →
      (checkSubgraphRequirementsV2 graph pilotRequirements).satisfied = true) ∧
    (∀ (graph graph' : OperatorGraphV2 nodeId) (requirements : List SubgraphRequirementV2),
      graph.nodes.Perm graph'.nodes → checkSubgraphRequirementsV2 graph requirements
        = checkSubgraphRequirementsV2 graph' requirements) := by
  have positions : ∀ graph : OperatorGraphV2 nodeId,
      (checkSubgraphRequirementsV2 graph pilotRequirements).satisfied = true →
        ∀ join ∈ graph.nodes, join.kind = .asOfFxJoin →
          ∀ kind ∈ fxOperators,
            ∃ path, Route nodeId graph.nodes (nodeId join) (nodeId graph.terminal) path ∧
              Passes graph kind path := by
    intro graph satisfied join hjoin hkind kind hk
    exact positioned_iff_route.mp
      (satisfied_iff.mp satisfied fxConversion List.mem_cons_self join hjoin hkind kind hk)
  refine ⟨positions, ?_, ?_, ?_⟩
  · intro graph satisfied join hjoin hkind single path route kind hk
    obtain ⟨path', route', passes⟩ := positions graph satisfied join hjoin hkind kind hk
    rw [single path path' route route']
    exact passes
  · intro graph _ positioned
    rw [satisfied_iff]
    intro requirement hr trigger ht hkind kind hk
    simp only [pilotRequirements, List.mem_cons, List.not_mem_nil, or_false] at hr
    rcases hr with rfl | rfl
    · exact positioned_iff_route.mpr (positioned trigger ht hkind kind hk)
    · cases hk
  · intro graph graph' requirements perm
    exact check_perm perm requirements

theorem satisfied_positions_bypassed :
    ∃ path, Route kindId bypassedGraph.nodes "as_of_fx_join" (kindId bypassedGraph.terminal) path ∧
      Passes bypassedGraph .decimalMultiplication path :=
  (satisfied_positions kindId).1 bypassedGraph (by decide +kernel)
    ⟨.asOfFxJoin, (), ["governed_scan"], scanNamed⟩ (by simp [bypassedGraph, bypassed]) rfl
    .decimalMultiplication (by simp)

/-- Two satisfied verdicts: unconverted rows reach the terminal past the gates and the
    multiplication, and a reversal filter reads an aggregate. -/
theorem side_branches_satisfied :
    ((checkSubgraphRequirementsV2 bypassedGraph pilotRequirements).satisfied = true ∧
      ∃ path, Route kindId bypassedGraph.nodes "as_of_fx_join"
          (kindId bypassedGraph.terminal) path ∧
        ∀ kind ∈ fxOperators, ¬ Passes bypassedGraph kind path) ∧
    ((checkSubgraphRequirementsV2 reversedGraph pilotRequirements).satisfied = true ∧
      ∃ a ∈ reversedGraph.nodes, ∃ b ∈ reversedGraph.nodes, a.kind = .aggregate ∧
        b.kind = .linkedReversalSurvivor ∧
        Feeds kindId reversedGraph.nodes (kindId a) (kindId b)) := by
  constructor
  · constructor
    · decide +kernel
    · have terminal : kindId bypassedGraph.terminal = "aggregate" := by decide +kernel
      exists ["as_of_fx_join", "aggregate"]
      rw [terminal]
      constructor
      · exact .step bypassed_feeds (.here _)
      · unfold Passes
        decide +kernel
  · constructor
    · decide +kernel
    · exact ⟨⟨.aggregate, (), ["governed_scan"], scanNamed⟩, by simp [reversedGraph, reversedLate],
        ⟨.linkedReversalSurvivor, (), ["aggregate"], aggregateNamed⟩,
        by simp [reversedGraph, reversedLate], rfl, rfl, reversedLate_feeds⟩

end FeatureGen.OperatorGraph
