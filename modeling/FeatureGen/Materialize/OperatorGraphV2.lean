import FeatureGen.Lib.Dfs
import FeatureGen.Lib.Json
import FeatureGen.Lib.KeySort
import FeatureGen.Lib.Text
import FeatureGen.Overlay.Identity

/-! # Operator graphs

`materialize/operator_graph_v2.py`: the nodes of one feature's operator graph, the
checks of its construction, and its hash. The id of a node is any function of the
node. A kind's payload has the type of that kind.

`materialize/subgraph_requirements_v2.py`: what the presence of an operator obliges a
graph to contain, and where.
-/

namespace FeatureGen.OperatorGraph

open Overlay (strip)

inductive OperatorKindV2 where
  | governedScan
  | pitAvailabilityFilter
  | semanticSelection
  | eligibleStatusFilter
  | linkedReversalSurvivor
  | asOfFxJoin
  | duplicateRateGate
  | missingRateGate
  | quoteInversion
  | decimalMultiplication
  | aggregate
  | spineLeftJoin
  | groupAssembly
  | finalCombine
  deriving DecidableEq

def OperatorKindV2.value : OperatorKindV2 → String
  | .governedScan => "governed_scan"
  | .pitAvailabilityFilter => "pit_availability_filter"
  | .semanticSelection => "semantic_selection"
  | .eligibleStatusFilter => "eligible_status_filter"
  | .linkedReversalSurvivor => "linked_reversal_survivor"
  | .asOfFxJoin => "as_of_fx_join"
  | .duplicateRateGate => "duplicate_rate_gate"
  | .missingRateGate => "missing_rate_gate"
  | .quoteInversion => "quote_inversion"
  | .decimalMultiplication => "decimal_multiplication"
  | .aggregate => "aggregate"
  | .spineLeftJoin => "spine_left_join"
  | .groupAssembly => "group_assembly"
  | .finalCombine => "final_combine"

structure OperatorNodeV2 (Payload : OperatorKindV2 → Type) where
  kind : OperatorKindV2
  payload : Payload kind
  inputs : List String
  inputs_named : ∀ input ∈ inputs, strip input ≠ ""

/-- What `OperatorGraphV2` refuses to be built of. -/
inductive GraphError where
  | empty
  | duplicateId (id : String)
  | danglingInput (id input : String)
  | cycle (input : String)
  | terminals (ids : List String)

def GraphError.message : GraphError → String
  | .empty => "an operator graph with no nodes computes nothing"
  | .duplicateId id =>
      s!"two nodes share the id {Text.repr id}: ids are CONTENT-derived, so this " ++
        "means the same operator was added twice — one node, not two"
  | .danglingInput id input =>
      s!"{id} reads {Text.repr input}, which is not a node in this graph: an " ++
        "input naming nothing is a dangling edge, and a renderer would emit a " ++
        "pipeline that cannot wire"
  | .cycle input =>
      s!"the graph contains a cycle through {Text.repr input}: an operator that " ++
        "reads its own output has no evaluation order, and a renderer would " ++
        "either loop or silently pick one"
  | .terminals ids =>
      s!"the graph has {ids.length} terminal nodes ([" ++
        String.intercalate ", " ((KeySort.sortBy id ids).map Text.repr) ++
        "]): a feature computes ONE thing, and a second terminal is a branch nobody publishes"

section Graph

variable {Payload : OperatorKindV2 → Type} (nodeId : OperatorNodeV2 Payload → String)

/-- The keys of `by_id`. -/
def ids (nodes : List (OperatorNodeV2 Payload)) : List String := nodes.map nodeId

/-- `by_id[node_id].inputs`. -/
def inputsOf (nodes : List (OperatorNodeV2 Payload)) (id : String) : List String :=
  ((nodes.find? fun node => nodeId node = id).map (·.inputs)).getD []

def consumed (nodes : List (OperatorNodeV2 Payload)) : List String :=
  nodes.flatMap (·.inputs)

/-- The first id that stands among those before it. -/
def firstDuplicate : List String → List String → Option String
  | _, [] => none
  | seen, id :: rest => if seen.contains id then some id else firstDuplicate (id :: seen) rest

def firstDangling (nodes : List (OperatorNodeV2 Payload)) : Option (String × String) :=
  nodes.findSome? fun node =>
    (node.inputs.find? fun input => !(ids nodeId nodes).contains input).map fun input =>
      (nodeId node, input)

/-- `_check_acyclic`. None where its fuel runs out. -/
def checkAcyclic (nodes : List (OperatorNodeV2 Payload)) : Option (Except String Unit) :=
  let reads := inputsOf nodeId nodes
  let keys := ids nodeId nodes
  (Dfs.walk reads (Dfs.fuelFor reads keys) keys fun _ => .white).map fun answer =>
    answer.map fun _ => ()

def terminals (nodes : List (OperatorNodeV2 Payload)) : List String :=
  (ids nodeId nodes).filter fun id => !(consumed nodes).contains id

/-- `OperatorGraphV2.__post_init__`. -/
def validate (nodes : List (OperatorNodeV2 Payload)) : Option (Except GraphError Unit) :=
  if nodes.isEmpty then some (.error .empty)
  else
    match firstDuplicate [] (ids nodeId nodes), firstDangling nodeId nodes with
    | some id, _ => some (.error (.duplicateId id))
    | none, some edge => some (.error (.danglingInput edge.1 edge.2))
    | none, none =>
        match checkAcyclic nodeId nodes with
        | none => none
        | some (.error input) => some (.error (.cycle input))
        | some (.ok _) =>
            if (terminals nodeId nodes).length = 1 then some (.ok ())
            else some (.error (.terminals (terminals nodeId nodes)))

structure OperatorGraphV2 where
  nodes : List (OperatorNodeV2 Payload)
  valid : validate nodeId nodes = some (.ok ())

variable {nodeId}

theorem exists_terminal (graph : OperatorGraphV2 nodeId) :
    (graph.nodes.find? fun node => !(consumed graph.nodes).contains (nodeId node)).isSome := by
  have valid := graph.valid
  rw [validate] at valid
  split at valid
  · simp at valid
  · split at valid
    · simp at valid
    · simp at valid
    · split at valid
      · simp at valid
      · simp at valid
      · split at valid
        · rename_i one
          obtain ⟨id, hid⟩ := List.length_eq_one_iff.mp one
          have mem : id ∈ terminals nodeId graph.nodes := by simp [hid]
          rw [terminals, List.mem_filter, ids, List.mem_map] at mem
          obtain ⟨⟨node, hnode, rfl⟩, free⟩ := mem
          rw [List.find?_isSome]
          exact ⟨node, hnode, free⟩
        · simp at valid

def OperatorGraphV2.terminal (graph : OperatorGraphV2 nodeId) : OperatorNodeV2 Payload :=
  (graph.nodes.find? fun node => !(consumed graph.nodes).contains (nodeId node)).get
    (exists_terminal graph)

variable (nodeId) (payloadIdentity : (kind : OperatorKindV2) → Payload kind → Json)

def OperatorNodeV2.identityPayload (node : OperatorNodeV2 Payload) : Json :=
  .obj (.ofList [("node_id", .str (nodeId node)), ("kind", .str node.kind.value),
    ("payload", payloadIdentity node.kind node.payload),
    ("inputs", .arr (.ofList (node.inputs.map .str)))])

variable {nodeId}

def OperatorGraphV2.identityPayload (graph : OperatorGraphV2 nodeId) : Json :=
  .obj (.ofList [("operator_vocabulary_version", .num (.ofRat 1)),
    ("nodes", .arr (.ofList ((KeySort.sortBy nodeId graph.nodes).map fun node =>
      node.identityPayload nodeId payloadIdentity)))])

def graphHashV2 (materializeHash : Json → String) (graph : OperatorGraphV2 nodeId) : String :=
  materializeHash (graph.identityPayload payloadIdentity)

end Graph

end FeatureGen.OperatorGraph

namespace FeatureGen.OperatorGraph

structure SubgraphRequirementV2 where
  name : String
  triggeredBy : OperatorKindV2
  required : List OperatorKindV2
  optional : List OperatorKindV2
  rationale : String
  trigger_not_required : triggeredBy ∉ required
  disjoint : ∀ kind ∈ required, kind ∉ optional

/-- The operators that `FX_CONVERSION` requires. -/
def fxOperators : List OperatorKindV2 :=
  [.duplicateRateGate, .missingRateGate, .decimalMultiplication]

theorem asOfFxJoin_not_required : OperatorKindV2.asOfFxJoin ∉ fxOperators := by decide

theorem quoteInversion_optional : ∀ kind ∈ fxOperators, kind ∉ [OperatorKindV2.quoteInversion] := by
  decide

def fxConversion : SubgraphRequirementV2 where
  name := "FX_CONVERSION"
  triggeredBy := .asOfFxJoin
  required := fxOperators
  optional := [.quoteInversion]
  rationale :=
    "An as-of join amplifies silently when the rate side offers two rows for a key at an " ++
    "instant, and drops rows silently when it offers none. Both are wrong numbers rather than " ++
    "errors, so both gates are required wherever a rate was joined."
  trigger_not_required := asOfFxJoin_not_required
  disjoint := quoteInversion_optional

def linkedReversal : SubgraphRequirementV2 where
  name := "LINKED_REVERSAL"
  triggeredBy := .linkedReversalSurvivor
  required := []
  optional := []
  rationale :=
    "As-of population, linkage, ambiguity gate and survivor are payload facts of the one " ++
    "reversal operator, enforced at its construction. What this requirement adds is position: " ++
    "a survivor filter downstream of the aggregate would filter the ALREADY-SUMMED rows."
  trigger_not_required := List.not_mem_nil
  disjoint := List.forall_mem_nil _

def pilotRequirements : List SubgraphRequirementV2 := [fxConversion, linkedReversal]

structure RequirementFindingV2 where
  requirement : String
  code : String
  detail : String

/-- `RequirementVerdictV2`: it is satisfied exactly where it carries no findings. -/
structure RequirementVerdictV2 where
  satisfied : Bool
  triggered : List String
  findings : List RequirementFindingV2
  agree : satisfied = findings.isEmpty

section Check

variable {Payload : OperatorKindV2 → Type} {nodeId : OperatorNodeV2 Payload → String}

def ancestors (graph : OperatorGraphV2 nodeId) (id : String) : List String :=
  let reads := inputsOf nodeId graph.nodes
  let fuel := ((ids nodeId graph.nodes).map fun id => (reads id).length).sum + 2
  (Dfs.collect reads fuel [] [id]).getD []

/-- `nodes_by_kind.get(kind, [])`. -/
def nodesByKind (graph : OperatorGraphV2 nodeId) (kind : OperatorKindV2) :
    List (OperatorNodeV2 Payload) :=
  graph.nodes.filter fun node => node.kind = kind

def terminalAncestors (graph : OperatorGraphV2 nodeId) : List String :=
  ancestors graph (nodeId graph.terminal)

/-- `downstream_of_trigger`. -/
def downstreamOf (graph : OperatorGraphV2 nodeId) (trigger : OperatorNodeV2 Payload) :
    List String :=
  ids nodeId (graph.nodes.filter fun node =>
    (ancestors graph (nodeId node)).contains (nodeId trigger))

/-- What one required kind finds for a trigger that the terminal reads. -/
def kindFindings (graph : OperatorGraphV2 nodeId) (requirement : SubgraphRequirementV2)
    (trigger : OperatorNodeV2 Payload) (kind : OperatorKindV2) : List RequirementFindingV2 :=
  if (nodesByKind graph kind).isEmpty then
    [⟨requirement.name, "MISSING_OPERATOR",
      s!"the graph contains {requirement.triggeredBy.value} but no " ++
        s!"{kind.value}. {requirement.rationale}"⟩]
  else if (nodesByKind graph kind).any fun node =>
      (downstreamOf graph trigger).contains (nodeId node)
        && (terminalAncestors graph).contains (nodeId node) then
    []
  else
    [⟨requirement.name, "DISCONNECTED_OPERATOR",
      s!"the graph contains {kind.value}, but not on the path from " ++
        s!"{nodeId trigger} to the terminal: it does not see the rows " ++
        s!"{requirement.triggeredBy.value} produced, or its refusal cannot " ++
        "stop the feature, so it protects nothing"⟩]

def triggerFindings (graph : OperatorGraphV2 nodeId) (requirement : SubgraphRequirementV2)
    (trigger : OperatorNodeV2 Payload) : List RequirementFindingV2 :=
  if !(terminalAncestors graph).contains (nodeId trigger) then
    [⟨requirement.name, "TRIGGER_NOT_UPSTREAM",
      s!"{nodeId trigger} is not upstream of the terminal, so whatever it " ++
        "computes never reaches the published column — a subgraph nothing " ++
        "consumes cannot be judged sound or unsound"⟩]
  else requirement.required.flatMap (kindFindings graph requirement trigger)

/-- The findings of the check, in the order in which they are made. -/
def findings (graph : OperatorGraphV2 nodeId) (requirements : List SubgraphRequirementV2) :
    List RequirementFindingV2 :=
  requirements.flatMap fun requirement =>
    (nodesByKind graph requirement.triggeredBy).flatMap (triggerFindings graph requirement)

/-- The key of the findings' order. -/
def findingKey (f : RequirementFindingV2) : String ×ₗ String ×ₗ String :=
  toLex (f.requirement, toLex (f.code, f.detail))

def checkSubgraphRequirementsV2 (graph : OperatorGraphV2 nodeId)
    (requirements : List SubgraphRequirementV2) : RequirementVerdictV2 :=
  let triggered := requirements.filter fun requirement =>
    !(nodesByKind graph requirement.triggeredBy).isEmpty
  let ordered := KeySort.sortBy findingKey (findings graph requirements)
  ⟨ordered.isEmpty, KeySort.sortBy id (triggered.map (·.name)), ordered, rfl⟩

end Check

end FeatureGen.OperatorGraph
