import FeatureGen.Lib.Bfs
import FeatureGen.Lib.Table
import FeatureGen.Lib.Text
import FeatureGen.Overlay.State

/-! # Join paths over the catalog graph

`overlay/upload/join_path.py` over the tables `graph_node` and `graph_edge`: the
join edges of one catalog, classed by authority and read scope, and a layered
search for a path between two tables. The query that fetches the edges has no
order, so what it returns is an argument here.
-/

namespace FeatureGen.Overlay

inductive EdgeKind where
  | contains
  | joins
  deriving DecidableEq

inductive EdgeAuthority where
  | operational
  | displayOnly
  deriving DecidableEq

/-- A row of `graph_node`: what the planner reads of it. -/
structure GraphNode where
  catalogSource : String
  objectRef : String
  tableName : String
  schemaName : Option String
  sensitivity : Option String

/-- A row of `graph_edge`. -/
structure GraphEdge where
  catalogSource : String
  kind : EdgeKind
  fromRef : String
  toRef : String
  cardinality : Option String
  approvedJoinFactKey : Option String
  approvedJoinStatus : Option FactStatus
  authority : EdgeAuthority

/-- `PRIMARY KEY (catalog_source, object_ref)`. -/
def GraphNode.key (node : GraphNode) : String × String := (node.catalogSource, node.objectRef)

/-- `PRIMARY KEY (catalog_source, kind, from_ref, to_ref)`. -/
def GraphEdge.key (edge : GraphEdge) : String × EdgeKind × String × String :=
  (edge.catalogSource, edge.kind, edge.fromRef, edge.toRef)

structure Graph where
  nodes : Table GraphNode.key
  edges : Table GraphEdge.key
  /-- Fact keys are digests. -/
  keyed : ∀ edge ∈ edges, edge.approvedJoinFactKey ≠ some ""
  /-- Table names are stored stripped. -/
  stripped : ∀ node ∈ nodes, strip node.tableName = node.tableName

/-- One hop, oriented to the direction of travel. -/
structure JoinStep where
  fromRef : String
  toRef : String
  cardinality : Option String
  approvedJoinFactKey : Option String
  approvedJoinStatus : Option FactStatus
  authority : EdgeAuthority
  deriving DecidableEq

/-- `_Edge`: a fetched row, as the hop along it. -/
abbrev Edge := JoinStep

def tableOfRef (objectRef : String) : String :=
  match Text.split '.' objectRef with
  | _ :: table :: _ => table
  | _ => objectRef

def invert (cardinality : Option String) : Option String :=
  if cardinality = some "N:1" then some "1:N"
  else if cardinality = some "1:N" then some "N:1"
  else cardinality

/-- The hop along a stored edge. -/
def GraphEdge.step (edge : GraphEdge) : JoinStep where
  fromRef := edge.fromRef
  toRef := edge.toRef
  cardinality := edge.cardinality
  approvedJoinFactKey := edge.approvedJoinFactKey
  approvedJoinStatus := edge.approvedJoinStatus
  authority := edge.authority

/-- The hop the other way. -/
def JoinStep.reverse (edge : JoinStep) : JoinStep :=
  { edge with fromRef := edge.toRef, toRef := edge.fromRef, cardinality := invert edge.cardinality }

def JoinStep.fromTable (step : JoinStep) : String := tableOfRef step.fromRef

def JoinStep.toTable (step : JoinStep) : String := tableOfRef step.toRef

def Edge.neighbours (table : String) (edge : Edge) : List (String × JoinStep) :=
  (if edge.fromTable = table then [(edge.toTable, edge)] else []) ++
    if edge.toTable = table then [(edge.fromTable, edge.reverse)] else []

/-- `_adjacency(edges).get(table, [])`. -/
def adjacency (edges : List Edge) (table : String) : List (String × JoinStep) :=
  edges.flatMap (Edge.neighbours table)

/-- `_bfs(_adjacency(edges), from_table, to_table)`. Each edge queues two tables at most. -/
def bfs (edges : List Edge) (fromTable toTable : String) : Option (List JoinStep) :=
  Bfs.search (adjacency edges) toTable (2 * edges.length + 2) fromTable

/-- The roles that grant each visibility class, of both vocabularies. -/
def classRoles : List (String × String) :=
  [("confidential", "confidential_reader"), ("pii", "pii_reader"),
    ("restricted", "restricted_reader")]

def allowedSensitivities (roles : List String) : List String :=
  (classRoles.filter fun c => c.2 ∈ roles).map Prod.fst

/-- A row of the query of `_classified_edges`. -/
structure FetchedEdge where
  edge : Edge
  fromSensitivity : Option String
  toSensitivity : Option String

/-- The row an edge gives in the query. -/
def fetchEdge (graph : Graph) (catalogSource : String) (e : GraphEdge) : Option FetchedEdge := do
  guard (e.catalogSource = catalogSource ∧ e.kind = .joins ∧ e.authority = .operational)
  let fromNode ← graph.nodes.get? (catalogSource, e.fromRef)
  let toNode ← graph.nodes.get? (catalogSource, e.toRef)
  some
    { edge := e.step
      fromSensitivity := fromNode.sensitivity
      toSensitivity := toNode.sensitivity }

/-- The rows of the query, in some order. -/
def edgeQuery (graph : Graph) (catalogSource : String) : List FetchedEdge :=
  graph.edges.rows.filterMap (fetchEdge graph catalogSource)

inductive EdgeClass where
  | clearing
  | unverified
  | denied
  deriving DecidableEq

/-- Declared by a file, or a governed join that is verified. -/
def JoinStep.cleared (step : JoinStep) : Bool :=
  step.approvedJoinFactKey = none ∨ step.approvedJoinStatus = some .verified

def visible (allowed : List String) (sensitivity : Option String) : Bool :=
  sensitivity.all (· ∈ allowed)

def FetchedEdge.edgeClass (allowed : List String) (row : FetchedEdge) : EdgeClass :=
  if ¬ (visible allowed row.fromSensitivity ∧ visible allowed row.toSensitivity) then .denied
  else if row.edge.cleared then .clearing
  else .unverified

def edgesOf (c : EdgeClass) (allowed : List String) (rows : List FetchedEdge) : List Edge :=
  (rows.filter fun row => row.edgeClass allowed = c).map (·.edge)

structure ClassifiedEdges where
  clearing : List Edge
  unverified : List Edge
  denied : List Edge

def classifiedEdges (rows : List FetchedEdge) (roles : List String) : ClassifiedEdges where
  clearing := edgesOf .clearing (allowedSensitivities roles) rows
  unverified := edgesOf .unverified (allowedSensitivities roles) rows
  denied := edgesOf .denied (allowedSensitivities roles) rows

/-- `unverified_fact.get(pair)`: the dictionary keeps the last edge's fact key. -/
def ClassifiedEdges.unverifiedFact (edges : ClassifiedEdges) (pair : String × String) :
    Option String :=
  (edges.unverified.reverse.find? fun e => (e.fromRef, e.toRef) = pair).bind
    (·.approvedJoinFactKey)

/-- `JoinOutcome`, by its kind. -/
inductive JoinOutcome where
  | operational (steps : List JoinStep)
  | unverified (steps : List JoinStep) (endpoints : List (String × String))
      (factKeys : List String)
  | noPath
  | denied (endpoints : List (String × String))
  deriving DecidableEq

/-- The hops of a path that rest on an unverified fact. -/
def ClassifiedEdges.unverifiedEndpoints (edges : ClassifiedEdges) (steps : List JoinStep) :
    List (String × String) :=
  (steps.map fun s => (s.fromRef, s.toRef)).filter fun pair =>
    (edges.unverifiedFact pair).isSome ∨ (edges.unverifiedFact pair.swap).isSome

/-- `unverified_fact.get((f, t)) or unverified_fact[(t, f)]`; none for a `KeyError`. -/
def ClassifiedEdges.factKey (edges : ClassifiedEdges) (pair : String × String) : Option String :=
  ((edges.unverifiedFact pair).filter (· ≠ "")).or (edges.unverifiedFact pair.swap)

/-- The hops of a path between hidden endpoints. -/
def ClassifiedEdges.deniedEndpoints (edges : ClassifiedEdges) (steps : List JoinStep) :
    List (String × String) :=
  (steps.map fun s => (s.fromRef, s.toRef)).filter fun pair =>
    edges.denied.any fun e => (e.fromRef, e.toRef) = pair ∨ (e.toRef, e.fromRef) = pair

/-- `classify_join_path` on the fetched rows; none if it raises a `KeyError`. -/
def classifyJoinPath (rows : List FetchedEdge) (fromTable toTable : String)
    (roles : List String) : Option JoinOutcome :=
  if fromTable = toTable then some (.operational [])
  else
    let edges := classifiedEdges rows roles
    match bfs edges.clearing fromTable toTable with
    | some steps => some (.operational steps)
    | none =>
        match bfs (edges.clearing ++ edges.unverified) fromTable toTable with
        | some steps =>
            let endpoints := edges.unverifiedEndpoints steps
            (endpoints.mapM edges.factKey).map (.unverified steps endpoints)
        | none =>
            match bfs (edges.clearing ++ edges.unverified ++ edges.denied) fromTable toTable with
            | some steps => some (.denied (edges.deniedEndpoints steps))
            | none => some .noPath

end FeatureGen.Overlay
