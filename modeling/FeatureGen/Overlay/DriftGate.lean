import FeatureGen.Lib.KeySort
import FeatureGen.Lib.Table
import FeatureGen.Lib.Text
import FeatureGen.Overlay.Commands

/-! # The read-time gate of confirmed contracts

`overlay/upload/contract/invalidation.py`: what a contract depends on is stored at
its confirmation with a hash over the item's state then, and read again with a hash
over the state now. An item is found by the marker it was recorded under.
-/

namespace FeatureGen.DriftGate

open Overlay (FactStatus FactValue OverlayEvent RefValue foldOverlayState statusText)

/-- Python's and the database's case folding, and the key the database orders texts by. -/
structure Dialect (κ : Type) where
  lower : String → String
  sqlLower : String → String
  collate : String → κ
  collate_injective : Function.Injective collate

/-- The `_STATE_COLUMNS` of a node. -/
structure NodeState where
  kind : String
  dataType : Option String
  declaredType : Option String
  definition : Option String
  isGrain : Bool
  isAsOf : Bool
  concept : Option String
  domain : Option String
  additivity : Option String
  sensitivity : Option String
  unit : Option String
  currency : Option String
  entity : Option String
  effectiveRestriction : Option String
  classificationStatus : Option String
  deriving DecidableEq

structure GraphNode where
  catalogSource : String
  objectRef : String
  state : NodeState

structure GraphEdge where
  catalogSource : String
  kind : String
  fromRef : String
  toRef : String
  cardinality : Option String
  authority : String
  approvedJoinStatus : Option String
  approvedJoinFactKey : Option String

/-- A row of `entity_bridge_edge`. -/
structure BridgeEdge where
  factKey : String
  status : String
  entityId : String
  leftCatalogSource : String
  leftObjectRef : String
  rightCatalogSource : String
  rightObjectRef : String

/-- What `load_current_bridge_realizations` returns of a directional realization, and whether
    `revalidate_bridge_realization` finds it executable for its own scope. -/
structure BridgeRealization where
  realizationRevisionId : String
  dependencySnapshotId : String
  cardinality : String
  safetyStatus : String
  lifecycle : String
  executable : Bool
  deriving DecidableEq

abbrev GraphNode.key (n : GraphNode) : String × String := (n.catalogSource, n.objectRef)

abbrev GraphEdge.key (e : GraphEdge) : String × String × String × String :=
  (e.catalogSource, e.kind, e.fromRef, e.toRef)

/-- The tables a signature is read from, and the overlay streams of the bridges; none where a
    stream cannot be read. -/
structure Database where
  nodes : Table GraphNode.key
  edges : Table GraphEdge.key
  bridges : Table BridgeEdge.factKey
  streams : String → Option (List OverlayEvent)
  realizations : List BridgeRealization

def edgePrefix : String := "joinedge:"

def bridgeFactPrefix : String := "bridgefact:"

def realizationPrefix : String := "realization:"

def bridgeRealizationPrefix : String := "bridge-realization-v2:"

/-- `s.startswith(start)`. -/
def startsWith (start s : String) : Bool := start.toList.isPrefixOf s.toList

/-- `s[len(start):]`. -/
def afterPrefix (start s : String) : String := String.ofList (s.toList.drop start.toList.length)

/-- `s.partition(sep)`, without the separator. -/
def parts (sep s : String) : String × String := (Text.partition sep s).getD (s, "")

/-- `sorted((a, b))`. -/
def sortedPair (a b : String) : String × String := if b < a then (b, a) else (a, b)

def edgeBody (pair : String × String) : String := pair.1 ++ "|" ++ pair.2

def edgeEndpoints (lower : String → String) (fromRef toRef : String) : String × String :=
  sortedPair (lower fromRef) (lower toRef)

def joinEdgeMarker (lower : String → String) (fromRef toRef : String) : String :=
  edgePrefix ++ edgeBody (edgeEndpoints lower fromRef toRef)

def bridgeFactMarker (factKey : String) : String := bridgeFactPrefix ++ factKey

def realizationMarker (realizationId : String) : String := realizationPrefix ++ realizationId

/-- `{catalog}:{from_key}->{to_key}`, the id the deriver gives a realization. -/
def realizationId (catalog fromKey toKey : String) : String :=
  catalog ++ ":" ++ fromKey ++ "->" ++ toKey

def bridgeRealizationBody (revisionId snapshotId : String) : String :=
  revisionId ++ "|" ++ snapshotId

/-- `bridge_realization_marker`, for ids that are not blank. -/
def bridgeRealizationMarker (revisionId snapshotId : String) : String :=
  bridgeRealizationPrefix ++ bridgeRealizationBody revisionId snapshotId

/-- The endpoints `_realization_signature` reads out of a realization id. -/
def realizationEndpoints (rid : String) : String × String := parts "->" (parts ":" rid).2

structure JoinState where
  cardinality : Option String
  authority : String
  approvedJoinStatus : Option String
  hasApprovedFact : Bool
  deriving DecidableEq

/-- The state of an item; one that is `MISSING` has none. -/
inductive Signature where
  | node (state : NodeState)
  | edge (state : JoinState)
  | bridge (status : String) (entityId : Option String) (left right : String)
  | directional (realization : BridgeRealization)
  | realization (state : JoinState)
  deriving DecidableEq

def GraphEdge.joinState (e : GraphEdge) : JoinState where
  cardinality := e.cardinality
  authority := e.authority
  approvedJoinStatus := e.approvedJoinStatus
  hasApprovedFact := e.approvedJoinFactKey.isSome

section Signatures

variable {κ : Type} [LinearOrder κ] (x : Dialect κ) (db : Database)

def matchingNodes (catalogSource ref : String) : List GraphNode :=
  db.nodes.rows.filter fun n =>
    n.catalogSource = catalogSource ∧ x.sqlLower n.objectRef = x.sqlLower ref

/-- The joins between two endpoints, in either orientation. -/
def matchingEdges (catalogSource : String) (ends : String × String) : List GraphEdge :=
  db.edges.rows.filter fun e =>
    e.catalogSource = catalogSource ∧ e.kind = "joins" ∧
      ((x.sqlLower e.fromRef = ends.1 ∧ x.sqlLower e.toRef = ends.2) ∨
        (x.sqlLower e.fromRef = ends.2 ∧ x.sqlLower e.toRef = ends.1))

/-- The joins from one endpoint to another. -/
def matchingRealizations (catalogSource : String) (ends : String × String) : List GraphEdge :=
  db.edges.rows.filter fun e =>
    e.catalogSource = catalogSource ∧ e.kind = "joins" ∧
      x.sqlLower e.fromRef = x.sqlLower ends.1 ∧ x.sqlLower e.toRef = x.sqlLower ends.2

def nodeOrder (n : GraphNode) : κ := x.collate n.objectRef

def edgeOrder (e : GraphEdge) : κ ×ₗ κ := toLex (x.collate e.fromRef, x.collate e.toRef)

def joinEdgeSignature (catalogSource marker : String) : Option Signature :=
  let ends := parts "|" (afterPrefix edgePrefix marker)
  (KeySort.sortBy (edgeOrder x) (matchingEdges x db catalogSource ends)).head?.map fun e =>
    .edge e.joinState

/-- `link_state_from_stream`; none is `UNREADABLE`. -/
def linkState (stream : Option (List OverlayEvent)) : Option (FactStatus × Option FactValue) := do
  let events ← stream
  let folded := foldOverlayState events
  let status ← folded.status
  return (status, folded.value)

def availableStatuses : List FactStatus := [.draft, .partiallyConfirmed, .verified]

def endpointStr (ref : Option RefValue) : String :=
  match ref with
  | none => ""
  | some ref => ref.catalogSource ++ "." ++ ref.schema ++ "." ++ ref.table ++ "." ++
      (ref.column.join.getD "None")

/-- `value.get(..)` of a bridge's value; the values of other shapes have no endpoints. -/
def bridgeValue : Option FactValue → Option String × Option RefValue × Option RefValue
  | some (.entityBridge entityId left right) => (some entityId, some left, some right)
  | some (.entityAssignment entityId) => (some entityId, none, none)
  | _ => (none, none, none)

def unreviewedBridgeSignature (status : FactStatus) (value : Option FactValue) : Signature :=
  let fields := bridgeValue value
  .bridge (statusText (some status)) fields.1 (endpointStr fields.2.1) (endpointStr fields.2.2)

/-- The state of a bridge: its lifecycle decides whether it has one, its row supplies it. -/
def bridgeState (factKey : String) : Option Signature :=
  if factKey = "" then none
  else
    (linkState (db.streams factKey)).bind fun lifecycle =>
      if availableStatuses.contains lifecycle.1 then
        match db.bridges.get? factKey with
        | some row => some (.bridge row.status (some row.entityId)
            (row.leftCatalogSource ++ "." ++ row.leftObjectRef)
            (row.rightCatalogSource ++ "." ++ row.rightObjectRef))
        | none => some (unreviewedBridgeSignature lifecycle.1 lifecycle.2)
      else none

def bridgeFactSignature (marker : String) : Option Signature :=
  bridgeState db (afterPrefix bridgeFactPrefix marker)

def bridgeRealizationState (revisionId snapshotId : String) : Option Signature :=
  match db.realizations.filter fun r => r.realizationRevisionId = revisionId with
  | [r] =>
      if r.dependencySnapshotId = snapshotId ∧ r.executable then some (.directional r) else none
  | _ => none

def bridgeRealizationSignature (marker : String) : Option Signature :=
  let ids := parts "|" (afterPrefix bridgeRealizationPrefix marker)
  if ids.1 = "" ∨ ids.2 = "" then none
  else bridgeRealizationState db ids.1 ids.2

def realizationSignature (catalogSource marker : String) : Option Signature :=
  let ends := realizationEndpoints (afterPrefix realizationPrefix marker)
  if ends.1 = "" ∨ ends.2 = "" then none
  else
    (KeySort.sortBy (edgeOrder x) (matchingRealizations x db catalogSource ends)).head?.map
      fun e => .realization e.joinState

/-- The rest of `_catalog_state_signature`. -/
def nodeSignature (catalogSource ref : String) : Option Signature :=
  (KeySort.sortBy (nodeOrder x) (matchingNodes x db catalogSource ref)).head?.map fun n =>
    .node n.state

/-- `_catalog_state_signature`; none is `MISSING`. -/
def catalogStateSignature (catalogSource : String) (objectRef : Option String) :
    Option Signature :=
  match objectRef with
  | none => none
  | some ref =>
      if ref = "" then none
      else if startsWith edgePrefix ref then joinEdgeSignature x db catalogSource ref
      else if startsWith bridgeFactPrefix ref then bridgeFactSignature db ref
      else if startsWith bridgeRealizationPrefix ref then bridgeRealizationSignature db ref
      else if startsWith realizationPrefix ref then realizationSignature x db catalogSource ref
      else nodeSignature x db catalogSource ref

end Signatures

/-- The columns of `contract_metadata_dependency` that identify an item. -/
structure DependencyRef where
  contractId : String
  catalogSource : String
  graphRef : Option String
  logicalRef : Option String
  decisionId : Option String
  factId : Option String
  eventId : Option String
  deriving DecidableEq

inductive HashedState where
  | missing
  | unresolvedAtConfirm
  | live (signature : Signature)
  deriving DecidableEq

structure DependencyRow (H : Type) where
  ref : DependencyRef
  itemHash : H

section Hashes

variable {κ H : Type} [LinearOrder κ] (x : Dialect κ)
  (canonicalHash : DependencyRef × HashedState → H) (db : Database)

def confirmDependencyHash (ref : DependencyRef) : H :=
  match catalogStateSignature x db ref.catalogSource ref.logicalRef with
  | none => canonicalHash (ref, .unresolvedAtConfirm)
  | some signature => canonicalHash (ref, .live signature)

def currentDependencyHash (ref : DependencyRef) : H :=
  match catalogStateSignature x db ref.catalogSource ref.logicalRef with
  | none => canonicalHash (ref, .missing)
  | some signature => canonicalHash (ref, .live signature)

/-- `dependencies_drifted`, over the rows in the order the database returns them. -/
def dependenciesDrifted [DecidableEq H] (rows : List (DependencyRow H)) (contractId : String) :
    Bool :=
  (rows.filter fun row => row.ref.contractId = contractId).any fun row =>
    currentDependencyHash x canonicalHash db row.ref ≠ row.itemHash

/-- The insert of a dependency row, `ON CONFLICT (contract_id, item_hash) DO NOTHING`. -/
def insertDependency [DecidableEq H] (rows : List (DependencyRow H)) (ref : DependencyRef) :
    List (DependencyRow H) :=
  let itemHash := confirmDependencyHash x canonicalHash db ref
  if rows.any fun row => row.ref.contractId = ref.contractId ∧ row.itemHash = itemHash then rows
  else rows ++ [⟨ref, itemHash⟩]

end Hashes

/-- The item itself, by its key. -/
inductive Item where
  | node (catalogSource objectRef : String)
  | joinEdge (catalogSource fromRef toRef : String)
  | bridge (factKey : String)
  | realization (catalogSource fromRef toRef : String)
  | directional (revisionId snapshotId : String)
  /-- A decision or a fact, recorded by its id without a ref. -/
  | idOnly

/-- The load-bearing state of an item, none where it does not resolve. -/
def Item.state (db : Database) : Item → Option Signature
  | .node catalogSource objectRef =>
      (db.nodes.get? (catalogSource, objectRef)).map fun n => .node n.state
  | .joinEdge catalogSource fromRef toRef =>
      (db.edges.get? (catalogSource, "joins", fromRef, toRef)).map fun e => .edge e.joinState
  | .bridge factKey => bridgeState db factKey
  | .realization catalogSource fromRef toRef =>
      (db.edges.get? (catalogSource, "joins", fromRef, toRef)).map fun e =>
        .realization e.joinState
  | .directional revisionId snapshotId => bridgeRealizationState db revisionId snapshotId
  | .idOnly => none

/-- How an item is recorded: a ref that names it, in whatever case and orientation. -/
def Item.Names {κ : Type} (x : Dialect κ) (item : Item) (catalogSource : String)
    (logicalRef : Option String) : Prop :=
  match item with
  | .node catalog objectRef => catalogSource = catalog ∧
      ∃ ref, logicalRef = some ref ∧ x.sqlLower ref = x.sqlLower objectRef
  | .joinEdge catalog fromRef toRef => catalogSource = catalog ∧
      ∃ a b, logicalRef = some (joinEdgeMarker x.lower a b) ∧
        ((x.lower a = x.lower fromRef ∧ x.lower b = x.lower toRef) ∨
          (x.lower a = x.lower toRef ∧ x.lower b = x.lower fromRef))
  | .bridge factKey => logicalRef = some (bridgeFactMarker factKey)
  | .realization catalog fromRef toRef => catalogSource = catalog ∧
      ∃ prefixed a b, logicalRef = some (realizationMarker (realizationId prefixed a b)) ∧
        x.sqlLower a = x.sqlLower fromRef ∧ x.sqlLower b = x.sqlLower toRef
  | .directional revisionId snapshotId =>
      revisionId ≠ "" ∧ snapshotId ≠ "" ∧
        logicalRef = some (bridgeRealizationMarker revisionId snapshotId)
  | .idOnly => logicalRef = none

/-- A dependency row as it is recorded, with the item the plan rests on. -/
structure Dependency {κ : Type} (x : Dialect κ) where
  ref : DependencyRef
  item : Item
  named : item.Names x ref.catalogSource ref.logicalRef

/-- The catalog and the dependency rows. -/
structure World (H : Type) where
  db : Database
  rows : List (DependencyRow H)

inductive Action {κ : Type} (x : Dialect κ) where
  /-- An upload, an approval, a demotion, an event of a bridge: any change of the tables. -/
  | change (db : Database)
  /-- A contract is confirmed with what it rests on. -/
  | confirm (deps : List (Dependency x))

def step {κ H : Type} [LinearOrder κ] [DecidableEq H] (x : Dialect κ)
    (canonicalHash : DependencyRef × HashedState → H) (w : World H) :
    Action x → Option (World H)
  | .change db => some { w with db := db }
  | .confirm deps => some { w with
      rows := deps.foldl (fun rows dep => insertDependency x canonicalHash w.db rows dep.ref)
        w.rows }

end FeatureGen.DriftGate
