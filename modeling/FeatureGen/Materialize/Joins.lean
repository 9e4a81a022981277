import FeatureGen.Overlay.Identity
import FeatureGen.Overlay.JoinPath

/-! # Governed joins

`materialize/joins.py`, for one catalog: a path of the catalog graph is planned if
it is operational, if no table name on it could mean two tables, and if no hop
multiplies rows. Everything else is refused, and the first failing check gives the
code. `lower` is `str.lower`, and the `lower` of the database.
-/

namespace FeatureGen.Materialize

open FeatureGen.Overlay

/-- The codes `plan_join` refuses with. -/
inductive CompilationRefusalCode where
  | ambiguousTableName
  | joinPathNotVerified
  | joinPathDeniedByReadScope
  | grainPathNotGoverned
  | joinFanoutUnsupported
  | joinCardinalityUnknown

structure PhysicalIdentity where
  catalogSource : String
  schema : String
  table : String
  deriving DecidableEq

structure JoinPlan where
  steps : List JoinStep
  rolesUsed : List String
  fansOut : Bool

/-- What `plan_join` ends in: an exception, a refusal, or a plan. -/
inductive Planned where
  | raised (error : String)
  | refused (code : CompilationRefusalCode) (detail : String)
  | plan (plan : JoinPlan)

def Planned.code : Planned → Option CompilationRefusalCode
  | .refused code _ => some code
  | _ => none

inductive CardinalityVerdict where
  | fansIn
  | fansOut
  | unknown

def fansIn : List String := ["N:1", "1:1"]

def fansOut : List String := ["1:N"]

def cardinalityVerdict (cardinality : Option String) : CardinalityVerdict :=
  if cardinality.any fun c => c ∈ fansIn then .fansIn
  else if cardinality.any fun c => c ∈ fansOut then .fansOut
  else .unknown

/-- `repr` of a cardinality. -/
def reprCardinality : Option String → String
  | none => "None"
  | some c => Text.repr c

def refuseHop (toIdentity : PhysicalIdentity) (step : JoinStep) :
    Option (CompilationRefusalCode × String) :=
  let hop := s!"hop {step.fromRef} -> {step.toRef}"
  let destination := s!"{toIdentity.schema}.{toIdentity.table}"
  let cardinality := step.cardinality.getD ""
  match cardinalityVerdict step.cardinality with
  | .fansIn => none
  | .unknown => some (.joinCardinalityUnknown,
      s!"{hop} has cardinality {reprCardinality step.cardinality}: an unattested hop may fan " ++
        "1:N toward the destination, which would multiply rows and inflate every aggregate " ++
        "over them")
  | .fansOut => some (.joinFanoutUnsupported,
      s!"{hop} fans {cardinality} toward {destination}: allocating one row across many " ++
        "destination rows is a governed business decision, and no allocation policy exists — " ++
        "the path is refused, not repaired")

section Names

variable (lower : String → String)

def fold (identifier : String) : String := norm lower identifier

/-- `_tables_on`: the folded names of the tables a path touches, each once. -/
def tablesOn (steps : List JoinStep) (fromIdentity toIdentity : PhysicalIdentity) : List String :=
  (fold lower fromIdentity.table ::
    (steps.flatMap fun s => [fold lower s.fromTable, fold lower s.toTable]) ++
      [fold lower toIdentity.table]).dedup

def attestedSchemas (graph : Graph) (catalogSource table : String) : List String :=
  (graph.nodes.rows.filter fun node =>
    node.catalogSource = catalogSource ∧ lower node.tableName = table).filterMap fun node =>
      (node.schemaName.filter (· ≠ "")).map (fold lower)

def resolvedSchemas (endpoints : List PhysicalIdentity) (table : String) : List String :=
  (endpoints.filter fun e => strip e.schema ≠ "" ∧ fold lower e.table = table).map fun e =>
    fold lower e.schema

/-- `_schema_candidates`, of one table, in order. -/
def schemaCandidates (graph : Graph) (catalogSource : String) (endpoints : List PhysicalIdentity)
    (table : String) : List String :=
  ((attestedSchemas lower graph catalogSource table ++
    resolvedSchemas lower endpoints table).dedup).insertionSort (· ≤ ·)

/-- `_refuse_ambiguity`: the detail of the refusal. -/
def refuseAmbiguity (graph : Graph) (catalogSource : String) (steps : List JoinStep)
    (fromIdentity toIdentity : PhysicalIdentity) : Option String :=
  let candidates := schemaCandidates lower graph catalogSource [fromIdentity, toIdentity]
  let ambiguous := (tablesOn lower steps fromIdentity toIdentity).filter fun table =>
    1 < (candidates table).length
  if ambiguous = [] then none
  else
    let described := String.intercalate "; " <| (ambiguous.insertionSort (· ≤ ·)).map fun table =>
      table ++ " -> " ++ String.intercalate ", " (candidates table)
    some ("the governed planner indexes nodes by bare table name, and these names resolve to " ++
      s!"more than one physical schema: {described}. A path stitched through them could read a " ++
      "different table than the one governed")

end Names

/-- `_refuse_outcome`, of the outcomes that are not operational. -/
def refuseOutcome (outcome : JoinOutcome) (fromIdentity toIdentity : PhysicalIdentity) :
    CompilationRefusalCode × String :=
  let route := s!"{fromIdentity.schema}.{fromIdentity.table} -> " ++
    s!"{toIdentity.schema}.{toIdentity.table}"
  match outcome with
  | .unverified _ endpoints factKeys =>
      let listed := String.intercalate ", " factKeys
      let keys := if listed = "" then "(none recorded)" else listed
      (.joinPathNotVerified,
        s!"{route}: the only path runs through {endpoints.length} hop(s) whose approved_join " ++
          s!"fact is not VERIFIED — fact keys: {keys}")
  | .denied endpoints =>
      let listed := String.intercalate "; " (endpoints.map fun e => e.1 ++ " -> " ++ e.2)
      let hops := if listed = "" then "(none recorded)" else listed
      (.joinPathDeniedByReadScope,
        s!"{route}: every path crosses a hop hidden from the supplied read scope — " ++
          s!"endpoints: {hops}")
  | _ => (.grainPathNotGoverned,
      s!"{route}: no governed join path connects these tables in this catalog")

/-- The `ValueError` of an identity from another catalog. -/
def wrongCatalog (name catalogSource : String) (identity : PhysicalIdentity) : String :=
  s!"{name}.catalog_source {Text.repr identity.catalogSource} does not match catalog_source " ++
    s!"{Text.repr catalogSource}: the governed planner is single-catalog, and planning inside " ++
    "one catalog while the caller meant another would read the wrong tables"

/-- The checks of an operational path, after those of its names hop by hop. -/
def planSteps (lower : String → String) (graph : Graph) (catalogSource : String)
    (fromIdentity toIdentity : PhysicalIdentity) (roles : List String) (steps : List JoinStep) :
    Planned :=
  match refuseAmbiguity lower graph catalogSource steps fromIdentity toIdentity with
  | some detail => .refused .ambiguousTableName detail
  | none =>
      match steps.findSome? (refuseHop toIdentity) with
      | some (code, detail) => .refused code detail
      | none => .plan { steps := steps, rolesUsed := roles, fansOut := false }

/-- `plan_join`, where the edge query returns `rows`. -/
def planJoin (lower : String → String) (graph : Graph) (rows : List FetchedEdge)
    (catalogSource : String) (fromIdentity toIdentity : PhysicalIdentity) (roles : List String) :
    Planned :=
  if fold lower fromIdentity.catalogSource ≠ fold lower catalogSource then
    .raised (wrongCatalog "from_identity" catalogSource fromIdentity)
  else if fold lower toIdentity.catalogSource ≠ fold lower catalogSource then
    .raised (wrongCatalog "to_identity" catalogSource toIdentity)
  else
    match classifyJoinPath rows (fold lower fromIdentity.table) (fold lower toIdentity.table)
      roles with
    | none => .raised "KeyError"
    | some (.operational steps) =>
        planSteps lower graph catalogSource fromIdentity toIdentity roles steps
    | some outcome =>
        let (code, detail) := refuseOutcome outcome fromIdentity toIdentity
        .refused code detail

end FeatureGen.Materialize
