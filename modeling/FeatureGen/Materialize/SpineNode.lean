import FeatureGen.Lib.Frames
import FeatureGen.Materialize.GroupPlan
import FeatureGen.Materialize.SpineDeclaration

/-! # The spine's node

`materialize/render/nodes_compute.py`: the node rendered for a validated spine, and
what the rendered statements do to a source. The rendered text is kept as its
statements; the cutoff is an instant of its own, or null where Spark reads none
from the business date.
-/

namespace FeatureGen.Materialize

open FeatureGen.Overlay Checks

/-- A value of a column. A column holds values of one kind; the order among the kinds is never
    read. -/
inductive Cell where
  | number (value : ℚ)
  | instant (seconds : ℚ)
  | text (value : String)
  deriving DecidableEq

namespace Cell

def rank : Cell → ℚ ⊕ₗ ℚ ⊕ₗ String
  | number value => Sum.inlₗ value
  | instant seconds => Sum.inrₗ (Sum.inlₗ seconds)
  | text value => Sum.inrₗ (Sum.inrₗ value)

theorem rank_injective : Function.Injective rank := by
  intro a b h
  cases a <;> cases b <;> simp_all [rank]

instance : LinearOrder Cell := LinearOrder.lift' rank rank_injective

/-- The value plus an interval; Spark adds one to an instant. -/
def later (seconds : ℚ) : Cell → Option Cell
  | instant t => some (instant (t + seconds))
  | _ => none

end Cell

/-- A physical table as Spark reads it: the names `F.col` resolves in it, and the cells of each
    row by those names. Names that fold to one name are one column. -/
structure Dataset (lower : String → String) where
  has : String → Bool
  rows : List (Frames.Row String Cell)
  alike : ∀ a b, has a = true → has b = true → norm lower a = norm lower b →
    ∀ r ∈ rows, r a = r b

/-- `build_group_plan` returns a plan whose columns `_reject_collisions` has kept apart. -/
structure BuiltPlan extends FeatureGroupPlan where
  apart : (entityKeyColumns ++ [businessDtColumn]).Nodup

/-- `MaterializationContractV1` and `V2`: the landing keys and the landing's clock. -/
structure LandingContract where
  orderedKeys : List String
  businessDtColumn : String
  cutoffTimezone : String
  cutoffTime : String

inductive PartitionTransform where
  | dateIso
  | dateCompact

inductive PartitionMapping where
  | eventTimePartition (partitionColumn : String) (transform : PartitionTransform)
  | availabilityPartition
  | staticSnapshot (partitionValues : List (String × String))
  | fullScan
  | verifiedUnpartitioned

def PartitionMapping.className : PartitionMapping → String
  | eventTimePartition .. => "EventTimePartition"
  | availabilityPartition => "AvailabilityPartition"
  | staticSnapshot _ => "StaticSnapshot"
  | fullScan => "FullScan"
  | verifiedUnpartitioned => "VerifiedUnpartitioned"

/-- What a partition column is compared with. -/
inductive PartitionLiteral where
  | transformed (transform : PartitionTransform)
  | constant (value : String)

/-- `_TRANSFORMS`, applied. -/
def PartitionTransform.apply (businessDate : String) : PartitionTransform → String
  | .dateIso => businessDate
  | .dateCompact => String.ofList (businessDate.toList.filter (· ≠ '-'))

def PartitionLiteral.value (businessDate : String) : PartitionLiteral → Cell
  | transformed transform => .text (transform.apply businessDate)
  | constant value => .text value

/-- The selection of a policy's body. -/
inductive Selection where
  | whole
  | latest (effective available : String) (partition ordering : List String)
  | partitions (values : List (String × PartitionLiteral))
  | active (status : String) (allowed : List String)

/-- `_Body`: the vintage the guard asks for, and the selection. -/
structure SpineBody where
  guard : Option String
  selection : Selection

/-- The rendered node. `availability` is the column of rule 6's own filter, where it is rendered. -/
structure SpineNode where
  body : SpineBody
  availability : Option String
  keys : List (String × String)
  businessDtColumn : String
  cutoffTimezone : String
  cutoffTime : String
  inputs : List String
  outputs : List String

section Rendering

variable (lower : String → String)

/-- `repr` of a list of texts. -/
def reprTexts (texts : List String) : String :=
  "[" ++ String.intercalate ", " (texts.map Text.repr) ++ "]"

/-- `_dataset`. -/
def checkDataset (name what : String) : Except String Unit :=
  ensure (strip name ≠ "")
    (what ++ " has no name (" ++ Text.repr name ++ "): a node carries dataset NAMES and the " ++
      "catalog carries the locations behind them, so a blank name is a read or a write nobody " ++
      "declared")

/-- `_column`. -/
def columnOf (ref what : String) : Except String String :=
  match parseRef ref with
  | .error e => .error (what ++ " is " ++ Text.repr ref ++ ", which is not an addressable column " ++
      "ref (" ++ e ++ "): the rendered node selects columns, and a ref nothing can name is not one")
  | .ok parts =>
      match parts.column with
      | none => .error (what ++ " is " ++ Text.repr ref ++ ", which names a TABLE and not a " ++
          "column: a relation cannot be read as a key, a status or a clock")
      | some column => .ok column

def safeText (value what : String) : Except String Unit :=
  ensure (¬ value.toList.any fun c => c = '"' ∨ c = '\\' ∨ c = '\n' ∨ c = '\r')
    (what ++ " is " ++ Text.repr value ++ ", which carries a quote, a backslash or a newline: it " ++
      "is written into a rendered message, where any of the three would end the string literal " ++
      "early")

def keyColumns (spine : SpineSpec) (plan : BuiltPlan) (contract : LandingContract) :
    Except String (List (String × String)) := do
  let declared := spine.declaration.orderedKeyRefs
  let published := plan.entityKeyColumns
  ensure (contract.orderedKeys = declared)
    ("the contract's landing key(s) " ++ reprTexts contract.orderedKeys ++ " are not the " ++
      "spine's " ++ reprTexts declared ++ ": the published row is keyed by the contract and its " ++
      "rows come from the spine, so two different key lists would alias one population's " ++
      "columns into another's names")
  ensure (published.length = declared.length)
    (s!"the plan publishes {published.length} landing key column(s) " ++ reprTexts published ++
      s!" and the spine declares {declared.length} key ref(s): the spine's select is " ++
      "positional, so an arity that differs would land one key's values under another key's name")
  ensure (plan.businessDtColumn = contract.businessDtColumn)
    ("the plan's business-date column " ++ Text.repr plan.businessDtColumn ++ " is not the " ++
      "contract's " ++ Text.repr contract.businessDtColumn ++ ": the spine emits one row per " ++
      "(keys…, business_dt) and the two names must be one name")
  let sources ← declared.mapM fun ref => columnOf ref "a spine landing key"
  .ok (sources.zip published)

/-- `type(policy).__name__`. -/
def SnapshotPolicy.className : SnapshotPolicy → String
  | .currentSnapshot _ => "CurrentSnapshot"
  | .latestAvailableAsOf .. => "LatestAvailableAsOf"
  | .partitionMapped _ => "PartitionMappedSnapshot"
  | .activePopulation .. => "ActivePopulation"

def checkClaim (spine : SpineSpec) : Except String Unit :=
  match spine.declaration.populationSemantics, spine.declaration.snapshotPolicy with
  | .currentActiveOnly, .activePopulation .. => .ok ()
  | .currentActiveOnly, policy =>
      .error ("the declaration claims CURRENT_ACTIVE_ONLY under a " ++ policy.className ++ " policy: " ++
        "there is no implicit notion of 'active', so the claim can only rest on a declared " ++
        "status column and a declared set of values")
  | _, _ => .ok ()

/-- `_latest_available_as_of`. -/
def latestBody (effective available : String) (breaks : List String)
    (keys : List (String × String)) : Except String SpineBody := do
  let effective ← columnOf effective "the policy's effective_time_ref"
  let available ← columnOf available "the policy's availability_ref"
  let breaks ← breaks.mapM fun ref => columnOf ref "a deterministic_tie_break_ref"
  each (fun _ name => safeText name "a tie-break column") breaks
  .ok ⟨none, .latest effective available (keys.map (·.1)) (effective :: breaks)⟩

/-- What a declared mapping compares its columns with, in order. -/
def PartitionMapping.values (mapping : Option PartitionMapping) :
    Except String (List (String × PartitionLiteral)) :=
  match mapping with
  | some (.eventTimePartition column transform) => .ok [(column, .transformed transform)]
  | some (.staticSnapshot values) => .ok (values.map fun (column, value) => (column, .constant value))
  | other =>
      .error ("the population's table declares the partition mapping " ++
        (other.map PartitionMapping.className).getD "None" ++ ", which does not resolve a " ++
        "business date to partition VALUES: PARTITION_MAPPED says a business date selects the " ++
        "partitions, and rendering it over a mapping that reads every partition — or none, or a " ++
        "widened set for late arrivals — would read a population the declaration did not describe")

/-- `_partition_mapped`. -/
def partitionBody (refs : List String) (mapping : Option PartitionMapping) :
    Except String SpineBody := do
  let declared ← refs.mapM fun ref => columnOf ref "an ordered_partition_ref"
  let values ← PartitionMapping.values mapping
  let named := values.map (·.1)
  ensure (declared.map (norm lower) = named.map (norm lower))
    ("the policy names partition column(s) " ++ reprTexts declared ++ " and the declared mapping " ++
      "partitions on " ++ reprTexts named ++ ": the mapping is governed in one place (§3.4), and " ++
      "a policy that names other columns is the second copy of it")
  .ok ⟨none, .partitions values⟩

/-- `_active_population`. -/
def activeBody (status : String) (allowed : List String) : Except String SpineBody := do
  ensure (allowed ≠ [])
    ("the ACTIVE_POPULATION policy declares no allowed status values: an empty closed set " ++
      "selects nothing, so the spine would be empty and every landing key would disappear with " ++
      "no error at all")
  let status ← columnOf status "the policy's status_ref"
  .ok ⟨none, .active status allowed⟩

/-- `_current_snapshot`. -/
def currentBody (observed : String) : Except String SpineBody := do
  safeText observed "the declared observed_snapshot_ref"
  .ok ⟨some observed, .whole⟩

def policyBody (policy : SnapshotPolicy) (keys : List (String × String))
    (mapping : Option PartitionMapping) : Except String SpineBody :=
  match policy with
  | .currentSnapshot observed => currentBody observed
  | .latestAvailableAsOf effective available breaks => latestBody effective available breaks keys
  | .partitionMapped refs => partitionBody lower refs mapping
  | .activePopulation status allowed _ => activeBody status allowed

/-- `policy_filters_availability`: the policy's own filter is on the spine's own column. -/
def filtersAvailability (selection : Selection) (availability : Option String) : Bool :=
  match selection with
  | .latest _ available _ _ => availability = some available
  | _ => false

def renderSpineNode (spine : SpineSpec) (plan : BuiltPlan) (contract : LandingContract)
    (mapping : Option PartitionMapping) (sourceDataset spineDataset : String) :
    Except String SpineNode := do
  checkDataset sourceDataset "the spine's source dataset"
  checkDataset spineDataset "the spine's output dataset"
  let keys ← keyColumns spine plan contract
  checkClaim spine
  let availability ← spine.declaration.availabilityRef.mapM fun ref =>
    columnOf ref "the spine's availability_ref"
  let body ← policyBody lower spine.declaration.snapshotPolicy keys mapping
  each (fun _ key => safeText key.2 "a landing key column") keys
  safeText plan.businessDtColumn "the business-date column"
  .ok ⟨body, if filtersAvailability body.selection availability then none else availability, keys,
    plan.businessDtColumn, contract.cutoffTimezone, contract.cutoffTime,
    [sourceDataset, "params:business_dt"], [spineDataset]⟩

end Rendering

/-- The gates of the rendered node. -/
inductive SpineGate where
  | spineIncomplete
  | spineNonDeterministic
  | spineDuplicateKey

def SpineGate.value : SpineGate → String
  | spineIncomplete => "SPINE_INCOMPLETE"
  | spineNonDeterministic => "SPINE_NON_DETERMINISTIC"
  | spineDuplicateKey => "SPINE_DUPLICATE_KEY"

/-- How a run of the node stops: Spark does not resolve a column, or a gate raises. -/
inductive SpineStop where
  | unresolved (column : String)
  | refused (gate : SpineGate) (text : String)

structure SpineRow where
  keys : List (Option Cell)
  businessDate : String

def Selection.columns : Selection → List String
  | whole => []
  | latest effective available partition ordering =>
      effective :: available :: (partition ++ ordering)
  | partitions values => values.map (·.1)
  | active status _ => [status]

/-- The rows a selection keeps, or the gate it raises. -/
def Selection.select (businessDate : String) (cutoff : Option Cell)
    (rows : List (Frames.Row String Cell)) :
    Selection → Except SpineStop (List (Frames.Row String Cell))
  | whole => .ok rows
  | latest effective available partition ordering =>
      let eligible := rows.filter fun r =>
        Frames.upTo effective cutoff r && Frames.upTo available cutoff r
      let winners := Frames.first partition ordering eligible
      let breaks := ordering.tail
      let declared := if breaks = [] then "none declared" else String.intercalate ", " breaks
      if Frames.repeated partition winners then
        .error (.refused .spineNonDeterministic
          ("two eligible rows share an effective time and every declared tie-break (" ++ declared ++
            "), so no declared ordering separates them. Picking one would change the population " ++
            "between runs and move every feature value with it, so the spine refuses."))
      else .ok winners
  | partitions values =>
      .ok (rows.filter fun r =>
        values.all fun (column, literal) => Frames.among column [literal.value businessDate] r)
  | active status allowed => .ok (rows.filter (Frames.among status (allowed.map .text)))

namespace SpineNode

variable {lower : String → String} (node : SpineNode)

/-- The columns the node reads. -/
def columns : List String :=
  node.body.selection.columns ++ node.availability.toList ++ node.keys.map (·.1)

/-- The rows of the population, before they are landed. -/
def admitted (businessDate : String) (cutoff : Option Cell) (rows : List (Frames.Row String Cell)) :
    Except SpineStop (List (Frames.Row String Cell)) := do
  let kept ← node.body.selection.select businessDate cutoff rows
  .ok (kept.filter fun r => node.availability.all fun column => Frames.upTo column cutoff r)

def run (source : Dataset lower) (businessDate : String) (cutoff : Option Cell) :
    Except SpineStop (List SpineRow) := do
  let sources := node.keys.map (·.1)
  ensure (node.body.guard.all (· = businessDate) = true)
    (.refused .spineIncomplete
      ("the declared population is a snapshot observed at " ++ node.body.guard.getD "" ++
        " and holds no history, so it cannot honestly answer another business date. The spine " ++
        "refuses rather than answering with the rows it holds today. Asked for: " ++
        Text.repr businessDate))
  each (fun _ column => ensure (source.has column = true) (.unresolved column)) node.columns
  let rows ← node.admitted businessDate cutoff source.rows
  ensure (Frames.repeated sources rows = false)
    (.refused .spineDuplicateKey
      ("the declared population produced more than one row for a (" ++
        String.intercalate ", " (node.keys.map (·.2) ++ [node.businessDtColumn]) ++
        "). §4.2 makes that a blocking gate rather than a de-duplication step: collapsing the " ++
        "rows would hide a population the declaration got wrong."))
  .ok (rows.map fun r => ⟨Frames.tuple sources r, businessDate⟩)

end SpineNode

end FeatureGen.Materialize
