import FeatureGen.Lib.Json
import FeatureGen.Lib.Table
import FeatureGen.Overlay.Identity

/-! # Group plans and their members

`materialize/group_plan_v2.py` over its two append-only tables. A plan is stored
under its hash, which says what the group publishes and not where; the queries
ask by environment and name.
-/

namespace FeatureGen.Materialize

open FeatureGen.Overlay

inductive RoundingMode where
  | halfUp
  | halfEven
  | down
  | up
  | floor
  | ceiling

def RoundingMode.value : RoundingMode → String
  | .halfUp => "half_up"
  | .halfEven => "half_even"
  | .down => "down"
  | .up => "up"
  | .floor => "floor"
  | .ceiling => "ceiling"

inductive OverflowBehavior where
  | error
  | saturate

def OverflowBehavior.value : OverflowBehavior → String
  | .error => "error"
  | .saturate => "saturate"

structure PhysicalType where
  sqlType : String
  nullable : Bool
  rounding : Option RoundingMode
  overflow : Option OverflowBehavior

def PhysicalType.identityPayload (t : PhysicalType) : Json :=
  .obj (.ofList [("sql_type", .str t.sqlType), ("nullable", .bool t.nullable),
    ("rounding", .ofOption (t.rounding.map (·.value))),
    ("overflow", .ofOption (t.overflow.map (·.value)))])

structure PlannedFeature where
  columnName : String
  irHash : String
  physicalType : PhysicalType

def PlannedFeature.identityPayload (f : PlannedFeature) : Json :=
  .obj (.ofList [("column_name", .str f.columnName), ("ir_hash", .str f.irHash),
    ("physical_type", f.physicalType.identityPayload)])

/-- `FeatureGroupPlanV2`. -/
structure FeatureGroupPlan where
  logicalGroupName : String
  materializationContractHash : String
  entityKeyColumns : List String
  businessDtColumn : String
  features : List PlannedFeature
  physicalTypePolicy : String

def jsonStrings (texts : List String) : Json := .arr (.ofList (texts.map .str))

def FeatureGroupPlan.identityPayload (plan : FeatureGroupPlan) : Json :=
  .obj (.ofList [("logical_group_name", .str plan.logicalGroupName),
    ("materialization_contract_hash", .str plan.materializationContractHash),
    ("entity_key_columns", jsonStrings plan.entityKeyColumns),
    ("business_dt_column", .str plan.businessDtColumn),
    ("features", .arr (.ofList ((plan.features.insertionSort fun f f' =>
      f.columnName ≤ f'.columnName).map PlannedFeature.identityPayload))),
    ("physical_type_policy", .str plan.physicalTypePolicy)])

/-- `group_plan_hash_v2`. -/
def groupPlanHash (materializeHash : Json → String) (plan : FeatureGroupPlan) : String :=
  materializeHash plan.identityPayload

/-- A row of `materialization_group_v2`: what the queries read of it. -/
structure GroupRow where
  groupPlanHash : String
  environmentId : String
  logicalGroupName : String
  materializationContractHash : String

/-- A row of `materialization_group_member`. -/
structure MemberRow where
  groupPlanHash : String
  columnName : String
  irHash : String

/-- `PRIMARY KEY (group_plan_hash, column_name)`. -/
def MemberRow.key (m : MemberRow) : String × String := (m.groupPlanHash, m.columnName)

structure GroupStore where
  groups : Table GroupRow.groupPlanHash
  members : Table MemberRow.key

def GroupStore.empty : GroupStore := ⟨Table.empty, Table.empty⟩

/-- `btrim(text) = ''`. -/
def sqlBlank (text : String) : Bool := text.toList.all (· = ' ')

def isPolicyChar (c : Char) : Bool := c.isDigit ∨ ('a' ≤ c ∧ c ≤ 'z') ∨ c = '-'

/-- A segment of a policy id, `[a-z0-9][a-z0-9-]*`. -/
def policySegment : List Char → Bool
  | [] => false
  | c :: cs => c ≠ '-' && (c :: cs).all isPolicyChar

/-- `^segment(/segment)+@[0-9]+$`. -/
def policyId (text : String) : Bool :=
  match text.toList.splitOn '@' with
  | [name, version] =>
      2 ≤ (name.splitOn '/').length && (name.splitOn '/').all policySegment &&
        version ≠ [] && version.all Char.isDigit
  | _ => false

/-- What `record_group_plan` and the checks of its tables accept. -/
def recordable (hash : String) (plan : FeatureGroupPlan) (environmentId : String) : Bool :=
  strip environmentId ≠ "" && !sqlBlank hash && !sqlBlank environmentId &&
    !sqlBlank plan.logicalGroupName && !sqlBlank plan.materializationContractHash &&
    plan.entityKeyColumns ≠ [] && !sqlBlank plan.businessDtColumn &&
    policyId plan.physicalTypePolicy &&
    plan.features.all fun f => !sqlBlank f.columnName && !sqlBlank f.irHash

def groupRow (hash : String) (plan : FeatureGroupPlan) (environmentId : String) : GroupRow where
  groupPlanHash := hash
  environmentId := environmentId
  logicalGroupName := plan.logicalGroupName
  materializationContractHash := plan.materializationContractHash

def memberRow (hash : String) (f : PlannedFeature) : MemberRow := ⟨hash, f.columnName, f.irHash⟩

/-- `record_group_plan`; none if it raises, and its transaction is rolled back. -/
def recordGroupPlan (materializeHash : Json → String) (s : GroupStore) (plan : FeatureGroupPlan)
    (environmentId : String) : Option GroupStore :=
  let hash := groupPlanHash materializeHash plan
  if recordable hash plan environmentId then
    some {
      groups := s.groups.insertNew (groupRow hash plan environmentId)
      members := plan.features.foldl (fun t f => t.insertNew (memberRow hash f)) s.members }
  else none

/-- `GroupMembershipV2`. -/
structure GroupMembership where
  environmentId : String
  logicalGroupName : String
  groupPlanHash : String
  materializationContractHash : String
  columnName : String
  irHash : String

def membership (g : GroupRow) (m : MemberRow) : GroupMembership where
  environmentId := g.environmentId
  logicalGroupName := g.logicalGroupName
  groupPlanHash := g.groupPlanHash
  materializationContractHash := g.materializationContractHash
  columnName := m.columnName
  irHash := m.irHash

def GroupStore.joined (s : GroupStore) : List GroupMembership :=
  s.groups.rows.flatMap fun g =>
    (s.members.rows.filter fun m => m.groupPlanHash = g.groupPlanHash).map (membership g)

def membersOfGroup (s : GroupStore) (environmentId logicalGroupName : String) :
    List GroupMembership :=
  (s.joined.filter fun r => r.environmentId = environmentId ∧
    r.logicalGroupName = logicalGroupName).insertionSort fun r r' => r.columnName ≤ r'.columnName

def groupOfFeature (s : GroupStore) (environmentId featureName : String) : List GroupMembership :=
  (s.joined.filter fun r => r.environmentId = environmentId ∧
    r.columnName = featureName).insertionSort fun r r' =>
      r.logicalGroupName < r'.logicalGroupName ∨ (r.logicalGroupName = r'.logicalGroupName ∧
        r.groupPlanHash ≤ r'.groupPlanHash)

end FeatureGen.Materialize
