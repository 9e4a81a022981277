import FeatureGen.Lib.Checks
import FeatureGen.Lib.KeySort
import FeatureGen.Materialize.GroupPlan
import FeatureGen.Materialize.SpineDeclaration

/-! # Group plans and staging manifests

`materialize/group_plan.py`: the packing list of a group, the row it publishes, and
the gate that asks for one completed manifest of this run for each planned feature.
`nfkc` and `lower` are what `hive_identifier` folds a name with.
-/

namespace FeatureGen.Materialize

open FeatureGen.Overlay Checks

def systemColumns : List String :=
  ["__generation_id", "__generated_project_hash", "__sandbox_execution_hash"]

def systemColumnSqlType : String := "STRING"

inductive ColumnRole where
  | entityKey
  | businessDt
  | feature
  | system

def ColumnRole.value : ColumnRole → String
  | .entityKey => "entity_key"
  | .businessDt => "business_dt"
  | .feature => "feature"
  | .system => "system"

structure PlannedColumn where
  name : String
  role : ColumnRole
  sqlType : Option String
  nullable : Bool

/-- What a plan cannot be built from: a name, or a `ValueError`. -/
inductive PlanError where
  | featureName (detail : String)
  | value (detail : String)

def isHiveChar (c : Char) : Bool :=
  ('a' ≤ c ∧ c ≤ 'z') ∨ ('0' ≤ c ∧ c ≤ '9') ∨ c = '_'

/-- `_HIVE_IDENTIFIER`. -/
def isHiveIdentifier (name : String) : Bool :=
  match name.toList with
  | [] => false
  | c :: cs => ('a' ≤ c ∧ c ≤ 'z') && cs.all isHiveChar && cs.length ≤ 127

section Names

variable (nfkc lower : String → String)

def hiveIdentifier (name : String) : Except PlanError String :=
  let folded := (lower (strip (nfkc name))).map fun c => if isHiveChar c then c else '_'
  if isHiveIdentifier folded then .ok folded
  else .error (.featureName (s!"feature name {Text.repr name} does not normalize to a Hive " ++
    s!"identifier (got {Text.repr folded}: it must start with a letter and be at most 128 " ++
    "characters of [a-z0-9_])"))

/-- One turn of `key_columns_from_refs`. -/
def keyColumnFromRef (ref : String) : Except PlanError String :=
  match parseRef ref with
  | .error exc => .error (.value (s!"the contract's landing key {Text.repr ref} is not an " ++
      s!"addressable column ref ({exc}): the published row is keyed by columns, and a key " ++
      "nothing can name is not a key"))
  | .ok parts =>
      match parts.column with
      | none => .error (.value (s!"the contract's landing key {Text.repr ref} names a TABLE, " ++
          "not a column: the published row is one per (keys…, business_dt), so every key must be a " ++
          "column of it"))
      | some column => hiveIdentifier nfkc lower column

def keyColumnsFromRefs (orderedKeys : List String) : Except PlanError (List String) :=
  orderedKeys.mapM (keyColumnFromRef nfkc lower)

end Names

/-- The loop of `_reject_collisions`, after the columns of `seen`. -/
def rejectAfter (seen : List (String × ColumnRole)) :
    List (String × ColumnRole) → Except PlanError Unit
  | [] => .ok ()
  | column :: columns =>
      match seen.find? (·.1 = column.1) with
      | some clash => .error (.featureName (s!"the published row would carry " ++
          s!"{Text.repr column.1} twice — once as a {clash.2.value} and once as a " ++
          s!"{column.2.value}; one would silently overwrite the other"))
      | none => rejectAfter (seen ++ [column]) columns

def rejectCollisions (columns : List (String × ColumnRole)) : Except PlanError Unit :=
  rejectAfter [] columns

/-- `ContractGroup`, with what the plan reads of its contract. -/
structure ContractGroup where
  contractHash : String
  orderedKeys : List String
  businessDtColumn : String
  featureNames : List String

structure FeatureGroupPlanV1 where
  logicalGroupName : String
  materializationContractHash : String
  entityKeyColumns : List String
  businessDtColumn : String
  features : List PlannedFeature
  physicalTypePolicyVersion : ℕ

/-- The names of the planned columns. -/
def FeatureGroupPlanV1.columns (plan : FeatureGroupPlanV1) : List String :=
  plan.features.map (·.columnName)

def featureColumns (features : List PlannedFeature) : List (String × ColumnRole) :=
  features.map fun feature => (feature.columnName, .feature)

/-- Two features of one column, before the members are compared. -/
def rejectRepeated (planned : List PlannedFeature) : Except PlanError Unit :=
  if (planned.map (·.columnName)).dedup.length ≠ planned.length then
    rejectCollisions (featureColumns planned)
  else .ok ()

/-- What the published row is made of, by name. -/
def publishedColumns (keys : List String) (businessDt : String) (features : List PlannedFeature) :
    List (String × ColumnRole) :=
  keys.map (fun key => (key, .entityKey)) ++ [(businessDt, .businessDt)] ++
    featureColumns features ++ systemColumns.map fun column => (column, .system)

/-- `sorted` of a set, as a list's `repr`. -/
def reprList (texts : List String) : String :=
  "[" ++ String.intercalate ", " (texts.map Text.repr) ++ "]"

/-- `build_group_plan`. `policyVersion` is `PHYSICAL_TYPE_POLICY_VERSION`. -/
def buildGroupPlan (nfkc lower : String → String) (policyVersion : ℕ) (group : ContractGroup)
    (features : List PlannedFeature) (logicalGroupName : String) :
    Except PlanError FeatureGroupPlanV1 := do
  let name ← hiveIdentifier nfkc lower logicalGroupName
  let planned := KeySort.sortBy (·.columnName) features
  let supplied := planned.map (·.columnName)
  let missing := reprList (sortedSet (group.featureNames.filter (!supplied.contains ·)))
  let unexpected := reprList (sortedSet (supplied.filter (!group.featureNames.contains ·)))
  rejectRepeated planned
  ensure (sortedSet supplied = sortedSet group.featureNames)
    (.value (s!"the planned features must describe exactly the group's members: missing " ++
      s!"{missing}, unexpected {unexpected}. A member with no planned column publishes nothing, " ++
      "and a planned column with no member is a column no materialization contract covers"))
  let keys ← keyColumnsFromRefs nfkc lower group.orderedKeys
  let businessDt ← hiveIdentifier nfkc lower group.businessDtColumn
  rejectCollisions (publishedColumns keys businessDt planned)
  .ok ⟨name, group.contractHash, keys, businessDt, planned, policyVersion⟩

def expectedSchema (plan : FeatureGroupPlanV1) : List PlannedColumn :=
  plan.entityKeyColumns.map (fun key => ⟨key, .entityKey, none, false⟩) ++
    [⟨plan.businessDtColumn, .businessDt, none, false⟩] ++
    plan.features.map (fun feature => ⟨feature.columnName, .feature,
      some feature.physicalType.sqlType, feature.physicalType.nullable⟩) ++
    systemColumns.map fun column => ⟨column, .system, some systemColumnSqlType, false⟩

inductive StagingStatus where
  | completed
  | failed
  deriving DecidableEq, Inhabited

def StagingStatus.value : StagingStatus → String
  | .completed => "completed"
  | .failed => "failed"

/-- The run a manifest is bound to: its generation, run and business date. -/
structure RunBinding where
  generationId : String
  runId : String
  businessDt : String
  deriving DecidableEq, Inhabited

/-- `StagingManifestV1`, its three ids as one binding. -/
structure StagingManifestV1 where
  intentFeatureName : String
  irHash : String
  bound : RunBinding
  generatedProjectHash : String
  sandboxExecutionHash : String
  outputLocation : String
  schemaHash : String
  rowCount : ℕ
  status : StagingStatus
  deriving Inhabited

/-- The codes of `ValidationGateCode` that completeness is refused with. -/
inductive ValidationGateCode where
  | unexpectedColumn
  | missingStagingManifest
  | staleStagingManifest
  | duplicateStagingManifest
  | irHashMismatch
  | incompleteComputation

structure GateFailure where
  code : ValidationGateCode
  detail : String

/-- `_require`. -/
def requireAsked (value name : String) : Except PlanError Unit :=
  ensure (strip value ≠ "")
    (.value (s!"check_completeness needs a {name} to bind the manifests to " ++
      s!"({Text.repr value}): without it every manifest would count as 'bound to this run' and " ++
      "STALE_STAGING_MANIFEST — the whole reason a manifest carries a generation, a run and a " ++
      "date — would be unreachable"))

section Completeness

variable (manifests : List StagingManifestV1) (asked : RunBinding)

/-- `by_name.get(name)`, empty where there is none. -/
def byName (name : String) : List StagingManifestV1 :=
  manifests.filter (·.intentFeatureName = name)

def isDuplicated (name : String) : Bool := 1 < (byName manifests name).length

/-- The one manifest under a name is of another run. -/
def isStale (name : String) : Bool :=
  !isDuplicated manifests name && (byName manifests name).any (·.bound ≠ asked)

def duplicateFailure (name : String) : GateFailure :=
  ⟨.duplicateStagingManifest, s!"{(byName manifests name).length} staging manifests name " ++
    s!"{Text.repr name}; §9 requires exactly one per planned feature, and choosing between them " ++
    "would choose which computation published"⟩

def staleFailure (manifest : StagingManifestV1) : GateFailure :=
  ⟨.staleStagingManifest, s!"the staging manifest for {Text.repr manifest.intentFeatureName} is " ++
    s!"bound to generation {Text.repr manifest.bound.generationId}/run " ++
    s!"{Text.repr manifest.bound.runId}/business_dt {Text.repr manifest.bound.businessDt}, not " ++
    s!"to {Text.repr asked.generationId}/{Text.repr asked.runId}/" ++
    s!"{Text.repr asked.businessDt}: staging paths are generation-scoped, so an older " ++
    "successful manifest whose ir_hash still matches would publish stale output past every " ++
    "other check"⟩

def missingFailure (feature : PlannedFeature) : GateFailure :=
  ⟨.missingStagingManifest, s!"no staging manifest for planned feature " ++
    s!"{Text.repr feature.columnName}: completeness is proven by manifest, not by schema — a " ++
    "column of the right shape proves nothing about which computation produced it"⟩

def incompleteFailure (feature : PlannedFeature) (manifest : StagingManifestV1) : GateFailure :=
  ⟨.incompleteComputation, s!"the staging manifest for {Text.repr feature.columnName} records " ++
    s!"status {Text.repr manifest.status.value}: the staging job reported its own failure, so " ++
    "the column was never computed"⟩

def mismatchFailure (feature : PlannedFeature) (manifest : StagingManifestV1) : GateFailure :=
  ⟨.irHashMismatch, s!"the staging manifest for {Text.repr feature.columnName} carries ir_hash " ++
    s!"{Text.repr manifest.irHash}, and the plan expects {Text.repr feature.irHash}: the output " ++
    "was produced by a different computation, which no schema check could ever reveal"⟩

def unexpectedFailure (name : String) : GateFailure :=
  ⟨.unexpectedColumn, s!"the staging area holds a manifest for {Text.repr name}, which this " ++
    "group plan does not contain: assembling it would add a column no materialization contract " ++
    "covers, and it is evidence the staging path holds another plan's output"⟩

def stagedNames : List String := sortedSet (manifests.map (·.intentFeatureName))

/-- What is wrong with a planned feature that is neither duplicated nor stale. -/
def gradeFeature (feature : PlannedFeature) : Option GateFailure :=
  if isDuplicated manifests feature.columnName || isStale manifests asked feature.columnName then
    none
  else
    match byName manifests feature.columnName with
    | [] => some (missingFailure feature)
    | manifest :: _ =>
        if manifest.status ≠ .completed then some (incompleteFailure feature manifest)
        else if manifest.irHash ≠ feature.irHash then some (mismatchFailure feature manifest)
        else none

def duplicateFailures : List GateFailure :=
  ((stagedNames manifests).filter (isDuplicated manifests)).map (duplicateFailure manifests)

def staleFailures : List GateFailure :=
  ((stagedNames manifests).filter (isStale manifests asked)).flatMap fun name =>
    ((byName manifests name).take 1).map (staleFailure asked)

def unexpectedFailures (plan : FeatureGroupPlanV1) : List GateFailure :=
  ((stagedNames manifests).filter fun name => !plan.columns.contains name &&
    !isDuplicated manifests name && !isStale manifests asked name).map unexpectedFailure

def completenessFailures (plan : FeatureGroupPlanV1) : List GateFailure :=
  duplicateFailures manifests ++ staleFailures manifests asked ++
    plan.features.filterMap (gradeFeature manifests asked) ++
    unexpectedFailures manifests asked plan

def checkCompleteness (plan : FeatureGroupPlanV1) : Except PlanError (List GateFailure) := do
  requireAsked asked.generationId "generation_id"
  requireAsked asked.runId "run_id"
  requireAsked asked.businessDt "business_dt"
  .ok (completenessFailures manifests asked plan)

end Completeness

end FeatureGen.Materialize
