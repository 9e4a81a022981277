import FeatureGen.Lib.Document
import FeatureGen.Materialize.ActiveRevisions
import FeatureGen.Materialize.StagingManifests

/-! # Publisher selection

`materialize/publish.py`: what a probe of an environment saw, the verdict its
observations support, the attestation recorded under it, and the selection of a
publisher on the attestations of one environment and one mechanism. `materializeHash`
is the package's hash of a document and `lower` is `str.lower`.
-/

namespace FeatureGen.Materialize

open FeatureGen.Overlay Checks

def PublishMechanism.value : PublishMechanism → String
  | .versionedPointer => "VERSIONED_POINTER"
  | .exchangePartition => "EXCHANGE_PARTITION"
  | .setLocation => "SET_LOCATION"

/-- `EngineVersions`: what an environment runs. -/
structure EngineVersions where
  hive : String
  spark : String
  metastore : String
  python : String
  java : String
  pyspark : String
  kedro : String
  kedroDatasets : String
  pinned : ∀ version ∈ [hive, spark, metastore, python, java, pyspark, kedro, kedroDatasets],
    strip version ≠ ""

def EngineVersions.identityPayload (v : EngineVersions) : Document ℕ :=
  .object [("hive", .str v.hive), ("spark", .str v.spark), ("metastore", .str v.metastore),
    ("python", .str v.python), ("java", .str v.java), ("pyspark", .str v.pyspark),
    ("kedro", .str v.kedro), ("kedro_datasets", .str v.kedroDatasets)]

/-- One reader's one look at the table. -/
structure ProbeObservation where
  readerId : String
  observedAt : String
  generationId : String
  columnNames : List String
  rowCount : ℕ
  contentDigest : String
  texts : ∀ text ∈ [readerId, observedAt, generationId, contentDigest], strip text ≠ ""
  columns : columnNames ≠ []
  names : ∀ name ∈ columnNames, strip name ≠ ""

/-- What the table was, whoever looked. -/
structure ProbeState where
  generationId : String
  columnNames : List String
  rowCount : ℕ
  contentDigest : String
  deriving DecidableEq

namespace ProbeObservation

/-- `state_payload`. -/
def state (o : ProbeObservation) : ProbeState :=
  ⟨o.generationId, o.columnNames, o.rowCount, o.contentDigest⟩

def identityPayload (o : ProbeObservation) : Document ℕ :=
  .object [("reader_id", .str o.readerId), ("observed_at", .str o.observedAt),
    ("generation_id", .str o.generationId), ("column_names", .array (o.columnNames.map .str)),
    ("row_count", .num o.rowCount), ("content_digest", .str o.contentDigest)]

end ProbeObservation

section Verdict

variable (observations : List ProbeObservation)

/-- The states under one key of `_states_by_generation`. -/
def statesOf (generationId : String) : List ProbeState :=
  (observations.filter (·.generationId = generationId)).map (·.state)

/-- The keys of `_states_by_generation`. -/
def generations : List String := (observations.map (·.generationId)).dedup

/-- `all(state == states[0] for state in states)`. -/
def isComplete (states : List ProbeState) : Bool :=
  states.all fun state => some state = states.head?

def derivePassed : Bool :=
  observations ≠ [] && 2 ≤ (generations observations).length &&
    (generations observations).all fun generation => isComplete (statesOf observations generation)

/-- `one > other` on sets. -/
def isWider (one other : List String) : Bool :=
  other.all one.contains && !one.all other.contains

def deriveCoversSchemaEvolution : Bool :=
  derivePassed observations &&
    observations.any fun one => observations.any fun other =>
      isWider one.columnNames other.columnNames

def evidencePayload (environmentId : String) (mechanism : PublishMechanism)
    (versions : EngineVersions) (passed covers : Bool) : Document ℕ :=
  .object [("environment_id", .str environmentId), ("mechanism", .str mechanism.value),
    ("engine_versions", versions.identityPayload),
    ("observations", .array (observations.map (·.identityPayload))),
    ("passed", .bool passed), ("covers_schema_evolution", .bool covers)]

end Verdict

/-- `ProbeResult`: the verdict and the hash are those of the observations. -/
structure ProbeResult (materializeHash : Document ℕ → String) where
  probeId : String
  environmentId : String
  mechanism : PublishMechanism
  engineVersions : EngineVersions
  observations : List ProbeObservation
  passed : Bool
  coversSchemaEvolution : Bool
  evidenceHash : String
  completedAt : String
  identified : strip probeId ≠ ""
  placed : strip environmentId ≠ ""
  dated : strip completedAt ≠ ""
  passed_eq : passed = derivePassed observations
  covers_eq : coversSchemaEvolution = deriveCoversSchemaEvolution observations
  hash_eq : evidenceHash = materializeHash (evidencePayload observations environmentId mechanism
    engineVersions passed coversSchemaEvolution)

def assessProbeObservations (materializeHash : Document ℕ → String)
    (observations : List ProbeObservation) (probeId environmentId : String)
    (mechanism : PublishMechanism) (engineVersions : EngineVersions) (completedAt : String)
    (identified : strip probeId ≠ "") (placed : strip environmentId ≠ "")
    (dated : strip completedAt ≠ "") : ProbeResult materializeHash where
  probeId := probeId
  environmentId := environmentId
  mechanism := mechanism
  engineVersions := engineVersions
  observations := observations
  passed := derivePassed observations
  coversSchemaEvolution := deriveCoversSchemaEvolution observations
  evidenceHash := materializeHash (evidencePayload observations environmentId mechanism
    engineVersions (derivePassed observations) (deriveCoversSchemaEvolution observations))
  completedAt := completedAt
  identified := identified
  placed := placed
  dated := dated
  passed_eq := rfl
  covers_eq := rfl
  hash_eq := rfl

/-- A row of `publication_capability_attestation`. -/
structure Attestation where
  attestationId : String
  environmentId : String
  hiveVersion : String
  sparkVersion : String
  metastoreVersion : String
  mechanism : PublishMechanism
  passed : Bool
  coversSchemaEvolution : Bool
  evidenceHash : String
  attestedAt : String
  recordedAt : ℤ
  identified : strip attestationId ≠ ""
  placed : strip environmentId ≠ ""

/-- `matches`. -/
def Attestation.isFor (a : Attestation) (versions : EngineVersions) : Bool :=
  a.hiveVersion = versions.hive && a.sparkVersion = versions.spark &&
    a.metastoreVersion = versions.metastore

def Attestation.probed (a : Attestation) : String :=
  s!"hive {a.hiveVersion} / spark {a.sparkVersion} / metastore {a.metastoreVersion}"

abbrev AttestationTable := Table Attestation.attestationId

/-- The row of a probe, stamped by the database. -/
def attestationOf {materializeHash : Document ℕ → String} (probe : ProbeResult materializeHash)
    (recordedAt : ℤ) : Attestation where
  attestationId := probe.probeId
  environmentId := probe.environmentId
  hiveVersion := probe.engineVersions.hive
  sparkVersion := probe.engineVersions.spark
  metastoreVersion := probe.engineVersions.metastore
  mechanism := probe.mechanism
  passed := probe.passed
  coversSchemaEvolution := probe.coversSchemaEvolution
  evidenceHash := probe.evidenceHash
  attestedAt := probe.completedAt
  recordedAt := recordedAt
  identified := probe.identified
  placed := probe.placed

/-- `record_attestation`; none where the probe has one already. -/
def recordAttestation {materializeHash : Document ℕ → String} (table : AttestationTable)
    (probe : ProbeResult materializeHash) (recordedAt : ℤ) : Option AttestationTable :=
  table.insert? (attestationOf probe recordedAt)

/-- The rows of one environment and one mechanism. -/
def attestationsFor (table : AttestationTable) (environmentId : String)
    (mechanism : PublishMechanism) : List Attestation :=
  table.rows.filter fun a => a.environmentId = environmentId ∧ a.mechanism = mechanism

/-- What `read_attestations` returns: rows of one instant stand in any order. -/
structure ReadAttestations (table : AttestationTable) (environmentId : String)
    (mechanism : PublishMechanism) (read : List Attestation) : Prop where
  rows : read.Perm (attestationsFor table environmentId mechanism)
  ordered : read.Pairwise fun a b => a.recordedAt ≤ b.recordedAt

structure PublisherSelected where
  environmentId : String
  mechanism : PublishMechanism
  capabilityAttestationId : String
  engineVersions : EngineVersions
  addsFeature : Bool
  placed : strip environmentId ≠ ""
  rests : strip capabilityAttestationId ≠ ""

inductive PublicationRefusalCode where
  | capabilityUnproven
  | publishMechanismUnsupported

structure PublicationRefused where
  code : PublicationRefusalCode
  detail : String

inductive PublisherOutcome where
  | selected (selection : PublisherSelected)
  | refused (refusal : PublicationRefused)

section Selection

variable (lower : String → String)

/-- `name.strip().lower()`. -/
def foldedName (name : String) : String := lower (strip name)

def addsFeatureFor (plan : FeatureGroupPlanV1) : Option (List String) → Bool
  | none => true
  | some publishedSchema =>
      (expectedSchema plan).any fun column =>
        !(publishedSchema.map (foldedName lower)).contains (foldedName lower column.name)

def runs (versions : EngineVersions) : String :=
  s!"hive {versions.hive} / spark {versions.spark} / metastore {versions.metastore}"

def noAttestation (environmentId : String) (mechanism : PublishMechanism) : PublicationRefused :=
  let environment := Text.repr environmentId
  ⟨.capabilityUnproven, s!"no capability attestation exists for environment {environment} and " ++
    s!"mechanism {mechanism.value}: §10.3 forbids publishing on an assumed capability, so the " ++
    s!"executable probe must be run against {environment} before anything may publish there"⟩

def otherVersions (environmentId : String) (mechanism : PublishMechanism)
    (versions : EngineVersions) (attestations : List Attestation) : PublicationRefused :=
  let probed := reprList (sortedSet (attestations.map (·.probed)))
  ⟨.capabilityUnproven, s!"environment {Text.repr environmentId} runs {runs versions}, and the " ++
    s!"{attestations.length} attestation(s) recorded for mechanism {mechanism.value} were " ++
    s!"probed on {probed}: a mechanism proven on one engine version is not proven on another, " ++
    "so the probe must be re-run on what the environment runs now"⟩

def noPass (environmentId : String) (mechanism : PublishMechanism) (versions : EngineVersions)
    (matching : List Attestation) : PublicationRefused :=
  ⟨.publishMechanismUnsupported, s!"the probe ran against environment " ++
    s!"{Text.repr environmentId} on {runs versions} and mechanism {mechanism.value} did not " ++
    s!"give atomic visibility there ({matching.length} failing attestation(s)): this is a " ++
    "demonstrated absence rather than a missing probe, so re-running it will not change the " ++
    "answer"⟩

def notSuperseded (failures : List Attestation) : PublicationRefused :=
  let named := String.intercalate ", " (failures.map (·.attestationId))
  ⟨.publishMechanismUnsupported, "the most recent evidence on these engine versions includes a " ++
    s!"FAILED probe ({named}) that no passing attestation strictly supersedes: passing evidence " ++
    "that is not strictly newer than a demonstrated failure is stale or ambiguous either way, " ++
    "re-run the probe"⟩

def noCoverage (environmentId : String) (mechanism : PublishMechanism) (plan : FeatureGroupPlanV1)
    (passing : List Attestation) : PublicationRefused :=
  ⟨.capabilityUnproven, s!"publishing {Text.repr plan.logicalGroupName} into environment " ++
    s!"{Text.repr environmentId} adds at least one column the published table does not have, " ++
    s!"and none of the {passing.length} passing attestation(s) for mechanism {mechanism.value} " ++
    "covers schema evolution: a partition-location swap does not atomically change table " ++
    "SCHEMA, so the probe must be repeated while ADDING a feature column before a group whose " ++
    "shape changed may publish"⟩

/-- The attestations on what the environment runs now. -/
def matchingOf (versions : EngineVersions) (attestations : List Attestation) : List Attestation :=
  attestations.filter (·.isFor versions)

/-- The failures at the newest instant of `matching`. -/
def undefeatedFailures (matching : List Attestation) : List Attestation :=
  matching.filter fun a =>
    !a.passed && (matching.getLast?.map (·.recordedAt)) = some a.recordedAt

/-- What the selection is taken from, the newest last. -/
def candidatesFor (adds : Bool) (passing : List Attestation) : List Attestation :=
  if adds then passing.filter (·.coversSchemaEvolution) else passing

def selectionOf (environmentId : String) (mechanism : PublishMechanism) (versions : EngineVersions)
    (adds : Bool) (placed : strip environmentId ≠ "") (chosen : Attestation) :
    PublisherSelected where
  environmentId := environmentId
  mechanism := mechanism
  capabilityAttestationId := chosen.attestationId
  engineVersions := versions
  addsFeature := adds
  placed := placed
  rests := chosen.identified

/-- The refusals in their order, then the newest of what is left. -/
def publisherVerdict (environmentId : String) (placed : strip environmentId ≠ "")
    (versions : EngineVersions) (mechanism : PublishMechanism) (plan : FeatureGroupPlanV1)
    (adds : Bool) (attestations : List Attestation) : PublisherOutcome :=
  let matching := matchingOf versions attestations
  let passing := matching.filter (·.passed)
  if attestations = [] then .refused (noAttestation environmentId mechanism)
  else if matching = [] then
    .refused (otherVersions environmentId mechanism versions attestations)
  else if passing = [] then .refused (noPass environmentId mechanism versions matching)
  else if undefeatedFailures matching ≠ [] then
    .refused (notSuperseded (undefeatedFailures matching))
  else
    match (candidatesFor adds passing).getLast? with
    | none => .refused (noCoverage environmentId mechanism plan passing)
    | some chosen => .selected (selectionOf environmentId mechanism versions adds placed chosen)

/-- `select_publisher`, on what `read_attestations` returned. -/
def selectPublisher (environmentId : String) (versions : EngineVersions)
    (mechanism : PublishMechanism) (plan : FeatureGroupPlanV1)
    (publishedSchema : Option (List String)) (attestations : List Attestation) :
    Except String PublisherOutcome :=
  if placed : strip environmentId ≠ "" then
    .ok (publisherVerdict environmentId placed versions mechanism plan
      (addsFeatureFor lower plan publishedSchema) attestations)
  else
    .error (s!"environment_id is blank ({Text.repr environmentId}): §10.3 attests capability " ++
      "for an EXACT environment, and a blank one names none")

end Selection

end FeatureGen.Materialize
