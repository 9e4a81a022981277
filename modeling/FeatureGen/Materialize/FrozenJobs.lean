import FeatureGen.Lib.Checks
import FeatureGen.Lib.Document
import FeatureGen.Lib.TimeOfDay
import FeatureGen.Materialize.PublisherSelection
import FeatureGen.Materialize.QueueLane
import FeatureGen.Materialize.SpineDeclaration
import FeatureGen.Overlay.FieldAuthority

/-! # Frozen jobs

`MaterializationJobV1` of `materialize/queue_lane.py` with the declarations it carries,
`encode_job` and `decode_job`. `zoneInfo` says which names are those of a time zone.
A tuple is a list. A value that `_rebuild` carries along, or that is read without a
check, is refused here if it is not of the type its field declares.
-/

/-- `IdentityEnvelope` of `contracts/envelopes.py`. -/
structure FeatureGen.Contracts.IdentityEnvelope where
  subject : String
  actorKind : String
  authenticated : Bool
  authMethod : String
  roleClaims : List String
  groups : List String
  tenant : Option String
  onBehalfOf : Option String
  impersonation : Option String
  breakGlass : Bool
  sourceOfAuthority : Option String
  attestation : Option String

namespace FeatureGen.Materialize

open FeatureGen.Overlay Checks Calendar

inductive CadencePeriod where
  | daily
  deriving DecidableEq

instance : StrEnum CadencePeriod where
  members := [.daily]
  value
    | .daily => "daily"
  complete a := by cases a; decide
  distinct := by decide

inductive CadenceTrigger where
  | scheduled
  | manual
  deriving DecidableEq

instance : StrEnum CadenceTrigger where
  members := [.scheduled, .manual]
  value
    | .scheduled => "scheduled"
    | .manual => "manual"
  complete a := by cases a <;> decide
  distinct := by decide

inductive AvailabilityPromiseKind where
  | calendarOffset
  deriving DecidableEq

instance : StrEnum AvailabilityPromiseKind where
  members := [.calendarOffset]
  value
    | .calendarOffset => "calendar_offset"
  complete a := by cases a; decide
  distinct := by decide

instance : StrEnum PublishMechanism where
  members := [.versionedPointer, .exchangePartition, .setLocation]
  value := PublishMechanism.value
  complete a := by cases a <;> decide
  distinct := by decide

instance : StrEnum PopulationSemantics where
  members := [.currentCompletePopulation, .currentActiveOnly, .historicalAsOf]
  value := PopulationSemantics.value
  complete a := by cases a <;> decide
  distinct := by decide

inductive SnapshotPolicyKind where
  | currentSnapshot
  | latestAvailableAsOf
  | partitionMapped
  | activePopulation
  deriving DecidableEq

instance : StrEnum SnapshotPolicyKind where
  members := [.currentSnapshot, .latestAvailableAsOf, .partitionMapped, .activePopulation]
  value
    | .currentSnapshot => "current_snapshot"
    | .latestAvailableAsOf => "latest_available_as_of"
    | .partitionMapped => "partition_mapped"
    | .activePopulation => "active_population"
  complete a := by cases a <;> decide
  distinct := by decide

/-- The fields of a variant, which its kind is not one of. -/
def SnapshotPolicyKind.names : SnapshotPolicyKind → List String
  | .currentSnapshot => ["observed_snapshot_ref"]
  | .latestAvailableAsOf =>
      ["effective_time_ref", "availability_ref", "deterministic_tie_break_refs"]
  | .partitionMapped => ["ordered_partition_refs"]
  | .activePopulation => ["status_ref", "allowed_status_values", "observed_on"]

/-- Those without a default. -/
def SnapshotPolicyKind.needed : SnapshotPolicyKind → List String
  | .latestAvailableAsOf => ["effective_time_ref", "availability_ref"]
  | kind => kind.names

theorem SnapshotPolicyKind.needed_subset (kind : SnapshotPolicyKind) : kind.needed ⊆ kind.names := by
  cases kind <;> simp [needed, names]

/-- The class of a variant. -/
def SnapshotPolicyKind.cls : SnapshotPolicyKind → String
  | .currentSnapshot => "CurrentSnapshot"
  | .latestAvailableAsOf => "LatestAvailableAsOf"
  | .partitionMapped => "PartitionMappedSnapshot"
  | .activePopulation => "ActivePopulation"

/-- The variant of a policy: `SNAPSHOT_POLICY_TYPES`, backwards. -/
def SnapshotPolicy.variant : SnapshotPolicy → SnapshotPolicyKind
  | .currentSnapshot _ => .currentSnapshot
  | .latestAvailableAsOf .. => .latestAvailableAsOf
  | .partitionMapped _ => .partitionMapped
  | .activePopulation .. => .activePopulation

structure AvailabilityPromiseV1 where
  kind : AvailabilityPromiseKind
  calendarDays : ℤ
  plusMinutes : ℤ
  days_nonneg : 0 ≤ calendarDays
  minutes_canonical : 0 ≤ plusMinutes ∧ plusMinutes < 1440

/-- `AvailabilityPromiseV1.__post_init__`. -/
def AvailabilityPromiseV1.build (kind : AvailabilityPromiseKind) (calendarDays plusMinutes : ℤ) :
    Except String AvailabilityPromiseV1 :=
  if days : 0 ≤ calendarDays then
    if minutes : 0 ≤ plusMinutes ∧ plusMinutes < 1440 then
      .ok ⟨kind, calendarDays, plusMinutes, days, minutes⟩
    else
      .error (s!"availability promise plus_minutes must satisfy 0 <= plus_minutes < 1440, got " ++
        s!"{plusMinutes}: this is the CANONICAL form, and a whole day spelled as minutes is a " ++
        "second spelling of a promise that already has one. Use " ++
        "AvailabilityPromiseV1.normalized(...) to canonicalize an offset")
  else
    .error (s!"availability promise calendar_days must be >= 0, got {calendarDays}: a promise " ++
      "cannot land before the business date it describes")

def canonicalCutoff (value : String) : Except String String :=
  match TimeOfDay.fromisoformat value with
  | none =>
      .error (s!"cadence business_date_cutoff {Text.repr value} is not a wall-clock time of day " ++
        "(expected HH:MM or HH:MM:SS)")
  | some (_, true) =>
      .error (s!"cadence business_date_cutoff {Text.repr value} carries its own UTC offset: the " ++
        "zone is declared once, in the cadence's timezone, and a cutoff that carries a second " ++
        "one would silently apply a different clock than the contract says it does")
  | some (time, false) => .ok time.isoformat

theorem canonicalCutoff_of_canonical {value canonical : String}
    (h : canonicalCutoff value = .ok canonical) : canonicalCutoff canonical = .ok canonical := by
  unfold canonicalCutoff at h
  split at h
  · cases h
  · cases h
  · next time _ =>
      cases h
      rw [canonicalCutoff, TimeOfDay.fromisoformat_isoformat]

structure CadenceDecl (zoneInfo : String → Bool) where
  period : CadencePeriod
  timezone : String
  businessDateCutoff : String
  trigger : CadenceTrigger
  known : zoneInfo timezone = true
  canonical : canonicalCutoff businessDateCutoff = .ok businessDateCutoff

/-- `CadenceDecl.__post_init__`. -/
def CadenceDecl.build (zoneInfo : String → Bool) (period : CadencePeriod)
    (timezone businessDateCutoff : String) (trigger : CadenceTrigger) :
    Except String (CadenceDecl zoneInfo) :=
  if known : zoneInfo timezone = true then
    match canonical : canonicalCutoff businessDateCutoff with
    | .ok cutoff =>
        .ok ⟨period, timezone, cutoff, trigger, known, canonicalCutoff_of_canonical canonical⟩
    | .error message => .error message
  else
    .error (s!"cadence timezone {Text.repr timezone} is not a known IANA zone: the cutoff is a " ++
      "wall-clock time in a named zone, so an unknown zone makes business_dt mean nothing")

structure ContractOverrides where
  sensitivityClass : Option String
  accessRequirements : List String
  availabilityPromise : Option AvailabilityPromiseV1
  ranked : sensitivityClass.all sensitivityOrder.contains = true

/-- `ContractOverrides.__post_init__`. -/
def ContractOverrides.build (sensitivityClass : Option String) (accessRequirements : List String)
    (availabilityPromise : Option AvailabilityPromiseV1) : Except String ContractOverrides :=
  if ranked : sensitivityClass.all sensitivityOrder.contains = true then
    .ok ⟨sensitivityClass, accessRequirements, availabilityPromise, ranked⟩
  else
    .error ("override sensitivity_class " ++ Text.repr (sensitivityClass.getD "") ++
      " is not a rank " ++
      s!"of the governed scale {reprList sensitivityOrder}: an unrankable CATALOG value is " ++
      "normalized and then refused, but an unrankable DECLARED value is a typo, and normalizing " ++
      "it to the top of the scale would turn a misspelling into a prohibition")

/-- `SpineSourceDeclarationV1`, with its provenance. -/
structure SpineSourceDeclarationV1 extends SpineSourceDeclaration where
  declaredBy : Contracts.IdentityEnvelope
  recordedAt : String
  declarationRecordId : String

/-- `MaterializationJobV1`, with what the chain is handed. -/
structure FrozenJob (zoneInfo : String → Bool) extends MaterializationJobV1 where
  workItemIds : List String
  spineDeclaration : Option SpineSourceDeclarationV1
  cadence : CadenceDecl zoneInfo
  availabilityPromise : AvailabilityPromiseV1
  mechanism : PublishMechanism
  publishedSchema : Option (List String)
  contractOverrides : Option ContractOverrides

namespace JobPayload

section Encoding

def texts (values : List String) : Document ℚ := .array (values.map .str)

/-- The value, or null. -/
def nullable {α : Type} (plain : α → Document ℚ) : Option α → Document ℚ
  | none => .null
  | some a => plain a

def integer (n : ℤ) : Document ℚ := .num n

/-- `_plain` of an `IdentityEnvelope`. -/
def plainEnvelope (envelope : Contracts.IdentityEnvelope) : Document ℚ :=
  .object [("subject", .str envelope.subject), ("actor_kind", .str envelope.actorKind),
    ("authenticated", .bool envelope.authenticated), ("auth_method", .str envelope.authMethod),
    ("role_claims", texts envelope.roleClaims), ("groups", texts envelope.groups),
    ("tenant", nullable .str envelope.tenant),
    ("on_behalf_of", nullable .str envelope.onBehalfOf),
    ("impersonation", nullable .str envelope.impersonation),
    ("break_glass", .bool envelope.breakGlass),
    ("source_of_authority", nullable .str envelope.sourceOfAuthority),
    ("attestation", nullable .str envelope.attestation)]

def policyFields : SnapshotPolicy → List (String × Document ℚ)
  | .currentSnapshot observed => [("observed_snapshot_ref", .str observed)]
  | .latestAvailableAsOf effective available breaks =>
      [("effective_time_ref", .str effective), ("availability_ref", .str available),
        ("deterministic_tie_break_refs", texts breaks)]
  | .partitionMapped refs => [("ordered_partition_refs", texts refs)]
  | .activePopulation status values observedOn =>
      [("status_ref", .str status), ("allowed_status_values", texts values),
        ("observed_on", .str observedOn)]

/-- The policy in `_encode_spine`: its kind is restored. -/
def plainPolicy (policy : SnapshotPolicy) : Document ℚ :=
  .object (policyFields policy ++ [("kind", .str (StrEnum.value policy.variant))])

def encodeSpine (declaration : SpineSourceDeclarationV1) : Document ℚ :=
  .object [("entity", .str declaration.entity),
    ("source_table_ref", .str declaration.sourceTableRef),
    ("ordered_key_refs", texts declaration.orderedKeyRefs),
    ("population_semantics", .str (StrEnum.value declaration.populationSemantics)),
    ("availability_ref", nullable .str declaration.availabilityRef),
    ("snapshot_policy", plainPolicy declaration.snapshotPolicy),
    ("declared_by", plainEnvelope declaration.declaredBy),
    ("declaration_reason", .str declaration.declarationReason),
    ("declaration_version", integer declaration.declarationVersion),
    ("recorded_at", .str declaration.recordedAt),
    ("declaration_record_id", .str declaration.declarationRecordId)]

def plainCadence {zoneInfo : String → Bool} (cadence : CadenceDecl zoneInfo) : Document ℚ :=
  .object [("period", .str (StrEnum.value cadence.period)), ("timezone", .str cadence.timezone),
    ("business_date_cutoff", .str cadence.businessDateCutoff),
    ("trigger", .str (StrEnum.value cadence.trigger))]

def plainPromise (promise : AvailabilityPromiseV1) : Document ℚ :=
  .object [("kind", .str (StrEnum.value promise.kind)),
    ("calendar_days", integer promise.calendarDays), ("plus_minutes", integer promise.plusMinutes)]

def plainOverrides (overrides : ContractOverrides) : Document ℚ :=
  .object [("sensitivity_class", nullable .str overrides.sensitivityClass),
    ("access_requirements", texts overrides.accessRequirements),
    ("availability_promise", nullable plainPromise overrides.availabilityPromise)]

/-- `encode_job`; the version is `PAYLOAD_VERSION`. -/
def encodeJob {zoneInfo : String → Bool} (job : FrozenJob zoneInfo) : Document ℚ :=
  .object [("version", .num 1), ("request_id", .str job.requestId),
    ("work_item_ids", texts job.workItemIds),
    ("spine_declaration", nullable encodeSpine job.spineDeclaration),
    ("cadence", plainCadence job.cadence),
    ("availability_promise", plainPromise job.availabilityPromise),
    ("mechanism", .str (StrEnum.value job.mechanism)),
    ("published_schema", nullable texts job.publishedSchema),
    ("contract_overrides", nullable plainOverrides job.contractOverrides),
    ("business_dt", nullable .str job.businessDt)]

end Encoding

/-- `type(value).__name__`. -/
def typeName : Document ℚ → String
  | .null => "NoneType"
  | .bool _ => "bool"
  | .num q => if q.den = 1 then "int" else "float"
  | .str _ => "str"
  | .list _ => "list"
  | .dict _ => "dict"

mutual

/-- `repr` of a value read from JSON. -/
def reprValue : Document ℚ → String
  | .null => "None"
  | .bool b => if b then "True" else "False"
  | .num q => String.ofList (Json.ratText q)
  | .str s => Text.repr s
  | .list items => "[" ++ String.intercalate ", " (reprItems items) ++ "]"
  | .dict members => "\x7b" ++ String.intercalate ", " (reprMembers members) ++ "\x7d"

def reprItems : Document.Items ℚ → List String
  | .nil => []
  | .cons item items => reprValue item :: reprItems items

def reprMembers : Document.Members ℚ → List String
  | .nil => []
  | .cons key value members => (Text.repr key ++ ": " ++ reprValue value) :: reprMembers members

end

def mapping (location : String) : Document ℚ → Except String (Document.Members ℚ)
  | .dict members => .ok members
  | value => .error s!"{location} is {typeName value}, and a mapping is required"

def text (location : String) : Document ℚ → Except String String
  | .str s =>
      if strip s ≠ "" then .ok s
      else .error s!"{location} is {Text.repr s}: a non-blank string is required"
  | value => .error s!"{location} is {reprValue value}: a non-blank string is required"

/-- Each item read, up to the first that is refused. -/
def textsOf (location : String) : List (Document ℚ) → Except String (List String)
  | [] => .ok []
  | item :: items => do
      let first ← text location item
      let rest ← textsOf location items
      .ok (first :: rest)

/-- `_texts`. -/
def textList (location : String) : Document ℚ → Except String (List String)
  | .list items => textsOf (location ++ " member") items.toList
  | value => .error s!"{location} is {reprValue value}: a sequence of strings is required"

/-- `node.get(key)`. -/
def get (members : Document.Members ℚ) (key : String) : Document ℚ :=
  (members.get? key).getD .null

/-- `E(value)` of a `StrEnum`; `name` is that of the class. -/
def member (α : Type) [StrEnum α] (name value : String) : Except String α :=
  match StrEnum.ofValue? value with
  | some a => .ok a
  | none => .error s!"{Text.repr value} is not a valid {name}"

/-- The digits of an integer, with a sign. -/
def intOf (s : String) : Option ℤ :=
  let cs := (strip s).toList
  if cs.head? = some '+' then (String.ofList cs.tail).toNat?.map Int.ofNat else (strip s).toInt?

/-- `int(value)`. -/
def int : Document ℚ → Except String ℤ
  | .num q => .ok (q.num.tdiv q.den)
  | .bool b => .ok (if b then 1 else 0)
  | .str s =>
      match intOf s with
      | some n => .ok n
      | none => .error s!"invalid literal for int() with base 10: {Text.repr s}"
  | value => .error ("int() argument must be a string, a bytes-like object or a real number, " ++
      s!"not {Text.repr (typeName value)}")

/-- `int(node.get(key, 0))`. -/
def intMember (members : Document.Members ℚ) (key : String) : Except String ℤ :=
  match members.get? key with
  | none => .ok 0
  | some value => int value

def undeclared (field : String) (value : Document ℚ) : String :=
  s!"{field} is {reprValue value}, which is not of the type it declares"

def carriedText (field : String) : Document ℚ → Except String String
  | .str s => .ok s
  | value => .error (undeclared field value)

def carriedBool (field : String) : Document ℚ → Except String Bool
  | .bool b => .ok b
  | value => .error (undeclared field value)

def carriedOptional (field : String) : Document ℚ → Except String (Option String)
  | .null => .ok none
  | .str s => .ok (some s)
  | value => .error (undeclared field value)

def stringsOf (field : String) : List (Document ℚ) → Except String (List String)
  | [] => .ok []
  | item :: items => do
      let first ← carriedText field item
      let rest ← stringsOf field items
      .ok (first :: rest)

def carriedTexts (field : String) : Document ℚ → Except String (List String)
  | .list items => stringsOf field items.toList
  | value => .error (undeclared field value)

/-- The names of missing arguments, as CPython lists them. -/
def listed : List String → String
  | [] => ""
  | [name] => Text.repr name
  | [first, second] => Text.repr first ++ " and " ++ Text.repr second
  | names => String.join (names.dropLast.map fun name => Text.repr name ++ ", ") ++ "and " ++
      Text.repr (names.getLastD "")

/-- The `TypeError` of a call of the class without them. -/
def missingText (cls : String) (missing : List String) : String :=
  s!"{cls}.__init__() missing {missing.length} required positional argument" ++
    (if missing.length = 1 then ": " else "s: ") ++ listed missing

/-- `_rebuild`: a mapping of the names of the fields, with those that have no default. What the
    class makes of the arguments is left to the caller. -/
def rebuild (names needed : List String) (cls location : String) (material : Document ℚ) :
    Except String (Document.Members ℚ) := do
  let node ← mapping location material
  let keys := node.toList.map Prod.fst
  let unknown := sortedSet (keys.filter fun key => !names.contains key)
  ensure (unknown = [])
    (s!"{location} carries {reprList unknown} which {cls} does not declare: a key nothing " ++
      "reads was either meant to change the job or is a payload from another shape")
  let missing := needed.filter fun key => !keys.contains key
  ensure (missing = []) (s!"{location} cannot be read back as a {cls}: " ++ missingText cls missing)
  .ok node

/-- The argument of a field without a default. -/
def required {α : Type} (read : String → Document ℚ → Except String α)
    (members : Document.Members ℚ) (key : String) : Except String α :=
  read key (get members key)

/-- The argument of a field with a default. -/
def optional {α : Type} (read : String → Document ℚ → Except String α)
    (members : Document.Members ℚ) (key : String) (default : α) : Except String α :=
  match members.get? key with
  | some value => read key value
  | none => .ok default

/-- The fields of an `IdentityEnvelope`. -/
def envelopeNames : List String :=
  ["subject", "actor_kind", "authenticated", "auth_method", "role_claims", "groups", "tenant",
    "on_behalf_of", "impersonation", "break_glass", "source_of_authority", "attestation"]

/-- Those without a default. -/
def envelopeNeeded : List String :=
  ["subject", "actor_kind", "authenticated", "auth_method", "role_claims"]

/-- `_rebuild` of an `IdentityEnvelope`. -/
def rebuildEnvelope (material : Document ℚ) : Except String Contracts.IdentityEnvelope := do
  let node ← rebuild envelopeNames envelopeNeeded "IdentityEnvelope" "spine declared_by" material
  let subject ← required carriedText node "subject"
  let actorKind ← required carriedText node "actor_kind"
  let authenticated ← required carriedBool node "authenticated"
  let authMethod ← required carriedText node "auth_method"
  let roleClaims ← required carriedTexts node "role_claims"
  let groups ← optional carriedTexts node "groups" []
  let tenant ← optional carriedOptional node "tenant" none
  let onBehalfOf ← optional carriedOptional node "on_behalf_of" none
  let impersonation ← optional carriedOptional node "impersonation" none
  let breakGlass ← optional carriedBool node "break_glass" false
  let sourceOfAuthority ← optional carriedOptional node "source_of_authority" none
  let attestation ← optional carriedOptional node "attestation" none
  .ok ⟨subject, actorKind, authenticated, authMethod, roleClaims, groups, tenant, onBehalfOf,
    impersonation, breakGlass, sourceOfAuthority, attestation⟩

/-- The variant built of its fields. -/
def buildVariant (kind : SnapshotPolicyKind) (node : Document.Members ℚ) :
    Except String SnapshotPolicy :=
  match kind with
  | .currentSnapshot => do
      let observed ← required carriedText node "observed_snapshot_ref"
      .ok (.currentSnapshot observed)
  | .latestAvailableAsOf => do
      let effective ← required carriedText node "effective_time_ref"
      let available ← required carriedText node "availability_ref"
      let breaks ← optional carriedTexts node "deterministic_tie_break_refs" []
      .ok (.latestAvailableAsOf effective available breaks)
  | .partitionMapped => do
      let refs ← required carriedTexts node "ordered_partition_refs"
      .ok (.partitionMapped refs)
  | .activePopulation => do
      let status ← required carriedText node "status_ref"
      let values ← required carriedTexts node "allowed_status_values"
      let observedOn ← required carriedText node "observed_on"
      .ok (.activePopulation status values observedOn)

/-- `SnapshotPolicyKind(kind)`. -/
def policyKind (value : Document ℚ) : Except String SnapshotPolicyKind :=
  let refused := s!"spine snapshot_policy names kind {reprValue value}, which is not one of " ++
    s!"{reprList (StrEnum.values SnapshotPolicyKind)}: §4.2's union is CLOSED, and the default " ++
    "a missing variant would fall into is 'read the whole table'"
  match value with
  | .str s =>
      match StrEnum.ofValue? s with
      | some kind => .ok kind
      | none => .error refused
  | _ => .error refused

def decodePolicy (material : Document ℚ) : Except String SnapshotPolicy := do
  let node ← mapping "spine snapshot_policy" material
  let kind ← policyKind (get node "kind")
  let location := "spine snapshot_policy " ++ StrEnum.value kind
  let fields ← rebuild kind.names kind.needed kind.cls location (.dict (node.erase "kind"))
  buildVariant kind fields

def decodeSpine (material : Document ℚ) : Except String SpineSourceDeclarationV1 := do
  let node ← mapping "job spine_declaration" material
  let entity ← text "spine entity" (get node "entity")
  let sourceTableRef ← text "spine source_table_ref" (get node "source_table_ref")
  let orderedKeyRefs ← textList "spine ordered_key_refs" (get node "ordered_key_refs")
  let semanticsText ← text "spine population_semantics" (get node "population_semantics")
  let populationSemantics ← member PopulationSemantics "PopulationSemantics" semanticsText
  let availabilityRef ← carriedOptional "availability_ref" (get node "availability_ref")
  let snapshotPolicy ← decodePolicy (get node "snapshot_policy")
  let declaredBy ← rebuildEnvelope (get node "declared_by")
  let declarationReason ← text "spine declaration_reason" (get node "declaration_reason")
  let declarationVersion ← intMember node "declaration_version"
  let recordedAt ← text "spine recorded_at" (get node "recorded_at")
  let declarationRecordId ← text "spine declaration_record_id" (get node "declaration_record_id")
  .ok ⟨⟨entity, sourceTableRef, orderedKeyRefs, populationSemantics, availabilityRef,
    snapshotPolicy, declarationReason, declarationVersion⟩, declaredBy, recordedAt,
    declarationRecordId⟩

def decodeCadence (zoneInfo : String → Bool) (material : Document ℚ) :
    Except String (CadenceDecl zoneInfo) := do
  let node ← mapping "job cadence" material
  let periodText ← text "cadence period" (get node "period")
  let period ← member CadencePeriod "CadencePeriod" periodText
  let timezone ← text "cadence timezone" (get node "timezone")
  let cutoff ← text "cadence business_date_cutoff" (get node "business_date_cutoff")
  let triggerText ← text "cadence trigger" (get node "trigger")
  let trigger ← member CadenceTrigger "CadenceTrigger" triggerText
  CadenceDecl.build zoneInfo period timezone cutoff trigger

def decodePromise (material : Document ℚ) : Except String AvailabilityPromiseV1 := do
  let node ← mapping "job availability_promise" material
  let kindText ← text "promise kind" (get node "kind")
  let kind ← member AvailabilityPromiseKind "AvailabilityPromiseKind" kindText
  let calendarDays ← intMember node "calendar_days"
  let plusMinutes ← intMember node "plus_minutes"
  AvailabilityPromiseV1.build kind calendarDays plusMinutes

def unlessNull {α : Type} (read : Document ℚ → Except String α) :
    Document ℚ → Except String (Option α)
  | .null => .ok none
  | value => (read value).map some

/-- `value or ()`. -/
def orEmpty : Document ℚ → Document ℚ
  | .null => .array []
  | .bool false => .array []
  | .num q => if q = 0 then .array [] else .num q
  | .str s => if s = "" then .array [] else .str s
  | .dict .nil => .array []
  | value => value

def decodeOverrides (material : Document ℚ) : Except String ContractOverrides := do
  let node ← mapping "job contract_overrides" material
  let sensitivityClass ← carriedOptional "sensitivity_class" (get node "sensitivity_class")
  let accessRequirements ←
    textList "override access_requirements" (orEmpty (get node "access_requirements"))
  let availabilityPromise ← unlessNull decodePromise (get node "availability_promise")
  ContractOverrides.build sensitivityClass accessRequirements availabilityPromise

/-- `version != PAYLOAD_VERSION` is false: True is 1. -/
def currentVersion : Document ℚ → Bool
  | .num q => q = 1
  | .bool b => b
  | _ => false

def decodeJob (zoneInfo : String → Bool) (payload : Document ℚ) :
    Except String (FrozenJob zoneInfo) := do
  let material ← mapping "materialization job payload" payload
  ensure (currentVersion (get material "version") = true)
    ("materialization job payload declares version " ++ reprValue (get material "version") ++
      " and " ++ "this worker reads 1: the payload is this lane's frozen work item, so a job it cannot " ++
      "read WHOLE must be refused rather than compiled from the half it understands")
  let requestId ← text "job request_id" (get material "request_id")
  let workItemIds ← textList "job work_item_ids" (get material "work_item_ids")
  let spineDeclaration ← unlessNull decodeSpine (get material "spine_declaration")
  let cadence ← decodeCadence zoneInfo (get material "cadence")
  let availabilityPromise ← decodePromise (get material "availability_promise")
  let mechanismText ← text "job mechanism" (get material "mechanism")
  let mechanism ← member PublishMechanism "PublishMechanism" mechanismText
  let publishedSchema ←
    unlessNull (textList "job published_schema") (get material "published_schema")
  let contractOverrides ← unlessNull decodeOverrides (get material "contract_overrides")
  let businessDt ← unlessNull (text "job business_dt") (get material "business_dt")
  .ok ⟨⟨requestId, businessDt⟩, workItemIds, spineDeclaration, cadence, availabilityPromise,
    mechanism, publishedSchema, contractOverrides⟩

end JobPayload

end FeatureGen.Materialize
