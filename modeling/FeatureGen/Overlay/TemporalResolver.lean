import FeatureGen.DataAgent.Snapshots
import FeatureGen.Lib.Checks
import FeatureGen.Lib.Text
import FeatureGen.Overlay.Identity

/-! # Temporal policies

`overlay/upload/temporal_policy.py`: which column says how a dataset keeps history,
and the record of the rows that answered a question. A column ref is a normalized
logical ref, given by its parts.

`overlay/upload/temporal_resolver.py`: which rows of a dataset answer a question, and
the engine policies a resolved selection is adapted to. What the stores give is an
argument: the current policy of the dataset and its load-bearing temporal model.
`lower` is `str.lower`; `literalDate` is what `fromisoformat` accepts.
-/

namespace FeatureGen.Overlay

open Checks

inductive TemporalStorageModel where
  | currentOnly
  | scd1
  | scd2
  | snapshot
  | eventLog
  | unknown
  deriving DecidableEq

def TemporalStorageModel.value : TemporalStorageModel → String
  | .currentOnly => "current_only"
  | .scd1 => "scd1"
  | .scd2 => "scd2"
  | .snapshot => "snapshot"
  | .eventLog => "event_log"
  | .unknown => "unknown"

def TemporalStorageModel.historyCapable : TemporalStorageModel → Bool
  | .scd2 | .snapshot | .eventLog => true
  | .currentOnly | .scd1 | .unknown => false

inductive TemporalSelectionKind where
  | currentRecord
  | validAtReportCutoff
  | latestSnapshotAsOf
  | explicitOnly
  deriving DecidableEq

def TemporalSelectionKind.value : TemporalSelectionKind → String
  | .currentRecord => "current_record"
  | .validAtReportCutoff => "valid_at_report_cutoff"
  | .latestSnapshotAsOf => "latest_snapshot_as_of"
  | .explicitOnly => "explicit_only"

structure SelectionError where
  message : String
  deriving DecidableEq

structure LogicalColumnRef where
  source : String
  schema : String
  table : String
  column : String
  named : column ≠ ""
  deriving DecidableEq

/-- `revisionId` is the prefix `dtp_` and the digest of the content; the provenance, which no
check and no selection reads, is left out. -/
structure DatasetTemporalPolicyRevisionV1 where
  datasetLogicalRef : String
  temporalStorageModel : TemporalStorageModel
  currentSelection : TemporalSelectionKind
  historicalSelection : TemporalSelectionKind
  effectiveFromRef : Option LogicalColumnRef
  effectiveToRef : Option LogicalColumnRef
  snapshotRef : Option LogicalColumnRef
  currentFlagRef : Option LogicalColumnRef
  availabilityRef : Option LogicalColumnRef
  tieBreakRefs : List LogicalColumnRef
  revisionId : String

namespace DatasetTemporalPolicyRevisionV1

variable (policy : DatasetTemporalPolicyRevisionV1)

/-- `_REQUIRED_REFS`: the refs that a kind of selection needs, by name. -/
def requiredRefs : TemporalSelectionKind → List (String × Option LogicalColumnRef)
  | .validAtReportCutoff =>
      [("effective_from_ref", policy.effectiveFromRef), ("effective_to_ref", policy.effectiveToRef)]
  | .latestSnapshotAsOf => [("snapshot_ref", policy.snapshotRef)]
  | .currentRecord => []
  | .explicitOnly => []

def checkRequired (kind : TemporalSelectionKind) : Except SelectionError Unit :=
  each (fun _ (required : String × Option LogicalColumnRef) => ensure (required.2 ≠ none)
    ⟨"selection kind " ++ Text.repr kind.value ++ " requires " ++ required.1 ++
      ": a policy that names no column cannot be compiled into a predicate, only guessed at"⟩)
    (policy.requiredRefs kind)

/-- The checks of `__post_init__` on the normalized fields. -/
def check : Except SelectionError Unit := do
  ensure policy.tieBreakRefs.Nodup ⟨"tie_break_refs must be distinct"⟩
  ensure (policy.historicalSelection = .explicitOnly ∨
      policy.temporalStorageModel.historyCapable = true)
    ⟨Text.repr policy.temporalStorageModel.value ++
      " keeps no history, so a historical selection of " ++
      Text.repr policy.historicalSelection.value ++ " cannot be honoured; declare " ++
      "'explicit_only' and let the request ask for another " ++
      "source or an explicit limitation (TEMPORAL_HISTORICAL_CURRENT_ONLY)"⟩
  policy.checkRequired policy.currentSelection
  policy.checkRequired policy.historicalSelection
  ensure (¬ (policy.currentSelection = .currentRecord ∧ policy.currentFlagRef = none ∧
      policy.temporalStorageModel ≠ .currentOnly))
    ⟨"current_record on a dataset that stores history needs current_flag_ref: without " ++
      "it 'the current row' is whichever row is read first"⟩

end DatasetTemporalPolicyRevisionV1

inductive PredicateKind where
  | effectiveTime
  | availabilityTime
  | currentFlag
  | snapshotTime
  | tieBreak

inductive PredicateOperator where
  | lt
  | le
  | eq
  | ge
  | gt
  | isTrue

structure PredicatePayload where
  kind : PredicateKind
  columnRef : LogicalColumnRef
  operator : PredicateOperator
  parameterRef : Option String

structure DatasetRowSelectionV1 where
  datasetLogicalRef : String
  datasetProfileHash : String
  temporalPolicyRevisionId : String
  selectionKind : TemporalSelectionKind
  cutoffValueRef : Option String
  predicatePayloads : List PredicatePayload

section Record

-- `literalDate` is what `date.fromisoformat` or `datetime.fromisoformat` accepts.
variable (literalDate : String → Bool)

def rejectLiteralCutoff (raw what : String) : Except SelectionError String := do
  let text := strip raw
  ensure (text ≠ "") ⟨what ++ " must be non-empty"⟩
  ensure (text.toList.any [' ', '\t', '\n', '\'', '"', '(', ')', ';'].contains = false)
    ⟨what ++ " " ++ Text.repr raw ++ " looks like a value or a fragment, not a ref: a runtime " ++
      "cutoff is a parameter, never concatenated into a decision"⟩
  ensure (literalDate text = false)
    ⟨what ++ " " ++ Text.repr raw ++ " is a literal date. The cutoff VALUE is a runtime " ++
      "parameter; identity carries the ref it binds to, or the decision re-keys every day it " ++
      "is replayed"⟩
  .ok text

/-- `rejectLiteralCutoff` of a ref that may be absent. -/
def checkedRef (ref : Option String) (what : String) : Except SelectionError (Option String) :=
  match ref with
  | none => .ok none
  | some raw => some <$> rejectLiteralCutoff literalDate raw what

/-- `_predicate`, of a payload whose kind, operator and column are typed. -/
def checkedPredicate (index : ℕ) (payload : PredicatePayload) :
    Except SelectionError PredicatePayload := do
  let parameterRef ← checkedRef literalDate payload.parameterRef
    ("predicate_payloads[" ++ toString index ++ "].parameter_ref")
  .ok { payload with parameterRef := parameterRef }

/-- `DatasetRowSelectionV1.__post_init__`: what the constructor makes of its arguments. -/
def DatasetRowSelectionV1.build (raw : DatasetRowSelectionV1) :
    Except SelectionError DatasetRowSelectionV1 := do
  ensure (strip raw.datasetProfileHash ≠ "")
    ⟨"dataset_profile_hash is required on a row selection"⟩
  ensure ("dtp_".toList.isPrefixOf (strip raw.temporalPolicyRevisionId).toList = true)
    ⟨"temporal_policy_revision_id " ++ Text.repr (strip raw.temporalPolicyRevisionId) ++
      " is not a dtp_<hash> revision id"⟩
  let cutoffValueRef ← checkedRef literalDate raw.cutoffValueRef "cutoff_value_ref"
  let predicatePayloads ← raw.predicatePayloads.zipIdx.mapM fun indexed =>
    checkedPredicate literalDate indexed.2 indexed.1
  .ok { raw with
    datasetProfileHash := strip raw.datasetProfileHash
    temporalPolicyRevisionId := strip raw.temporalPolicyRevisionId
    cutoffValueRef := cutoffValueRef
    predicatePayloads := predicatePayloads }

variable {literalDate}

theorem DatasetRowSelectionV1.of_build {raw selection : DatasetRowSelectionV1}
    (h : raw.build literalDate = .ok selection) :
    selection.selectionKind = raw.selectionKind ∧
      List.Forall₂ (fun payload kept => kept.columnRef = payload.columnRef ∧
        kept.operator = payload.operator) raw.predicatePayloads selection.predicatePayloads := by
  rw [build, check_bind_eq_ok, check_bind_eq_ok, bind_eq_ok] at h
  obtain ⟨_, _, cutoff, _, h⟩ := h
  obtain ⟨predicates, hpredicates, hselection⟩ := bind_eq_ok.mp h
  cases hselection
  refine ⟨rfl, ?_⟩
  have paired := mapM_eq_ok.mp hpredicates
  have kept : List.Forall₂ (fun (indexed : PredicatePayload × ℕ) (payload : PredicatePayload) =>
      payload.columnRef = indexed.1.columnRef ∧ payload.operator = indexed.1.operator)
      raw.predicatePayloads.zipIdx predicates := by
    refine paired.imp fun indexed payload hpayload => ?_
    obtain ⟨ref, _, hkept⟩ := bind_eq_ok.mp hpayload
    cases hkept
    exact ⟨rfl, rfl⟩
  have names : raw.predicatePayloads.zipIdx.map Prod.fst = raw.predicatePayloads := by simp
  rw [← names, List.forall₂_map_left_iff]
  exact kept

end Record

end FeatureGen.Overlay

namespace FeatureGen.Overlay

open Checks FeatureGen.DataAgent

inductive RequestTemporality where
  | current
  | historical

/-- `SelectionRefusalV1` of a dataset: its `subject_refs` is the dataset. -/
structure SelectionRefusalV1 where
  code : String
  subjectRef : String
  detail : String
  missing : Option String

inductive RowSelectionOutcomeV1 where
  | selected (selection : DatasetRowSelectionV1) (policy : DatasetTemporalPolicyRevisionV1)
  | refused (refusal : SelectionRefusalV1) (policy : Option DatasetTemporalPolicyRevisionV1)

section Resolution

variable (lower : String → String)

/-- `temporal_policy_agreement`: a refusal code, or none where the policy may operate. -/
def temporalPolicyAgreement (model : TemporalStorageModel) (loadBearing : Option String) :
    Option String :=
  if model = .unknown then some "TEMPORAL_MODEL_UNKNOWN"
  else
    match loadBearing with
    | none => none
    | some governed =>
        if strip governed = "" then none
        else if norm lower governed = TemporalStorageModel.unknown.value then none
        else if norm lower governed ≠ model.value then some "TEMPORAL_MODEL_UNKNOWN"
        else none

/-- `_CUTOFF_REQUIRING_KINDS`. -/
def TemporalSelectionKind.requiresCutoff : TemporalSelectionKind → Bool
  | .validAtReportCutoff | .latestSnapshotAsOf => true
  | .currentRecord | .explicitOnly => false

/-- A predicate on a column that the policy has to name, at its place in the payloads. -/
def requiredPredicate (index : ℕ) (kind : PredicateKind) (ref : Option LogicalColumnRef)
    (operator : PredicateOperator) (parameterRef : Option String) :
    Except SelectionError PredicatePayload :=
  match ref with
  | none => .error ⟨"predicate_payloads[" ++ toString index ++
      "].column_ref must be a non-empty logical column ref"⟩
  | some column => .ok ⟨kind, column, operator, parameterRef⟩

def availabilityPredicate (policy : DatasetTemporalPolicyRevisionV1)
    (cutoffValueRef : Option String) : List PredicatePayload :=
  match policy.availabilityRef, cutoffValueRef with
  | some column, some cutoff => [⟨.availabilityTime, column, .le, some cutoff⟩]
  | _, _ => []

def ownPredicates (kind : TemporalSelectionKind) (policy : DatasetTemporalPolicyRevisionV1)
    (cutoffValueRef : Option String) : Except SelectionError (List PredicatePayload) :=
  match kind with
  | .validAtReportCutoff => do
      let starts ← requiredPredicate 0 .effectiveTime policy.effectiveFromRef .le cutoffValueRef
      let ends ← requiredPredicate 1 .effectiveTime policy.effectiveToRef .gt cutoffValueRef
      .ok [starts, ends]
  | .latestSnapshotAsOf => do
      let taken ← requiredPredicate 0 .snapshotTime policy.snapshotRef .le cutoffValueRef
      .ok [taken]
  | .currentRecord =>
      .ok (policy.currentFlagRef.toList.map fun column => ⟨.currentFlag, column, .isTrue, none⟩)
  | .explicitOnly => .error ⟨"no predicate shape for selection kind 'explicit_only'"⟩

/-- `_predicates_for`. Availability is a predicate of its own, and the last one. -/
def predicatesFor (kind : TemporalSelectionKind) (policy : DatasetTemporalPolicyRevisionV1)
    (cutoffValueRef : Option String) : Except SelectionError (List PredicatePayload) := do
  let own ← ownPredicates kind policy cutoffValueRef
  .ok (own ++ availabilityPredicate policy cutoffValueRef)

def selectionFor (policy : DatasetTemporalPolicyRevisionV1) :
    RequestTemporality → TemporalSelectionKind
  | .current => policy.currentSelection
  | .historical => policy.historicalSelection

variable (literalDate : String → Bool) (found : Option DatasetTemporalPolicyRevisionV1)
variable (loadBearing : Option String) (dataset profileHash : String)

def resolveRowSelection (temporality : RequestTemporality) (cutoffValueRef : Option String) :
    Except SelectionError RowSelectionOutcomeV1 :=
  match found with
  | none => .ok (.refused ⟨"TEMPORAL_MODEL_UNKNOWN", dataset,
      "nothing declares how " ++ Text.repr dataset ++ " stores history, so nothing can say which " ++
        "of its rows answers this question. Declare a temporal policy for the dataset",
      some "temporal_policy"⟩ none)
  | some policy =>
      let kind := selectionFor policy temporality
      match temporalPolicyAgreement lower policy.temporalStorageModel loadBearing with
      | some disagreement => .ok (.refused ⟨disagreement, dataset,
          "the temporal policy for " ++ Text.repr dataset ++ " declares " ++
            Text.repr policy.temporalStorageModel.value ++ " and the governed classification says " ++
            (loadBearing.map Text.repr).getD "None" ++
            "; a policy may not overrule the classification the execution gates read", none⟩
          (some policy))
      | none =>
          if kind.requiresCutoff = true ∧ cutoffValueRef.getD "" = "" then
            .ok (.refused ⟨"TEMPORAL_MODEL_UNKNOWN", dataset,
              "the temporal policy for " ++ Text.repr dataset ++ " answers this question with " ++
                Text.repr kind.value ++ ", which reads rows AS OF an instant, and the request " ++
                "names no parameter for the report cutoff to bind to. Without one the row rule is " ++
                "'whatever is there now', which is a different question — ask with a report " ++
                "cutoff, or declare a row rule that does not need one",
              some "report_cutoff"⟩ (some policy))
          else if kind = .explicitOnly then
            match temporality with
            | .historical => .ok (.refused ⟨"TEMPORAL_HISTORICAL_CURRENT_ONLY", dataset,
                Text.repr dataset ++ " stores " ++ Text.repr policy.temporalStorageModel.value ++
                  ", so it holds no row for an earlier date. Answering from today's row would " ++
                  "look entirely reasonable and be a different answer — name a dataset that holds " ++
                  "the history, or accept the limitation explicitly", none⟩ (some policy))
            | .current => .ok (.refused ⟨"TEMPORAL_MODEL_UNKNOWN", dataset,
                "the temporal policy for " ++ Text.repr dataset ++ " declares no rule for a " ++
                  "CURRENT question; nothing says which of its rows is the current one",
                some "current_row_rule"⟩ (some policy))
          else do
            let predicates ← predicatesFor kind policy cutoffValueRef
            let selection ← DatasetRowSelectionV1.build literalDate
              { datasetLogicalRef := dataset
                datasetProfileHash := profileHash
                temporalPolicyRevisionId := policy.revisionId
                selectionKind := kind
                cutoffValueRef := cutoffValueRef
                predicatePayloads := predicates }
            .ok (.selected selection policy)

end Resolution

inductive AdapterError where
  | selection (error : SelectionError)
  | engine (error : CodedError)
  | noneType

/-- `_column(ref)`, of a ref that may be None. -/
def columnOf (ref : Option LogicalColumnRef) : Except AdapterError String :=
  match ref with
  | none => .error .noneType
  | some ref => .ok ref.column

/-- `_column(ref) if ref else ""`. -/
def columnOrBlank (ref : Option LogicalColumnRef) : String := (ref.map (·.column)).getD ""

/-- The defaults of an attribution policy around what an adapter gives. -/
def attributionWith (basis : AttributionBasis) (fromColumn toColumn cutoff flagColumn : String) :
    DimensionAttributionPolicyV1 where
  attributionBasis := basis
  effectiveFromColumn := fromColumn
  effectiveToColumn := toColumn
  reportCutoff := cutoff
  intervalSemantics := "start_inclusive_end_exclusive"
  missingValueBehavior := .unknownBucket
  currentFlagColumn := flagColumn

def constructed {α : Type} (policy : α) (checked : Except CodedError Unit) :
    Except AdapterError α :=
  match checked with
  | .error error => .error (.engine error)
  | .ok () => .ok policy

def attributionPolicyFor (policy : DatasetTemporalPolicyRevisionV1) (kind : TemporalSelectionKind)
    (cutoffValue : String) : Except AdapterError DimensionAttributionPolicyV1 :=
  match kind with
  | .currentRecord =>
      let attribution := attributionWith .currentValue (columnOrBlank policy.effectiveFromRef)
        (columnOrBlank policy.effectiveToRef) "" (columnOrBlank policy.currentFlagRef)
      constructed attribution attribution.check
  | .validAtReportCutoff => do
      let fromColumn ← columnOf policy.effectiveFromRef
      let toColumn ← columnOf policy.effectiveToRef
      let attribution := attributionWith .reportCutoff fromColumn toColumn cutoffValue ""
      constructed attribution attribution.check
  | kind => .error (.selection ⟨Text.repr kind.value ++ " is not an interval selection; " ++
      "'latest_snapshot_as_of' is compiled by the snapshot engine, not the attribution one"⟩)

def snapshotPolicyFor (policy : DatasetTemporalPolicyRevisionV1) (cutoffValue keyColumn : String) :
    Except AdapterError LatestSnapshotPolicyV1 :=
  match policy.snapshotRef with
  | none => .error (.selection ⟨Text.repr policy.datasetLogicalRef ++
      " declares latest_snapshot_as_of with no snapshot_ref"⟩)
  | some ref =>
      let snapshot : LatestSnapshotPolicyV1 :=
        { snapshotColumn := ref.column
          cutoff := cutoffValue
          scope := .perEntity
          keyColumn := keyColumn
          tieBreakColumns := policy.tieBreakRefs.map (·.column)
          missingValueBehavior := .unknownBucket }
      constructed snapshot snapshot.check

inductive EnginePolicy where
  | attribution (policy : DimensionAttributionPolicyV1)
  | snapshot (policy : LatestSnapshotPolicyV1)

/-- The adapter that a selection kind goes to, as `execution_inputs_for_plan` chooses it. -/
def enginePolicyFor (policy : DatasetTemporalPolicyRevisionV1) (kind : TemporalSelectionKind)
    (cutoffValue keyColumn : String) : Except AdapterError EnginePolicy :=
  match kind with
  | .latestSnapshotAsOf => EnginePolicy.snapshot <$> snapshotPolicyFor policy cutoffValue keyColumn
  | kind => EnginePolicy.attribution <$> attributionPolicyFor policy kind cutoffValue

end FeatureGen.Overlay
