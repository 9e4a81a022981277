import FeatureGen.Lib.KeySort

/-! # Field authority

`overlay/field_authority.py`: which authority the active evidence of a field has, and
which value it makes load-bearing. The reason texts are the source's own.

`overlay/upload/field_policies.py`: the registry of the policies of the object fields,
and `SENSITIVITY_ORDER` of `overlay/safety_floor.py`.
-/

namespace FeatureGen.Overlay

inductive EvidenceProducer where
  | source
  | structuralConnector
  | parser
  | llm
  | profiler
  | taxonomy
  | human
  | legacy
  deriving DecidableEq

def EvidenceProducer.value : EvidenceProducer → String
  | source => "source"
  | structuralConnector => "structural_connector"
  | parser => "parser"
  | llm => "llm"
  | profiler => "profiler"
  | taxonomy => "taxonomy"
  | human => "human"
  | legacy => "legacy"

inductive AssertionStrength where
  | proposed
  | supported
  | attested
  | confirmed
  deriving DecidableEq

namespace AssertionStrength

def value : AssertionStrength → String
  | proposed => "proposed"
  | supported => "supported"
  | attested => "attested"
  | confirmed => "confirmed"

/-- `_STRENGTH_RANK`. -/
def rank : AssertionStrength → ℕ
  | proposed => 0
  | supported => 1
  | attested => 2
  | confirmed => 3

end AssertionStrength

abbrev Standing := EvidenceProducer × AssertionStrength

structure FieldEvidenceView where
  producer : EvidenceProducer
  strength : AssertionStrength
  value : String
  evidenceId : String

def FieldEvidenceView.standing (e : FieldEvidenceView) : Standing := (e.producer, e.strength)

/-- The conditions of a node are never empty. -/
inductive AuthorityPredicate where
  | hasEvidence (standing : Standing)
  | anyOf (first : AuthorityPredicate) (others : List AuthorityPredicate)
  | allOf (first : AuthorityPredicate) (others : List AuthorityPredicate)

mutual

def evaluate (active : List Standing) : AuthorityPredicate → Bool
  | .hasEvidence standing => active.contains standing
  | .anyOf first others => evaluate active first || evaluateAny active others
  | .allOf first others => evaluate active first && evaluateAll active others

def evaluateAny (active : List Standing) : List AuthorityPredicate → Bool
  | [] => false
  | condition :: others => evaluate active condition || evaluateAny active others

def evaluateAll (active : List Standing) : List AuthorityPredicate → Bool
  | [] => true
  | condition :: others => evaluate active condition && evaluateAll active others

end

def AuthorityPredicate.leaf : AuthorityPredicate → Option Standing
  | .hasEvidence standing => some standing
  | .anyOf _ _ | .allOf _ _ => none

def AuthorityPredicate.leaves : AuthorityPredicate → Option (List Standing)
  | .hasEvidence standing => some [standing]
  | .anyOf first others => (first :: others).mapM leaf
  | .allOf _ _ => none

inductive ConflictStrategy where
  | preferConfirmed
  | mostRestrictive
  | unionClasses
  | unresolvedOnConflict
  deriving DecidableEq

inductive InfluenceTier where
  | display
  | recommendation
  | operational
  deriving DecidableEq

inductive ResolutionMode where
  | genericField
  | specializedFact
  deriving DecidableEq

inductive Disqualifier where
  | staleSelectedEvidence
  | rejectedSelectedEvidence
  | supersededSelectedEvidence
  | openConflictReview
  | confirmationPendingRevalidation
  deriving DecidableEq

def Disqualifier.value : Disqualifier → String
  | staleSelectedEvidence => "stale_selected_evidence"
  | rejectedSelectedEvidence => "rejected_selected_evidence"
  | supersededSelectedEvidence => "superseded_selected_evidence"
  | openConflictReview => "open_conflict_review"
  | confirmationPendingRevalidation => "confirmation_pending_revalidation"

/-- How an f-string renders the member. -/
def Disqualifier.label : Disqualifier → String
  | staleSelectedEvidence => "Disqualifier.STALE_SELECTED_EVIDENCE"
  | rejectedSelectedEvidence => "Disqualifier.REJECTED_SELECTED_EVIDENCE"
  | supersededSelectedEvidence => "Disqualifier.SUPERSEDED_SELECTED_EVIDENCE"
  | openConflictReview => "Disqualifier.OPEN_CONFLICT_REVIEW"
  | confirmationPendingRevalidation => "Disqualifier.CONFIRMATION_PENDING_REVALIDATION"

structure FieldPolicy where
  influenceMax : InfluenceTier
  displayRule : AuthorityPredicate
  operationalRule : Option AuthorityPredicate
  disqualifiers : List Disqualifier
  resolutionMode : ResolutionMode
  conflictStrategy : ConflictStrategy
  severityOrder : List String
  humanEditable : Bool

structure FieldResolution where
  displayValue : Option String
  loadBearingValue : Option String
  unresolvedReason : Option String
  displayConflict : Bool

def topRank (evidence : List FieldEvidenceView) : ℕ :=
  (evidence.map (·.strength.rank)).foldr max 0

/-- The one text of a list, if it holds no other. -/
def singleValue (values : List String) : Option String :=
  match values.dedup with
  | [v] => some v
  | _ => none

/-- `_select` under PREFER_CONFIRMED: none is the conflict. -/
def preferred (evidence : List FieldEvidenceView) : Option String :=
  singleValue ((evidence.filter fun e => e.strength.rank = topRank evidence).map (·.value))

def severityRank (severityOrder : List String) (v : String) : ℕ := severityOrder.idxOf v

section Resolution

-- `iterated` is the order in which a set of texts is iterated.
variable (iterated : List String → List String)

/-- `_select`, of evidence there is. -/
def selectBy (evidence : List FieldEvidenceView) (severityOrder : List String) :
    ConflictStrategy → Except String (Option String)
  | .preferConfirmed => .ok (preferred evidence)
  | .mostRestrictive =>
      if severityOrder = [] then .error "MOST_RESTRICTIVE requires a severity_order"
      else .ok ((iterated (evidence.map (·.value))).argmax (severityRank severityOrder))
  | .unionClasses =>
      .ok (some (String.intercalate "," (KeySort.sortBy id (evidence.map (·.value)).dedup)))
  | .unresolvedOnConflict => .ok (singleValue (evidence.map (·.value)))

/-- `_select`. -/
def selectValue (evidence : List FieldEvidenceView) (strategy : ConflictStrategy)
    (severityOrder : List String) : Except String (Option String) :=
  if evidence = [] then .ok none else selectBy iterated evidence severityOrder strategy

def firedDisqualifiers (policy : FieldPolicy) (active : List Disqualifier) : List Disqualifier :=
  active.filter fun d => policy.disqualifiers.contains d

/-- What bars a load-bearing value before any rule is asked. -/
def barredReason (policy : FieldPolicy) (active : List Disqualifier) : Option String :=
  if policy.resolutionMode = .specializedFact then some "specialized_fact"
  else if policy.influenceMax ≠ .operational then some "influence_not_operational"
  else (KeySort.sortBy (·.value) (firedDisqualifiers policy active)).head?.map fun d =>
    "disqualified:" ++ d.label

/-- The rule of a load-bearing value is met. -/
def FieldPolicy.certifies (policy : FieldPolicy) (active : List Standing) : Bool :=
  policy.operationalRule.any (evaluate active)

/-- The load-bearing value, or the reason there is none. -/
def operationalOutcome (evidence : List FieldEvidenceView) (policy : FieldPolicy)
    (active : List Disqualifier) : Except String (String ⊕ String) :=
  match barredReason policy active with
  | some reason => .ok (.inr reason)
  | none =>
      if ¬ policy.certifies (evidence.map (·.standing)) then .ok (.inr "authority_insufficient")
      else (selectValue iterated evidence policy.conflictStrategy policy.severityOrder).map fun lb =>
        lb.elim (.inr "conflict") .inl

def resolveFieldAuthority (evidence : List FieldEvidenceView) (policy : FieldPolicy)
    (active : List Disqualifier) : Except String FieldResolution :=
  let shown := evaluate (evidence.map (·.standing)) policy.displayRule
  (operationalOutcome iterated evidence policy active).map fun outcome =>
    { displayValue := if shown then preferred evidence else none
      loadBearingValue := outcome.getLeft?
      unresolvedReason := outcome.getRight?
      displayConflict := shown && (preferred evidence).isNone }

end Resolution

end FeatureGen.Overlay

namespace FeatureGen.Overlay

def sensitivityOrder : List String :=
  ["public", "internal", "confidential", "restricted", "prohibited"]

def operationalDisqualifiers : List Disqualifier := [.confirmationPendingRevalidation]

namespace AuthorityPredicate

def llmProposed : AuthorityPredicate := .hasEvidence (.llm, .proposed)
def sourceProposed : AuthorityPredicate := .hasEvidence (.source, .proposed)
def sourceAttested : AuthorityPredicate := .hasEvidence (.source, .attested)
def humanProposed : AuthorityPredicate := .hasEvidence (.human, .proposed)
def humanConfirmed : AuthorityPredicate := .hasEvidence (.human, .confirmed)
def parserSupported : AuthorityPredicate := .hasEvidence (.parser, .supported)
def taxonomyProposed : AuthorityPredicate := .hasEvidence (.taxonomy, .proposed)
def taxonomyConfirmed : AuthorityPredicate := .hasEvidence (.taxonomy, .confirmed)

def sourceOrHuman : AuthorityPredicate := .anyOf sourceAttested [humanConfirmed]

/-- The display rule of the advisory fields. -/
def shownLeniently : AuthorityPredicate :=
  .anyOf llmProposed [sourceProposed, sourceAttested, humanConfirmed]

/-- The display rule of the profile fields. -/
def shownWhenProposed : AuthorityPredicate :=
  .anyOf llmProposed [sourceProposed, sourceAttested, humanProposed, humanConfirmed]

end AuthorityPredicate

open AuthorityPredicate

namespace FieldPolicy

def recommendation (displayRule operationalRule : AuthorityPredicate) (humanEditable : Bool) :
    FieldPolicy where
  influenceMax := .recommendation
  displayRule := displayRule
  operationalRule := some operationalRule
  disqualifiers := []
  resolutionMode := .genericField
  conflictStrategy := .preferConfirmed
  severityOrder := []
  humanEditable := humanEditable

/-- What the operational policies share. -/
def operationalField (displayRule operationalRule : AuthorityPredicate) (humanEditable : Bool) :
    FieldPolicy where
  influenceMax := .operational
  displayRule := displayRule
  operationalRule := some operationalRule
  disqualifiers := operationalDisqualifiers
  resolutionMode := .genericField
  conflictStrategy := .preferConfirmed
  severityOrder := []
  humanEditable := humanEditable

def concept : FieldPolicy := recommendation shownLeniently sourceOrHuman true
def meaning : FieldPolicy := recommendation shownLeniently sourceOrHuman true

def logicalRepresentation : FieldPolicy :=
  operationalField (.anyOf parserSupported [sourceAttested, sourceProposed])
    (.anyOf parserSupported [sourceAttested]) false

def sensitivity : FieldPolicy where
  influenceMax := .operational
  displayRule := sourceOrHuman
  operationalRule := some sourceOrHuman
  disqualifiers := operationalDisqualifiers
  resolutionMode := .genericField
  conflictStrategy := .mostRestrictive
  severityOrder := sensitivityOrder
  humanEditable := false

def behavioural : FieldPolicy :=
  operationalField (.anyOf taxonomyProposed [taxonomyConfirmed, sourceAttested, humanConfirmed])
    (.anyOf taxonomyConfirmed [sourceAttested, humanConfirmed]) false

def tableAdvisory : FieldPolicy := recommendation shownLeniently sourceOrHuman false
def glossaryTerm : FieldPolicy := recommendation shownLeniently sourceOrHuman true
def declaredTypeHint : FieldPolicy := recommendation shownLeniently sourceOrHuman false
def entityAdvisory : FieldPolicy := recommendation shownLeniently sourceOrHuman false
def dataType : FieldPolicy := operationalField sourceOrHuman sourceAttested false
def measureAnnotation : FieldPolicy := operationalField sourceOrHuman sourceOrHuman true
def businessContext : FieldPolicy := recommendation shownWhenProposed sourceOrHuman true

def operationalProfileClassification : FieldPolicy :=
  operationalField shownWhenProposed sourceOrHuman true

end FieldPolicy

open FieldPolicy

/-- `_POLICIES`. -/
def fieldPolicies : List (String × FieldPolicy) :=
  [("concept", concept),
    ("definition", meaning),
    ("ai_summary", meaning),
    ("domain", meaning),
    ("feature_role", meaning),
    ("logical_representation", logicalRepresentation),
    ("semantic_type", logicalRepresentation),
    ("sensitivity", sensitivity),
    ("additivity", behavioural),
    ("temporal_role", behavioural),
    ("leakage_anchor", behavioural),
    ("table_role", tableAdvisory),
    ("primary_entity", tableAdvisory),
    ("event_or_snapshot", tableAdvisory),
    ("history_depth_days", tableAdvisory),
    ("business_term", glossaryTerm),
    ("term_type", glossaryTerm),
    ("bian_path", glossaryTerm),
    ("process_path", glossaryTerm),
    ("fibo_path", glossaryTerm),
    ("sub_domain", meaning),
    ("declared_type", declaredTypeHint),
    ("data_type", dataType),
    ("unit", measureAnnotation),
    ("currency", measureAnnotation),
    ("entity", entityAdvisory),
    ("business_context", businessContext),
    ("authority_role", operationalProfileClassification),
    ("temporal_storage_model", operationalProfileClassification)]

def policyFor (fieldName : String) : Option FieldPolicy :=
  (fieldPolicies.find? fun entry => entry.1 = fieldName).map (·.2)

end FeatureGen.Overlay
