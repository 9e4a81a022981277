import FeatureGen.Overlay.FieldAuthority

/-! # The sensitivity floor

`apply_sensitivity_floor` of `overlay/safety_floor.py`, and `_resolve_sensitivity` of
`overlay/upload/field_resolution.py`. Instants are whole microseconds of one clock.
-/

namespace FeatureGen.Overlay

def prohibited : String := "prohibited"

/-- `_rank`: what the order does not list ranks as prohibited. -/
def restrictionRank (value : String) : ℕ :=
  if sensitivityOrder.contains value then sensitivityOrder.idxOf value
  else sensitivityOrder.idxOf prohibited

/-- `_normalize`. -/
def normalizeRestriction (value : String) : String :=
  if sensitivityOrder.contains value then value else prohibited

def mostRestrictive (floor : String) (proposals : List String) : String :=
  ((floor :: proposals).argmax restrictionRank).getD floor

inductive GovernanceAuthority where
  | dataOwner
  | security
  | privacy
  | modelRisk
  deriving DecidableEq

def downgradeAuthorities : List GovernanceAuthority := [.privacy, .security]

/-- A bound that is absent is open. -/
structure SafetyOverride where
  factKey : String
  field : String
  previousFloor : String
  overrideValue : String
  approvedByAuthority : GovernanceAuthority
  rationale : String
  policyReference : String
  effectiveFrom : Option ℤ
  effectiveUntil : Option ℤ

/-- `_override_is_effective`. -/
def SafetyOverride.isEffective (o : SafetyOverride) (now : ℤ) : Bool :=
  o.effectiveFrom.all (fun start => start ≤ now) && o.effectiveUntil.all (fun stop => now ≤ stop)

/-- `_override_permits_downgrade`, of an override there is. -/
def SafetyOverride.permitsDowngrade (o : SafetyOverride) (floor forceTo : String) (now : ℤ) :
    Bool :=
  o.field = "sensitivity" && o.previousFloor = floor && o.overrideValue = forceTo &&
    downgradeAuthorities.contains o.approvedByAuthority && o.isEffective now

/-- A downgrade that no override permits. -/
structure PermissionError where
  forceTo : String
  effectiveFloor : String

def applySensitivityFloor (floor : String) (proposals : List String)
    (override : Option SafetyOverride) (forceTo : Option String) (now : ℤ) :
    Except PermissionError String :=
  let effective := normalizeRestriction (mostRestrictive floor proposals)
  match forceTo with
  | none => .ok effective
  | some forced =>
      if restrictionRank effective ≤ restrictionRank (normalizeRestriction forced) then
        .ok (normalizeRestriction forced)
      else if override.any (fun o => o.permitsDowngrade floor forced now) then
        .ok (normalizeRestriction forced)
      else .error ⟨forced, effective⟩

def raisedFloor (floor : String) (proposals : List String) : String :=
  normalizeRestriction (mostRestrictive floor proposals)

def conceptSensitivityToRestriction : List (String × String) :=
  [("public", "public"),
    ("proxy", "confidential"),
    ("pii", "restricted"),
    ("protected_attribute", "restricted"),
    ("special_category", "restricted")]

def toRestriction (label : String) : String :=
  (conceptSensitivityToRestriction.lookup label).getD label

/-- What `_resolve_sensitivity` records, and projects on the node. -/
structure SensitivityDecision where
  effectiveRestriction : String
  certifiedRestriction : Option String
  classificationStatus : String
  conflictStatus : String
  reasonCodes : List String
  evidence : List FieldEvidenceView

/-- `_resolve_sensitivity`. The value of a floor's evidence is its text. -/
def resolveSensitivity (iterated : List String → List String)
    (floorEvidence classEvidence : List FieldEvidenceView) (active : List Disqualifier) :
    Except String SensitivityDecision := do
  let floor := raisedFloor "public" (floorEvidence.map fun e => toRestriction e.value)
  let classification ←
    resolveFieldAuthority iterated classEvidence FieldPolicy.sensitivity active
  let certified := classification.loadBearingValue
  let reason := classification.unresolvedReason.getD "floor_only"
  return {
    effectiveRestriction := raisedFloor floor (classEvidence.map fun v => toRestriction v.value)
    certifiedRestriction := certified.map fun v => raisedFloor floor [toRestriction v]
    classificationStatus := if certified.isSome then "confirmed" else "proposed"
    conflictStatus := if certified.isSome then "resolved" else reason
    reasonCodes := if certified.isSome then [] else [reason]
    evidence := floorEvidence ++ classEvidence }

end FeatureGen.Overlay
