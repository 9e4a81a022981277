import FeatureGen.Overlay.State

/-! # Catalog adapters and authority

The catalog adapter of `overlay/catalog.py`, and who may confirm a fact according
to `overlay/authority.py`. Unknown ownership goes to the governance queue, where a
platform admin acts.
-/

namespace FeatureGen.Overlay

structure CatalogObject where
  objectKind : String
  dataType : Option String
  nativeOid : Option String
  safetyFingerprint : Option String

structure CatalogFact where
  value : FactValue
  authoritative : Bool

/-- `CatalogAdapter`: what the registered adapter answers at one moment. -/
structure CatalogAdapter where
  catalogSource : String
  getFact : Ref → FactType → Option String → Option CatalogFact
  ownerOf : CatalogObjectRef → Option String
  /-- The objects there are, by their display ref. -/
  fingerprint : List (String × CatalogObject)
  /-- It is the sentinel `UploadContextAdapter`. -/
  uploadContext : Bool

def CatalogAdapter.refs (adapter : CatalogAdapter) : List String := adapter.fingerprint.map (·.1)

inductive Role where
  | dataOwner
  | compliance
  | platformAdmin
  deriving DecidableEq

/-- `Authority`. `subjects` are in side order, with none for an unknown owner. -/
structure Authority where
  role : Role
  subjects : List (Option String)
  governanceQueue : Bool
  dual : Bool := false
  adminConfirmable : Bool := false
  deriving DecidableEq

/-- `{s for s in authority.subjects if s}`. -/
def Authority.known (authority : Authority) : List String :=
  authority.subjects.filterMap fun s => s.filter (· ≠ "")

def Authority.governance : Authority := ⟨.platformAdmin, [], true, false, false⟩

/-- `resolve_authority`; none where it raises `TypeError`. -/
def resolveAuthority (adapter : CatalogAdapter) (ref : Ref) (factType : FactType) :
    Option Authority :=
  match factType, ref with
  | .policyTag, _ =>
      some { role := .compliance, subjects := [], governanceQueue := false }
  | .approvedJoin, .join join =>
      let fromOwner := adapter.ownerOf join.fromRef
      let toOwner := adapter.ownerOf join.toRef
      let sameOwner := fromOwner ≠ none ∧ fromOwner = toOwner
      some {
        role := if falsy fromOwner ∧ falsy toOwner then .platformAdmin else .dataOwner
        subjects := [fromOwner, toOwner]
        governanceQueue := fromOwner = none ∨ toOwner = none
        dual := ¬ sameOwner }
  | .approvedJoin, _ => none
  | .entityBridge, .bridge bridge =>
      let leftOwner := adapter.ownerOf bridge.leftRef
      if leftOwner ≠ none ∧ leftOwner = adapter.ownerOf bridge.rightRef then
        some { role := .dataOwner, subjects := [leftOwner], governanceQueue := false }
      else some .governance
  | .entityBridge, _ => none
  | factType, .object object =>
      match adapter.ownerOf object with
      | none => some .governance
      | some owner => some {
          role := .dataOwner
          subjects := [some owner]
          governanceQueue := false
          adminConfirmable := factType = .entityAssignment ∨ factType = .currencyBinding }
  | _, _ => none

def actorIsAuthority (authority : Authority) (actor : IdentityEnvelope) : Bool :=
  if authority.role = .compliance then "compliance" ∈ actor.roleClaims
  else if authority.adminConfirmable ∧ "platform-admin" ∈ actor.roleClaims then true
  else if authority.governanceQueue ∧ "platform-admin" ∈ actor.roleClaims then true
  else actor.subject ∈ authority.known

def proposerNeConfirmer (stream : List OverlayEvent) (actor : IdentityEnvelope) : Bool :=
  match latestProposed stream with
  | none => true
  | some p => p.proposedBy ≠ actor.subject

def uploaderNeConfirmer (stream : List OverlayEvent) (actor : IdentityEnvelope) : Bool :=
  match latestProposed stream with
  | none => true
  | some p => p.sourceUploader ≠ some actor.subject

theorem proposer_ne {stream : List OverlayEvent} {actor : IdentityEnvelope}
    (h : proposerNeConfirmer stream actor = true) {p : Proposed}
    (hp : latestProposed stream = some p) : p.proposedBy ≠ actor.subject := by
  simpa [proposerNeConfirmer, hp] using h

theorem resolveAuthority_approvedJoin {adapter : CatalogAdapter} {ref : Ref} {authority : Authority}
    (h : resolveAuthority adapter ref .approvedJoin = some authority) :
    ∃ join, ref = .join join ∧
      authority.subjects = [adapter.ownerOf join.fromRef, adapter.ownerOf join.toRef] ∧
      (authority.governanceQueue = true ↔
        adapter.ownerOf join.fromRef = none ∨ adapter.ownerOf join.toRef = none) ∧
      (authority.dual = true ↔ ¬ (adapter.ownerOf join.fromRef ≠ none ∧
        adapter.ownerOf join.fromRef = adapter.ownerOf join.toRef)) := by
  cases ref with
  | join join =>
      simp only [resolveAuthority, Option.some.injEq] at h
      subst h
      exact ⟨join, rfl, rfl, by simp, by simp [or_iff_not_imp_left]⟩
  | object object => simp [resolveAuthority] at h
  | bridge bridge => simp [resolveAuthority] at h

end FeatureGen.Overlay
