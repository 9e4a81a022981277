import FeatureGen.Overlay.Authority
import FeatureGen.Overlay.Projection

/-! # The overlay database and the shared lifecycle core

What the overlay commands and pollers read and write, and `overlay/_lifecycle.py`:
the statuses a command admits, the event it must have seen, the renewal window and
the referent checks.
-/

namespace FeatureGen.Overlay

/-- `OverlayConfig`, as far as the lifecycle reads it. -/
structure OverlayConfig where
  ttlDefault : Instant
  ttlMin : Instant
  ttlMax : Instant
  ttlByFactType : FactType → Option Instant
  renewalGrace : Instant
  driftFreshnessSla : Instant
  ttlMin_pos : 0 < ttlMin
  ttlDefault_mem : ttlMin ≤ ttlDefault ∧ ttlDefault ≤ ttlMax
  ttlByFactType_mem : ∀ factType ttl, ttlByFactType factType = some ttl → ttlMin ≤ ttl ∧ ttl ≤ ttlMax
  renewalGrace_pos : 0 < renewalGrace
  renewalGrace_lt : renewalGrace < ttlMin
  driftFreshnessSla_pos : 0 < driftFreshnessSla

/-- The parts of a deployment that are not under this model: `str.lower`, the
    texts of the schema library, the entity vocabulary, and the jitter of a
    horizon, which is floating point. -/
structure Deployment where
  lower : String → String
  schemaMessage : FactType → FactValue → String
  knownEntities : List String
  jitter : FactKey → Instant → Instant

/-- `str.lower` of an ASCII string. -/
def asciiLower (s : String) : String := String.ofList (s.toList.map Char.toLower)

/-- A deployment over ASCII text, without jitter. -/
def asciiDeployment (schemaMessage : FactType → FactValue → String)
    (knownEntities : List String) : Deployment where
  lower := asciiLower
  schemaMessage := schemaMessage
  knownEntities := knownEntities
  jitter := fun _ ttl => ttl

/-- A scheduled `overlay_expiry` timer. -/
structure ExpiryTimer where
  factKey : FactKey
  confirmedEventId : EventId
  fireAt : Instant
  fired : Bool
  deriving DecidableEq

/-- A row of `overlay_catalog_object`. -/
structure SnapshotRow where
  catalogSource : String
  objectRef : String
  nativeOid : Option String
  typeFingerprint : String

/-- A row of `overlay_drift_watermark`. -/
structure Watermark where
  catalogSource : String
  lastCompletedAt : Instant
  headSeq : ℕ

/-- The database, the clock, the sealed configuration and the registered catalog.
    `graphNodes` are the source and ref of the `graph_node` rows as the referent
    query normalizes them, and `bridgeGate` is what `bridge_catalog_write_error`
    finds there. -/
structure World where
  now : Instant
  config : Option OverlayConfig
  adapter : CatalogAdapter
  graphNodes : List Referent
  bridgeGate : EntityBridgeRef → Option String
  events : List OverlayEvent
  nextSeq : ℕ
  timers : List ExpiryTimer
  tables : Tables
  checkpointSeq : ℕ
  snapshot : List SnapshotRow
  watermarks : List Watermark

/-- A command's refusal: a denied result, or an exception that rolls it back. -/
inductive Refusal where
  | denied (reason : String)
  | raised (text : String)

section Refusals

def require (ok : Prop) [Decidable ok] (reason : String) : Except Refusal Unit :=
  if ok then .ok () else .error (.denied reason)

/-- Deny with a gate's reason, if it has one. -/
def refuse : Option String → Except Refusal Unit
  | none => .ok ()
  | some reason => .error (.denied reason)

/-- A value the source would raise on the lack of. -/
def present {α : Type} (text : String) : Option α → Except Refusal α
  | none => .error (.raised text)
  | some a => .ok a

theorem require_ok {ok : Prop} [Decidable ok] {reason : String} {u : Unit} :
    require ok reason = .ok u ↔ ok := by
  unfold require
  split <;> simp_all

theorem refuse_ok {reason : Option String} {u : Unit} :
    refuse reason = .ok u ↔ reason = none := by
  cases reason <;> simp [refuse]

theorem present_ok {α : Type} {text : String} {a? : Option α} {a : α} :
    present text a? = .ok a ↔ a? = some a := by
  cases a? <;> simp [present]

theorem bind_ok {α β : Type} {x : Except Refusal α} {f : α → Except Refusal β} {b : β} :
    (x >>= f) = .ok b ↔ ∃ a, x = .ok a ∧ f a = .ok b := by
  cases x <;> simp [bind, Except.bind]

end Refusals

/-- Append one event, with the next number of the sequence. -/
def World.append (w : World) (key : FactKey) (actor : IdentityEnvelope) (payload : Payload) :
    World :=
  { w with
    events := w.events ++ [⟨w.nextSeq, w.nextSeq, key, actor, w.now, payload⟩]
    nextSeq := w.nextSeq + 1 }

def World.event (w : World) (key : FactKey) (actor : IdentityEnvelope) (payload : Payload) :
    OverlayEvent :=
  ⟨w.nextSeq, w.nextSeq, key, actor, w.now, payload⟩

theorem events_append {w : World} {key : FactKey} {actor : IdentityEnvelope} {payload : Payload} :
    (w.append key actor payload).events = w.events ++ [w.event key actor payload] := rfl

theorem loadFact_append_self {w : World} {key : FactKey} {actor : IdentityEnvelope}
    {payload : Payload} : loadFact (w.append key actor payload).events key =
      loadFact w.events key ++ [w.event key actor payload] := by
  rw [events_append, loadFact_snoc, if_pos (show (w.event key actor payload).factKey = key from rfl)]

/-- `validate_fact_value`, with the denial or exception its caller makes of an error. -/
def validated (d : Deployment) (refusal : String → Refusal) (factType : FactType)
    (value : FactValue) (useCase : Option String) : Except Refusal Unit :=
  match validateFactValue d.schemaMessage factType value useCase with
  | .ok () => .ok ()
  | .error message => .error (refusal message)

theorem schemaAdmits_of_validated {d : Deployment} {refusal : String → Refusal}
    {factType : FactType} {value : FactValue} {useCase : Option String} {u : Unit}
    (h : validated d refusal factType value useCase = .ok u) :
    schemaAdmits factType value = true := by
  unfold validated at h
  split at h
  · next valid => exact schemaAdmits_of_validate valid
  · cases h

def enforceFactValueSchema (d : Deployment) (stream : List OverlayEvent) :
    Payload → Except Refusal Unit
  | .proposed p => validated d .raised p.factType p.proposedValue p.useCase
  | .confirmed c =>
      match stream.findSome? fun e => match e.payload with
        | .proposed p => some p
        | _ => none with
      | none => .ok ()
      | some p => validated d .raised p.factType c.value p.useCase
  | _ => .ok ()

/-- `append_overlay_event`. The handlers pin the append to the head they folded,
    so a handler that lost a race has no effect and is no step. -/
def appendOverlayEvent (d : Deployment) (w : World) (key : FactKey) (actor : IdentityEnvelope)
    (payload : Payload) : Except Refusal World := do
  enforceFactValueSchema d (loadFact w.events key) payload
  return w.append key actor payload

theorem appendOverlayEvent_ok {d : Deployment} {w w' : World} {key : FactKey}
    {actor : IdentityEnvelope} {payload : Payload}
    (h : appendOverlayEvent d w key actor payload = .ok w') : w' = w.append key actor payload := by
  obtain ⟨_, _, h⟩ := bind_ok.mp h
  exact (Except.ok.inj h).symm

def nonTerminal : List FactStatus :=
  [.draft, .partiallyConfirmed, .verified, .reverify, .stale]

def awaitingConfirmation : List FactStatus := [.draft, .partiallyConfirmed, .reverify, .stale]

def Awaiting (st : OverlayState) : Prop := ∃ s ∈ awaitingConfirmation, st.status = some s

instance {st : OverlayState} : Decidable (Awaiting st) :=
  inferInstanceAs (Decidable (∃ s ∈ awaitingConfirmation, st.status = some s))

theorem awaiting_iff {st : OverlayState} : Awaiting st ↔ st.status = some .draft ∨
    st.status = some .partiallyConfirmed ∨ st.status = some .reverify ∨
    st.status = some .stale := by
  simp [Awaiting, awaitingConfirmation]

/-- `_DEFAULT_TTL`, 180 days. -/
def defaultTtl : Instant := 180 * 24 * 3600 * 1000000

def resolveTtl (d : Deployment) (config : Option OverlayConfig) (factType : FactType)
    (key : FactKey) : Instant :=
  match config with
  | none => defaultTtl
  | some c =>
      max c.ttlMin (min c.ttlMax (d.jitter key ((c.ttlByFactType factType).getD c.ttlDefault)))

def withinRenewalGrace (config : Option OverlayConfig) (st : OverlayState) (now : Instant) : Bool :=
  match st.expiresAt, config with
  | some exp, some c => st.status = some .verified ∧ exp - c.renewalGrace ≤ now ∧ now < exp
  | _, _ => false

theorem verified_of_withinRenewalGrace {config : Option OverlayConfig} {st : OverlayState}
    {now : Instant} (h : withinRenewalGrace config st now = true) : st.status = some .verified := by
  unfold withinRenewalGrace at h
  split at h
  · exact (of_decide_eq_true h).1
  · cases h

def casTarget (st : OverlayState) : Option EventId :=
  match st.status with
  | some .draft => st.draftEventId
  | some .partiallyConfirmed => st.confirmedEventId <|> st.draftEventId
  | _ => st.confirmedEventId

/-- `getattr(ref, "catalog_source", None)`; the facts of other refs do not read it. -/
def singleSource : Ref → String
  | .object ref => ref.catalogSource
  | _ => ""

/-- The loop of `referent_gap`; the source visits the set in any order. -/
def referentGap (adapter : CatalogAdapter) (deps : List Referent) : Option String :=
  deps.findSome? fun dep =>
    if dep.1 ≠ adapter.catalogSource then
      some s!"referent catalog_source '{dep.1}' is not served by this adapter"
    else if dep.2 ∉ adapter.refs then some s!"referent no longer in catalog: {dep.2}"
    else none

def normPath (lower : String → String) (referent : String) : String :=
  String.intercalate "." ((referent.toList.splitOn '.').map fun s => norm lower (String.ofList s))

/-- The loop of `graph_referent_gap`. -/
def graphReferentGap (lower : String → String) (nodes : List Referent) (deps : List Referent) :
    Option String :=
  deps.findSome? fun dep =>
    if nodes.contains (norm lower dep.1, normPath lower dep.2) then none
    else some s!"join referent missing from graph: {dep.1}.{dep.2}"

/-- `check_referents_exist`, denying with the gap it finds. -/
def checkReferentsExist (d : Deployment) (w : World) (denial : String) (ref : Ref)
    (factType : FactType) (value : FactValue) : Except Refusal Unit := do
  let deps ← present "KeyError"
    (factDependencies (displayObjectRef ref) factType value (singleSource ref))
  let gap := if w.adapter.uploadContext then graphReferentGap d.lower w.graphNodes deps
    else referentGap w.adapter deps
  refuse (gap.map fun g => s!"{denial}: {g}")

def sealedReferentCheck (d : Deployment) (w : World) (denial : String) (ref : Ref)
    (factType : FactType) (value : FactValue) : Except Refusal Unit :=
  if w.config.isSome then checkReferentsExist d w denial ref factType value else .ok ()

end FeatureGen.Overlay
