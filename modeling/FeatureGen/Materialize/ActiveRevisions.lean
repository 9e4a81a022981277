import FeatureGen.Lib.AppendLog
import FeatureGen.Lib.Transition
import FeatureGen.Materialize.GroupPlan

/-! # Active revisions

`read_active_revision`, `next_revision_seq`, `record_active_revision` and
`publish_generation` of `materialize/publish.py`, over the table of migration 1055
with the indexes and the trigger of migration 1085. The seq is read, the trigger
reads, and the row is inserted, each as a statement of its own; the swap follows,
before the commit.
-/

namespace FeatureGen.Materialize

open FeatureGen.Overlay

inductive PublishMechanism where
  | versionedPointer
  | exchangePartition
  | setLocation
  deriving DecidableEq

/-- A group in an environment; `none` is the legacy one. -/
structure Scope where
  environmentId : Option String
  logicalGroupName : String
  deriving DecidableEq

structure ActiveRevision where
  revisionId : String
  logicalGroupName : String
  generationId : String
  runId : String
  publishedObject : String
  capabilityAttestationId : String
  mechanism : PublishMechanism
  seq : ℕ
  activatedAt : String
  environmentId : Option String
  deriving DecidableEq

namespace ActiveRevision

def scope (revision : ActiveRevision) : Scope :=
  ⟨revision.environmentId, revision.logicalGroupName⟩

/-- The fields that `__post_init__` checks are not blank. -/
def texts (revision : ActiveRevision) : List String :=
  [revision.revisionId, revision.logicalGroupName, revision.generationId, revision.runId,
    revision.publishedObject, revision.capabilityAttestationId, revision.activatedAt]

/-- `PRIMARY KEY`, `feature_active_revision_scoped_seq` and
    `feature_active_revision_legacy_seq`. -/
def conflicts (a b : ActiveRevision) : Bool :=
  a.revisionId = b.revisionId || (a.scope = b.scope && a.seq = b.seq)

end ActiveRevision

/-- The arguments of `publish_generation`: `environmentId`, `mechanism` and
    `capabilityAttestationId` are the selection's, `columns` the names of the plan's
    `expected_schema`. -/
structure Publication where
  environmentId : Option String
  mechanism : PublishMechanism
  capabilityAttestationId : String
  logicalGroupName : String
  columns : List String
  generationId : String
  runId : String
  publishedObject : String
  stagingRoot : String
  revisionId : String
  activatedAt : String

def Publication.scope (p : Publication) : Scope := ⟨p.environmentId, p.logicalGroupName⟩

def Publication.revision (p : Publication) (seq : ℕ) : ActiveRevision where
  revisionId := p.revisionId
  logicalGroupName := p.logicalGroupName
  generationId := p.generationId
  runId := p.runId
  publishedObject := p.publishedObject
  capabilityAttestationId := p.capabilityAttestationId
  mechanism := p.mechanism
  seq := seq
  activatedAt := p.activatedAt
  environmentId := p.environmentId

/-- A call of `swap`; the object and the generation are the revision's. -/
structure Swap where
  revision : ActiveRevision
  columns : List String
  stagingRoot : String

/-- How far a call of `publish_generation` is. -/
inductive Phase where
  /-- `next_revision_seq` has returned. -/
  | numbered (seq : ℕ)
  /-- The trigger has returned. -/
  | checked (seq : ℕ)
  /-- `record_active_revision` has returned. -/
  | recorded (revision : ActiveRevision)

structure PublishCall where
  publication : Publication
  phase : Phase

structure Publications where
  revisions : AppendLog ActiveRevision
  /-- The call each transaction has under way. -/
  calls : ℕ → Option PublishCall
  /-- The swaps performed, in order. -/
  swaps : List Swap

inductive PublishAction where
  /-- `publish_generation`, up to the INSERT. -/
  | publish (txn : ℕ) (publication : Publication)
  /-- The trigger's read. -/
  | trigger (txn : ℕ)
  /-- The row, once the trigger has returned. -/
  | insert (txn : ℕ)
  | swap (txn : ℕ)
  | commit (txn : ℕ)
  | rollback (txn : ℕ)

namespace Publications

/-- A call that raises, or the caller, ends the transaction. -/
def rollback (w : Publications) (txn : ℕ) : Publications where
  revisions := w.revisions.rollback txn
  calls := Function.update w.calls txn none
  swaps := w.swaps

/-- The call of a transaction goes on. -/
def goOn (w : Publications) (txn : ℕ) (call : PublishCall) : Publications where
  revisions := w.revisions
  calls := Function.update w.calls txn (some call)
  swaps := w.swaps

def nextRevisionSeq (w : Publications) (txn : ℕ) (scope : Scope) : ℕ :=
  match (((w.revisions.visible txn).filter (·.scope = scope)).map (·.seq)).max? with
  | none => 0
  | some seq => seq + 1

/-- `feature_active_revision_ordered`. -/
def reached (w : Publications) (txn : ℕ) (scope : Scope) (seq : ℕ) : Bool :=
  (w.revisions.visible txn).any fun r => r.scope = scope && seq ≤ r.seq

def step (w : Publications) : PublishAction → Option Publications
  | .publish txn p =>
      match w.calls txn with
      | some _ => none
      | none =>
          let seq := w.nextRevisionSeq txn p.scope
          if (p.revision seq).texts.any (strip · = "") then some (w.rollback txn)
          else some (w.goOn txn ⟨p, .numbered seq⟩)
  | .trigger txn =>
      match w.calls txn with
      | some ⟨p, .numbered seq⟩ =>
          if w.reached txn p.scope seq then some (w.rollback txn)
          else some (w.goOn txn ⟨p, .checked seq⟩)
      | _ => none
  | .insert txn =>
      match w.calls txn with
      | some ⟨p, .checked seq⟩ =>
          -- The checks of the columns; the texts that are not null have passed `_text`.
          if p.environmentId.any sqlBlank then some (w.rollback txn)
          else
            match w.revisions.insert ActiveRevision.conflicts txn (p.revision seq) with
            | .waits => none
            | .violation => some (w.rollback txn)
            | .log revisions =>
                some (goOn ⟨revisions, w.calls, w.swaps⟩ txn ⟨p, .recorded (p.revision seq)⟩)
      | _ => none
  | .swap txn =>
      match w.calls txn with
      | some ⟨p, .recorded revision⟩ => some {
          revisions := w.revisions
          calls := Function.update w.calls txn none
          swaps := w.swaps ++ [⟨revision, p.columns, p.stagingRoot⟩] }
      | _ => none
  | .commit txn =>
      match w.calls txn with
      | some _ => none
      | none => some ⟨w.revisions.commit txn, w.calls, w.swaps⟩
  | .rollback txn => some (w.rollback txn)

def empty : Publications := ⟨AppendLog.empty, fun _ => none, []⟩

def committedIn (w : Publications) (scope : Scope) : List ActiveRevision :=
  w.revisions.committed.filter (·.scope = scope)

/-- `read_active_revision`, of a session that has published nothing. -/
def readActiveRevision (w : Publications) (scope : Scope) : Option ActiveRevision :=
  (w.committedIn scope).argmax (·.seq)

end Publications

end FeatureGen.Materialize
