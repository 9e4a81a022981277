import FeatureGen.Lib.Checks
import FeatureGen.Lib.KeySort
import FeatureGen.Overlay.ObjectRef
import FeatureGen.Overlay.Projection

/-! # Spine declarations

`materialize/spine.py`: the declared population of an entity, and its validation
against the governed catalog. The catalog at one moment is its nodes with what the
governed readers say of them. `lower` is `str.lower`, and the `lower` of the
database; `isoDate` is what `date.fromisoformat` accepts.
-/

namespace FeatureGen.Materialize

open FeatureGen.Overlay Checks

inductive PopulationSemantics where
  | currentCompletePopulation
  | currentActiveOnly
  | historicalAsOf
  deriving DecidableEq

def PopulationSemantics.value : PopulationSemantics → String
  | .currentCompletePopulation => "current_complete_population"
  | .currentActiveOnly => "current_active_only"
  | .historicalAsOf => "historical_as_of"

inductive SnapshotPolicy where
  | currentSnapshot (observedSnapshotRef : String)
  | latestAvailableAsOf (effectiveTimeRef availabilityRef : String)
      (deterministicTieBreakRefs : List String)
  | partitionMapped (orderedPartitionRefs : List String)
  | activePopulation (statusRef : String) (allowedStatusValues : List String) (observedOn : String)
  deriving DecidableEq

namespace SnapshotPolicy

/-- `kind.value`. -/
def kind : SnapshotPolicy → String
  | currentSnapshot _ => "current_snapshot"
  | latestAvailableAsOf .. => "latest_available_as_of"
  | partitionMapped _ => "partition_mapped"
  | activePopulation .. => "active_population"

def columnRefs : SnapshotPolicy → List String
  | currentSnapshot _ => []
  | latestAvailableAsOf effective available breaks => effective :: available :: breaks
  | partitionMapped refs => refs
  | activePopulation status _ _ => [status]

/-- Availability filters and does not collapse. -/
def collapsedRefs : SnapshotPolicy → List String
  | currentSnapshot _ => []
  | latestAvailableAsOf effective _ breaks => effective :: breaks
  | partitionMapped refs => refs
  | activePopulation .. => []

end SnapshotPolicy

/-- `SpineSourceDeclarationV1`, without the provenance that no check reads. -/
structure SpineSourceDeclaration where
  entity : String
  sourceTableRef : String
  orderedKeyRefs : List String
  populationSemantics : PopulationSemantics
  availabilityRef : Option String
  snapshotPolicy : SnapshotPolicy
  declarationReason : String
  declarationVersion : ℤ
  deriving DecidableEq

inductive SpineRefusalCode where
  | spineSourceNotDeclared
  | spineDeclarationRejectedByFacts
  | readScopeInsufficient
  | availabilityTimeNotGoverned

structure SpineRefused where
  code : SpineRefusalCode
  detail : String

/-- `_reject`. -/
def rejected (detail : String) : SpineRefused := ⟨.spineDeclarationRejectedByFacts, detail⟩

/-- A row of `graph_node`: what the spine and the expressions read of it. -/
structure CatalogNode where
  catalogSource : String
  objectRef : String
  kind : String
  tableName : String
  columnName : Option String
  isGrain : Bool
  isAsOf : Bool
  availabilityFactEventId : Option EventId
  visibleRequires : List String

/-- What `read_operational_value` says of a field. -/
structure OperationalValue where
  status : String
  value : Option String

/-- `read.status == _RESOLVED and read.value == _GOVERNED_TRUE`. -/
def OperationalValue.governed (read : OperationalValue) : Bool :=
  read.status = "resolved" && read.value = some "true"

/-- What `effective_entity` says of a node. -/
structure EntityRead where
  entity : Option String
  authority : Option String

/-- `factState` is `overlay_fact_state` by its key. -/
structure Catalog where
  nodes : List CatalogNode
  factState : FactKey → Option StateRow
  allowedClasses : List String → List String
  operationalValue : String → String → OperationalValue
  effectiveEntity : String → String → EntityRead

/-- `sorted` of a set. -/
def sortedSet (xs : List String) : List String := KeySort.sortBy id xs.dedup

section Validation

variable (lower : String → String) (isoDate : String → Bool) (catalog : Catalog)

def canonicalTableRef (ref : String) : Option (String × String × String) := do
  let parts ← (parseRef ref).toOption
  guard (parts.column.isNone ∧ normalizeRef lower parts.source parts.schema parts.table none = ref)
  pure (parts.source, parts.schema, parts.table)

def canonicalColumnRef (ref : String) : Option (String × String × String × String) := do
  let parts ← (parseRef ref).toOption
  let column ← parts.column
  guard (normalizeRef lower parts.source parts.schema parts.table (some column) = ref)
  pure (parts.source, parts.schema, parts.table, column)

def refColumn (ref : String) : String :=
  ((parseRef ref).toOption.bind (·.column)).getD ""

/-- `_Located`; a ref's column is `refColumn` of it. -/
structure Located where
  catalogSource : String
  schema : String
  table : String
  keyColumns : List String
  readRefs : List String
  collapsedColumns : List String

namespace SpineSourceDeclaration

variable (d : SpineSourceDeclaration)

/-- Every ref the spine reads, in the order it is checked. -/
def refs : List String :=
  d.orderedKeyRefs ++ d.availabilityRef.toList ++ d.snapshotPolicy.columnRefs

def rejectIncoherentPolicy : Except SpineRefused Unit :=
  let kind := d.snapshotPolicy.kind
  let semantics := d.populationSemantics.value
  match d.snapshotPolicy with
  | .activePopulation _ allowed observedOn => do
      ensure (d.populationSemantics = .currentActiveOnly)
        (rejected (s!"an {kind} policy filters members OUT, so it cannot back a {semantics} " ++
          "claim; only current_active_only is consistent with it"))
      ensure (allowed ≠ [])
        (rejected ("allowed_status_values is empty: an active population with no active " ++
          "status admits nobody"))
      ensure allowed.Nodup
        (rejected (s!"allowed_status_values repeats a value ({allowed.length} values, " ++
          s!"{allowed.dedup.length} distinct)"))
      ensure (strip observedOn ≠ "")
        (rejected ("observed_on is blank: the status column is current-valued, so a table of " ++
          "current rows cannot honestly answer an arbitrary business date unless the date " ++
          "those rows were observed valid is on the record"))
      ensure (isoDate (strip observedOn) = true)
        (rejected (s!"observed_on is {Text.repr observedOn}, which is not an ISO calendar date: " ++
          "the vintage exists to be compared against a run's business date, and only a date " ++
          "has an ordering with a date"))
  | policy => do
      ensure (d.populationSemantics ≠ .currentActiveOnly)
        (rejected (s!"population_semantics {semantics} requires an active_population policy " ++
          "(§4.2 rule 4): there is no implicit notion of 'active', so the status column and its " ++
          s!"allowed values must be declared — got {kind}"))
      match policy with
      | .currentSnapshot observed =>
          ensure (strip observed ≠ "")
            (rejected ("observed_snapshot_ref is blank: a table with no history cannot honestly " ++
              "answer an arbitrary business date unless the vintage it was observed at is on " ++
              "the record"))
      | .latestAvailableAsOf effective available breaks => do
          let declared := d.availabilityRef.getD "None"
          ensure (d.availabilityRef = some available)
            (rejected (s!"the {kind} policy reads availability from {available} while the " ++
              s!"declaration names {declared}: PIT rule 1 filters on availability, and two " ++
              "availability columns are two point-in-time semantics under one contract hash"))
          ensure breaks.Nodup
            (rejected ("deterministic_tie_break_refs repeats a ref, so the ordering it declares " ++
              "is not the ordering it applies"))
          ensure (effective ∉ breaks)
            (rejected ("the effective-time column is also a tie-break column, so ties on it are " ++
              "broken by itself and remain unbroken"))
      | .partitionMapped refs => do
          ensure (refs ≠ [])
            (rejected ("ordered_partition_refs is empty: a partition-mapped snapshot with no " ++
              "partition column selects the whole table"))
          ensure refs.Nodup
            (rejected ("ordered_partition_refs repeats a ref, so the partition order it " ++
              "declares is not the order it applies"))
      | .activePopulation .. => .ok ()

/-- One turn of `_locate`'s loop over the refs that are read. -/
def locateRef (source schema table ref : String) : Except SpineRefused Unit :=
  match canonicalColumnRef lower ref with
  | none => .error (rejected s!"{ref} is not a canonical COLUMN ref in the catalog's own form")
  | some (refSource, refSchema, refTable, _) =>
      ensure (refSource = source ∧ refSchema = schema ∧ refTable = table)
        (rejected (s!"{ref} is not a column of the declared source {d.sourceTableRef}: a spine " ++
          "whose keys or time columns come from another table is not one population"))

def locate : Except SpineRefused Located := do
  ensure (strip d.entity ≠ "")
    (rejected "entity is blank: a population with no entity is not a population")
  ensure (strip d.declarationReason ≠ "")
    (rejected ("declaration_reason is blank: an unexplained population choice is not " ++
      "reviewable, and review is the only control over this decision"))
  ensure (1 ≤ d.declarationVersion)
    (rejected s!"declaration_version {d.declarationVersion} is below 1")
  match canonicalTableRef lower d.sourceTableRef with
  | none => .error (rejected ("source_table_ref is not a canonical TABLE ref in the catalog's " ++
      "own form (source::schema.table)"))
  | some (source, schema, table) => do
      let keys := d.orderedKeyRefs.map refColumn
      let collapsed := d.snapshotPolicy.collapsedRefs.map refColumn
      let overlap := sortedSet (collapsed.filter keys.contains)
      let named := String.intercalate ", " overlap
      ensure (d.orderedKeyRefs ≠ [])
        (rejected "ordered_key_refs is empty: the spine has no key to be unique on")
      ensure d.orderedKeyRefs.Nodup
        (rejected (s!"ordered_key_refs repeats a ref ({d.orderedKeyRefs.length} refs, " ++
          s!"{d.orderedKeyRefs.dedup.length} distinct)"))
      each (fun _ ref => d.locateRef lower source schema table ref) d.refs
      ensure (overlap = [])
        (rejected (s!"the policy collapses spine key column(s) {named}: collapsing a key " ++
          "collapses the population itself"))
      d.rejectIncoherentPolicy isoDate
      .ok ⟨source, schema, table, keys, d.refs.reverse.dedup.reverse, collapsed⟩

def objectRef (table : String) (column : Option String) : String :=
  String.intercalate "." (["public", table] ++ column.toList)

/-- The row `_resolve_nodes` finds under a folded object ref: the last of them. -/
def found (source folded : String) : Option CatalogNode :=
  catalog.nodes.reverse.find? fun node =>
    node.catalogSource = source ∧ lower node.objectRef = folded

/-- `visible_requires <@ allowed`, negated. -/
def isHidden (roles : List String) (node : CatalogNode) : Bool :=
  !node.visibleRequires.all (catalog.allowedClasses roles).contains

/-- `_resolve_nodes`: the catalog's own object ref of each ref. -/
def resolveNodes (located : Located) (roles : List String) :
    Except SpineRefused (String → String) := do
  let node (ref : String) :=
    found lower catalog located.catalogSource (objectRef located.table (some (refColumn ref)))
  let tableNode := found lower catalog located.catalogSource (objectRef located.table none)
  let missing := sortedSet (located.readRefs.filter fun ref => (node ref).isNone)
  let hidden := sortedSet (located.readRefs.filter (fun ref =>
      (node ref).any (isHidden catalog roles)) ++
    if tableNode.any (isHidden catalog roles) then [objectRef located.table none] else [])
  let missingNames := String.intercalate ", " missing
  let hiddenNames := String.intercalate ", " hidden
  ensure (missing = [])
    (rejected (s!"the governed catalog has no column node for {missingNames} on " ++
      s!"{located.catalogSource}: a declaration may only name columns the catalog governs"))
  ensure (tableNode.isSome = true)
    (rejected (s!"the governed catalog has no table node for {located.table} on " ++
      s!"{located.catalogSource}"))
  ensure (hidden = [])
    ⟨.readScopeInsufficient, s!"the supplied read scope hides {hidden.length} of the spine's " ++
      s!"columns: {hiddenNames}. The spine's source and keys are part of what must be " ++
      "authorized, so an unreadable population cannot be compiled over"⟩
  .ok fun ref => ((node ref).map (·.objectRef)).getD ""

def governedEntity (located : Located) (nodes : String → String) (ref : String) :
    Option String :=
  let read := catalog.effectiveEntity located.catalogSource (nodes ref)
  if read.authority = some "governed" then read.entity.map (norm lower) else none

def refuseWrongEntity (located : Located) (nodes : String → String) : Except SpineRefused Unit :=
  let governed := governedEntity lower catalog located nodes
  let entity := Text.repr d.entity
  match d.orderedKeyRefs.find? fun ref => (governed ref).any (· ≠ norm lower d.entity) with
  | some ref => .error (rejected (s!"{ref} carries a governed entity_assignment for a different " ++
      s!"entity than the declared {entity}"))
  | none => ensure (d.orderedKeyRefs.any fun ref => governed ref = some (norm lower d.entity))
      (rejected (s!"no spine key carries a GOVERNED entity_assignment for {entity}: a " ++
        "file-declared entity is display context, and the population's entity may not rest " ++
        "on it"))

def governedGrainColumns (source schema table : String) : List String :=
  let flagged := catalog.nodes.filter fun node => node.catalogSource = source ∧
    lower node.tableName = norm lower table ∧ node.kind = "column" ∧ node.isGrain = true
  KeySort.sortBy id ((flagged.filterMap fun node => node.columnName.map lower).filter fun column =>
    (catalog.operationalValue (normalizeRef lower source (some schema) table (some column))
      "is_grain").governed)

def refuseNonUniqueKeys (located : Located) (grain : List String) : Except SpineRefused Unit := do
  let unattested := sortedSet (located.keyColumns.filter fun column => ¬ grain.contains column)
  let uncollapsed := sortedSet (grain.filter fun column =>
    ¬ located.keyColumns.contains column ∧ ¬ located.collapsedColumns.contains column)
  let unattestedNames := String.intercalate ", " unattested
  let uncollapsedNames := String.intercalate ", " uncollapsed
  let grainNames := if grain = [] then "none" else String.intercalate ", " grain
  ensure (unattested = [])
    (rejected (s!"no governed grain fact attests that {unattestedNames} identifies rows of " ++
      s!"{d.sourceTableRef} (governed grain: {grainNames}): several tables can carry the same " ++
      "key over different populations, so the keys must be attested, not assumed"))
  ensure (uncollapsed = [])
    (rejected (s!"the governed grain of {d.sourceTableRef} includes {uncollapsedNames}, which " ++
      s!"the {d.snapshotPolicy.kind} policy does not collapse: the source holds more than one " ++
      "row per spine key, so the spine would carry duplicate keys"))

def readIsAsOf (located : Located) (ref : String) : OperationalValue :=
  catalog.operationalValue (normalizeRef lower located.catalogSource (some located.schema)
    located.table (some (refColumn ref))) "is_as_of"

def refuseUngovernedAvailability (located : Located) : Except SpineRefused Unit := do
  match d.availabilityRef with
  | none => .ok ()
  | some ref =>
      let read := readIsAsOf lower catalog located ref
      let status := Text.repr read.status
      ensure (read.governed = true)
        ⟨.availabilityTimeNotGoverned, s!"{ref} carries no governed availability_time fact " ++
          s!"(C1 status {status}), so the spine's point-in-time filter would be applied on an " ++
          "unattested column"⟩
  match d.snapshotPolicy with
  | .latestAvailableAsOf effective _ _ =>
      let read := readIsAsOf lower catalog located effective
      let status := Text.repr read.status
      ensure (read.governed = true)
        ⟨.availabilityTimeNotGoverned, s!"effective_time_ref {effective} carries no governed " ++
          s!"availability_time fact (C1 status {status}), so the column that decides which " ++
          "record version wins would be an unattested timestamp"⟩
  | _ => .ok ()

end SpineSourceDeclaration

/-- `SpineSpec`; what it repeats of its declaration is read from there. -/
structure SpineSpec where
  declaration : SpineSourceDeclaration
  readSet : List String
  governedGrainRefs : List String
  rolesUsed : List String

def validateSpineDeclaration (declaration : Option SpineSourceDeclaration) (roles : List String) :
    Except SpineRefused SpineSpec :=
  match declaration with
  | none => .error ⟨.spineSourceNotDeclared, "no spine source declaration: " ++
      "`entity_assignment` and `grain` prove a column denotes an entity and that some columns " ++
      "identify rows, never that a table holds every member of the population — so the source " ++
      "is declared, and picking one from those facts is the inference this refusal exists to " ++
      "prevent"⟩
  | some d => do
      let located ← d.locate lower isoDate
      let nodes ← SpineSourceDeclaration.resolveNodes lower catalog located roles
      d.refuseWrongEntity lower catalog located nodes
      let grain := SpineSourceDeclaration.governedGrainColumns lower catalog
        located.catalogSource located.schema located.table
      d.refuseNonUniqueKeys located grain
      d.refuseUngovernedAvailability lower catalog located
      .ok ⟨d, located.readRefs, grain.map fun column =>
        normalizeRef lower located.catalogSource (some located.schema) located.table (some column),
        roles⟩

end Validation

end FeatureGen.Materialize
