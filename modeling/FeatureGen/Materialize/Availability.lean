import FeatureGen.Materialize.SpineDeclaration

/-! # Governed availability

`materialize/expression_ir.py`: the one availability column of a table, with the
basis its confirmed fact declares. The column's flag enumerates the candidates, and
the fact is reached through the link that its projection has left on the column.
-/

namespace FeatureGen.Materialize

open FeatureGen.Overlay Checks

/-- `_Availability`. The lag is the text of the fact's number. -/
structure Availability where
  column : String
  basis : Basis
  lagHours : Option String

inductive ExpressionRefusalCode where
  | availabilityTimeNotGoverned
  | grainPathNotGoverned
  | unaccountedLogicalRef

structure ExpressionRefused where
  code : ExpressionRefusalCode
  detail : String

def ungovernedAvailability (tableRef detail : String) : ExpressionRefused :=
  ⟨.availabilityTimeNotGoverned,
    tableRef ++ ": " ++ detail ++ ". Every row this expression aggregates is admitted or " ++
      "excluded by the point-in-time gate (§8 rule 1), so a gate applied on an unattested column " ++
      "— or on an unattested basis — silently changes the number and reports nothing"⟩

def statusName : FactStatus → String
  | .draft => "DRAFT"
  | .partiallyConfirmed => "PARTIALLY_CONFIRMED"
  | .verified => "VERIFIED"
  | .rejected => "REJECTED"
  | .stale => "STALE"
  | .reverify => "REVERIFY"

section

-- `numberText` is `_canonical_number` of a number that the store holds, `schemaMessage` the text
-- of the schema library
variable (lower : String → String) (numberText : Json.Number → String)
  (schemaMessage : FactType → FactValue → String) (catalog : Catalog)

def catalogTableRef (source table : String) : CatalogObjectRef :=
  ⟨source, "table", defaultSchema, table, none⟩

def availabilityFactValue (source table column tableRef : String) :
    Except ExpressionRefused (Basis × Option Json.Number) :=
  let refused detail := Except.error (ungovernedAvailability tableRef detail)
  let link := (catalog.nodes.find? fun node => node.catalogSource = source ∧
    lower node.tableName = table ∧ node.kind = "column" ∧
    node.columnName.map lower = some (norm lower column)).bind (·.availabilityFactEventId)
  match link with
  | none => refused ("the governed availability column " ++ Text.repr column ++
      " carries no fact-event link")
  | some eventId =>
      match catalog.factState (factKey lower (.object (catalogTableRef source table))
          .availabilityTime none) with
      | none => refused ("no availability_time fact is recorded in the overlay read model, so " ++
          "the basis the point-in-time gate must apply is unknown")
      | some row =>
          if row.status ≠ .verified then
            refused ("the availability_time fact is " ++ Text.repr (statusName row.status) ++
              ", and VERIFIED is the only servable overlay status")
          else if row.confirmedEventId ≠ eventId then
            refused ("the availability_time fact recorded in the overlay read model is not the " ++
              "one projected onto the column (confirmed-event ids differ), so its basis " ++
              "describes a different confirmation")
          else
            match row.value with
            | none => refused "the availability_time fact value is a NoneType, not an object"
            | some value =>
                match validateFactValue schemaMessage .availabilityTime value none, value with
                | .error e, _ => refused ("the availability_time fact value fails its governed " ++
                    "schema (" ++ e ++ ")")
                | .ok _, .availabilityTime named basis lag =>
                    if norm lower named ≠ norm lower column then
                      refused ("the availability_time fact names a different column than the " ++
                        "projection flagged as " ++ Text.repr column ++ ": one of the two is " ++
                        "stale, and applying the gate to either would be applying it to a " ++
                        "column nobody governed for it")
                    else .ok (basis, lag)
                | .ok _, _ => refused "the availability_time fact value fails its governed schema"

def asOfColumns (source table : String) : List String :=
  KeySort.sortBy lower ((catalog.nodes.filter fun node => node.catalogSource = source ∧
    lower node.tableName = table ∧ node.kind = "column" ∧ node.isAsOf = true).filterMap
      (·.columnName))

def governedAvailability (source schema table tableRef : String) :
    Except ExpressionRefused Availability :=
  let flagged := asOfColumns lower catalog source table
  let governed := flagged.filter fun column =>
    (catalog.operationalValue (normalizeRef lower source (some schema) table (some column))
      "is_as_of").governed
  match governed with
  | [] => .error (ungovernedAvailability tableRef
      (s!"no column carries a governed availability_time fact ({flagged.length} flagged as-of, " ++
        "0 governed)"))
  | [column] => do
      let (basis, lag) ← availabilityFactValue lower schemaMessage catalog source table column
        tableRef
      .ok ⟨column, basis, if basis = .eventTimePlusLag then lag.map numberText else none⟩
  | columns => .error (ungovernedAvailability tableRef
      (s!"{columns.length} columns carry a governed availability_time fact; the fact names " ++
        "exactly ONE column, so two of them make the gate a choice nobody made"))

variable {lower numberText schemaMessage catalog} {source schema table column tableRef : String}

end

end FeatureGen.Materialize
