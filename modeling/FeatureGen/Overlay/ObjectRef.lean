import FeatureGen.Lib.Text
import FeatureGen.Overlay.Identity

/-! # Logical refs

`overlay/upload/object_ref.py`: the text `source::schema.table[.column]` of an
object, and its parts. `lower` is `str.lower`.
-/

namespace FeatureGen.Overlay

def defaultSchema : String := "public"

structure LogicalParts where
  source : String
  schema : String
  table : String
  column : Option String
  deriving DecidableEq

def parseRef (logicalRef : String) : Except String LogicalParts :=
  let malformed := s!"not a normalized logical_ref: {Text.repr logicalRef}"
  match Text.partition "::" logicalRef with
  | none => .error malformed
  | some (source, path) =>
      if path = "" then .error malformed
      else
        match Text.split '.' path with
        | [schema, table] => .ok ⟨source, schema, table, none⟩
        | [schema, table, column] => .ok ⟨source, schema, table, some column⟩
        | _ => .error malformed

def normalizeRef (lower : String → String) (source : String) (schema : Option String)
    (table : String) (column : Option String) : String :=
  let schemaPart := ((schema.filter fun s => strip s ≠ "").map (norm lower)).getD defaultSchema
  let columnPart := (column.filter fun c => strip c ≠ "").map (norm lower)
  let path := [schemaPart, norm lower table] ++ columnPart.toList
  norm lower source ++ "::" ++ String.intercalate "." path

end FeatureGen.Overlay
