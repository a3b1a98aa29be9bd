import LateBinding.Json.Printer
import LateBinding.Mapping.Document

/-!
# Writing mapping documents

A document is written as a JSON object of its two parts.  A literal is written as a string, a
descriptor as an object without the parts it lacks, and a rename as an object of its two names
(`Document.toJson`).
-/

namespace LateBinding.Mapping

/-- A descriptor as an object. -/
def Descriptor.toJson (d : Descriptor) : Json :=
  .object <|
    [("type", .string d.kind.name), ("retention", .string d.retention.name)] ++
      (d.provider.map fun p => ("provider", Json.string p)).toList ++
      (d.value.map fun v => ("value", Json.string v)).toList ++
      if d.params.isEmpty then [] else [("params", .array (d.params.map .string))]

/-- A declaration as a value. -/
def Declaration.toJson : Declaration → Json
  | .literal text => .string text
  | .described d => d.toJson

/-- A rename as an object. -/
def Rename.toJson (r : Rename) : Json :=
  .object [("method", .string r.logical), ("original", .string r.real)]

/-- A document as an object. -/
def Document.toJson (doc : Document) : Json :=
  .object [
    ("variables", .object (doc.declarations.entries.map fun (name, d) => (name, d.toJson))),
    ("replacements", .object (doc.renames.entries.map fun (owner, rs) =>
      (owner, .array (rs.map Rename.toJson))))]

/-- The text of a document. -/
def Document.text (doc : Document) : String := doc.toJson.pretty

end LateBinding.Mapping
