import LateBinding.Json.Reader
import LateBinding.Mapping.Document

/-!
# Reading mapping documents

A document is a JSON object with the optional fields `variables` and `replacements`, or an
array of the two in this order.

* `variables` maps names to declarations.  A string, number or boolean is a literal; an object
  is a descriptor, whose fields are checked in the order of their names.
* `replacements` maps owner templates to lists of renames, each an object with the logical and
  the real name, either of which goes by two field names, or an array of the two names.

Fields of other names are ignored.  The shape of the document and of the renames is checked
while the text is read, the shape of the declarations once all of them are read.
-/

namespace LateBinding.Mapping

open Json (Mismatch Reader)

/-! ### Shapes of values -/

/-- The text of a string. -/
def stringOf : Json → Except Mismatch String
  | .string s => .ok s
  | v => .error (.wrongType v.found "a string")

/-- The text of a string, or nothing for null. -/
def optionalString : Json → Except Mismatch (Option String)
  | .null => .ok none
  | v => (stringOf v).map some

/-- The texts of an array of strings. -/
def strings : Json → Except Mismatch (List String)
  | .array vs => vs.mapM stringOf
  | v => .error (.wrongType v.found "a sequence")

/-- One of several names. -/
def variant {α : Type} (known : List (String × α)) (name : String) : Except Mismatch α :=
  match Entries.lookup name known with
  | some a => .ok a
  | none => .error (.unknownVariant name (known.map Prod.fst))

/-- One of several names, given as a string or as the name of a member that is null. -/
def choice {α : Type} (known : List (String × α)) : Json → Except Mismatch α
  | .string s => variant known s
  | .object [(k, v)] => do
    let a ← variant known k
    match v with
    | .null => pure a
    | v => .error (.wrongType v.found "unit")
  | .object _ => .error (.wrongValue .map "map with a single key")
  | v => .error (.wrongType v.found "string or map")

/-- The words for the kinds of descriptors. -/
def kinds : List (String × SourceKind) :=
  [SourceKind.provider, .registered, .static, .value].map fun k => (k.name, k)

/-- The words for the retentions. -/
def retentions : List (String × Retention) :=
  [Retention.lazy, .cached].map fun r => (r.name, r)

/-! ### Declarations -/

/-- The value of a field, or a default if the field is not there. -/
def field {α : Type} (members : List (String × Json)) (name : String)
    (decode : Json → Except Mismatch α) (default : α) : Except Mismatch α :=
  match Entries.lookup name members with
  | some v => decode v
  | none => .ok default

/-- A descriptor from its fields. -/
def descriptor (members : List (String × Json)) : Except Mismatch Descriptor := do
  let params ← field members "params" strings []
  let provider ← field members "provider" optionalString none
  let retention ← field members "retention" (choice retentions) .cached
  let kind ← field members "type" (choice kinds) .provider
  let value ← field members "value" optionalString none
  return { kind, retention, provider, value, params }

/-- A declaration from its value. -/
def declaration : Json → Except Mismatch Declaration
  | .string s => .ok (.literal s)
  | .number n => .ok (.literal n.text)
  | .bool b => .ok (.literal (toString b))
  | .object ms => (descriptor ms).map .described
  | .null => .error (.notDeclaration "null")
  | .array _ => .error (.notDeclaration "an array")

/-- The declarations of named values. -/
def declareAll (values : List (String × Json)) :
    Except Mismatch (List (String × Declaration)) :=
  values.mapM fun (name, v) =>
    match declaration v with
    | .ok d => .ok (name, d)
    | .error m => .error (.inVariable name m)

/-! ### Readers -/

/-- The depth of nested arrays and objects in the value of a variable: a document nests at most
127 deep, and a variable stands in two objects. -/
def valueDepth : Nat := 125

/-- Read the declarations. -/
def readVariables : Reader (Table String Declaration) := do
  let values ← Reader.members (Reader.value valueDepth)
  match declareAll values.entries with
  | .ok ds => return Table.ofList ds
  | .error m => Reader.fail (.mismatch m)

/-- Read the fields of a rename behind its brace, given the fields read so far. -/
def readRenameFields : Nat → Bool → Option String → Option String → Reader Rename
  | 0, _, _, _ => Reader.fail .malformed
  | bound + 1, first, logical, real => do
    match ← Reader.nextMember first Reader.quote with
    | none =>
      Reader.endMembers
      match logical, real with
      | some logical, some real => return ⟨logical, real⟩
      | none, _ => Reader.fail (.mismatch (.missingField "method"))
      | _, none => Reader.fail (.mismatch (.missingField "original"))
    | some name =>
      if name = "method" ∨ name = "logical" then
        if logical.isSome then Reader.fail (.mismatch (.duplicateField "method"))
        else
          Reader.colon
          readRenameFields bound false (some (← Reader.string)) real
      else if name = "original" ∨ name = "real" then
        if real.isSome then Reader.fail (.mismatch (.duplicateField "original"))
        else
          Reader.colon
          readRenameFields bound false logical (some (← Reader.string))
      else
        Reader.colon
        Reader.skipValue
        readRenameFields bound false logical real

/-- Read one of the two names of a rename from an array. -/
def readRenameItem (index : Nat) : Reader String := do
  match ← Reader.nextItem (index == 0) Reader.string with
  | some s => pure s
  | none =>
    Reader.fail (.mismatch (.wrongLength index "struct MemberRename with 2 elements"))

/-- Read a rename. -/
def readRename : Reader Rename := do
  match ← Reader.peek with
  | none => Reader.fail .truncated
  | some '[' =>
    Reader.advance
    let logical ← readRenameItem 0
    let real ← readRenameItem 1
    Reader.endItems
    return ⟨logical, real⟩
  | some '\x7b' =>
    Reader.advance
    readRenameFields ((← get).length + 1) true none none
  | some c => Reader.unexpected "struct MemberRename" c

/-- Read the renames. -/
def readRenames : Reader (Table String (List Rename)) :=
  Reader.members (Reader.items readRename)

/-- Read the fields of a document behind its brace, given the fields read so far. -/
def readFields : Nat → Bool → Option (Table String Declaration) →
    Option (Table String (List Rename)) → Reader Document
  | 0, _, _, _ => Reader.fail .malformed
  | bound + 1, first, declared, renames => do
    match ← Reader.nextMember first Reader.quote with
    | none =>
      Reader.endMembers
      return ⟨declared.getD ∅, renames.getD ∅⟩
    | some name =>
      if name = "variables" then
        if declared.isSome then Reader.fail (.mismatch (.duplicateField name))
        else
          Reader.colon
          readFields bound false (some (← readVariables)) renames
      else if name = "replacements" then
        if renames.isSome then Reader.fail (.mismatch (.duplicateField name))
        else
          Reader.colon
          readFields bound false declared (some (← readRenames))
      else
        Reader.colon
        Reader.skipValue
        readFields bound false declared renames

/-- Read the fields of a document from an array behind its bracket. -/
def readFieldItems : Reader Document := do
  match ← Reader.nextItem true readVariables with
  | none =>
    Reader.endItems
    return ∅
  | some declared =>
    let renames ← Reader.nextItem false readRenames
    Reader.endItems
    return ⟨declared, renames.getD ∅⟩

/-- Read a document. -/
def readDocument : Reader Document := do
  match ← Reader.peek with
  | none => Reader.fail .truncated
  | some '[' =>
    Reader.advance
    readFieldItems
  | some '\x7b' =>
    Reader.advance
    readFields ((← get).length + 1) true none none
  | some c => Reader.unexpected "struct MappingDocument" c

/-- Load a document from its text: read it and check that its descriptors are complete. -/
def Document.load (text : String) : Except Fault Document := do
  match readDocument.run text with
  | .error f => .error (.invalid f)
  | .ok doc =>
    doc.validate
    return doc

end LateBinding.Mapping
