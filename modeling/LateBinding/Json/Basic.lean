import LateBinding.Decimal.Layout
import LateBinding.Text.Quoted

/-!
# JSON values

`Json` is the type of JSON values.  A whole number that fits 64 bits is kept exactly, any other
number is a binary floating-point number (`Json.Number`).  The members of an object stand in
the order in which their names were first entered.

Reading text can fail in three ways (`Json.Fault`): the text is malformed, the text ends too
early, or the value is well-formed but not of the shape asked for (`Json.Mismatch`).
-/

namespace LateBinding

/-- A JSON number. -/
inductive Json.Number
  /-- A whole number that fits 64 bits. -/
  | integer (value : Int)
  /-- Any other number. -/
  | float (value : Float)

/-- A JSON value. -/
inductive Json
  | null
  | bool (value : Bool)
  | number (value : Json.Number)
  | string (value : String)
  | array (items : List Json)
  | object (members : List (String × Json))

namespace Json

/-- Numbers are written positionally while the leading digit counts between `10 ^ -5` and
`10 ^ 15`, a whole one with a point and a zero, and otherwise with a signed power of ten. -/
def numberLayout : NumberLayout where
  positional e := -5 ≤ e && e < 16
  pointZero := true
  plus := "+"
  tie := .toEven

/-- The text of a number. -/
def Number.text : Number → String
  | .integer i => toString i
  | .float x => numberLayout.render x

/-! ### Faults -/

/-- What was found in the place of the value asked for. -/
inductive Found
  | null
  | bool (value : Bool)
  | number (value : Number)
  | string (value : String)
  | sequence
  | map

/-- What a value is, seen from outside. -/
def found : Json → Found
  | null => .null
  | bool b => .bool b
  | number n => .number n
  | string s => .string s
  | array _ => .sequence
  | object _ => .map

/-- The words for what was found. -/
def Found.text : Found → String
  | .null => "null"
  | .bool b => "boolean " ++ ticked (toString b)
  | .number (.integer i) => "integer " ++ ticked (toString i)
  | .number (.float x) => "floating point " ++ ticked (numberLayout.render x)
  | .string s => "string " ++ quoted s
  | .sequence => "sequence"
  | .map => "map"

/-- Why a well-formed value is not of the shape asked for. -/
inductive Mismatch
  /-- The value is of another type. -/
  | wrongType (found : Found) (expected : String)
  /-- The value is of the right type, but not one of the values asked for. -/
  | wrongValue (found : Found) (expected : String)
  /-- The sequence has too few elements. -/
  | wrongLength (length : Nat) (expected : String)
  /-- A field is not there. -/
  | missingField (name : String)
  /-- A field is there twice. -/
  | duplicateField (name : String)
  /-- The name is none of the names asked for. -/
  | unknownVariant (name : String) (known : List String)
  /-- The value is neither a literal nor a descriptor. -/
  | notDeclaration (found : String)
  /-- The mismatch concerns the variable of this name. -/
  | inVariable (name : String) (inner : Mismatch)

/-- A choice in words. -/
def alternatives (names : List String) : String :=
  match names.map ticked with
  | [] => "there are no variants"
  | [a] => "expected " ++ a
  | [a, b] => "expected " ++ a ++ " or " ++ b
  | all => "expected one of " ++ ", ".intercalate all

/-- The words of a mismatch. -/
def Mismatch.text : Mismatch → String
  | wrongType f e => "invalid type: " ++ f.text ++ ", expected " ++ e
  | wrongValue f e => "invalid value: " ++ f.text ++ ", expected " ++ e
  | wrongLength n e => "invalid length " ++ toString n ++ ", expected " ++ e
  | missingField n => "missing field " ++ ticked n
  | duplicateField n => "duplicate field " ++ ticked n
  | unknownVariant n known =>
    "unknown variant " ++ ticked n ++ ", " ++ alternatives known
  | notDeclaration f => "expected a literal or a descriptor, found " ++ f
  | inVariable n inner => "variable " ++ ticked n ++ ": " ++ inner.text

/-- Why a text cannot be read. -/
inductive Fault
  /-- The text is not JSON. -/
  | malformed
  /-- The text ends before the value does. -/
  | truncated
  /-- The text is JSON of another shape. -/
  | mismatch (cause : Mismatch)

end Json

end LateBinding
