import LateBinding.Json.Quote

/-!
# Writing JSON

`Json.pretty` writes a value over several lines: each item of an array and each member of an
object stands on a line of its own, indented by two spaces a level; an empty array or object
stays on its line.
-/

namespace LateBinding.Json

/-- A new line at a level of indentation. -/
def newline (level : Nat) : List Char := '\n' :: List.replicate (2 * level) ' '

mutual

/-- A value at a level of indentation. -/
def layout (level : Nat) : Json → List Char
  | .null => ['n', 'u', 'l', 'l']
  | .bool true => ['t', 'r', 'u', 'e']
  | .bool false => ['f', 'a', 'l', 's', 'e']
  | .number n => n.text.toList
  | .string s => Quote.encode s.toList
  | .array [] => ['[', ']']
  | .array (v :: vs) =>
    '[' :: newline (level + 1) ++ layout (level + 1) v ++ layoutItems (level + 1) vs ++
      newline level ++ [']']
  | .object [] => ['\x7b', '\x7d']
  | .object ((k, v) :: ms) =>
    '\x7b' :: newline (level + 1) ++ Quote.encode k.toList ++ ':' :: ' ' ::
      layout (level + 1) v ++ layoutMembers (level + 1) ms ++ newline level ++ ['\x7d']

/-- The items of an array behind the first one. -/
def layoutItems (level : Nat) : List Json → List Char
  | [] => []
  | v :: vs => ',' :: newline level ++ layout level v ++ layoutItems level vs

/-- The members of an object behind the first one. -/
def layoutMembers (level : Nat) : List (String × Json) → List Char
  | [] => []
  | (k, v) :: ms =>
    ',' :: newline level ++ Quote.encode k.toList ++ ':' :: ' ' :: layout level v ++
      layoutMembers level ms

end

/-- The text of a value. -/
def pretty (v : Json) : String := String.ofList (layout 0 v)

end LateBinding.Json
