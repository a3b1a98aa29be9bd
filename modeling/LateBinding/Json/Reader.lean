import LateBinding.Table
import LateBinding.Json.Number
import LateBinding.Json.Quote

/-!
# Reading JSON

A `Reader` reads from the front of a text and leaves the rest.  The first fault in the order
of the text is the one reported, so a reader for a given shape looks at a value only as far as
that shape allows:

* `Reader.string`, `Reader.items` and `Reader.members` read a value of a known shape; anything
  else is a mismatch, reported after a scalar in its place has been read (`Reader.unexpected`),
* `Reader.value` reads any value, with at most a given depth of nested arrays and objects,
* `Reader.skipValue` passes over any value, to any depth.

An array or object is read piecewise: `Reader.nextItem` and `Reader.endItems`,
`Reader.nextMember` and `Reader.endMembers`.
-/

namespace LateBinding.Json

/-- Reading from the front of a text. -/
abbrev Reader (α : Type) := StateT (List Char) (Except Fault) α

namespace Reader

/-- Whether white space may stand between two parts of a value. -/
def isSpace (c : Char) : Bool := c == ' ' || c == '\n' || c == '\t' || c == '\r'

/-- Stop with a fault. -/
def fail {α : Type} (f : Fault) : Reader α := fun _ => .error f

/-- Pass over white space and look at the next character. -/
def peek : Reader (Option Char) := fun s =>
  let rest := s.dropWhile isSpace
  .ok (rest.head?, rest)

/-- Pass over one character. -/
def advance : Reader Unit := fun s => .ok ((), s.drop 1)

/-- Pass over exactly these characters. -/
def expect : List Char → Reader Unit
  | [], s => .ok ((), s)
  | _ :: _, [] => .error .truncated
  | e :: es, c :: s => if c = e then expect es s else .error .malformed

/-- Read a string behind its opening quote. -/
def quote : Reader String := fun s =>
  (Quote.read s).map fun (cs, rest) => (String.ofList cs, rest)

/-- Read a number behind its sign. -/
def number (negative : Bool) : Reader Number := fun s => Number.read negative s

/-- Read a scalar that starts with this character; `none` if no scalar does. -/
def scalar? (c : Char) : Option (Reader Json) :=
  if c = 'n' then some do advance; expect ['u', 'l', 'l']; pure .null
  else if c = 't' then some do advance; expect ['r', 'u', 'e']; pure (.bool true)
  else if c = 'f' then some do advance; expect ['a', 'l', 's', 'e']; pure (.bool false)
  else if c = '-' then some do advance; pure (.number (← number true))
  else if c.isDigit then some do pure (.number (← number false))
  else if c = '"' then some do advance; pure (.string (← quote))
  else none

/-- Report the value at hand, which starts with this character, as one of the wrong type. -/
def unexpected {α : Type} (expected : String) (c : Char) : Reader α := do
  match scalar? c with
  | some read =>
    let v ← read
    fail (.mismatch (.wrongType v.found expected))
  | none =>
    if c = '[' then fail (.mismatch (.wrongType .sequence expected))
    else if c = '\x7b' then fail (.mismatch (.wrongType .map expected))
    else fail .malformed

/-! ### Arrays -/

/-- Read the next item of an array; `none` if the array ends. -/
def nextItem {α : Type} (first : Bool) (item : Reader α) : Reader (Option α) := do
  match ← peek with
  | none => fail .truncated
  | some ']' => pure none
  | some c =>
    if first then return some (← item)
    else if c = ',' then
      advance
      match ← peek with
      | none => fail .truncated
      | some ']' => fail .malformed
      | some _ => return some (← item)
    else fail .malformed

/-- Read the end of an array. -/
def endItems : Reader Unit := do
  match ← peek with
  | none => fail .truncated
  | some ']' => advance
  | some _ => fail .malformed

/-- Read the items of an array until it ends.  An item takes at least one character, so the
length of the text bounds their number. -/
def itemsUpTo {α : Type} (item : Reader α) : Nat → Bool → Reader (List α)
  | 0, _ => fail .malformed
  | bound + 1, first => do
    match ← nextItem first item with
    | none => pure []
    | some a => return a :: (← itemsUpTo item bound false)

/-- Read an array behind its bracket. -/
def itemsRest {α : Type} (item : Reader α) : Reader (List α) := do
  let as ← itemsUpTo item ((← get).length + 1) true
  endItems
  pure as

/-! ### Objects -/

/-- Read the colon between a name and its value. -/
def colon : Reader Unit := do
  match ← peek with
  | none => fail .truncated
  | some ':' => advance
  | some _ => fail .malformed

/-- Read the next name of an object, behind its opening quote, with `name`; `none` if the
object ends. -/
def nextMember {α : Type} (first : Bool) (name : Reader α) : Reader (Option α) := do
  match ← peek with
  | none => fail .truncated
  | some '\x7d' => pure none
  | some c =>
    if first then
      if c = '"' then
        advance
        return some (← name)
      else fail .malformed
    else if c = ',' then
      advance
      match ← peek with
      | none => fail .truncated
      | some '"' =>
        advance
        return some (← name)
      | some _ => fail .malformed
    else fail .malformed

/-- Read the end of an object. -/
def endMembers : Reader Unit := do
  match ← peek with
  | none => fail .truncated
  | some '\x7d' => advance
  | some _ => fail .malformed

/-- Read the members of an object until it ends, with the value of each name read by
`member`.  A member takes at least one character, so the length of the text bounds their
number. -/
def membersUpTo {ν α : Type} (name : Reader ν) (member : ν → Reader α) :
    Nat → Bool → Reader (List (ν × α))
  | 0, _ => fail .malformed
  | bound + 1, first => do
    match ← nextMember first name with
    | none => pure []
    | some n =>
      colon
      let a ← member n
      return (n, a) :: (← membersUpTo name member bound false)

/-- Read an object behind its brace. -/
def membersRest {ν α : Type} (name : Reader ν) (member : ν → Reader α) :
    Reader (List (ν × α)) := do
  let ms ← membersUpTo name member ((← get).length + 1) true
  endMembers
  pure ms

/-! ### Values of a known shape -/

/-- Read a string. -/
def string : Reader String := do
  match ← peek with
  | none => fail .truncated
  | some '"' =>
    advance
    quote
  | some c => unexpected "a string" c

/-- Read an array. -/
def items {α : Type} (item : Reader α) : Reader (List α) := do
  match ← peek with
  | none => fail .truncated
  | some '[' =>
    advance
    itemsRest item
  | some c => unexpected "a sequence" c

/-- Read an object; the last value of a name stays. -/
def members {α : Type} (member : Reader α) : Reader (Table String α) := do
  match ← peek with
  | none => fail .truncated
  | some '\x7b' =>
    advance
    return Table.ofList (← membersRest quote fun _ => member)
  | some c => unexpected "a map" c

/-! ### Any value -/

/-- Read a value, its arrays by `array` and its objects by `object`, both behind the
bracket. -/
def node (array object : Reader Json) : Reader Json := do
  match ← peek with
  | none => fail .truncated
  | some c =>
    match scalar? c with
    | some read => read
    | none =>
      if c = '[' then
        advance
        array
      else if c = '\x7b' then
        advance
        object
      else fail .malformed

/-- Read a value with at most this depth of nested arrays and objects. -/
def value : Nat → Reader Json
  | 0 => node (fail .malformed) (fail .malformed)
  | depth + 1 =>
    node (return .array (← itemsRest (value depth)))
      (return .object (Table.ofList (← membersRest quote fun _ => value depth)).entries)

/-- Pass over a scalar that starts with this character; `none` if no scalar does. -/
def skipScalar? (c : Char) : Option (Reader Unit) :=
  if c = '-' then some do advance; modifyGetM Number.skip
  else if c.isDigit then some (modifyGetM Number.skip)
  else if c = '"' then some do advance; modifyGetM Quote.skip
  else (scalar? c).map fun read => discard read
where
  /-- Replace the text by what a function leaves of it. -/
  modifyGetM (f : List Char → Except Fault (List Char)) : Reader Unit := fun s =>
    (f s).map fun rest => ((), rest)

/-- Pass over a value, given a bound on the length of the text, and so on the number of items
of an array and on how deep arrays and objects nest. -/
def skipUpTo : Nat → Reader Unit
  | 0 => fail .malformed
  | bound + 1 => do
    match ← peek with
    | none => fail .truncated
    | some c =>
      match skipScalar? c with
      | some skip => skip
      | none =>
        if c = '[' then
          advance
          discard (itemsUpTo (skipUpTo bound) bound true)
          endItems
        else if c = '\x7b' then
          advance
          discard
            (membersUpTo (skipScalar?.modifyGetM Quote.skip) (fun _ => skipUpTo bound) bound true)
          endMembers
        else fail .malformed

/-- Pass over a value. -/
def skipValue : Reader Unit := do skipUpTo ((← get).length + 1)

/-! ### Whole texts -/

/-- Nothing but white space may be left. -/
def endText : Reader Unit := do
  match ← peek with
  | none => pure ()
  | some _ => fail .malformed

/-- Read a whole text. -/
def run {α : Type} (r : Reader α) (text : String) : Except Fault α :=
  (do let a ← r; endText; pure a : Reader α).run' text.toList

end Reader

end LateBinding.Json
