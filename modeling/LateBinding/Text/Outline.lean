import LateBinding.Text.Quoted

/-!
# Outlines

An `Outline` describes a thing by its parts: a text, a record with named fields, a variant with
its arguments, or a list.  It is written on one line (`Outline.compact`) or with each part on a
line of its own, indented by four spaces a level (`Outline.expanded`).
-/

namespace LateBinding

/-- A description of a thing by its parts. -/
inductive Outline
  /-- A text as it is. -/
  | text (text : String)
  /-- A name with named parts. -/
  | fields (name : String) (parts : List (String × Outline))
  /-- A name with parts. -/
  | variant (name : String) (parts : List Outline)
  /-- Parts in order. -/
  | list (parts : List Outline)

namespace Outline

/-- A text between quotes. -/
def quote (s : String) : Outline := text (quoted s)

/-- A number. -/
def number (n : Nat) : Outline := text (toString n)

/-- A truth value. -/
def flag (b : Bool) : Outline := text (toString b)

/-- A part that may be missing. -/
def optional : Option Outline → Outline
  | none => text "None"
  | some o => variant "Some" [o]

/-- Texts between quotes. -/
def quotes (ss : List String) : Outline := list (ss.map quote)

mutual

/-- The outline on one line. -/
def compact : Outline → String
  | text s => s
  | fields name [] => name
  | fields name parts => name ++ " \x7b " ++ ", ".intercalate (compactFields parts) ++ " \x7d"
  | variant name [] => name
  | variant name parts => name ++ "(" ++ ", ".intercalate (compactAll parts) ++ ")"
  | list parts => "[" ++ ", ".intercalate (compactAll parts) ++ "]"

/-- Outlines on one line each. -/
def compactAll : List Outline → List String
  | [] => []
  | o :: os => o.compact :: compactAll os

/-- Named outlines on one line each. -/
def compactFields : List (String × Outline) → List String
  | [] => []
  | (name, o) :: os => (name ++ ": " ++ o.compact) :: compactFields os

end

/-- Put four spaces in front of each line. -/
def indent (s : String) : String :=
  String.ofList (("    ".toList) ++ s.toList.flatMap fun c =>
    if c = '\n' then '\n' :: "    ".toList else [c])

/-- Parts between brackets, each on a line of its own. -/
def block (opening : String) (parts : List String) (closing : String) : String :=
  opening ++ "\n" ++ String.join (parts.map fun p => indent (p ++ ",") ++ "\n") ++ closing

mutual

/-- The outline with each part on a line of its own. -/
def expanded : Outline → String
  | text s => s
  | fields name [] => name
  | fields name parts => block (name ++ " \x7b") (expandedFields parts) "\x7d"
  | variant name [] => name
  | variant name parts => block (name ++ "(") (expandedAll parts) ")"
  | list [] => "[]"
  | list parts => block "[" (expandedAll parts) "]"

/-- Outlines with each part on a line of its own. -/
def expandedAll : List Outline → List String
  | [] => []
  | o :: os => o.expanded :: expandedAll os

/-- Named outlines with each part on a line of its own. -/
def expandedFields : List (String × Outline) → List String
  | [] => []
  | (name, o) :: os => (name ++ ": " ++ o.expanded) :: expandedFields os

end

end Outline

end LateBinding
