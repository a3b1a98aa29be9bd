/-!
# Exceptions

Bodies of methods and constructors, and accesses to objects, fail with an `Exception`: a kind
and a message.  An exception of a target is handed on as it is.
-/

namespace LateBinding

/-- A failure inside the object model. -/
structure Exception where
  /-- The kind of failure. -/
  kind : String
  /-- What went wrong. -/
  message : String
  deriving DecidableEq

namespace Exception

/-- The exception with its kind, in words. -/
def text (e : Exception) : String := e.kind ++ ": " ++ e.message

/-- A failure of no particular kind. -/
def plain (message : String) : Exception := ⟨"Error", message⟩

/-- A receiver is missing. -/
def nullPointer (message : String) : Exception := ⟨"NullPointer", message⟩

/-- An argument is not acceptable. -/
def illegalArgument (message : String) : Exception := ⟨"IllegalArgument", message⟩

/-- A member has no implementation. -/
def abstractMember (message : String) : Exception := ⟨"AbstractMember", message⟩

/-- A value is of another type than the expected one. -/
def typeMismatch (expected found : String) : Exception :=
  ⟨"TypeMismatch", "expected " ++ expected ++ ", got " ++ found⟩

/-- A member takes another number of arguments. -/
def wrongArity (member : String) (expected found : Nat) : Exception :=
  illegalArgument (member ++ " expects " ++ toString expected ++ " argument(s), got " ++
    toString found)

end Exception

end LateBinding
