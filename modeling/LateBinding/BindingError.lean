import LateBinding.Exception
import LateBinding.Mapping.Document

/-!
# Errors of binding

`BindingError` is what loading a document, binding an interface, or a call through an adapter
fails with.  Errors of *resolution* report that a type or member was not found; errors of
*configuration* report that a document or an interface is not usable; `BindingError.thrown`
hands on an exception of the target.
-/

namespace LateBinding

/-- The words for a document that cannot be loaded. -/
def Mapping.Fault.text : Mapping.Fault → String
  | .unreadable reason => "failed to read mapping document: " ++ reason.text
  | .invalid .malformed => "invalid mapping document: malformed text"
  | .invalid .truncated => "invalid mapping document: unexpected end of text"
  | .invalid (.mismatch m) => "invalid mapping document: " ++ m.text
  | .incomplete name lack =>
    "malformed provider for variable " ++ ticked name ++ ": " ++ lack.text

/-- Why a document cannot be loaded, an interface cannot be bound or a call fails. -/
inductive BindingError
  /-- The interface does not say which type it adapts. -/
  | missingAdapts (interface : String)
  /-- The type is not an interface. -/
  | notInterface (name : String)
  /-- There is no type of the name that the template resolves to. -/
  | typeNotFound (template resolved : String)
  /-- The mapping document cannot be loaded. -/
  | document (fault : Mapping.Fault)
  /-- There is no method of the resolved name and these parameter types. -/
  | memberNotFound (logical resolved : String) (params : List String)
      (target interface : String)
  /-- There is no field of the resolved name. -/
  | fieldNotFound (logical resolved target interface : String)
  /-- There is no constructor with these parameter types. -/
  | constructorNotFound (target : String) (params : List String) (interface : String)
  /-- The interface has no member of this name and number of arguments. -/
  | unknownMember (interface name : String) (arity : Nat)
  /-- No overload of the name accepts arguments of these types. -/
  | noMatchingOverload (interface name : String) (args : List String)
  /-- The target failed. -/
  | thrown (e : Exception)

namespace BindingError

/-- A list of types in words. -/
def typeList (types : List String) : String := "(" ++ ", ".intercalate types ++ ")"

/-- The error in words. -/
def text : BindingError → String
  | missingAdapts interface =>
    "interface " ++ ticked interface ++ " does not declare the type it adapts"
  | notInterface name => ticked name ++ " is not an interface"
  | typeNotFound template resolved =>
    "type " ++ ticked resolved ++ " not found (template " ++ ticked template ++ ")"
  | document fault => fault.text
  | memberNotFound logical resolved params target interface =>
    "method " ++ logical ++ " -> " ++ resolved ++ typeList params ++ " not found on " ++
      target ++ " (interface " ++ interface ++ ")"
  | fieldNotFound logical resolved target interface =>
    "field " ++ logical ++ " -> " ++ resolved ++ " not found on " ++ target ++
      " (interface " ++ interface ++ ")"
  | constructorNotFound target params interface =>
    "constructor " ++ target ++ typeList params ++ " not found when instantiating " ++ interface
  | unknownMember interface name arity =>
    "interface " ++ interface ++ " has no member " ++ name ++ " taking " ++ toString arity ++
      " argument(s)"
  | noMatchingOverload interface name args =>
    "interface " ++ interface ++ " has no overload of " ++ name ++ " accepting " ++
      typeList args
  | thrown e => e.text

/-- Whether a type or member was not found. -/
def isResolutionFailure : BindingError → Bool
  | memberNotFound .. | fieldNotFound .. | constructorNotFound .. | typeNotFound ..
  | unknownMember .. | noMatchingOverload .. => true
  | _ => false

/-- Whether a document or an interface is not usable. -/
def isConfigurationError : BindingError → Bool
  | missingAdapts .. | notInterface .. | document .. => true
  | _ => false

/-- The error as an exception for callers inside the object model.  An exception of the target
comes back unchanged. -/
def toException : BindingError → Exception
  | thrown e => e
  | e => ⟨"NoSuchMember", e.text⟩

end BindingError

end LateBinding
