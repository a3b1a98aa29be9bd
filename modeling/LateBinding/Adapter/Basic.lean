import LateBinding.Member.Invoke
import LateBinding.Resolver.Rename

/-!
# Adapters

An adapter binds a logical interface to a target.  The interface names the type it adapts by a
template, which is resolved when the adapter is made (`Adapter.bind`): in a given scope, or else
in the scope that defined the class of the target, or else in the default scope.

The parameter types of logical members are interfaces too; they stand for the types those adapt
(`Resolver.adaptTypes`).
-/

namespace LateBinding

/-- An attempt whose exceptions are those of a target. -/
def Attempt.ofTarget {α : Type} (x : Attempt Exception α) : Attempt BindingError α :=
  ExceptT.adapt BindingError.thrown x

/-- A live binding of a logical interface to a target. -/
structure Adapter where
  /-- What tells the adapter apart. -/
  id : Identity
  /-- What the adapter connects. -/
  binding : Binding Value
  /-- What the adapter stands for. -/
  target : Value

/-- The adapter as a value. -/
def Adapter.toValue (a : Adapter) : Value := .proxy a.id (.adapter a.binding) a.target

/-- The adapter that a value is. -/
def Value.adapter? : Value → Option Adapter
  | .proxy id (.adapter b) target => some ⟨id, b, target⟩
  | _ => none

/-- The name template of the type that an interface adapts. -/
def TypeEntry.adaptsTemplate (e : TypeEntry Value) : Attempt BindingError String := do
  if !e.cls.isInterface then throw (.notInterface e.cls.name)
  match (← e.marker .adapts).bind Marker.template? with
  | some template => return template
  | none => throw (.missingAdapts e.cls.name)

/-- Whether the type is an interface that adapts a type. -/
def TypeEntry.adaptsType (e : TypeEntry Value) : Act Bool := do
  if e.cls.isInterface then return (← e.marker .adapts).isSome else return false

/-- Whether a value is a proxy for the interface of this name. -/
def Value.isProxyFor (v : Value) (interface : String) : Bool :=
  match v with
  | .proxy _ f _ => f.name == interface
  | _ => false

/-- The scope that defined the class of an object. -/
def Value.definingScope? (v : Value) : Option Scope :=
  v.object?.bind fun o => o.cls.decl.scope

/-- Bind an interface to a target.  A proxy is replaced by its target first. -/
def Adapter.bind (h : Host) (r : Resolver) (interface : TypeEntry Value) (target : Value)
    (scope : Option Scope) : Attempt BindingError Adapter := do
  let template ← interface.adaptsTemplate
  let target := target.unwrap
  let scope := (scope <|> target.definingScope?).getD r.defaultScope
  let adapted ← r.resolveClass h template (some scope)
  return { id := ← Act.fresh, binding := ⟨r, interface, adapted, scope⟩, target }

namespace Resolver

/-- The type that a parameter type stands for: an interface stands for the type it adapts, any
other type for itself. -/
def adaptType (h : Host) (r : Resolver) (scope : Scope) (type : String) :
    Attempt BindingError String := do
  if isBuiltin type then return type
  else
    match ← r.typeNamed type scope with
    | none => return type
    | some e =>
      if !e.cls.isInterface then return type
      else
        match ← e.marker .adapts with
        | some (.adapts template) => return (← r.resolveClass h template (some scope)).cls.name
        | _ => return type

/-- The types that parameter types stand for. -/
def adaptTypes (h : Host) (r : Resolver) (scope : Scope) :
    List String → Attempt BindingError (List String)
  | [] => return []
  | type :: types => return (← r.adaptType h scope type) :: (← adaptTypes h r scope types)

end Resolver

end LateBinding
