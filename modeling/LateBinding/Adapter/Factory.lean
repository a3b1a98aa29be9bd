import LateBinding.Adapter.Dispatch

/-!
# Making adapters

A resolver wraps a target in an adapter for an interface (`Resolver.wrap`), and constructs a new
instance of the type an interface adapts and wraps that (`Resolver.newInstance`).  A caller that
works with one interface gets the adapter back from a value with `Value.adapterFor?`.
-/

namespace LateBinding

namespace Resolver

/-- Wrap a target in an adapter for the interface that a template denotes. -/
def wrap (h : Host) (r : Resolver) (interface : String) (target : Value)
    (scope : Option Scope) : Attempt BindingError Adapter := do
  Adapter.bind h r (← r.resolveClass h interface scope) target scope

/-- Construct an instance of the type that an interface adapts, with the constructor of these
parameter types, and wrap it. -/
def newInstance (h : Host) (r : Resolver) (interface : String) (params : List String)
    (args : List Value) (scope : Option Scope) : Attempt BindingError Adapter := do
  let e ← r.resolveClass h interface scope
  let template ← e.adaptsTemplate
  let scope := scope.getD r.defaultScope
  let adapted ← r.resolveClass h template (some scope)
  let params ← r.adaptTypes h scope params
  match ← adapted.constructor params with
  | none => throw (.constructorNotFound adapted.cls.name params e.cls.name)
  | some k =>
    let o ← Attempt.ofTarget (k.construct h (args.map Value.unwrap))
    Adapter.bind h r e (.object o) (some scope)

end Resolver

/-- The adapter that a value is, if its interface has this name. -/
def Value.adapterFor? (v : Value) (interface : String) : Option Adapter :=
  v.adapter?.filter fun a => a.interfaceName == interface

/-- Call a method of a proxy.  A foreign proxy answers with a description of the call. -/
def Value.callProxy (h : Host) (id : Identity) (face : Face Value) (target : Value)
    (name : String) (args : List Value) : Attempt Exception Value :=
  match face with
  | .foreign _ => return .str ("foreign " ++ name ++ "/" ++ toString args.length)
  | .adapter b =>
    ExceptT.adapt BindingError.toException (Adapter.call h ⟨id, b, target⟩ name args)

end LateBinding
