import LateBinding.Member.Invoke
import LateBinding.Resolver.Slot
import LateBinding.Resolver.Substitute

/-!
# Values of variables

`Resolver.valueOf` gives the value of a variable: of the provider registered under its name, or
else of its declaration.  A described variable is evaluated as its kind says
(`Resolver.evaluate`); whatever fails gives no value.

A variable whose description is being evaluated has no value for the same resolver, so that
descriptions which depend on each other come to an end (`Resolver.guarded`).
-/

namespace LateBinding.Resolver

/-- The method that is called on an instance of a provider class. -/
def providerMethod : Descriptor := ⟨"get", []⟩

/-- The class that the template of a description denotes, if there is one. -/
def describedClass (h : Host) (r : Resolver) (template : String) :
    Act (Option (TypeEntry Value)) :=
  return match ← (r.resolveClass h template none).run with
    | .ok e => some e
    | .error _ => none

/-- The text that a static method of a class gives. -/
def staticText (h : Host) (e : TypeEntry Value) (d : Descriptor) : Act (Option String) := do
  match ← e.method d with
  | some m =>
    if m.decl.isStatic then return textResult (← (m.invoke h .null []).run) else return none
  | none => return none

/-- The text that a new instance of a provider class gives. -/
def providerText (h : Host) (e : TypeEntry Value) : Act (Option String) := do
  match ← e.constructor [] with
  | none => return none
  | some k =>
    match ← e.method providerMethod with
    | none => return none
    | some get =>
      let asked : Attempt Exception Value := do
        let o ← k.construct h []
        get.invoke h (.object o) []
      return textResult (← asked.run)

/-- The value of a described variable. -/
def evaluate (h : Host) (r : Resolver) (d : Mapping.Descriptor) : Act (Option String) := do
  match d.kind with
  | .value => return d.value
  | .registered =>
    match d.value with
    | none => return none
    | some name =>
      match ← r.registered name with
      | some p => p.get h
      | none => return none
  | .static =>
    match d.provider, d.value with
    | some template, some method =>
      match ← r.describedClass h template with
      | some e => staticText h e ⟨method, d.params⟩
      | none => return none
    | _, _ => return none
  | .provider =>
    match d.provider with
    | some template =>
      match ← r.describedClass h template with
      | some e => providerText h e
      | none => return none
    | none => return none

/-- Evaluate the description of a variable, unless it is being evaluated already. -/
def guarded (r : Resolver) (name : String) (evaluation : Act (Option String)) :
    Act (Option String) := do
  if (← Act.world).evaluating.contains (r.id, name) then return none
  else
    Act.update fun w => { w with evaluating := (r.id, name) :: w.evaluating }
    let v ← evaluation
    Act.update fun w => { w with evaluating := w.evaluating.tail }
    return v

/-- The value of a variable, if it has one. -/
def valueOf (h : Host) (r : Resolver) (name : String) : Act (Option String) := do
  match ← r.slotFor name with
  | none => return none
  | some (id, s) =>
    s.value id <|
      match s.source with
      | .registered p => p.get h
      | .declared (.literal text) => return some text
      | .declared (.described d) => r.guarded name (r.evaluate h d)

end LateBinding.Resolver
