import LateBinding.World.Basic

/-!
# The cache of types

A resolver keeps one entry for each class it has reached (`Resolver.entry`), and remembers under
which name it found a class.  A name that was not found is not remembered, so a class that is
defined later is found by the next lookup; a name that was found keeps its class.
-/

namespace LateBinding.Resolver

/-- What belongs to the resolver. -/
def state (r : Resolver) : Act ResolverState := return (← Act.world).stateOf r

/-- Change what belongs to the resolver. -/
def update (r : Resolver) (f : ResolverState → ResolverState) : Act Unit :=
  Act.update fun w => { w with resolvers := w.resolvers.insert r.id (f (w.stateOf r)) }

/-- The cache of types. -/
def types (r : Resolver) : Act TypeCache := return (← r.state).types

/-- Change the cache of types. -/
def updateTypes (r : Resolver) (f : TypeCache → TypeCache) : Act Unit :=
  r.update fun s => { s with types := f s.types }

/-- The entry of a class, made when the class is first reached. -/
def entry (r : Resolver) (c : Class Value) : Act (TypeEntry Value) := do
  match (← r.types).entries.get? c.id with
  | some e => return e
  | none =>
    let e : TypeEntry Value := ⟨← Act.fresh, c⟩
    r.updateTypes fun t => { t with entries := t.entries.insert c.id e }
    return e

/-- Find a class by name in the default scope. -/
def classNamed (r : Resolver) (name : String) : Act (Option (TypeEntry Value)) := do
  match (← r.types).byName.get? name with
  | some e => return some e
  | none =>
    match (← Act.world).find? r.defaultScope name with
    | none => return none
    | some c =>
      let e ← r.entry c
      r.updateTypes fun t => { t with byName := t.byName.insert name e }
      return some e

/-- Find a class by name in a scope. -/
def classNamedIn (r : Resolver) (name : String) (scope : Scope) :
    Act (Option (TypeEntry Value)) := do
  if scope.same r.defaultScope then r.classNamed name
  else
    match (← r.types).byScopedName.get? (name, scope.id) with
    | some e => return some e
    | none =>
      match (← Act.world).find? scope name with
      | none => return none
      | some c =>
        let e ← r.entry c
        r.updateTypes fun t => { t with byScopedName := t.byScopedName.insert (name, scope.id) e }
        return some e

/-- Find a class by name in a scope, or else in the default scope. -/
def typeNamed (r : Resolver) (name : String) (scope : Scope) :
    Act (Option (TypeEntry Value)) := do
  match ← r.classNamedIn name scope with
  | some e => return some e
  | none => r.classNamed name

/-- The number of classes that were reached. -/
def reachedClasses (r : Resolver) : Act Nat := return (← r.types).entries.size

end LateBinding.Resolver
