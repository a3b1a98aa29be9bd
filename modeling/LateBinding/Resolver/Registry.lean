import LateBinding.BindingError
import LateBinding.Resolver.Types

/-!
# Resolvers and their registries

A resolver is made from a valid mapping document (`Act.newResolver`).  Providers are registered
with it under names; a registered provider takes precedence over the declaration of a variable
of that name.
-/

namespace LateBinding

/-- Make a resolver that looks types up in a scope. -/
def Act.newResolver (doc : Mapping.Document) (scope : Scope) : Attempt BindingError Resolver := do
  match doc.validate with
  | .error f => throw (.document f)
  | .ok () => return { id := ← Act.fresh, document := doc, defaultScope := scope }

/-- Make a provider. -/
def Act.newProvider (label : Option String) (retention : Retention) (source : ProviderSource) :
    Act Provider :=
  return { id := ← Act.fresh, label, retention, source }

/-- The text of a value, if it is one. -/
def textResult : Except Exception Value → Option String
  | .ok (.str s) => some s
  | _ => none

/-- Ask a provider for its value. -/
def Provider.get (h : Host) (p : Provider) : Act (Option String) := do
  match p.source with
  | .constant text => return some text
  | .computed body otherwise => return textResult (← (h.run body .null []).run) <|> otherwise

namespace Resolver

/-- The provider registered under a name. -/
def registered (r : Resolver) (name : String) : Act (Option Provider) :=
  return (← r.state).registry.get? name

/-- Register a provider under a name; the one it replaces is returned. -/
def register (r : Resolver) (name : String) (p : Provider) : Act (Option Provider) := do
  let previous ← r.registered name
  r.update fun s => { s with registry := s.registry.insert name p }
  return previous

/-- Take the provider of a name away; it is returned. -/
def unregister (r : Resolver) (name : String) : Act (Option Provider) := do
  let previous ← r.registered name
  r.update fun s => { s with registry := s.registry.erase name }
  return previous

end Resolver

end LateBinding
