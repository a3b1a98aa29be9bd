import LateBinding.Identity

/-!
# Scopes

A scope is a namespace of classes.  It may delegate to a parent: a name is looked up in the
scopes of `Scope.chain`, from the scope itself outwards.  Which classes a scope defines is part
of the world; here a scope is its identity, its name and its parent.
-/

namespace LateBinding

/-- A namespace of classes. -/
inductive Scope
  /-- A scope without a parent. -/
  | root (id : Identity) (name : String)
  /-- A scope that delegates to its parent for the names it lacks. -/
  | child (id : Identity) (name : String) (parent : Scope)
  deriving DecidableEq

namespace Scope

/-- What tells the scope apart. -/
def id : Scope → Identity
  | root i _ => i
  | child i _ _ => i

/-- The name of the scope. -/
def name : Scope → String
  | root _ n => n
  | child _ n _ => n

/-- The scope that this one delegates to. -/
def parent? : Scope → Option Scope
  | root _ _ => none
  | child _ _ p => some p

/-- The identities of the scope and of the scopes it delegates to, nearest first. -/
def chain : Scope → List Identity
  | root i _ => [i]
  | child i _ p => i :: p.chain

/-- Whether two scopes are the same one. -/
def same (a b : Scope) : Bool := a.id == b.id

end Scope

end LateBinding
