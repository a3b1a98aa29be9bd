import LateBinding.Member.Memo
import LateBinding.Resolver.Registry
import LateBinding.Template

/-!
# Substitution

A template is resolved by substituting its tokens pass by pass until none is left, since a value
may contain tokens again (`Resolver.substitute`).  After `Template.maxPasses` passes what there
is stays.  The class that a template denotes is the one of the resolved name
(`Resolver.resolveClass`).
-/

namespace LateBinding.Resolver

/-- Replace every token by the value of its variable in one pass. -/
def pass (h : Host) (r : Resolver) (text : String) : Act String :=
  Template.substituteOnce (h.valueOf r) text

/-- Substitute in at most this many passes. -/
def substituteUpTo (h : Host) (r : Resolver) : Nat → String → Act String
  | 0, text => return text
  | passes + 1, text =>
    if Template.hasTokens text then do substituteUpTo h r passes (← pass h r text)
    else return text

/-- Resolve a template. -/
def substitute (h : Host) (r : Resolver) (template : String) : Act String :=
  substituteUpTo h r Template.maxPasses template

/-- The class that a template denotes, looked up in a scope or else in the default scope. -/
def resolveClass (h : Host) (r : Resolver) (template : String) (scope : Option Scope) :
    Attempt BindingError (TypeEntry Value) := do
  let resolved ← r.substitute h template
  let found ← match scope with
    | some s => r.classNamedIn resolved s
    | none => r.classNamed resolved
  match found with
  | some e => return e
  | none => throw (.typeNotFound template resolved)

/-- The field of a class that a template denotes. -/
def resolveField (h : Host) (r : Resolver) (e : TypeEntry Value) (template : String) :
    Act (Option FieldHandle) := do
  e.field (← r.substitute h template)

end LateBinding.Resolver
