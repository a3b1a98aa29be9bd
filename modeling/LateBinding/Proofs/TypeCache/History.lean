import Mathlib.Data.Finset.Card
import LateBinding.Resolver.Registry
import LateBinding.World.Object

/-!
# Histories of type lookups

A client makes scopes, each with or without a parent, defines classes in them, anew as well as
again, makes resolvers, and asks these for the entries of classes and for classes by name
(`TypeCache.Inquiry`), one after the other (`TypeCache.course`).  What else happens in between is
left open, as long as it leaves the definitions and the caches of types alone (`TypeCache.Aside`).

All the while it is recorded what was defined, reached and found (`TypeCache.Event`), most recent
first.  The record alone says what a name means in a scope (`TypeCache.meaning`), which entry a
resolver first found under a name (`TypeCache.firstFound`), and which entries it handed out
(`TypeCache.handed`).  A lookup is *justified* by what came before it if it found just what these
say (`TypeCache.Justified`).
-/

namespace LateBinding.TypeCache

/-! ### Events -/

/-- What is recorded. -/
inductive Event
  /-- A scope came to define a class. -/
  | defined (scope : Scope) (c : Class Value)
  /-- A resolver was asked for the entry of a class. -/
  | reached (r : Resolver) (c : Class Value) (e : TypeEntry Value)
  /-- A resolver was asked for a class by name. -/
  | sought (r : Resolver) (name : String) (scope : Scope) (found : Option (TypeEntry Value))

/-- The class that a scope defines under a name: the one that it came to define last. -/
def latest (scope : Identity) (name : String) : List Event → Option (Class Value)
  | [] => none
  | .defined s c :: past =>
    if s.id = scope ∧ c.name = name then some c else latest scope name past
  | _ :: past => latest scope name past

/-- The class that a name means in a scope: the one that the scope defines, or else the one that
the name means in the parent. -/
def meaning (past : List Event) (name : String) : Scope → Option (Class Value)
  | .root id _ => latest id name past
  | .child id _ parent => (latest id name past).or (meaning past name parent)

/-- The entry that a resolver found when it first found the name in the scope. -/
def firstFound (r : Resolver) (name : String) (scope : Identity) :
    List Event → Option (TypeEntry Value)
  | [] => none
  | .sought r' n s found :: past =>
    (firstFound r name scope past).or
      (if r'.id = r.id ∧ n = name ∧ s.id = scope then found else none)
  | _ :: past => firstFound r name scope past

/-- The entry that a resolver handed out in an event. -/
def Event.entry? (r : Resolver) : Event → Option (TypeEntry Value)
  | .defined _ _ => none
  | .reached r' _ e => if r'.id = r.id then some e else none
  | .sought r' _ _ found => if r'.id = r.id then found else none

/-- The entries that a resolver handed out. -/
def handed (r : Resolver) (past : List Event) : List (TypeEntry Value) :=
  past.filterMap (Event.entry? r)

/-- The classes that a resolver reached, each one once. -/
def classesReached (r : Resolver) (past : List Event) : Finset Identity :=
  ((handed r past).map fun e => e.cls.id).toFinset

/-- A lookup of a name is as it should be, given what came before. -/
structure Justified (r : Resolver) (name : String) (scope : Scope)
    (found : Option (TypeEntry Value)) (past : List Event) : Prop where
  /-- A name that was found before is found again, with the same entry. -/
  kept : ∀ e, firstFound r name scope.id past = some e → found = some e
  /-- A name that was not found before stands for what it means now, or for nothing. -/
  fresh : firstFound r name scope.id past = none →
    found.map TypeEntry.cls = meaning past name scope

/-! ### Inquiries -/

/-- A change that leaves the definitions and the caches of types alone. -/
structure Aside where
  /-- The change. -/
  change : World → World
  /-- Identities that were handed out are not handed out again. -/
  next : ∀ w, w.next ≤ (change w).next
  /-- The scopes define what they did. -/
  definitions : ∀ w, (change w).definitions = w.definitions
  /-- The resolvers know the types that they knew. -/
  types : ∀ w r, ((change w).stateOf r).types = (w.stateOf r).types

/-- What a client does.  Things that were made are given by their positions. -/
inductive Inquiry
  /-- Make a scope, with a parent if one is given. -/
  | scope (name : String) (parent : Option Nat)
  /-- Define a class in a scope. -/
  | define (plan : ClassPlan Value) (scope : Nat)
  /-- Make a class that no scope defines. -/
  | cls (plan : ClassPlan Value)
  /-- Make a resolver that looks types up in a scope. -/
  | resolver (document : Mapping.Document) (scope : Nat)
  /-- Ask for the entry of a class. -/
  | entry (resolver cls : Nat)
  /-- Ask for a class by name. -/
  | classNamed (resolver : Nat) (name : String)
  /-- Ask for a class by name in a scope. -/
  | classNamedIn (resolver : Nat) (name : String) (scope : Nat)
  /-- Let something else happen. -/
  | aside (a : Aside)

/-- What was made and what happened. -/
structure Ledger where
  /-- The scopes that were made. -/
  scopes : List Scope
  /-- The classes that were made. -/
  classes : List (Class Value)
  /-- The resolvers that were made. -/
  resolvers : List Resolver
  /-- What happened, most recent first. -/
  past : List Event

instance : EmptyCollection Ledger := ⟨⟨[], [], [], []⟩⟩

/-- Add an event. -/
def Ledger.record (k : Ledger) (e : Event) : Ledger := { k with past := e :: k.past }

/-- Carry out an inquiry, and record it.  An inquiry about something that was not made does
nothing. -/
def perform (k : Ledger) : Inquiry → Act Ledger
  | .scope name parent => do
    let s ← Act.newScope name (parent.bind fun i => k.scopes[i]?)
    return { k with scopes := k.scopes ++ [s] }
  | .define plan scope =>
    match k.scopes[scope]? with
    | some s => do
      let c ← Act.define plan s
      return { k with classes := k.classes ++ [c] }.record (.defined s c)
    | none => return k
  | .cls plan => do
    let c ← Act.newClass plan none
    return { k with classes := k.classes ++ [c] }
  | .resolver document scope =>
    match k.scopes[scope]? with
    | some s => do
      match ← (Act.newResolver document s).run with
      | .ok r => return { k with resolvers := k.resolvers ++ [r] }
      | .error _ => return k
    | none => return k
  | .entry resolver cls =>
    match k.resolvers[resolver]?, k.classes[cls]? with
    | some r, some c => do
      let e ← r.entry c
      return k.record (.reached r c e)
    | _, _ => return k
  | .classNamed resolver name =>
    match k.resolvers[resolver]? with
    | some r => do
      let found ← r.classNamed name
      return k.record (.sought r name r.defaultScope found)
    | none => return k
  | .classNamedIn resolver name scope =>
    match k.resolvers[resolver]?, k.scopes[scope]? with
    | some r, some s => do
      let found ← r.classNamedIn name s
      return k.record (.sought r name s found)
    | _, _ => return k
  | .aside a => do
    Act.update a.change
    return k

/-- Carry out inquiries one after the other. -/
def course : List Inquiry → Ledger → Act Ledger
  | [], k => return k
  | q :: qs, k => do course qs (← perform k q)

end LateBinding.TypeCache
