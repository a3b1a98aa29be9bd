import LateBinding.Proofs.Evaluation.Names
import LateBinding.Proofs.Renames

/-!
# Resolvers in use

A resolver is *in use* in the worlds that come about by making it and asking it for variables,
substitutions, members, classes, methods and fields, in any order and as often as one likes,
while anything may happen elsewhere (`Resolver.Used`).  No provider is registered with it.

An invariant that holds when the resolver is made, that depends on nothing but its books, and
that all these queries keep, holds as long as it is in use (`Resolver.Used.invariant`).  If its
document declares literals only, the resolver is faithful as long as it is in use
(`Resolver.Used.faithful`).
-/

namespace LateBinding.Resolver

/-- A query made of a resolver. -/
inductive Query
  /-- The value of a variable. -/
  | valueOf (name : String)
  /-- What a template resolves to. -/
  | substitute (template : String)
  /-- The real name of a member. -/
  | member (owner logical : String)
  /-- The class that a template denotes. -/
  | cls (template : String) (scope : Option Scope)
  /-- The method that a logical method maps to. -/
  | method (target interface : TypeEntry Value) (logical : String) (params : List String)
  /-- The field that a template denotes. -/
  | field (e : TypeEntry Value) (template : String)
  /-- The class of a name in a scope. -/
  | typeNamed (name : String) (scope : Scope)
  /-- The entry of a class. -/
  | entry (c : Class Value)
  /-- Taking a provider away, which is not there. -/
  | unregister (name : String)

/-- Make a query and forget what it gives. -/
def Query.perform (h : Host) (r : Resolver) : Query → Act Unit
  | .valueOf name => do
    let _ ← h.valueOf r name
  | .substitute template => do
    let _ ← r.substitute h template
  | .member owner logical => do
    let _ ← r.resolveMember h owner logical
  | .cls template scope => do
    let _ ← (r.resolveClass h template scope).run
  | .method target interface logical params => do
    let _ ← (r.resolveMethod h target interface logical params).run
  | .field e template => do
    let _ ← r.resolveField h e template
  | .typeNamed name scope => do
    let _ ← r.typeNamed name scope
  | .entry c => do
    let _ ← r.entry c
  | .unregister name => do
    let _ ← r.unregister name

/-- The worlds in which a resolver is in use. -/
inductive Used (r : Resolver) : World → Prop
  /-- The resolver has just been made: nothing belongs to it yet. -/
  | new {w : World} (h : w.resolvers.get? r.id = none) : Used r w
  /-- A query is made of it. -/
  | query {w w' : World} (hw : Used r w) (q : Query) (n : Nat)
    (h : q.perform (.level (n + 1)) r w = .done () w') : Used r w'
  /-- Something happens that has nothing to do with it. -/
  | elsewhere {w w' : World} (hw : Used r w) (h : w.Spares r w') : Used r w'

variable {r : Resolver} {w : World} {I : World → Prop}

/-- Queries keep what asking for a variable, resolving a member and taking a provider away keep. -/
theorem Query.keeps_perform {h : Host} (hI : Noting (.free (· = r)) I)
    (hreads : h.Reads (.free (· = r)) I) (hrenames : h.Renames (.free (· = r)) I)
    (hunregister : ∀ name, Act.Keeps I (fun _ => True) (r.unregister name)) (q : Query) :
    Act.Keeps I (fun _ => True) (q.perform h r) := by
  have done {α : Type} {P : α → Prop} {x : Act α} (hx : Act.Keeps I P x) :
      Act.Keeps I (fun _ => True) (do let _ ← x) :=
    hx.bind fun _ _ => .pure trivial
  cases q with
  | valueOf name => exact done (hreads r name rfl)
  | substitute template => exact done (keeps_substitute rfl hreads template)
  | member owner logical => exact done (hrenames r owner logical rfl)
  | cls template scope => exact done (keeps_resolveClass rfl hreads hI template scope)
  | method target interface logical params =>
    exact done (keeps_resolveMethod rfl hI hrenames target interface logical params)
  | field e template => exact done (keeps_resolveField rfl hreads hI e template)
  | typeNamed name scope => exact done (r.keeps_typeNamed hI name scope)
  | entry c => exact done (r.keeps_entry hI trivial)
  | unregister name => exact done (hunregister name)

/-- What holds when a resolver is made, and is kept by all that is done with it, holds as long as
it is in use. -/
theorem Used.invariant (hnew : ∀ w : World, w.resolvers.get? r.id = none → I w)
    (hspares : ∀ w w', w.Spares r w' → I w → I w')
    (hreads : ∀ n, (Host.level (n + 1)).Reads (.free (· = r)) I)
    (hrenames : ∀ n, (Host.level (n + 1)).Renames (.free (· = r)) I)
    (hunregister : ∀ name, Act.Keeps I (fun _ => True) (r.unregister name)) (hw : r.Used w) :
    I w := by
  induction hw with
  | new h => exact hnew _ h
  | query _ q n h ih =>
    -- the books of other resolvers do not matter, so only this one has to be free
    have hI : Stable (.free (· = r)) I := .of_spares r hspares
    exact (q.keeps_perform hI.noting (hreads n) (hrenames n) hunregister ih h).1
  | elsewhere _ h ih => exact hspares _ _ h ih

/-! ### Documents of literal variables -/

theorem Faithful.of_new (h : w.resolvers.get? r.id = none) : r.Faithful w := by
  -- what is not in the store has empty books
  have hstate : w.stateOf r = default := by rw [World.stateOf, h, Option.getD_none]
  constructor
  · constructor
    · intro name
      rw [hstate]
      rfl
    · intro name id hid
      rw [hstate] at hid
      cases hid
  · rw [hstate]
    exact .inl rfl
  · intro owner logical real hreal
    rw [hstate] at hreal
    cases hreal

/-- Taking away a provider that is not there does no harm. -/
theorem Faithful.unregister (hw : r.Faithful w) (name : String) :
    r.Faithful (w.withState r { w.stateOf r with registry := (w.stateOf r).registry.erase name })
    where
  toPlain := by
    refine hw.toPlain.withState (fun n => ?_) rfl
    rw [Table.get?_erase]
    split
    · rfl
    · exact hw.registry n
  index := by
    rw [World.stateOf_withState_self]
    exact hw.index
  memo := by
    rw [World.stateOf_withState_self]
    exact hw.memo

/-- A resolver of literal variables is faithful as long as it is in use. -/
theorem Used.faithful (hdoc : r.document.Literal) (hw : r.Used w) : r.Faithful w := by
  refine hw.invariant (fun _ h => .of_new h) (fun _ _ h hw => hw.of_spares h) (fun n => ?_)
    (fun n => ?_) fun name => ?_
  · rintro r' name rfl
    exact (Faithful.gives fun books => findsLiterals_level hdoc n books name).keeps.trivial
  · rintro r' owner logical rfl w a w' hw ha
    obtain ⟨real, w₁, hrun, hw₁, -⟩ :=
      resolveMember_of_faithful (findsLiterals_level hdoc n) hw owner logical
    rw [hrun] at ha
    cases ha
    exact ⟨hw₁, trivial⟩
  · exact (r.keeps_registered name).bind fun _ _ =>
      .bind (.update fun w hw => hw.unregister name) fun _ _ => .pure trivial

end LateBinding.Resolver
