import LateBinding.Machine
import LateBinding.Proofs.Reading.Lookups
import LateBinding.Proofs.Sparing

/-!
# Histories of readings

A client makes providers, registers them and takes them away, asks a resolver for variables and
resolves templates (`Resolver.Call`), one after the other (`Resolver.Course.run`).  What bodies do
is left open (`Host.around`), as is what happens elsewhere, as long as it spares the resolver.

All the while it is recorded which variables were read (`Reading`) and which names were changed,
that is, registered or unregistered.  Readings that are nested in others are recorded as well:
the description of a variable may name a class by a template, and this template is resolved by
reading variables (`Resolver.record`).  Histories are listed most recent first.

A reading is *justified* by what came before it (`Reading.Justified`) if its value is what its
source answers, or the answer that was kept, as the retention of the source demands.
-/

namespace LateBinding

/-! ### Hosts around bodies -/

/-- The host that runs bodies as given, depending on how deep evaluations may nest. -/
def Host.around (code : Nat → Code) : Nat → Host
  | 0 => { run := code 0, valueOf := fun _ _ => Act.exhausted }
  | n + 1 =>
    { run := code (n + 1), valueOf := fun r name => r.valueOf (Host.around code n) name }

/-- The machine is the host around its own code. -/
theorem Host.level_eq_around (n : Nat) : level n = around (fun k => (level k).run) n := by
  induction n with
  | zero => rfl
  | succ n ih =>
    rw [around, ← ih]
    rfl

theorem Host.run_around (code : Nat → Code) (k : Nat) : (around code k).run = code k := by
  cases k <;> rfl

/-! ### Readings -/

/-- A reading of a variable. -/
structure Reading where
  /-- The name of the variable. -/
  name : String
  /-- How deep its evaluation may nest. -/
  level : Nat
  /-- The world before. -/
  before : World
  /-- The value, if there is one. -/
  value : Option String

/-- What is recorded. -/
inductive Event
  /-- A provider is registered under a name or taken away. -/
  | changed (name : String)
  /-- A variable is read. -/
  | read (e : Reading)

/-- The readings of a variable since its name was last changed. -/
def stretch (name : String) : List Event → List Reading
  | [] => []
  | .changed n :: past => if n = name then [] else stretch name past
  | .read e :: past => if e.name = name then e :: stretch name past else stretch name past

/-- The template of the class that a description names. -/
def Mapping.Descriptor.template? (d : Mapping.Descriptor) : Option String :=
  match d.kind with
  -- without a method to call no class is looked up
  | .static => if d.value.isSome then d.provider else none
  | .provider => d.provider
  | _ => none

namespace Resolver

variable (r : Resolver)

/-- The slot of a variable, if it fits the source. -/
def fitting (w : World) (name : String) : Option (Identity × Slot) :=
  (r.sourceOf w name).bind fun src => (w.slotOf r name).filter fun p => p.2.fits src

/-- The value that is kept for a variable. -/
def kept (w : World) (name : String) : Option String := (r.fitting w name).bind fun p => p.2.frozen

/-- The template that is resolved when a source is asked, and the world in which it is. -/
def opens (w : World) (name : String) : SlotSource → Option (String × World)
  | .declared (.described d) =>
    if w.isEvaluating r name then none else d.template?.map fun t => (t, w.enter r name)
  | _ => none

/-- The template that is resolved when a variable is read, and the world in which it is: nothing
is asked if a value is kept. -/
def opened (w : World) (name : String) : Option (String × World) :=
  match r.sourceOf w name with
  | none => none
  | some src => if (r.kept w name).isSome then none else r.opens (r.slotted w name src) name src

/-- Record the readings that are nested in resolving a template, if there is one. -/
def recordOpened (h : Host) (enter : String → World → List Event → List Event) :
    Option (String × World) → List Event → List Event
  | none, past => past
  | some (t, w), past => (Lookups.substitute t).record (h.valueOf r) enter w past

/-- Record the reading of a variable, after the readings that are nested in it. -/
def record (code : Nat → Code) : Nat → String → World → List Event → List Event
  | 0, _, _, past => past
  | n + 1, name, w, past =>
    match r.valueOf (.around code n) name w with
    -- a reading comes after those that are nested in it
    | .done v _ =>
      .read ⟨name, n, w, v⟩ ::
        r.recordOpened (.around code n) (record code n) (r.opened w name) past
    | _ => past

end Resolver

/-! ### Justified readings -/

namespace Reading

variable (code : Nat → Code) (r : Resolver) (e : Reading)

/-- The reading is nested in an evaluation of the description of the variable. -/
def nested : Bool := e.before.isEvaluating r e.name

/-- The slot that is used is bound to the source, and the value is what the source answers in
this very reading: whatever is to be computed is computed. -/
def Asks (src : SlotSource) : Prop :=
  ∃ id s w₁ w₂, r.slotFor e.name e.before = .done (some (id, s)) w₁ ∧ s.source = src ∧
    (∀ compute, s.value id compute w₁ = (compute >>= s.retain id) w₁) ∧
    r.ask (.around code e.level) e.name src w₁ = .done e.value w₂

/-- The slot that is used is bound to the source, and the value is one that was kept: whatever is
to be computed is not computed. -/
def Recalls (src : SlotSource) (v : String) : Prop :=
  ∃ id s, r.slotFor e.name e.before = .done (some (id, s)) e.before ∧ s.source = src ∧
    e.value = some v ∧ ∀ compute, s.value id compute e.before = .done (some v) e.before

/-- The reading is as it should be, given what came before. -/
structure Justified (past : List Event) : Prop where
  /-- Its value is the one that it gives. -/
  gives : ∃ w', r.valueOf (.around code e.level) e.name e.before = .done e.value w'
  /-- Without a source there is no value. -/
  absent : r.sourceOf e.before e.name = none → e.value = none
  /-- A variable has no value while its own description is evaluated. -/
  cut : e.nested r = true → e.value = none
  /-- A lazy source is asked in each reading. -/
  lazy : ∀ src, r.sourceOf e.before e.name = some src → e.nested r = false →
    src.retention = .lazy → e.Asks code r src
  /-- A cached source is asked, unless it was asked before and answered with a value: then this
  is the value. -/
  cached : ∀ src, r.sourceOf e.before e.name = some src → e.nested r = false →
    src.retention = .cached → e.Asks code r src ∨
      ∃ v, e.Recalls r src v ∧
        ∃ e' : Reading, .read e' ∈ past ∧ e'.name = e.name ∧ e'.Asks code r src ∧ e'.value = some v
  /-- A value of a cached source stays until the name is changed, and the source is not asked
  again. -/
  kept : ∀ src, r.sourceOf e.before e.name = some src → e.nested r = false →
    src.retention = .cached → ∀ e' ∈ stretch e.name past, ∀ v, e'.value = some v →
      e.Recalls r src v
  /-- That a cached source had no value is not kept: it is asked again. -/
  retried : ∀ src, r.sourceOf e.before e.name = some src → e.nested r = false →
    src.retention = .cached →
      ∀ e' ∈ (stretch e.name past).find? (fun e' => !e'.nested r), e'.value = none →
        e.Asks code r src

end Reading

/-! ### Calls -/

/-- What a client does. -/
inductive Resolver.Call (r : Resolver)
  /-- Make a provider. -/
  | make (label : Option String) (retention : Retention) (source : ProviderSource)
  /-- Register a provider that was made, by its position. -/
  | register (name : String) (position : Nat)
  /-- Take the provider of a name away. -/
  | unregister (name : String)
  /-- Ask for a variable. -/
  | read (name : String)
  /-- Resolve a template. -/
  | resolve (template : String)
  /-- Change what has nothing to do with the resolver. -/
  | elsewhere (f : World → World) (h : ∀ w : World, w.Spares r (f w))

/-- What has been made and done. -/
structure Course where
  /-- The providers that were made. -/
  made : List Provider
  /-- What was read and changed, most recent first. -/
  past : List Event

namespace Resolver

variable (code : Nat → Code) (r : Resolver) (n : Nat)

/-- Carry out a call, and record it. -/
def Call.perform (c : Course) : Call r → Act Course
  | .make label retention source => do
    let p ← Act.newProvider label retention source
    return { c with made := c.made ++ [p] }
  | .register name position =>
    match c.made[position]? with
    | some p => do
      let _ ← r.register name p
      return { c with past := .changed name :: c.past }
    | none => return c
  | .unregister name => do
    let _ ← r.unregister name
    return { c with past := .changed name :: c.past }
  | .read name => do
    let w ← Act.world
    let _ ← (Host.around code n).valueOf r name
    return { c with past := r.record code n name w c.past }
  | .resolve template => do
    let w ← Act.world
    let _ ← r.substitute (.around code n) template
    return { c with
      past := (Lookups.substitute template).record ((Host.around code n).valueOf r)
        (r.record code n) w c.past }
  | .elsewhere f _ => do
    Act.update f
    return c

/-- Carry out calls one after the other. -/
def course : List (Call r) → Course → Act Course
  | [], c => return c
  | q :: qs, c => do course qs (← q.perform code r n c)

end Resolver

end LateBinding
