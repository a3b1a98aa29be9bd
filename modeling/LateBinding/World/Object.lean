import LateBinding.World.Basic

/-!
# Objects and scopes

Objects are allocated with a field for every instance field of their lineage
(`Object.alloc`), and constructed by allocating one and running a constructor on it
(`Class.construct`).  Scopes and classes are made here too: a class that a scope defines
replaces an earlier one of its name for later lookups (`Act.define`).
-/

namespace LateBinding

/-! ### Registers -/

/-- The value of a register, null if it was never written. -/
def Act.register (name : String) : Act Value :=
  return ((← Act.world).registers.get? name).getD .null

/-- Write a register. -/
def Act.setRegister (name : String) (v : Value) : Act Unit :=
  Act.update fun w => { w with registers := w.registers.insert name v }

/-! ### Scopes and classes -/

/-- Make a scope. -/
def Act.newScope (name : String) (parent : Option Scope) : Act Scope := do
  let id ← Act.fresh
  return match parent with
    | none => .root id name
    | some p => .child id name p

/-- Make a class that belongs to the scope, if any, without entering it there. -/
def Act.newClass (plan : ClassPlan Value) (scope : Option Scope) : Act (Class Value) := do
  let c := Class.ofPlan (← Act.fresh) scope plan
  Act.update fun w => { w with statics := w.statics.insert c.id (Table.ofList c.staticSeeds) }
  return c

/-- Make a class and define it in a scope. -/
def Act.define (plan : ClassPlan Value) (scope : Scope) : Act (Class Value) := do
  let c ← Act.newClass plan (some scope)
  Act.update fun w =>
    { w with definitions := w.definitions.insert scope.id ((w.classesOf scope.id).insert c.name c) }
  return c

/-- The value of a static field. -/
def ClassDecl.staticGet (c : ClassDecl Value) (name : String) : Act (Option Value) :=
  return ((← Act.world).staticsOf c).get? name

/-- Write a static field; the value it had before is returned. -/
def ClassDecl.staticSet (c : ClassDecl Value) (name : String) (v : Value) :
    Act (Option Value) := do
  let previous ← c.staticGet name
  Act.update fun w => { w with statics := w.statics.insert c.id ((w.staticsOf c).insert name v) }
  return previous

/-! ### Objects -/

namespace Object

/-- Make an object of a class. -/
def alloc (c : Class Value) : Act Object := do
  let o : Object := ⟨← Act.fresh, c⟩
  Act.update fun w => { w with objects := w.objects.insert o.id (Table.ofList c.seeds) }
  return o

/-- The value of a field. -/
def get (o : Object) (name : String) : Act (Option Value) :=
  return ((← Act.world).fieldsOf o).get? name

/-- Write a field; the object gains it if it had none of that name.  The value it had before is
returned. -/
def set (o : Object) (name : String) (v : Value) : Act (Option Value) := do
  let previous ← o.get name
  Act.update fun w => { w with objects := w.objects.insert o.id ((w.fieldsOf o).insert name v) }
  return previous

end Object

/-! ### Calls -/

/-- Run a method, if the number of arguments is right. -/
def MethodDecl.call (h : Host) (m : MethodDecl) (receiver : Value) (args : List Value) :
    Attempt Exception Value :=
  if args.length ≠ m.params.length then
    throw (.wrongArity m.name m.params.length args.length)
  else
    match m.body with
    | some body => h.run body receiver args
    | none => throw (.abstractMember (m.name ++ " has no implementation"))

/-- Make an object and run a constructor on it. -/
def Class.construct (h : Host) (c : Class Value) (k : ConstructorDecl) (args : List Value) :
    Attempt Exception Object := do
  if c.isInterface then
    throw (.illegalArgument ("cannot instantiate interface " ++ c.name))
  if args.length ≠ k.params.length then
    throw (.wrongArity ("constructor of " ++ c.name) k.params.length args.length)
  let o ← Object.alloc c
  let _ ← h.run k.init (.object o) args
  return o

end LateBinding
