import LateBinding.World.Basic

/-!
# Remembered lookups

The cache entry of a class remembers every lookup on it, those that found nothing included.  A
lookup that is made again gives what it gave the first time; in particular all lookups of a
method share one handle.
-/

namespace LateBinding.TypeEntry

/-- Change what an entry remembers. -/
def remember (e : TypeEntry Value) (f : MemberMemo → MemberMemo) : Act Unit :=
  Act.update fun w => { w with members := w.members.insert e.id (f (w.memoOf e)) }

/-- What an entry remembers. -/
def memo (e : TypeEntry Value) : Act MemberMemo := return (← Act.world).memoOf e

/-- Look a method up. -/
def method (e : TypeEntry Value) (d : Descriptor) : Act (Option MethodHandle) := do
  match (← e.memo).methods.get? d with
  | some known => return known
  | none =>
    let found : Option MethodHandle ← match e.cls.findMethod d with
      | some f => pure (some ⟨← Act.fresh, f.declaring, f.decl, f.overridden⟩)
      | none => pure none
    e.remember fun m => { m with methods := m.methods.insert d found }
    return found

/-- Look a field up. -/
def field (e : TypeEntry Value) (name : String) : Act (Option FieldHandle) := do
  match (← e.memo).fields.get? name with
  | some known => return known
  | none =>
    let found := e.cls.findField name
    e.remember fun m => { m with fields := m.fields.insert name found }
    return found

/-- Look a constructor up. -/
def constructor (e : TypeEntry Value) (params : List String) :
    Act (Option ConstructorHandle) := do
  let d := Descriptor.ofConstructor params
  match (← e.memo).constructors.get? d with
  | some known => return known
  | none =>
    let found := (e.cls.findConstructor params).map fun f => ⟨e.cls, f.decl, f.overridden⟩
    e.remember fun m => { m with constructors := m.constructors.insert d found }
    return found

/-- Look the marker of a kind up. -/
def marker (e : TypeEntry Value) (kind : MarkerKind) : Act (Option Marker) := do
  match (← e.memo).markers.get? kind with
  | some known => return known
  | none =>
    let found := e.cls.decl.marker? kind
    e.remember fun m => { m with markers := m.markers.insert kind found }
    return found

/-- The number of signatures whose lookup is remembered. -/
def rememberedMethods (e : TypeEntry Value) : Act Nat := return (← e.memo).methods.size

end LateBinding.TypeEntry
