import LateBinding.Resolver.Registry

/-!
# Slots

A resolver sees each variable through a *slot*, which is bound to the provider registered under
the name or else to the declaration of the name.  The slot is bound anew when a variable is asked
for and the slot is bound to something else (`Resolver.slotFor`).

The slot enforces retention (`Slot.value`): the value of a cached slot is frozen once there is
one, and a lazy slot computes its value each time.
-/

namespace LateBinding

namespace Slot

/-- Whether the slot takes its value from this very provider. -/
def isBoundTo (s : Slot) (p : Provider) : Bool :=
  match s.source with
  | .registered q => q.id == p.id
  | .declared _ => false

/-- Whether the slot takes its value from a declaration. -/
def isDeclared (s : Slot) : Bool :=
  match s.source with
  | .registered _ => false
  | .declared _ => true

/-- A fresh slot for a provider. -/
def ofProvider (p : Provider) : Slot := ⟨.registered p, p.retention, none⟩

/-- A fresh slot for a declaration. -/
def ofDeclaration (d : Mapping.Declaration) : Slot := ⟨.declared d, d.retention, none⟩

/-- The value that is kept in the slot of this identity. -/
def frozenAt (id : Identity) : Act (Option String) :=
  return ((← Act.world).slots.get? id).bind Slot.frozen

/-- Keep a value in the slot of this identity, unless one is kept already; the value that is
kept is returned. -/
def freeze (id : Identity) (v : String) : Act String := do
  match ← frozenAt id with
  | some kept => return kept
  | none =>
    Act.update fun w =>
      match w.slots.get? id with
      | some s => { w with slots := w.slots.insert id { s with frozen := some v } }
      | none => w
    return v

/-- The value of a slot, computed if it has to be.  A computation that gives nothing is not
remembered, and a value that was frozen while computing stays. -/
def value (s : Slot) (id : Identity) (compute : Act (Option String)) : Act (Option String) := do
  match s.retention with
  | .lazy => compute
  | .cached =>
    match ← frozenAt id with
    | some kept => return some kept
    | none =>
      match ← compute with
      | none => return none
      | some v => return some (← freeze id v)

end Slot

namespace Resolver

/-- Give a variable a fresh slot. -/
def bindSlot (r : Resolver) (name : String) (s : Slot) : Act (Identity × Slot) := do
  let id ← Act.fresh
  Act.update fun w => { w with slots := w.slots.insert id s }
  r.update fun st => { st with slots := st.slots.insert name id }
  return (id, s)

/-- The slot of a variable if it satisfies a condition, otherwise a fresh one. -/
def keepOrBind (r : Resolver) (name : String) (keep : Slot → Bool) (s : Slot) :
    Act (Identity × Slot) := do
  match (← r.state).slots.get? name with
  | none => r.bindSlot name s
  | some id =>
    match (← Act.world).slots.get? id with
    | none => r.bindSlot name s
    | some current => if keep current then return (id, current) else r.bindSlot name s

/-- The slot of a variable; none if no provider is registered under its name and no declaration
is made of it. -/
def slotFor (r : Resolver) (name : String) : Act (Option (Identity × Slot)) := do
  match ← r.registered name with
  | some p => return some (← r.keepOrBind name (fun s => s.isBoundTo p) (.ofProvider p))
  | none =>
    match r.document.declarations.get? name with
    | none => return none
    | some d => return some (← r.keepOrBind name Slot.isDeclared (.ofDeclaration d))

end Resolver

end LateBinding
