import LateBinding.Proofs.Change
import LateBinding.Proofs.Slots

/-!
# Changes that spare a resolver

A change of the world *spares* a resolver if it touches nothing that the resolver knows of names:
its registered providers, its slots and what is kept in them, its renames, and the variables that
are being evaluated (`World.Spares`).  What is entered in the caches of types, and all that
happens to objects, classes and registers, spares every resolver (`World.Change.spares`).
-/

namespace LateBinding

namespace World

/-- What a resolver knows of names is the same in both worlds. -/
structure Spares (r : Resolver) (w w' : World) : Prop where
  next : w.next ≤ w'.next
  state : ∃ t, w'.stateOf r = { w.stateOf r with types := t }
  slots : ∀ name id, (w.stateOf r).slots.get? name = some id → w'.slots.get? id = w.slots.get? id
  evaluating : w'.evaluating = w.evaluating

namespace Spares

variable {r : Resolver} {w w' w'' : World}

theorem refl (r : Resolver) (w : World) : Spares r w w :=
  ⟨Nat.le_refl _, ⟨_, rfl⟩, fun _ _ _ => rfl, rfl⟩

theorem registry (h : Spares r w w') : (w'.stateOf r).registry = (w.stateOf r).registry := by
  obtain ⟨t, ht⟩ := h.state
  rw [ht]

theorem slotIds (h : Spares r w w') : (w'.stateOf r).slots = (w.stateOf r).slots := by
  obtain ⟨t, ht⟩ := h.state
  rw [ht]

theorem renames (h : Spares r w w') : (w'.stateOf r).renames = (w.stateOf r).renames := by
  obtain ⟨t, ht⟩ := h.state
  rw [ht]

theorem renameMemo (h : Spares r w w') : (w'.stateOf r).renameMemo = (w.stateOf r).renameMemo := by
  obtain ⟨t, ht⟩ := h.state
  rw [ht]

theorem trans (h : Spares r w w') (h' : Spares r w' w'') : Spares r w w'' where
  next := Nat.le_trans h.next h'.next
  state := by
    obtain ⟨t, ht⟩ := h.state
    obtain ⟨t', ht'⟩ := h'.state
    exact ⟨t', by rw [ht', ht]⟩
  slots name id hid :=
    (h'.slots name id (by rw [h.slotIds]; exact hid)).trans (h.slots name id hid)
  evaluating := h'.evaluating.trans h.evaluating

/-- The slot of a variable stays the same. -/
theorem slotOf (h : Spares r w w') (name : String) : w'.slotOf r name = w.slotOf r name := by
  rw [World.slotOf, h.slotIds, World.slotOf]
  cases hid : (w.stateOf r).slots.get? name with
  | none => rfl
  | some id => rw [Option.bind_eq_bind, Option.bind_some, h.slots name id hid]; rfl

theorem sourceOf (h : Spares r w w') (name : String) : r.sourceOf w' name = r.sourceOf w name := by
  rw [Resolver.sourceOf, h.registry, Resolver.sourceOf]

end Spares

theorem Note.next_le {C : Contract} {w w' : World} (h : Note C w w') : w.next ≤ w'.next := by
  cases h with
  | fresh => exact Nat.le_succ _
  | reach => exact Nat.le_succ _
  | _ => exact Nat.le_refl _

theorem Change.next_le {C : Contract} {w w' : World} (h : Change C w w') : w.next ≤ w'.next := by
  cases h with
  | note h => exact h.next_le
  | alloc => exact Nat.le_succ _
  | _ => exact Nat.le_refl _

/-- Another cache of types spares a resolver. -/
theorem Spares.withTypes (r : Resolver) (w : World) (r' : Resolver) (t : TypeCache) :
    Spares r w (w.withTypes r' t) where
  next := Nat.le_refl _
  state := by
    rw [World.withTypes, stateOf_withState]
    split
    · rename_i hid
      exact ⟨t, by rw [w.stateOf_congr hid]⟩
    · exact ⟨_, rfl⟩
  slots _ _ _ := rfl
  evaluating := rfl

/-- What is noted spares a resolver. -/
theorem Note.spares {C : Contract} {w w' : World} (h : Note C w w') (r : Resolver) :
    Spares r w w' := by
  cases h with
  | fresh => exact { Spares.refl r w with next := Nat.le_succ _ }
  | reach r' =>
    have fresh : Spares r w { w with next := w.next + 1 } :=
      { Spares.refl r w with next := Nat.le_succ _ }
    exact fresh.trans (.withTypes r _ r' _)
  | learn r' => exact .withTypes r w r' _
  | memo => exact { Spares.refl r w with }
  | constructor => exact { Spares.refl r w with }

/-- What happens elsewhere spares a resolver. -/
theorem Change.spares {C : Contract} {w w' : World} (h : Change C w w') (r : Resolver) :
    Spares r w w' := by
  cases h with
  | note h => exact h.spares r
  | register => exact { Spares.refl r w with }
  | alloc => exact { Spares.refl r w with next := Nat.le_succ _ }
  | field => exact { Spares.refl r w with }
  | static => exact { Spares.refl r w with }
  | seed => exact { Spares.refl r w with }
  | define => exact { Spares.refl r w with }

end World

/-- What holds of a world still holds after changes that spare a resolver, if that is all it
depends on. -/
theorem Stable.of_spares {I : World → Prop} {p : Resolver → Prop} (r : Resolver)
    (hI : ∀ w w', w.Spares r w' → I w → I w') : Stable (.free p) I where
  respects w _ := .free p w
  change w w' h _ hw := hI w w' (h.spares r) hw

/-- The code does not touch what a resolver knows of names. -/
def Code.Spares (r : Resolver) (code : Code) : Prop :=
  ∀ body receiver args w x w', (code body receiver args).run w = .done x w' → w.Spares r w'

end LateBinding
