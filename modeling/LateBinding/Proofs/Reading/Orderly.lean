import LateBinding.Proofs.Reading.History

/-!
# Orderly slots

The slots of a resolver are in order (`Resolver.Orderly`) if each belongs to one variable only and
is bound to a source that the variable can have, with the retention of this source.  Then the slot
that is used for a variable is bound to its source (`Orderly.slotFor`): providers that were made
are told apart by their identities, and a variable has one declaration.

Slots that fit their sources stay where they are while variables are read (`World.Settles`).
-/

namespace LateBinding

/-- The slot is bound to a source that the variable can have. -/
structure Slot.Proper (made : List Provider) (doc : Mapping.Document) (name : String)
    (s : Slot) : Prop where
  retention : s.retention = s.source.retention
  lazy : s.retention = .lazy → s.frozen = none
  registered : ∀ p, s.source = .registered p → p ∈ made
  declared : ∀ d, s.source = .declared d → doc.declarations.get? name = some d

namespace Resolver

/-- Each slot belongs to one variable and is bound to a source that the variable can have. -/
structure Orderly (made : List Provider) (r : Resolver) (w : World) : Prop where
  fresh : ∀ p ∈ made, p.id < w.next
  distinct : ∀ p ∈ made, ∀ q ∈ made, p.id = q.id → p = q
  registered : ∀ name p, (w.stateOf r).registry.get? name = some p → p ∈ made
  bound : ∀ name id, (w.stateOf r).slots.get? name = some id → id < w.next
  injective : ∀ name name' id, (w.stateOf r).slots.get? name = some id →
    (w.stateOf r).slots.get? name' = some id → name = name'
  proper : ∀ name id s, w.slotOf r name = some (id, s) → s.Proper made r.document name

variable {made : List Provider} {r : Resolver} {w w' : World} {name n : String} {src : SlotSource}
  {id : Identity} {s : Slot}

/-! ### The slot that is used -/

theorem fitting_eq_some_iff : r.fitting w name = some (id, s) ↔
    ∃ src, r.sourceOf w name = some src ∧ w.slotOf r name = some (id, s) ∧ s.fits src = true := by
  simp [fitting, Option.bind_eq_some_iff, Option.filter_eq_some_iff]

theorem slotOf_of_fitting (h : r.fitting w name = some (id, s)) :
    w.slotOf r name = some (id, s) := by
  obtain ⟨-, -, hslot, -⟩ := fitting_eq_some_iff.1 h
  exact hslot

theorem get?_of_fitting (h : r.fitting w name = some (id, s)) : w.slots.get? id = some s :=
  (World.slotOf_eq_some_iff.1 (slotOf_of_fitting h)).2

theorem fitting_congr (hsrc : r.sourceOf w' name = r.sourceOf w name)
    (hslot : w'.slotOf r name = w.slotOf r name) : r.fitting w' name = r.fitting w name := by
  rw [fitting, hsrc, hslot, fitting]

theorem kept_congr (h : r.fitting w' name = r.fitting w name) : r.kept w' name = r.kept w name := by
  rw [kept, h, kept]

theorem kept_of_sourceOf_eq_none (h : r.sourceOf w name = none) : r.kept w name = none := by
  rw [kept, fitting, h]
  rfl

theorem kept_of_fitting (h : r.fitting w name = some (id, s)) : r.kept w name = s.frozen := by
  rw [kept, h]
  rfl

theorem mem_of_sourceOf (hw : r.Orderly made w) {p : Provider}
    (h : r.sourceOf w name = some (.registered p)) : p ∈ made :=
  hw.registered name p (registered_of_sourceOf h)

namespace Orderly

/-- A slot that fits the source of its variable is bound to it. -/
theorem source_eq (hw : r.Orderly made w) (hsrc : r.sourceOf w name = some src)
    (hslot : w.slotOf r name = some (id, s)) (hfits : s.fits src = true) : s.source = src := by
  have hproper := hw.proper _ _ _ hslot
  refine Slot.source_eq_of_fits hfits (fun p q hp hq hid => ?_) fun d e hd he => ?_
  · exact hw.distinct p (hproper.registered p hp) q (mem_of_sourceOf hw (hq ▸ hsrc)) hid
  · have declared := hproper.declared d hd
    rw [declared_of_sourceOf (he ▸ hsrc)] at declared
    exact (Option.some.inj declared).symm

theorem source_of_fitting (hw : r.Orderly made w) (h : r.fitting w name = some (id, s)) :
    r.sourceOf w name = some s.source := by
  obtain ⟨src, hsrc, hslot, hfits⟩ := fitting_eq_some_iff.1 h
  rw [hw.source_eq hsrc hslot hfits, hsrc]

/-- The value of a slot that keeps one. -/
theorem value_of_fitting (hw : r.Orderly made w) (h : r.fitting w name = some (id, s)) {v : String}
    (hv : s.frozen = some v) (compute : Act (Option String)) :
    s.value id compute w = .done (some v) w := by
  have hret : s.retention = .cached := by
    cases hr : s.retention with
    | cached => rfl
    | lazy =>
      rw [(hw.proper _ _ _ (slotOf_of_fitting h)).lazy hr] at hv
      cases hv
  exact Slot.value_eq_of_frozen hret (by rw [get?_of_fitting h]; exact hv) compute

/-- A fresh slot for the source of a variable is proper. -/
theorem proper_of (hw : r.Orderly made w) (hsrc : r.sourceOf w name = some src) :
    (Slot.of src).Proper made r.document name where
  retention := by rw [Slot.retention_of, Slot.source_of]
  lazy _ := Slot.frozen_of src
  registered p hp := by
    rw [Slot.source_of] at hp
    exact mem_of_sourceOf hw (hp ▸ hsrc)
  declared d hd := by
    rw [Slot.source_of] at hd
    exact declared_of_sourceOf (w := w) (hd ▸ hsrc)

end Orderly

end Resolver

/-! ### Slots after changes -/

namespace World

variable {made : List Provider} {r : Resolver} {w w' : World} {name n : String} {src : SlotSource}
  {id : Identity} {s : Slot}

theorem slotOf_bindSlot (hw : r.Orderly made w) (s : Slot) :
    (w.bindSlot r name s).slotOf r n = if name = n then some (w.next, s) else w.slotOf r n := by
  rw [slotOf_bindSlot_of_lt s (hw.bound n)]
  simp

theorem slotOf_keepIn (hw : r.Orderly made w) (hslot : w.slotOf r name = some (id, s))
    (v : String) : (w.keepIn id s v).slotOf r n =
      if name = n then some (id, { s with frozen := some v }) else w.slotOf r n := by
  obtain ⟨hid, hs⟩ := slotOf_eq_some_iff.1 hslot
  rw [slotOf_keepIn_of_get? hs]
  split
  · rename_i hn
    subst hn
    simp [hslot]
  · rename_i hn
    cases hslot' : w.slotOf r n with
    | none => rfl
    | some p =>
      obtain ⟨id', s'⟩ := p
      -- different variables have different slots
      have hne : id' ≠ id := by
        rintro rfl
        exact hn (hw.injective _ _ _ hid (slotOf_eq_some_iff.1 hslot').1)
      simp [hne]

end World

namespace Resolver.Orderly

variable {made : List Provider} {r : Resolver} {w w' : World} {name : String} {src : SlotSource}
  {id : Identity} {s : Slot}

theorem congr (hw : r.Orderly made w) (hnext : w.next ≤ w'.next)
    (hreg : (w'.stateOf r).registry = (w.stateOf r).registry)
    (hids : (w'.stateOf r).slots = (w.stateOf r).slots)
    (hslot : ∀ name, w'.slotOf r name = w.slotOf r name) : r.Orderly made w' where
  fresh p hp := Nat.lt_of_lt_of_le (hw.fresh p hp) hnext
  distinct := hw.distinct
  registered := by
    rw [hreg]
    exact hw.registered
  bound := by
    rw [hids]
    exact fun name id hid => Nat.lt_of_lt_of_le (hw.bound name id hid) hnext
  injective := by
    rw [hids]
    exact hw.injective
  proper name := by
    rw [hslot]
    exact hw.proper name

theorem of_spares (hw : r.Orderly made w) (h : w.Spares r w') : r.Orderly made w' :=
  hw.congr h.next h.registry h.slotIds h.slotOf

theorem bindSlot (hw : r.Orderly made w) (hsrc : r.sourceOf w name = some src) :
    r.Orderly made (w.bindSlot r name (.of src)) where
  fresh p hp := Nat.lt_succ_of_lt (hw.fresh p hp)
  distinct := hw.distinct
  registered := by
    rw [World.bindSlot, World.stateOf_withState_self]
    exact hw.registered
  bound n id hid := by
    rw [World.bindSlot, World.stateOf_withState_self, Table.get?_insert] at hid
    split at hid
    · cases hid
      exact Nat.lt_succ_self _
    · exact Nat.lt_succ_of_lt (hw.bound _ _ hid)
  injective n n' id hid hid' := by
    rw [World.bindSlot, World.stateOf_withState_self, Table.get?_insert] at hid hid'
    split at hid
    · rename_i hn
      cases hid
      split at hid'
      · rename_i hn'
        rw [← hn, hn']
      · -- no slot has the fresh identity yet
        exact absurd (hw.bound _ _ hid') (Nat.lt_irrefl _)
    · split at hid'
      · cases hid'
        exact absurd (hw.bound _ _ hid) (Nat.lt_irrefl _)
      · exact hw.injective _ _ _ hid hid'
  proper n id s hs := by
    rw [World.slotOf_bindSlot hw] at hs
    split at hs
    · rename_i hn
      cases hs
      exact hn ▸ hw.proper_of hsrc
    · exact hw.proper _ _ _ hs

theorem keepIn (hw : r.Orderly made w) (hslot : w.slotOf r name = some (id, s))
    (hret : s.retention = .cached) (v : String) : r.Orderly made (w.keepIn id s v) where
  fresh := hw.fresh
  distinct := hw.distinct
  registered := hw.registered
  bound := hw.bound
  injective := hw.injective
  proper n i t ht := by
    rw [World.slotOf_keepIn hw hslot] at ht
    split at ht
    · rename_i hn
      subst hn
      cases ht
      have hproper := hw.proper _ _ _ hslot
      exact ⟨hproper.retention, fun h => by simp [hret] at h, hproper.registered,
        hproper.declared⟩
    · exact hw.proper _ _ _ ht

/-- Another provider is made. -/
theorem make (hw : r.Orderly made w) {p : Provider} (hp : p.id = w.next) :
    r.Orderly (made ++ [p]) { w with next := w.next + 1 } where
  fresh q hq := by
    rcases List.mem_append.1 hq with hq | hq
    · exact Nat.lt_succ_of_lt (hw.fresh q hq)
    · rw [List.mem_singleton.1 hq, hp]
      exact Nat.lt_succ_self _
  distinct q hq q' hq' hid := by
    rcases List.mem_append.1 hq with hq | hq <;> rcases List.mem_append.1 hq' with hq' | hq'
    · exact hw.distinct q hq q' hq' hid
    · -- the new identity is above those of the others
      have := hw.fresh q hq
      rw [hid, List.mem_singleton.1 hq', hp] at this
      exact absurd this (Nat.lt_irrefl _)
    · have := hw.fresh q' hq'
      rw [← hid, List.mem_singleton.1 hq, hp] at this
      exact absurd this (Nat.lt_irrefl _)
    · rw [List.mem_singleton.1 hq, List.mem_singleton.1 hq']
  registered name q hq := List.mem_append_left _ (hw.registered name q hq)
  bound name id hid := Nat.lt_succ_of_lt (hw.bound name id hid)
  injective := hw.injective
  proper name id s hs :=
    have h := hw.proper name id s hs
    ⟨h.retention, h.lazy, fun q hq => List.mem_append_left _ (h.registered q hq), h.declared⟩

/-- Other providers are registered, of those that were made. -/
theorem withRegistry (hw : r.Orderly made w) {registry : Table String Provider}
    (hreg : ∀ name p, registry.get? name = some p → p ∈ made) :
    r.Orderly made (w.withState r { w.stateOf r with registry := registry }) where
  fresh := hw.fresh
  distinct := hw.distinct
  registered := by
    rw [World.stateOf_withState_self]
    exact hreg
  bound := by
    rw [World.stateOf_withState_self]
    exact hw.bound
  injective := by
    rw [World.stateOf_withState_self]
    exact hw.injective
  proper name id s hs := by
    rw [World.slotOf, World.stateOf_withState_self] at hs
    exact hw.proper name id s hs

/-- The slot that is used for a variable is bound to its source, and keeps what is kept for the
variable. -/
theorem slotFor (hw : r.Orderly made w) (hsrc : r.sourceOf w name = some src) :
    ∃ id s, r.slotFor name w = .done (some (id, s)) (r.slotted w name src) ∧
      r.fitting (r.slotted w name src) name = some (id, s) ∧ s.source = src ∧
      s.frozen = r.kept w name ∧ (s.frozen ≠ none → r.slotted w name src = w) := by
  have hfitting : r.fitting w name = (w.slotOf r name).filter fun p => p.2.fits src := by
    rw [fitting, hsrc]
    rfl
  rw [slotFor_eq, hsrc, slotted, kept, hfitting]
  dsimp only
  cases hslot : (w.slotOf r name).filter fun p => p.2.fits src with
  | some p =>
    obtain ⟨id, s⟩ := p
    obtain ⟨hslotOf, hfits⟩ := Option.filter_eq_some_iff.1 hslot
    exact ⟨id, s, rfl, hfitting.trans hslot, hw.source_eq hsrc hslotOf hfits, rfl, fun _ => rfl⟩
  | none =>
    refine ⟨w.next, .of src, rfl, ?_, Slot.source_of src, Slot.frozen_of src, fun h => ?_⟩
    · refine fitting_eq_some_iff.2 ⟨src, ?_, ?_, ?_⟩
      · rw [Resolver.sourceOf_bindSlot, hsrc]
      · rw [World.slotOf_bindSlot hw, if_pos rfl]
      · cases src <;> simp [Slot.fits, Slot.of, Slot.isBoundTo, Slot.isDeclared, Slot.ofProvider,
          Slot.ofDeclaration]
    · exact absurd (Slot.frozen_of src) h

end Resolver.Orderly

/-! ### Slots that stay -/

/-- Slots that fit their sources stay where they are and bound as they are; nothing is registered
meanwhile, and what is begun is ended. -/
structure World.Settles (r : Resolver) (w w' : World) : Prop where
  registry : (w'.stateOf r).registry = (w.stateOf r).registry
  evaluating : w'.evaluating = w.evaluating
  fitting : ∀ name id s, r.fitting w name = some (id, s) →
    ∃ s', r.fitting w' name = some (id, s') ∧ s'.source = s.source

namespace World.Settles

variable {made : List Provider} {r : Resolver} {w w' w'' : World} {name : String}
  {src : SlotSource} {id : Identity} {s : Slot}

theorem refl (r : Resolver) (w : World) : Settles r w w :=
  ⟨rfl, rfl, fun _ _ s h => ⟨s, h, rfl⟩⟩

theorem trans (h : Settles r w w') (h' : Settles r w' w'') : Settles r w w'' where
  registry := h'.registry.trans h.registry
  evaluating := h'.evaluating.trans h.evaluating
  fitting name id s hs := by
    obtain ⟨s', hs', hsrc⟩ := h.fitting name id s hs
    obtain ⟨s'', hs'', hsrc'⟩ := h'.fitting name id s' hs'
    exact ⟨s'', hs'', hsrc'.trans hsrc⟩

theorem sourceOf (h : Settles r w w') (name : String) : r.sourceOf w' name = r.sourceOf w name := by
  rw [Resolver.sourceOf, h.registry, Resolver.sourceOf]

theorem isEvaluating (h : Settles r w w') (name : String) :
    w'.isEvaluating r name = w.isEvaluating r name := by
  rw [World.isEvaluating, h.evaluating, World.isEvaluating]

theorem of_spares (h : w.Spares r w') : Settles r w w' where
  registry := h.registry
  evaluating := h.evaluating
  fitting name _ s hs :=
    ⟨s, (Resolver.fitting_congr (h.sourceOf name) (h.slotOf name)).trans hs, rfl⟩

/-- A slot is bound only where none fits. -/
theorem slotted (hw : r.Orderly made w) (hsrc : r.sourceOf w name = some src) :
    Settles r w (r.slotted w name src) := by
  unfold Resolver.slotted
  split
  · exact refl r w
  · rename_i hnone
    refine ⟨?_, rfl, fun n id s hs => ?_⟩
    · rw [World.bindSlot, World.stateOf_withState_self]
    · refine ⟨s, ?_, rfl⟩
      rw [Resolver.fitting_congr (r.sourceOf_bindSlot _ _ _ _ _), hs]
      rw [slotOf_bindSlot hw, if_neg]
      rintro rfl
      rw [Resolver.fitting, hsrc, Option.bind_some, hnone] at hs
      cases hs

theorem keepIn (hw : r.Orderly made w) (hslot : w.slotOf r name = some (id, s)) (v : String) :
    Settles r w (w.keepIn id s v) := by
  refine ⟨rfl, rfl, fun n i t ht => ?_⟩
  obtain ⟨src, hsrc, ht, hfits⟩ := Resolver.fitting_eq_some_iff.1 ht
  by_cases hn : name = n
  · subst hn
    rw [hslot] at ht
    cases ht
    exact ⟨{ s with frozen := some v }, Resolver.fitting_eq_some_iff.2
      ⟨src, hsrc, by rw [slotOf_keepIn hw hslot, if_pos rfl], by cases src <;> exact hfits⟩, rfl⟩
  · exact ⟨t, Resolver.fitting_eq_some_iff.2
      ⟨src, hsrc, by rw [slotOf_keepIn hw hslot, if_neg hn, ht], hfits⟩, rfl⟩

/-- What is nested in an evaluation. -/
theorem of_enter (h : Settles r (w.enter r name) w') : Settles r w w'.leave where
  registry := h.registry
  evaluating := by
    rw [leave, h.evaluating]
    rfl
  fitting := h.fitting

end World.Settles

end LateBinding
