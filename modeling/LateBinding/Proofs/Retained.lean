import Mathlib.Logic.Relation
import LateBinding.Proofs.Activity
import LateBinding.Proofs.Made

/-!
# Values that stay

A variable has *its* slot (`Resolver.HasSlot`) if a slot that fits its source is entered for it.
As long as the source counts, nothing replaces this slot: whatever is evaluated, at any depth and
with any resolver, finds it fitting (`Resolver.tended_sees`).  Reading the variable leaves it with
such a slot, and if the source is to be kept, what was read is kept there
(`Resolver.HasSlot.of_valueOf`).  A value that is kept is what every reading gives
(`Resolver.HasSlot.recall`).

A slot that does not fit the source is replaced when the variable is read, and then what it kept is
lost.  So a slot stays through all activities that begin while its source counts or that leave the
slot of the variable as it is (`Resolver.Undisturbed`); registering providers and taking them away
are among these.

* `Resolver.valueOf_stays` : what was read of a source stays while nothing disturbs the variable;
* `Resolver.valueOf_forgets` : reading the variable with a registered provider makes it forget what
  its declaration gave.
-/

namespace LateBinding

/-- A condition on slots that stays when a first value is kept. -/
def Slot.Lasting (Q : Slot → Prop) : Prop :=
  ∀ s v, s.frozen = none → Q s → Q { s with frozen := some v }

namespace Resolver

variable {r r' : Resolver} {name n : String} {src src' : SlotSource} {Q : Slot → Prop}
  {id : Identity} {w w' : World} {v : String}

/-- Resolvers that share an identity see a variable through the same slots, whatever their
documents declare. -/
theorem fits_eq_of_sourceOf (hid : r.id = r'.id) (h : r.sourceOf w name = some src)
    (h' : r'.sourceOf w name = some src') (s : Slot) : s.fits src = s.fits src' := by
  rw [sourceOf, w.stateOf_congr hid] at h
  rw [sourceOf] at h'
  cases hp : (w.stateOf r').registry.get? name with
  | some p =>
    rw [hp] at h h'
    cases h
    cases h'
    rfl
  | none =>
    rw [hp] at h h'
    obtain ⟨d, -, rfl⟩ := Option.map_eq_some_iff.1 h
    obtain ⟨d', -, rfl⟩ := Option.map_eq_some_iff.1 h'
    rfl

/-! ### Slots that stay -/

/-- The slot of this identity is entered for the variable; it fits the source, and satisfies a
condition. -/
structure HasSlot (r : Resolver) (name : String) (src : SlotSource) (Q : Slot → Prop)
    (id : Identity) (w : World) : Prop where
  /-- The identity was handed out. -/
  below : id < w.next
  /-- It is entered for the variable. -/
  entered : (w.stateOf r).slots.get? name = some id
  /-- The slot is as it should be. -/
  slot : ∃ s, w.slots.get? id = some s ∧ s.fits src = true ∧ Q s

namespace HasSlot

theorem slotOf (hw : r.HasSlot name src Q id w) :
    ∃ s, w.slotOf r name = some (id, s) ∧ s.fits src = true ∧ Q s := by
  obtain ⟨s, hs, hfits, hQ⟩ := hw.slot
  exact ⟨s, World.slotOf_eq_some_iff.2 ⟨hw.entered, hs⟩, hfits, hQ⟩

theorem of_slotOf (hw : r.HasSlot name src Q id w) (next : w.next ≤ w'.next)
    (same : w'.slotOf r name = w.slotOf r name) : r.HasSlot name src Q id w' := by
  obtain ⟨s, hslot, hfits, hQ⟩ := hw.slotOf
  obtain ⟨entered, hs⟩ := World.slotOf_eq_some_iff.1 (same.trans hslot)
  exact ⟨Nat.lt_of_lt_of_le hw.below next, entered, s, hs, hfits, hQ⟩

theorem of_spares (hw : r.HasSlot name src Q id w) (h : w.Spares r w') :
    r.HasSlot name src Q id w' :=
  hw.of_slotOf h.next (h.slotOf name)

/-- What belongs to a resolver changes, apart from slots. -/
theorem withState (hw : r.HasSlot name src Q id w) {s : ResolverState}
    (hs : s.slots = (w.stateOf r').slots) : r.HasSlot name src Q id (w.withState r' s) :=
  hw.of_slotOf (Nat.le_refl _) (w.slotOf_withState hs r name)

/-- Another variable gets a slot. -/
theorem bindSlot (hw : r.HasSlot name src Q id w) (s : Slot) (hne : ¬ (r'.id = r.id ∧ n = name)) :
    r.HasSlot name src Q id (w.bindSlot r' n s) := by
  have below : ∀ i, (w.stateOf r).slots.get? name = some i → i < w.next := by
    intro i hi
    rw [hw.entered] at hi
    cases hi
    exact hw.below
  refine hw.of_slotOf (Nat.le_succ _) ?_
  rw [World.slotOf_bindSlot_of_lt s below, if_neg hne]

/-- A value is kept in a slot. -/
theorem keepIn (hw : r.HasSlot name src Q id w) {i : Identity} {s : Slot}
    (hs : w.slots.get? i = some s) (v : String) (hQ : Q s → Q { s with frozen := some v }) :
    r.HasSlot name src Q id (w.keepIn i s v) := by
  obtain ⟨t, ht, hfits, hQt⟩ := hw.slot
  refine ⟨hw.below, hw.entered, ?_⟩
  by_cases hi : i = id
  · subst hi
    rw [hs] at ht
    cases ht
    refine ⟨{ s with frozen := some v }, Store.get?_insert_self _ _ _, ?_, hQ hQt⟩
    cases src <;> exact hfits
  · refine ⟨t, ?_, hfits, hQt⟩
    rw [World.keepIn, Store.get?_insert, if_neg hi, ht]

end HasSlot

/-- The variable has its slot, and the source counts. -/
def Sees (r : Resolver) (name : String) (src : SlotSource) (Q : Slot → Prop) (id : Identity)
    (w : World) : Prop :=
  r.sourceOf w name = some src ∧ r.HasSlot name src Q id w

theorem Sees.of_spares (hw : r.Sees name src Q id w) (h : w.Spares r w') :
    r.Sees name src Q id w' :=
  ⟨(h.sourceOf name).trans hw.1, hw.2.of_spares h⟩

theorem Sees.withState (hw : r.Sees name src Q id w) {s : ResolverState}
    (hreg : s.registry = (w.stateOf r').registry) (hs : s.slots = (w.stateOf r').slots) :
    r.Sees name src Q id (w.withState r' s) :=
  ⟨(r.sourceOf_withState w hreg name).trans hw.1, hw.2.withState hs⟩

/-- Wherever a slot is bound, a variable with a slot that fits its source keeps it. -/
theorem Sees.bindSlot (hw : r.Sees name src Q id w) (hsrc' : r'.sourceOf w n = some src')
    (hnone : (w.slotOf r' n).filter (fun p => p.2.fits src') = none) :
    r.Sees name src Q id (w.bindSlot r' n (.of src')) := by
  refine ⟨(r.sourceOf_bindSlot w r' n _ name).trans hw.1, hw.2.bindSlot _ ?_⟩
  rintro ⟨hid, rfl⟩
  -- the slot that is there fits, so none is bound
  obtain ⟨s, hslot, hfits, -⟩ := hw.2.slotOf
  have slot : w.slotOf r' n = some (id, s) := by
    rw [World.slotOf, w.stateOf_congr hid]
    exact hslot
  rw [slot, Option.filter_some, ← fits_eq_of_sourceOf hid.symm hw.1 hsrc', if_pos hfits] at hnone
  cases hnone

/-- Bookkeeping leaves a variable with its slot, since a slot is only bound where none fits. -/
theorem tended_sees {C : Contract} (hQ : Slot.Lasting Q) : Tended C (r.Sees name src Q id) where
  bind _ _ _ _ _ hsrc' hnone hw := hw.bindSlot hsrc' hnone
  keep _ _ s v hs hf hw := ⟨hw.1, hw.2.keepIn hs v (hQ s v hf)⟩
  enter _ _ _ hw := ⟨hw.1, hw.2.below, hw.2.entered, hw.2.slot⟩
  leave _ hw := ⟨hw.1, hw.2.below, hw.2.entered, hw.2.slot⟩
  index _ _ _ hw := hw.withState rfl rfl
  rename _ _ _ _ _ _ _ hw := hw.withState rfl rfl

theorem bookInvariant_sees (hQ : Slot.Lasting Q) : r.BookInvariant (r.Sees name src Q id) :=
  ⟨fun _ _ h hw => hw.of_spares h, tended_sees hQ⟩

/-! ### Readings -/

/-- The slots of the resolver have identities that were handed out. -/
def Bound (r : Resolver) (w : World) : Prop :=
  ∀ name id, (w.stateOf r).slots.get? name = some id → id < w.next

theorem Bound.congr (hw : r.Bound w) (next : w.next ≤ w'.next)
    (slots : (w'.stateOf r).slots = (w.stateOf r).slots) : r.Bound w' := by
  intro n id hid
  rw [slots] at hid
  exact Nat.lt_of_lt_of_le (hw n id hid) next

theorem Bound.of_sound {R : List Resolver} {P : List Provider} (sound : w.Sound R P) : r.Bound w :=
  fun name id hid => (sound.bound r name id hid).2

theorem Bound.withState (hw : r.Bound w) {s : ResolverState}
    (hs : s.slots = (w.stateOf r').slots) : r.Bound (w.withState r' s) :=
  hw.congr (Nat.le_refl _) (w.apply_stateOf_withState ResolverState.slots hs r)

theorem tended_bound {C : Contract} (r : Resolver) : Tended C r.Bound where
  bind _ _ _ _ _ _ _ hw n _ h := World.lt_next_bindSlot (hw n) h
  keep _ _ _ _ _ _ hw := hw.congr (Nat.le_refl _) rfl
  enter _ _ _ hw := hw.congr (Nat.le_refl _) rfl
  leave _ hw := hw.congr (Nat.le_refl _) rfl
  index _ _ _ hw := hw.withState rfl
  rename _ _ _ _ _ _ _ hw := hw.withState rfl

theorem bookInvariant_bound (r : Resolver) : r.BookInvariant r.Bound :=
  ⟨fun _ _ h hw => hw.congr h.next h.slotIds, tended_bound r⟩

/-- The slot that is used for a variable is its slot. -/
theorem sees_of_slotFor (bound : r.Bound w) (hsrc : r.sourceOf w name = some src)
    (hof : Q (.of src)) (hfit : ∀ id s, w.slotOf r name = some (id, s) → s.fits src = true → Q s)
    {s : Slot} (h : r.slotFor name w = .done (some (id, s)) w') :
    r.Sees name src Q id w' ∧ Q s := by
  rw [slotFor_eq, hsrc] at h
  dsimp only at h
  cases hslot : (w.slotOf r name).filter fun p => p.2.fits src with
  | some p =>
    rw [hslot] at h
    cases h
    obtain ⟨hslot, hfits⟩ := Option.filter_eq_some_iff.1 hslot
    obtain ⟨hid, hs⟩ := World.slotOf_eq_some_iff.1 hslot
    have hQ := hfit id s hslot hfits
    exact ⟨⟨hsrc, bound name id hid, hid, s, hs, hfits, hQ⟩, hQ⟩
  | none =>
    rw [hslot] at h
    cases h
    have slot : (w.bindSlot r name (.of src)).slotOf r name = some (w.next, .of src) := by
      rw [World.slotOf_bindSlot_of_lt _ (bound name), if_pos ⟨rfl, rfl⟩]
    obtain ⟨entered, hs⟩ := World.slotOf_eq_some_iff.1 slot
    have source := (r.sourceOf_bindSlot w r name (.of src) name).trans hsrc
    exact ⟨⟨source, Nat.lt_succ_self _, entered, .of src, hs, Slot.fits_of src, hof⟩, hof⟩

/-- A reading leaves the variable with its slot; if values are to be kept there, the value that was
read is. -/
theorem sees_of_valueOf (bound : r.Bound w) (hsrc : r.sourceOf w name = some src)
    (hQ : Slot.Lasting Q) (hof : Q (.of src))
    (hfit : ∀ id s, w.slotOf r name = some (id, s) → s.fits src = true → Q s) {m : Nat}
    {o : Option String} (h : r.valueOf (Host.level m) name w = .done o w') :
    ∃ id, r.Sees name src Q id w' ∧ ((∀ s, Q s → s.retention = .cached) →
      ∀ v, o = some v → (w'.slots.get? id).bind Slot.frozen = some v) := by
  obtain ⟨id, s, hslot⟩ := r.exists_slotFor hsrc
  rw [valueOf_eq, Act.bind_apply, hslot] at h
  obtain ⟨hw₁, hs⟩ := sees_of_slotFor bound hsrc hof hfit hslot
  have books : r.BookInvariant (r.Sees name src Q id) := bookInvariant_sees hQ
  have level := books.level m
  have asks : Act.Keeps _ _ (r.ask (Host.level m) name s.source) :=
    keeps_ask books.tended books.stable (.free _) trivial level.runs level.reads name s.source
  have hw' := (keeps_value s (books.tended.keep · id) asks hw₁ h).1
  refine ⟨id, hw', fun cached v ho => ?_⟩
  subst ho
  obtain ⟨t, ht, -⟩ := hw'.2.slot
  exact Slot.frozen_of_value (cached s hs) ht h

/-- A variable of which no slot fits the source has its source asked, and gets a fresh slot. -/
theorem valueOf_of_not_fits (hsrc : r.sourceOf w name = some src)
    (hnone : (w.slotOf r name).filter (fun p => p.2.fits src) = none) (h : Host) :
    r.valueOf h name w =
      (r.ask h name src >>= (Slot.of src).retain w.next) (w.bindSlot r name (.of src)) := by
  have fresh : ((w.bindSlot r name (.of src)).slots.get? w.next).bind Slot.frozen = none := by
    rw [show (w.bindSlot r name (.of src)).slots.get? w.next = some (.of src) from
      Store.get?_insert_self _ _ _, Option.bind_some, Slot.frozen_of]
  rw [valueOf_eq, Act.bind_apply, slotFor_eq, hsrc]
  dsimp only
  rw [hnone]
  dsimp only
  rw [Slot.value_eq_of_not_frozen fresh, Slot.source_of]

section Sound

variable {R : List Resolver} {P : List Provider} (sound : w.Sound R P) (hr : r ∈ R)
  (hsrc : r.sourceOf w name = some src)

include sound hr hsrc

/-- A slot that fits a source has its retention. -/
theorem retention_of_fits {s : Slot} (hslot : w.slotOf r name = some (id, s))
    (hfits : s.fits src = true) : s.retention = src.retention := by
  rw [(sound.slot r hr name id s hslot).retention, sound.source_eq hr hsrc hslot hfits]

/-- A variable whose source is not to be kept has it asked at every reading. -/
theorem valueOf_of_lazy (hl : src.retention = .lazy) (h : Host) :
    r.valueOf h name w = r.ask h name src (r.slotted w name src) := by
  rw [valueOf_eq, Act.bind_apply, slotFor_eq, hsrc, slotted]
  dsimp only
  cases hslot : (w.slotOf r name).filter fun p => p.2.fits src with
  | some p =>
    obtain ⟨id, s⟩ := p
    obtain ⟨hslot, hfits⟩ := Option.filter_eq_some_iff.1 hslot
    have retention := retention_of_fits sound hr hsrc hslot hfits
    dsimp only
    rw [Slot.value, retention, hl, sound.source_eq hr hsrc hslot hfits]
  | none =>
    dsimp only
    rw [Slot.value, Slot.retention_of, hl, Slot.source_of]

end Sound

/-- The value of a slot is kept there. -/
def Keeps (v : String) (s : Slot) : Prop := s.retention = .cached ∧ s.frozen = some v

/-- What was read of a source that is to be kept is kept in the slot of the variable. -/
theorem HasSlot.of_valueOf {R : List Resolver} {P : List Provider} (sound : w.Sound R P)
    (hr : r ∈ R) (hsrc : r.sourceOf w name = some src) (hc : src.retention = .cached) {m : Nat}
    (h : r.valueOf (Host.level m) name w = .done (some v) w') :
    ∃ id, r.Sees name src (Keeps v) id w' := by
  have fits : ∀ id s, w.slotOf r name = some (id, s) → s.fits src = true →
      s.retention = .cached := by
    intro id s hslot hfits
    rw [retention_of_fits sound hr hsrc hslot hfits, hc]
  obtain ⟨id, ⟨source, hw'⟩, kept⟩ :=
    sees_of_valueOf (Q := fun s => s.retention = .cached) (.of_sound sound) hsrc (fun _ _ _ h => h)
      ((Slot.retention_of src).trans hc) fits h
  obtain ⟨s, hs, hfits, hret⟩ := hw'.slot
  have frozen := kept (fun _ h => h) v rfl
  rw [hs, Option.bind_some] at frozen
  exact ⟨id, source, hw'.below, hw'.entered, s, hs, hfits, hret, frozen⟩

/-- A value that is kept is what every reading gives, without anything being asked. -/
theorem HasSlot.recall (hw : r.HasSlot name src (Keeps v) id w)
    (hsrc : r.sourceOf w name = some src) (h : Host) : r.valueOf h name w = .done (some v) w := by
  obtain ⟨s, hslot, hfits, hret, hfrozen⟩ := hw.slotOf
  have slot : r.slotFor name w = .done (some (id, s)) w := by
    rw [slotFor_eq, hsrc, hslot]
    simp [Option.filter_some, hfits]
  have kept : (w.slots.get? id).bind Slot.frozen = some v := by
    rw [(World.slotOf_eq_some_iff.1 hslot).2, Option.bind_some, hfrozen]
  rw [valueOf_eq, Act.bind_apply, slot]
  exact Slot.value_eq_of_frozen hret kept _

/-! ### Activities -/

/-- An activity that begins while the source counts, or that leaves the slot of the variable as it
is. -/
structure Undisturbed (r : Resolver) (name : String) (src : SlotSource) (w w' : World) : Prop where
  activity : r.Activity w w'
  calm : r.sourceOf w name = some src ∨ w'.slotOf r name = w.slotOf r name

/-- The slot of a variable stays through an activity that does not disturb it. -/
theorem HasSlot.undisturbed (hQ : Slot.Lasting Q)
    (hw : r.HasSlot name src Q id w) (h : r.Undisturbed name src w w') :
    r.HasSlot name src Q id w' := by
  rcases h.calm with source | same
  · obtain ⟨r', t, rfl⟩ | keeps := h.activity.keeps_or_registers
    · exact hw.withState rfl
    · exact (keeps _ (bookInvariant_sees hQ) ⟨source, hw⟩).2
  · exact hw.of_slotOf h.activity.next_le same

theorem HasSlot.all_undisturbed (hQ : Slot.Lasting Q)
    (hw : r.HasSlot name src Q id w) (h : Relation.ReflTransGen (r.Undisturbed name src) w w') :
    r.HasSlot name src Q id w' := by
  induction h with
  | refl => exact hw
  | tail _ h ih => exact ih.undisturbed hQ h

/-- A value that is kept is not overwritten. -/
theorem lasting_keeps (v : String) : Slot.Lasting (Keeps v) := by
  intro s x hnone hs
  have : none = some v := hnone.symm.trans hs.2
  cases this

/-- Registering providers and taking them away does not disturb a variable: its slot is replaced
only when it is read. -/
theorem Undisturbed.of_registers {proxied : Value → Bool} {m : Nat} {k : Session.Names}
    {q : Session.Request} {x : Except BindingError Session.Names} (hq : q.registers = true)
    (h : (Session.perform proxied (Host.level m) k q).run w = .done x w') :
    r.Undisturbed name src w w' := by
  refine ⟨.request h, .inr ?_⟩
  rcases Session.Request.world_of_registers hq h with rfl | ⟨r', t, rfl⟩
  · rfl
  · exact w.slotOf_withRegistry r' t r name

theorem Undisturbed.of_run_registers {proxied : Value → Bool} {m : Nat}
    (qs : List Session.Request) (hqs : ∀ q ∈ qs, q.registers = true) {k k' : Session.Names}
    (h : Session.run proxied (Host.level m) qs k w = .done k' w') :
    Relation.ReflTransGen (r.Undisturbed name src) w w' :=
  Session.steps_of_run (I := fun _ => True) qs
    (fun q hq _ _ _ _ _ h => ⟨.of_registers (hqs q hq) h, trivial⟩) trivial h

/-- Slots keep to identities that were handed out. -/
theorem Bound.activity (hw : r.Bound w) (h : r.Activity w w') : r.Bound w' := by
  obtain ⟨r', t, rfl⟩ | keeps := h.keeps_or_registers
  · exact hw.withState rfl
  · exact keeps _ (bookInvariant_bound r) hw

theorem Bound.activities (hw : r.Bound w) (h : Relation.ReflTransGen r.Activity w w') :
    r.Bound w' := by
  induction h with
  | refl => exact hw
  | tail _ h ih => exact ih.activity h

/-! ### Later readings -/

/-- A value that was read of a source that is to be kept is what all later readings of this source
give, unless the variable was disturbed in between. -/
theorem valueOf_stays {R : List Resolver} {P : List Provider} (sound : w.Sound R P) (hr : r ∈ R)
    (hsrc : r.sourceOf w name = some src) (hc : src.retention = .cached) {m : Nat} {w₁ w₂ : World}
    (first : r.valueOf (Host.level m) name w = .done (some v) w₁)
    (between : Relation.ReflTransGen (r.Undisturbed name src) w₁ w₂)
    (hsrc₂ : r.sourceOf w₂ name = some src) (h : Host) :
    r.valueOf h name w₂ = .done (some v) w₂ := by
  obtain ⟨id, -, hw₁⟩ := HasSlot.of_valueOf sound hr hsrc hc first
  exact (hw₁.all_undisturbed (lasting_keeps v) between).recall hsrc₂ h

/-- Reading a variable while a provider is registered under its name makes it forget what its
declaration gave: when the provider is gone, the declaration is asked anew. -/
theorem valueOf_forgets (bound : r.Bound w) {p : Provider}
    (hp : (w.stateOf r).registry.get? name = some p) {m : Nat} {o : Option String} {w₁ w₂ : World}
    (overridden : r.valueOf (Host.level m) name w = .done o w₁)
    (between : Relation.ReflTransGen (r.Undisturbed name (.registered p)) w₁ w₂)
    {d : Mapping.Declaration} (hsrc : r.sourceOf w₂ name = some (.declared d)) (h : Host) :
    r.valueOf h name w₂ = (r.ask h name (.declared d) >>= (Slot.of (.declared d)).retain w₂.next)
      (w₂.bindSlot r name (.of (.declared d))) := by
  obtain ⟨id, ⟨-, hw₁⟩, -⟩ := sees_of_valueOf (Q := fun _ => True) bound
    (sourceOf_of_registered hp) (fun _ _ _ _ => trivial) trivial (fun _ _ _ _ => trivial) overridden
  obtain ⟨s, hslot, hfits, -⟩ := (hw₁.all_undisturbed (fun _ _ _ _ => trivial) between).slotOf
  -- the slot that is there is bound to the provider
  refine valueOf_of_not_fits hsrc ?_ h
  rw [hslot, Option.filter_some, Slot.fits_declared_of_fits_registered hfits d, if_neg nofun]

end Resolver

end LateBinding
