import LateBinding.Proofs.Retained

/-!
# Descriptions under evaluation

Evaluating the description of a variable may run bodies, and these may ask for the variable again.
They get nothing, since the evaluation is cut there; so the variable has the same slot when its
evaluation ends, and nothing is kept in it (`Resolver.Pending`).  Evaluations nest, and each must
leave the list of those under way as it was; so this is not one invariant but a family of them, with
a member for every list of evaluations that may have begun since.

It takes that no two variables share a slot (`World.SlotsApart`), which is so in every world that a
session reaches.

Reading a variable whose description is to be evaluated therefore gives what evaluating the
description gives, and nothing else (`Resolver.valueOf_gives_iff`).
-/

namespace LateBinding

/-! ### Slots of one variable -/

namespace Resolver

/-- The slot of this identity is entered for no other variable. -/
def Owns (r : Resolver) (name : String) (id : Identity) (w : World) : Prop :=
  ∀ (r' : Resolver) n, (w.stateOf r').slots.get? n = some id → r'.id = r.id ∧ n = name

variable {r : Resolver} {name : String} {id : Identity} {w w' : World}

theorem Owns.congr (hw : r.Owns name id w)
    (slots : ∀ r' : Resolver, (w'.stateOf r').slots = (w.stateOf r').slots) :
    r.Owns name id w' := fun r' n h => hw r' n (slots r' ▸ h)

/-- A slot that is bound has an identity of its own. -/
theorem Owns.bindSlot (hw : r.Owns name id w) (below : id < w.next) (r' : Resolver) (n : String)
    (s : Slot) : r.Owns name id (w.bindSlot r' n s) := by
  intro r'' n' h
  rw [World.slots_bindSlot] at h
  split at h
  · rw [Table.get?_insert] at h
    split at h
    · cases h
      exact absurd below (Nat.lt_irrefl _)
    · exact hw r'' n' h
  · exact hw r'' n' h

end Resolver

namespace World

/-- No two variables share a slot. -/
structure SlotsApart (w : World) : Prop where
  /-- Slots have identities that were handed out. -/
  below : ∀ r : Resolver, r.Bound w
  /-- A slot is that of the variable it is entered for. -/
  owns : ∀ (r : Resolver) name id, (w.stateOf r).slots.get? name = some id → r.Owns name id w

namespace SlotsApart

variable {w w' : World}

theorem empty : World.empty.SlotsApart where
  below r name id h := by simp [World.empty, stateOf, default] at h
  owns r name id h := by simp [World.empty, stateOf, default] at h

theorem congr (hw : w.SlotsApart) (next : w.next ≤ w'.next)
    (slots : ∀ r : Resolver, (w'.stateOf r).slots = (w.stateOf r).slots) : w'.SlotsApart where
  below r name id h := Nat.lt_of_lt_of_le (hw.below r name id (slots r ▸ h)) next
  owns r name id h := (hw.owns r name id (slots r ▸ h)).congr slots

theorem withState (hw : w.SlotsApart) (r : Resolver) {s : ResolverState}
    (hs : s.slots = (w.stateOf r).slots) : (w.withState r s).SlotsApart :=
  hw.congr (Nat.le_refl _) fun r' => w.apply_stateOf_withState ResolverState.slots hs r'

theorem bindSlot (hw : w.SlotsApart) (r : Resolver) (name : String) (s : Slot) :
    (w.bindSlot r name s).SlotsApart where
  below r' n _ h := lt_next_bindSlot (hw.below r' n) h
  owns r' n id h := by
    have old (h : (w.stateOf r').slots.get? n = some id) : r'.Owns n id (w.bindSlot r name s) :=
      (hw.owns r' n id h).bindSlot (hw.below r' n id h) r name s
    rw [slots_bindSlot] at h
    split at h
    · rename_i hid
      rw [Table.get?_insert] at h
      split at h
      · rename_i hn
        cases h
        -- the identity is new, so no other variable has it
        intro r'' n' h
        rw [slots_bindSlot] at h
        split at h
        · rename_i hid'
          rw [Table.get?_insert] at h
          split at h
          · rename_i hn'
            exact ⟨hid'.symm.trans hid, hn'.symm.trans hn⟩
          · exact absurd (hw.below r'' n' _ h) (Nat.lt_irrefl _)
        · exact absurd (hw.below r'' n' _ h) (Nat.lt_irrefl _)
      · exact old h
    · exact old h

theorem stable : Stable (.free fun _ => True) SlotsApart where
  respects w _ := .free _ w
  change _ _ h _ hw := hw.congr h.next_le fun r => (h.spares r).slotIds

theorem tended : Tended (.free fun _ => True) SlotsApart where
  bind _ r name _ _ _ _ hw := hw.bindSlot r name _
  keep _ _ _ _ _ _ hw := hw.congr (Nat.le_refl _) fun _ => rfl
  enter _ _ _ hw := hw.congr (Nat.le_refl _) fun _ => rfl
  leave _ hw := hw.congr (Nat.le_refl _) fun _ => rfl
  index _ r _ hw := hw.withState r rfl
  rename _ _ r _ _ _ _ hw := hw.withState r rfl

/-- Evaluation leaves slots apart. -/
theorem keeps_level (m : Nat) : (Host.level m).Keeps (.free fun _ => True) SlotsApart :=
  Host.keeps_level_of_tended stable tended .free m

end SlotsApart

end World

/-- No two variables share a slot in a world that a session reaches. -/
theorem Session.Reached.slotsApart {proxied : Value → Bool} {n : Nat} {k : Names} {w : World}
    (hw : Reached proxied (Host.level n) k w) : w.SlotsApart :=
  hw.holds_of_tended World.SlotsApart.stable World.SlotsApart.tended
    (fun _ r _ hw => hw.withState r rfl) World.SlotsApart.empty

/-! ### While an evaluation is under way -/

/-- The slot takes its value from the description, and keeps none. -/
def Slot.Unkept (d : Mapping.Descriptor) (s : Slot) : Prop :=
  s.source = .declared (.described d) ∧ s.frozen = none

namespace Resolver

variable {r r' : Resolver} {name n : String} {d : Mapping.Descriptor} {id : Identity}
  {outer inner : List (Identity × String)} {w w' : World}

/-- The description of the variable is being evaluated, and others have begun since: the variable
has its slot, and no value. -/
structure Pending (r : Resolver) (name : String) (d : Mapping.Descriptor) (id : Identity)
    (outer inner : List (Identity × String)) (w : World) : Prop where
  evaluating : w.evaluating = inner ++ (r.id, name) :: outer
  sees : r.Sees name (.declared (.described d)) (Slot.Unkept d) id w
  owns : r.Owns name id w

namespace Pending

theorem isEvaluating (hw : r.Pending name d id outer inner w) (hid : r'.id = r.id) :
    w.isEvaluating r' name = true := by
  rw [World.isEvaluating, hw.evaluating, hid]
  simp

theorem withState (hw : r.Pending name d id outer inner w) {s : ResolverState}
    (hreg : s.registry = (w.stateOf r').registry) (hs : s.slots = (w.stateOf r').slots) :
    r.Pending name d id outer inner (w.withState r' s) where
  evaluating := hw.evaluating
  sees := hw.sees.withState hreg hs
  owns := hw.owns.congr fun r'' => w.apply_stateOf_withState ResolverState.slots hs r''

theorem bindSlot (hw : r.Pending name d id outer inner w) {src : SlotSource}
    (hsrc : r'.sourceOf w n = some src)
    (hnone : (w.slotOf r' n).filter (fun p => p.2.fits src) = none) :
    r.Pending name d id outer inner (w.bindSlot r' n (.of src)) where
  evaluating := hw.evaluating
  sees := hw.sees.bindSlot hsrc hnone
  owns := hw.owns.bindSlot hw.sees.2.below r' n _

/-- A value is kept in another slot. -/
theorem keepIn (hw : r.Pending name d id outer inner w) {i : Identity} (hi : i ≠ id) (s : Slot)
    (v : String) : r.Pending name d id outer inner (w.keepIn i s v) where
  evaluating := hw.evaluating
  sees := by
    obtain ⟨t, ht, hfits, hQ⟩ := hw.sees.2.slot
    refine ⟨hw.sees.1, hw.sees.2.below, hw.sees.2.entered, t, ?_, hfits, hQ⟩
    rw [World.keepIn, Store.get?_insert, if_neg hi, ht]
  owns := hw.owns

theorem enter (hw : r.Pending name d id outer inner w) (r' : Resolver) (n : String) :
    r.Pending name d id outer ((r'.id, n) :: inner) (w.enter r' n) where
  evaluating := congrArg (List.cons (r'.id, n)) hw.evaluating
  sees := ⟨hw.sees.1, hw.sees.2.below, hw.sees.2.entered, hw.sees.2.slot⟩
  owns := hw.owns

theorem leave {p : Identity × String} (hw : r.Pending name d id outer (p :: inner) w) :
    r.Pending name d id outer inner w.leave where
  evaluating := congrArg List.tail hw.evaluating
  sees := ⟨hw.sees.1, hw.sees.2.below, hw.sees.2.entered, hw.sees.2.slot⟩
  owns := hw.owns

theorem stable : Stable (.free fun _ => True) (r.Pending name d id outer inner) where
  respects w _ := .free _ w
  change _ _ h _ hw := {
    evaluating := (h.spares r).evaluating.trans hw.evaluating
    sees := hw.sees.of_spares (h.spares r)
    owns := hw.owns.congr fun r' => (h.spares r').slotIds }

theorem renames : Renaming (r.Pending name d id outer inner) where
  index _ _ _ hw := hw.withState rfl rfl
  rename _ _ _ _ _ _ _ hw := hw.withState rfl rfl

section Step

variable {h : Host} (hrun : ∀ inner, h.Runs (.free fun _ => True) (r.Pending name d id outer inner))
  (hh : ∀ inner, h.Reads (.free fun _ => True) (r.Pending name d id outer inner))

include hrun hh

/-- Asking for any variable keeps the invariant: the variable itself has no value. -/
theorem keeps_valueOf (r' : Resolver) (n : String) :
    Act.Keeps (r.Pending name d id outer inner) (fun _ => True) (r'.valueOf h n) := by
  intro w o w' hw ho
  rw [valueOf_eq] at ho
  obtain ⟨slot, w₁, hslot, ho⟩ := Act.bind_eq_done.1 ho
  have hw₁ := (keeps_slotFor (fun _ _ hsrc hnone hw => Pending.bindSlot hw hsrc hnone) hw hslot).1
  cases slot with
  | none =>
    cases ho
    exact ⟨hw₁, trivial⟩
  | some p =>
    obtain ⟨i, s⟩ := p
    dsimp only at ho
    obtain ⟨entered, hs⟩ := World.slotOf_eq_some_iff.1 (slotOf_of_slotFor hslot)
    by_cases hi : i = id
    · subst hi
      obtain ⟨hid, rfl⟩ := hw₁.owns r' n entered
      obtain ⟨t, ht, -, hsource, hfrozen⟩ := hw₁.sees.2.slot
      cases hs.symm.trans ht
      have cut : r'.ask h n s.source w₁ = .done none w₁ := by
        rw [hsource]
        exact guarded_eq_of_evaluating _ (hw₁.isEvaluating hid)
      have none_kept : (w₁.slots.get? i).bind Slot.frozen = none := by rw [hs]; exact hfrozen
      rw [Slot.value_eq_of_not_frozen none_kept, Act.bind_apply, cut] at ho
      cases ho
      exact ⟨hw₁, trivial⟩
    · -- what is asked begins another evaluation, for which there is another invariant
      have asks : Act.Keeps (r.Pending name d id outer inner) _ (r'.ask h n s.source) :=
        keeps_ask_within (.free _) (hrun inner) (fun _ hw => hw.enter r' n) (fun _ hw => hw.leave)
          (keeps_evaluate stable (.free _) (hrun _) trivial (hh _)) s.source
      exact keeps_value s (fun _ t v _ _ hw => hw.keepIn hi t v) asks hw₁ ho

end Step

/-- Whatever the evaluation of a description leads to, the variable keeps its slot and has no
value. -/
theorem keeps_level (m : Nat) (inner : List (Identity × String)) :
    (Host.level m).Keeps (.free fun _ => True) (r.Pending name d id outer inner) :=
  Host.keeps_level (I := r.Pending name d id outer) (fun _ => stable) .free
    (fun _ hrun hh _ r' n _ => keeps_valueOf hrun hh r' n)
    (fun _ _ hh _ owner logical hr => keeps_resolveMember hr hh renames owner logical) m inner

end Pending

/-! ### Readings -/

/-- The description of the variable is to be evaluated when the variable is read: no provider is
registered, no value of the description is kept, and it is not being evaluated. -/
structure Awaits (r : Resolver) (name : String) (d : Mapping.Descriptor) (w : World) : Prop where
  source : r.sourceOf w name = some (.declared (.described d))
  unkept : ∀ id s, w.slotOf r name = some (id, s) → s.isDeclared = true → s.frozen = none
  idle : w.isEvaluating r name = false

/-- The world in which the evaluation of the description of a variable begins. -/
def begun (r : Resolver) (name : String) (d : Mapping.Descriptor) (w : World) : World :=
  (r.slotted w name (.declared (.described d))).enter r name

section Readings

variable {R : List Resolver} {P : List Provider} (sound : w.Sound R P) (apart : w.SlotsApart)
  (hr : r ∈ R) (awaits : r.Awaits name d w)

include sound apart hr awaits

/-- When the evaluation of a description begins, the variable has its slot, and no value; the
description is evaluated, and what comes of it is given to the slot. -/
theorem valueOf_of_awaits (h : Host) : ∃ (id : Identity) (s : Slot),
    r.Pending name d id w.evaluating [] (r.begun name d w) ∧ r.valueOf h name w =
      (r.guarded name (r.evaluate h d) >>= s.retain id)
        (r.slotted w name (.declared (.described d))) := by
  obtain ⟨id, s, hslot⟩ := r.exists_slotFor awaits.source
  have unkept : ∀ i t, w.slotOf r name = some (i, t) →
      t.fits (.declared (.described d)) = true → t.Unkept d := fun i t ht hfits =>
    ⟨sound.source_eq hr awaits.source ht hfits, awaits.unkept i t ht hfits⟩
  obtain ⟨sees, hsource, -⟩ := sees_of_slotFor (.of_sound sound) awaits.source
    ⟨Slot.source_of _, Slot.frozen_of _⟩ unkept hslot
  have apart' : (r.slotted w name (.declared (.described d))).SlotsApart := by
    unfold slotted
    split
    · exact apart
    · exact apart.bindSlot r name _
  have evaluating : (r.slotted w name (.declared (.described d))).evaluating = w.evaluating := by
    unfold slotted
    split <;> rfl
  refine ⟨id, s, ⟨congrArg (List.cons (r.id, name)) evaluating,
    ⟨sees.1, sees.2.below, sees.2.entered, sees.2.slot⟩, apart'.owns r name id sees.2.entered⟩, ?_⟩
  obtain ⟨t, ht, -, -, hfrozen⟩ := sees.2.slot
  rw [valueOf_eq, Act.bind_apply, hslot]
  dsimp only
  rw [Slot.value_eq_of_not_frozen (by rw [ht]; exact hfrozen), hsource]
  rfl

/-- **Reading a variable whose description is to be evaluated gives what the description gives.** -/
theorem valueOf_gives_iff (m : Nat) (o : Option String) :
    (∃ w', r.valueOf (Host.level m) name w = .done o w') ↔
      ∃ w₁, r.evaluate (Host.level m) d (r.begun name d w) = .done o w₁ := by
  obtain ⟨id, s, pending, hvalue⟩ := valueOf_of_awaits sound apart hr awaits (Host.level m)
  have idle : (r.slotted w name (.declared (.described d))).isEvaluating r name = false := by
    unfold slotted
    split <;> exact awaits.idle
  have level : ∀ inner, (Host.level m).Keeps (.free fun _ => True)
      (r.Pending name d id w.evaluating inner) := Pending.keeps_level m
  -- at the end the slot still keeps nothing
  have kept {v : Option String} {w₁ : World}
      (hv : r.evaluate (Host.level m) d (r.begun name d w) = .done v w₁) :
      ∃ t, w₁.leave.slots.get? id = some t ∧ t.frozen = none := by
    have ended := (keeps_evaluate Pending.stable (.free _) (level []).runs trivial
      (level []).reads d pending hv).1
    obtain ⟨t, ht, -, -, hfrozen⟩ := ended.sees.2.slot
    exact ⟨t, ht, hfrozen⟩
  rw [hvalue]
  constructor
  · rintro ⟨w', ho⟩
    obtain ⟨v, w₂, hv, ho⟩ := Act.bind_eq_done.1 ho
    obtain ⟨w₁, ended, rfl⟩ := (guarded_eq_done _ idle).1 hv
    obtain ⟨t, ht, hfrozen⟩ := kept ended
    obtain ⟨rfl, -⟩ := Slot.retain_eq_done ht hfrozen ho
    exact ⟨w₁, ended⟩
  · rintro ⟨w₁, hv⟩
    obtain ⟨t, ht, hfrozen⟩ := kept hv
    obtain ⟨v, w', ho⟩ := Slot.returns_retain s id o w₁.leave
    obtain ⟨rfl, -⟩ := Slot.retain_eq_done ht hfrozen ho
    exact ⟨w', Act.bind_eq_done.2 ⟨v, w₁.leave, (guarded_eq_done _ idle).2 ⟨w₁, hv, rfl⟩, ho⟩⟩

end Readings

end Resolver

end LateBinding
