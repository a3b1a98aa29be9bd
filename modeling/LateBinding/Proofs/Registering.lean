import LateBinding.Proofs.Keeping

/-!
# What a registration starts

A registration does not touch the slot of the name.  The slot is replaced when the name is read
next, unless it is bound to the very provider that is registered.  So it matters whether it is
(`Resolver.Unbound`): it is not if the provider has just been made
(`Resolver.unbound_of_newProvider`), and not if the name was read with another source since the
provider was last registered under it (`Resolver.unbound_of_valueOf`, `Resolver.Unbound.without`).

As long as a provider stays registered to which the slot was not bound, a slot that is bound to it
is one that was made since (`Resolver.BoundSince`), through everything that happens
(`Resolver.SlotIs.under`).

* **`Resolver.registration_binds_anew`** : a registration starts a fresh binding if the slot of the
  name is not bound to the provider, and continues the old one if it is;
* **`Resolver.registration_resumes`** : a run in which a value is read that was kept before the
  registration.
-/

namespace LateBinding.Resolver

open Relation Session

variable {proxied : Value → Bool} {n m : Nat} {k : Names} {label name : String} {r : Resolver}
  {w w' : World} {p : Provider} {since : Identity}

/-! ### What is known of the slot of a variable -/

/-- The slot of the variable, if it has one, satisfies a condition, together with its identity; and
this moment comes after another one. -/
structure SlotIs (r : Resolver) (name : String) (since : Identity)
    (Q : Identity → Slot → Prop) (w : World) : Prop where
  /-- Slots have identities that were handed out. -/
  bound : r.Bound w
  /-- No identity that was to be handed out is still to be handed out. -/
  since : since ≤ w.next
  /-- The slot is as it should be. -/
  slot : ∀ id s, w.slotOf r name = some (id, s) → Q id s

/-- A condition on slots that keeping a value does not change, and that is satisfied by slots that
are made later for what is registered under the name, or for a declaration if nothing is. -/
structure Suits (since : Identity) (o : Option Provider) (Q : Identity → Slot → Prop) : Prop where
  keep : ∀ id s v, Q id s → Q id { s with frozen := some v }
  made : ∀ id src, since ≤ id → (∀ p, src = .registered p → o = some p) →
    (∀ d, src = .declared d → o = none) → Q id (.of src)

namespace SlotIs

variable {Q : Identity → Slot → Prop} {o : Option Provider} {r' : Resolver}

theorem congr (hw : r.SlotIs name since Q w) (next : w.next ≤ w'.next)
    (slots : (w'.stateOf r).slots = (w.stateOf r).slots)
    (slotOf : w'.slotOf r name = w.slotOf r name) : r.SlotIs name since Q w' where
  bound := hw.bound.congr next slots
  since := Nat.le_trans hw.since next
  slot id s hs := hw.slot id s (slotOf ▸ hs)

theorem withState (hw : r.SlotIs name since Q w) {s : ResolverState}
    (hs : s.slots = (w.stateOf r').slots) : r.SlotIs name since Q (w.withState r' s) :=
  hw.congr (Nat.le_refl _) (w.apply_stateOf_withState ResolverState.slots hs r)
    (w.slotOf_withState hs r name)

/-- Bookkeeping leaves the slot as it should be while nothing else is registered. -/
theorem bookInvariant (hQ : Suits since o Q) : r.BookInvariant fun w =>
    (w.stateOf r).registry.get? name = o ∧ r.SlotIs name since Q w where
  spares w w' h hw := by
    refine ⟨?_, hw.2.congr h.next h.slotIds (h.slotOf name)⟩
    rw [h.registry, hw.1]
  tended := {
    bind := fun w r' n src _ hsrc _ hw => by
      refine ⟨(w.registry_bindSlot r' n (.of src) r).symm ▸ hw.1,
        fun m id hm => World.lt_next_bindSlot (hw.2.bound m) hm,
        Nat.le_succ_of_le hw.2.since, fun id s hs => ?_⟩
      rw [World.slotOf_bindSlot_of_lt _ (hw.2.bound name)] at hs
      split at hs
      · rename_i hsame
        obtain ⟨hid, rfl⟩ := hsame
        cases hs
        refine hQ.made _ src hw.2.since (fun p hp => ?_) fun d hd => ?_
        · rw [← hw.1, ← w.stateOf_congr hid]
          exact registered_of_sourceOf (hp ▸ hsrc)
        · rw [← hw.1, ← w.stateOf_congr hid]
          exact free_of_sourceOf (hd ▸ hsrc)
      · exact hw.2.slot id s hs
    keep := fun w id s v hs hf hw => by
      refine ⟨hw.1, hw.2.bound.congr (Nat.le_refl _) rfl, hw.2.since, fun id' t ht => ?_⟩
      rw [World.slotOf_keepIn_of_get? hs, Option.map_eq_some_iff] at ht
      obtain ⟨⟨i, t'⟩, hi, ht⟩ := ht
      have hQi := hw.2.slot i t' hi
      dsimp only at ht
      split at ht
      · rename_i heq
        cases ht
        -- it is this very slot, now with a value
        have same : t' = s := by
          have := (World.slotOf_eq_some_iff.1 hi).2
          rw [heq, hs] at this
          exact (Option.some.inj this).symm
        exact hQ.keep _ _ v (same ▸ heq ▸ hQi)
      · cases ht
        exact hQi
    enter := fun _ _ _ hw => ⟨hw.1, hw.2.congr (Nat.le_refl _) rfl rfl⟩
    leave := fun _ hw => ⟨hw.1, hw.2.congr (Nat.le_refl _) rfl rfl⟩
    index := fun _ _ _ hw => ⟨registry_withState hw.1 rfl, hw.2.withState rfl⟩
    rename := fun _ _ _ _ _ _ _ hw => ⟨registry_withState hw.1 rfl, hw.2.withState rfl⟩ }

/-- The slot stays as it should be through what begins while nothing else is registered. -/
theorem activity (hQ : Suits since o Q) (ho : (w.stateOf r).registry.get? name = o)
    (hw : r.SlotIs name since Q w) (h : r.Activity w w') : r.SlotIs name since Q w' := by
  obtain ⟨r', t, rfl⟩ | keeps := h.keeps_or_registers
  · exact hw.withState rfl
  · exact (keeps _ (bookInvariant hQ) ⟨ho, hw⟩).2

end SlotIs

/-! ### Slots that are not bound to a provider -/

/-- A provider with this identity is registered under the name. -/
def Registers (r : Resolver) (name : String) (p : Provider) (w : World) : Prop :=
  ∃ q, (w.stateOf r).registry.get? name = some q ∧ q.id = p.id

/-- The slot of the variable, if it has one, is not bound to the provider. -/
def Unbound (r : Resolver) (name : String) (p : Provider) (w : World) : Prop :=
  ∀ id s, w.slotOf r name = some (id, s) → s.fits (.registered p) = false

/-- A slot that fits one source does not fit another provider. -/
theorem not_fits_of_fits {s : Slot} {src : SlotSource} (hfits : s.fits src = true)
    (hother : ∀ q, src = .registered q → q.id ≠ p.id) : s.fits (.registered p) = false := by
  cases hs : s.source with
  | declared d => simp [Slot.fits, Slot.isBoundTo, hs]
  | registered q =>
    cases src with
    | declared d => simp [Slot.fits, Slot.isDeclared, hs] at hfits
    | registered q' =>
      have same : q.id = q'.id := by simpa [Slot.fits, Slot.isBoundTo, hs] using hfits
      have hne : q.id ≠ p.id := same ▸ hother q' rfl
      simpa [Slot.fits, Slot.isBoundTo, hs] using hne

/-- A provider that has just been made has no slots. -/
theorem unbound_of_newProvider {R : List Resolver} {P : List Provider} (sound : w.Sound R P)
    (hr : r ∈ R) {made : Option String} {retention : Retention} {source : ProviderSource}
    (hp : Act.newProvider made retention source w = .done p w') : r.Unbound name p w' := by
  cases hp
  intro id s hs
  have slot := sound.slot r hr name id s hs
  cases hsrc : s.source with
  | declared d => simp [Slot.fits, Slot.isBoundTo, hsrc]
  | registered q =>
    -- the identities of the providers that were made before are below
    have below : q.id < w.next := sound.providers.below q (slot.registered q hsrc)
    have hne : q.id ≠ w.next := Nat.ne_of_lt below
    simpa [Slot.fits, Slot.isBoundTo, hsrc] using hne

/-- Reading a variable with another source takes its slot away from a provider. -/
theorem unbound_of_valueOf (bound : r.Bound w) {src : SlotSource}
    (hsrc : r.sourceOf w name = some src) (hother : ∀ q, src = .registered q → q.id ≠ p.id)
    {o : Option String} (h : r.valueOf (Host.level m) name w = .done o w') :
    r.Unbound name p w' := by
  obtain ⟨id, ⟨-, hw'⟩, -⟩ := sees_of_valueOf (Q := fun _ => True) bound hsrc
    (fun _ _ _ _ => trivial) trivial (fun _ _ _ _ => trivial) h
  obtain ⟨s, hslot, hfits, -⟩ := hw'.slotOf
  intro id' s' hs'
  rw [hslot] at hs'
  cases hs'
  exact not_fits_of_fits hfits hother

/-- An activity that begins while a provider is not registered under a name. -/
def Without (r : Resolver) (name : String) (p : Provider) (w w' : World) : Prop :=
  ¬ r.Registers name p w ∧ r.Activity w w'

/-- The slot of a variable is not bound to a provider while that is not registered under its
name. -/
theorem Unbound.without (hw : r.Unbound name p w) (bound : r.Bound w)
    (h : ReflTransGen (r.Without name p) w w') : r.Unbound name p w' := by
  have slot : r.SlotIs name 0 (fun _ s => s.fits (.registered p) = false) w' := by
    induction h with
    | refl => exact ⟨bound, Nat.zero_le _, hw⟩
    | tail _ h ih =>
      refine SlotIs.activity ⟨fun _ _ _ h => h, fun id src _ registered _ => ?_⟩ rfl ih h.2
      refine not_fits_of_fits (Slot.fits_of src) fun q hq hid => h.1 ⟨q, registered q hq, hid⟩
  exact slot.slot

/-! ### Slots that were made since -/

/-- If the slot is bound to the provider, then it was made since then. -/
def BoundSince (since : Identity) (p : Provider) (id : Identity) (s : Slot) : Prop :=
  s.fits (.registered p) = true →
    since ≤ id ∧ s.source = .registered p ∧ s.retention = p.retention

theorem suits_boundSince (since : Identity) (p : Provider) :
    Suits since (some p) (BoundSince since p) where
  keep _ _ _ h hfits := h hfits
  made id src hid registered declared _ := by
    cases src with
    | registered q =>
      cases registered q rfl
      exact ⟨hid, Slot.source_of _, Slot.retention_of _⟩
    | declared d => cases declared d rfl

/-- While the provider stays registered, the slot of the name is one that was made since, if it is
bound to the provider. -/
theorem SlotIs.under (hw : r.SlotIs name since (BoundSince since p) w)
    (hp : (w.stateOf r).registry.get? name = some p) (h : ReflTransGen (r.Under name p) w w') :
    r.SlotIs name since (BoundSince since p) w' ∧ (w'.stateOf r).registry.get? name = some p := by
  induction h with
  | refl => exact ⟨hw, hp⟩
  | tail _ h ih => exact ⟨ih.1.activity (suits_boundSince since p) ih.2 h.1, h.2⟩

/-- What is kept of an answer depends on the retention only. -/
theorem retain_congr {s t : Slot} (h : s.retention = t.retention) (id : Identity) :
    s.retain id = t.retain id := by
  funext o
  cases o with
  | none => rfl
  | some v => rw [Slot.retain, Slot.retain, h]

/-- A reading by a slot that is bound to the provider is what the slot makes of its answer. -/
theorem valueOf_of_bound (hp : (w.stateOf r).registry.get? name = some p) {id : Identity} {s : Slot}
    (hslot : w.slotOf r name = some (id, s)) (hfits : s.fits (.registered p) = true)
    (hsource : s.source = .registered p) (h : Host) :
    r.valueOf h name w = s.value id (p.get h) w := by
  have slot : r.slotFor name w = .done (some (id, s)) w := by
    rw [slotFor_eq, sourceOf_of_registered hp, hslot]
    simp [Option.filter, hfits]
  rw [valueOf_eq, Act.bind_apply, slot]
  dsimp only
  rw [hsource, ask]

/-- A reading asks the provider, by a slot that was made since, or gives what such a slot keeps. -/
theorem SlotIs.valueOf (hw : r.SlotIs name since (BoundSince since p) w)
    (hp : (w.stateOf r).registry.get? name = some p) (h : Host) :
    (∃ id, since ≤ id ∧ r.valueOf h name w =
      (p.get h >>= (Slot.of (.registered p)).retain id) (r.slotted w name (.registered p))) ∨
    ∃ id s v, w.slotOf r name = some (id, s) ∧ since ≤ id ∧ s.source = .registered p ∧
      p.retention = .cached ∧ s.frozen = some v ∧ r.valueOf h name w = .done (some v) w := by
  cases hslot : (w.slotOf r name).filter fun x => x.2.fits (.registered p) with
  | none =>
    refine .inl ⟨w.next, hw.since, ?_⟩
    rw [valueOf_of_not_fits (sourceOf_of_registered hp) hslot, slotted, hslot]
    rfl
  | some x =>
    obtain ⟨id, s⟩ := x
    have slotted : r.slotted w name (.registered p) = w := by rw [slotted, hslot]
    obtain ⟨hslot, hfits⟩ := Option.filter_eq_some_iff.1 hslot
    obtain ⟨hid, hsource, hretention⟩ := hw.slot id s hslot hfits
    have frozen : (w.slots.get? id).bind Slot.frozen = s.frozen := by
      rw [(World.slotOf_eq_some_iff.1 hslot).2, Option.bind_some]
    have value := valueOf_of_bound hp hslot hfits hsource h
    have retain : s.retain id = (Slot.of (.registered p)).retain id :=
      retain_congr (hretention.trans (Slot.retention_of (.registered p)).symm) id
    cases hf : s.frozen with
    | none =>
      refine .inl ⟨id, hid, ?_⟩
      rw [value, slotted, Slot.value_eq_of_not_frozen (frozen.trans hf), retain]
    | some v =>
      cases hr : p.retention with
      | lazy =>
        refine .inl ⟨id, hid, ?_⟩
        rw [value, slotted, Slot.value_eq_of_lazy (hretention.trans hr), retain]
      | cached =>
        refine .inr ⟨id, s, v, hslot, hid, hsource, rfl, hf, ?_⟩
        rw [value, Slot.value_eq_of_frozen (hretention.trans hr) (frozen.trans hf)]

/-- **A registration starts a fresh binding, unless it is the old one.**  The slot of a name is not
bound to a provider that has just been made; nor is it, while the provider is not registered under
the name, once the name was read with another source.  If it is not bound to the provider that is
registered, then as long as this stays registered the first reading of the name asks it, and all
readings ask it or give what is kept in a slot for it that was made after the registration.  If
the slot is bound to this very provider, a reading gives what it keeps. -/
theorem registration_binds_anew (reached : Reached proxied (Host.level n) k w)
    (held : k.resolvers.get? label = some r) (name : String) :
    (∀ made retention source p w', Act.newProvider made retention source w = .done p w' →
      r.Unbound name p w') ∧
    (∀ p src m o w' w'', r.sourceOf w name = some src →
      (∀ q, src = .registered q → q.id ≠ p.id) →
      r.valueOf (Host.level m) name w = .done o w' →
      ReflTransGen (r.Without name p) w' w'' → r.Unbound name p w'') ∧
    ∀ made p o w₁, k.providers.get? made = some p → r.register name p w = .done o w₁ →
      (r.Unbound name p w → ∀ w₂, ReflTransGen (r.Under name p) w₁ w₂ → ∀ h,
        (w₂.slotOf r name = w.slotOf r name → r.valueOf h name w₂ =
          (p.get h >>= (Slot.of (.registered p)).retain w₂.next)
            (w₂.bindSlot r name (.of (.registered p)))) ∧
        ((∃ id, w.next ≤ id ∧ r.valueOf h name w₂ =
          (p.get h >>= (Slot.of (.registered p)).retain id) (r.slotted w₂ name (.registered p))) ∨
        ∃ id s v, w₂.slotOf r name = some (id, s) ∧ w.next ≤ id ∧ s.source = .registered p ∧
          p.retention = .cached ∧ s.frozen = some v ∧ r.valueOf h name w₂ = .done (some v) w₂)) ∧
      ∀ id s, w.slotOf r name = some (id, s) → s.fits (.registered p) = true → ∀ h,
        r.valueOf h name w₁ = s.value id (p.get h) w₁ := by
  obtain ⟨R, P, founded⟩ := reached.founded
  have hr : r ∈ R := founded.admitted.resolvers label r held
  have bound : r.Bound w := .of_sound founded.sound
  refine ⟨fun _ _ _ _ _ hnew => unbound_of_newProvider founded.sound hr hnew,
    fun p src m o w' w'' hsrc hother hread between => ?_, fun made p o w₁ holds registered => ?_⟩
  · exact (unbound_of_valueOf bound hsrc hother hread).without
      ((bookInvariant_bound r).valueOf bound hread) between
  have hw₁ : w₁ = w.withRegistry r ((w.stateOf r).registry.insert name p) := by
    cases registered
    rfl
  have same : w₁.slotOf r name = w.slotOf r name := hw₁ ▸ w.slotOf_withRegistry r _ r name
  have hp : (w₁.stateOf r).registry.get? name = some p := by
    rw [hw₁, World.withRegistry, World.stateOf_withState_self]
    exact Table.get?_insert_self ..
  constructor
  · intro unbound w₂ between h
    have start : r.SlotIs name w.next (BoundSince w.next p) w₁ := by
      have old : r.SlotIs name w.next (BoundSince w.next p) w :=
        ⟨bound, Nat.le_refl _, fun id s hs hfits => absurd (unbound id s hs) (by simp [hfits])⟩
      exact hw₁ ▸ old.withState rfl
    obtain ⟨hw₂, hp₂⟩ := start.under hp between
    refine ⟨fun unread => ?_, hw₂.valueOf hp₂ h⟩
    refine valueOf_of_not_fits (sourceOf_of_registered hp₂) ?_ h
    rw [unread]
    exact Option.filter_eq_none_iff.2 fun x hx => by simp [unbound x.1 x.2 hx]
  · intro id s hslot hfits h
    refine valueOf_of_bound hp (same.trans hslot) hfits ?_ h
    -- providers are known by their identities
    have sound := founded.sound.slot r hr name id s hslot
    refine Slot.source_eq_of_fits hfits (fun q q' hq hq' hid => ?_) (fun d d' _ hd' => by cases hd')
    cases hq'
    exact founded.sound.providers.inj q (sound.registered q hq) p
      (founded.providers made p holds) hid

namespace Registering

/-- A provider that gives what is in a register is registered, read and replaced by another one
while the register is written.  The name may be read then. -/
def requests (reads : Bool) : List Request := [
  .scope "app" "app" none,
  .resolver "r" ∅ "app",
  .evaluate "src" (.literal (.str "one")),
  .provider "p" .cached (.computed (.register "src") none),
  .provider "q" .lazy (.constant "other"),
  .register "r" "n" "p",
  .valueOf "r" "n",
  .evaluate "src" (.literal (.str "two")),
  .register "r" "n" "q"] ++ if reads then [.valueOf "r" "n"] else []

/-- What is found out when the first provider is registered again. -/
structure Again where
  /-- The names of the client. -/
  names : Names
  /-- The world before. -/
  before : World
  /-- The resolver. -/
  resolver : Resolver
  /-- The provider. -/
  provider : Provider

/-- The world in which the provider is registered again. -/
def Again.after (a : Again) : World :=
  a.before.withRegistry a.resolver ((a.before.stateOf a.resolver).registry.insert "n" a.provider)

/-- The requests are carried out. -/
def again (reads : Bool) : Option Again :=
  match Session.run (fun _ => true) (Host.level 4) (requests reads) ∅ World.empty with
  | .done k w => do
    let r ← k.resolvers.get? "r"
    let p ← k.providers.get? "p"
    return ⟨k, w, r, p⟩
  | _ => none

/-- What is seen then: what the provider gives, what a reading of the name gives, and whether the
slot of the name is bound to another provider. -/
def Again.seen (a : Again) : Option (Option String × Option String × Bool) := do
  let given ← (a.provider.get (Host.level 4)
    (a.resolver.slotted a.after "n" (.registered a.provider))).seen fun o _ => o
  let read ← (a.resolver.valueOf (Host.level 4) "n" a.after).seen fun o _ => o
  return (given, read, (a.before.slotOf a.resolver "n").all fun x =>
    !x.2.fits (.registered a.provider))

/-- The provider is registered again in these circumstances. -/
structure Again.Passes (a : Again) (given read : Option String) (unbound : Bool) : Prop where
  reached : Reached (fun _ => true) (Host.level 4) a.names a.before
  held : a.names.resolvers.get? "r" = some a.resolver
  holds : a.names.providers.get? "p" = some a.provider
  given : ∃ w, a.provider.get (Host.level 4)
    (a.resolver.slotted a.after "n" (.registered a.provider)) = .done given w
  read : ∃ w, a.resolver.valueOf (Host.level 4) "n" a.after = .done read w
  unbound : unbound = true → a.resolver.Unbound "n" a.provider a.before

theorem exists_of_seen {reads unbound : Bool} {given read : Option String}
    (h : (again reads).bind Again.seen = some (given, read, unbound)) :
    ∃ a : Again, a.Passes given read unbound := by
  obtain ⟨a, ha, hseen⟩ := Option.bind_eq_some_iff.1 h
  unfold again at ha
  split at ha
  · rename_i k w hrun
    simp only [Option.bind_eq_bind, Option.bind_eq_some_iff, Option.pure_def,
      Option.some.injEq] at ha
    obtain ⟨r, hr, p, hp, rfl⟩ := ha
    simp only [Again.seen, Option.bind_eq_bind, Option.bind_eq_some_iff, Option.pure_def,
      Option.some.injEq, Prod.mk.injEq] at hseen
    obtain ⟨o, hgiven, o', hread, rfl, rfl, rfl⟩ := hseen
    obtain ⟨_, w₁, given_done, rfl⟩ := Outcome.exists_of_seen hgiven
    obtain ⟨_, w₂, read_done, rfl⟩ := Outcome.exists_of_seen hread
    refine ⟨⟨k, w, r, p⟩, ⟨_, hrun⟩, hr, hp, ⟨w₁, given_done⟩, ⟨w₂, read_done⟩,
      fun h id s hs => ?_⟩
    simpa [hs] using h
  · cases ha

end Registering

open Registering in
/-- A provider that is registered again after another one was read gives a new value. -/
theorem registration_gives_two : ∃ (k : Names) (r : Resolver) (p : Provider) (w w₁ w₂ : World),
    Reached (fun _ => true) (Host.level 4) k w ∧ k.resolvers.get? "r" = some r ∧
      k.providers.get? "p" = some p ∧ r.Unbound "n" p w ∧
      (∃ o, r.register "n" p w = .done o w₁) ∧
      r.valueOf (Host.level 4) "n" w₁ = (p.get (Host.level 4) >>=
        (Slot.of (.registered p)).retain w₁.next) (w₁.bindSlot r "n" (.of (.registered p))) ∧
      r.valueOf (Host.level 4) "n" w₁ = .done (some "two") w₂ := by
  obtain ⟨a, passes⟩ := exists_of_seen
    (by decide +kernel : (again true).bind Again.seen = some (some "two", some "two", true))
  obtain ⟨w₂, hread⟩ := passes.read
  have unbound := passes.unbound rfl
  have registered : a.resolver.register "n" a.provider a.before = .done _ a.after := rfl
  obtain ⟨-, -, anew⟩ := registration_binds_anew passes.reached passes.held "n"
  obtain ⟨fresh, -⟩ := anew "p" a.provider _ a.after passes.holds registered
  obtain ⟨first, -⟩ := fresh unbound a.after .refl (Host.level 4)
  exact ⟨a.names, a.resolver, a.provider, a.before, a.after, w₂, passes.reached, passes.held,
    passes.holds, unbound, ⟨_, registered⟩,
    first (a.before.slotOf_withRegistry a.resolver _ a.resolver "n"), hread⟩

open Registering in
/-- **A binding that is resumed.**  A provider that is registered again when nobody has read the
name in between gives the value that was kept before. -/
theorem registration_resumes :
    ¬ ∀ (n m : Nat) (k : Names) (w : World) (label made name : String) (r : Resolver) (p : Provider)
      (v v' : Option String) (w₁ w₂ w₃ : World),
      Reached (fun _ => true) (Host.level n) k w → k.resolvers.get? label = some r →
        k.providers.get? made = some p → (∃ o, r.register name p w = .done o w₁) →
        r.valueOf (Host.level m) name w₁ = .done v w₂ →
        p.get (Host.level m) (r.slotted w₁ name (.registered p)) = .done v' w₃ → v = v' := by
  intro claim
  obtain ⟨a, passes⟩ := exists_of_seen
    (by decide +kernel : (again false).bind Again.seen = some (some "two", some "one", false))
  obtain ⟨w₂, hread⟩ := passes.read
  obtain ⟨w₃, hgiven⟩ := passes.given
  have same := claim 4 4 a.names a.before "r" "p" "n" a.resolver a.provider _ _ a.after w₂ w₃
    passes.reached passes.held passes.holds ⟨_, rfl⟩ hread hgiven
  revert same
  decide

end LateBinding.Resolver
