import LateBinding.Proofs.Apart
import LateBinding.Proofs.Session
import LateBinding.Proofs.Sparing

/-!
# What a session made

In a session every resolver and every provider that is in use was made by a request, and is known
by its identity.  A value is *within* a set of resolvers if all adapters in it, at any depth, are
theirs (`Value.Within`); values that are within make only values that are within
(`Contract.within_closed`).

A world is *sound* for the resolvers and the providers that were made (`World.Sound`) if it holds
only adapters of these resolvers, if only these providers are registered, and if each slot is bound
to one of them or to the declaration of its variable, with the retention of this source.

* `Session.Founded.perform` : a request preserves this, with what it makes added;
* `Session.Reached.founded` : hence every world that a session reaches is sound.
-/

namespace LateBinding

/-! ### Adapters of certain resolvers -/

mutual

/-- All adapters in the value, at any depth, are of certain resolvers. -/
inductive Value.Within (R : Resolver → Prop) : Value → Prop
  /-- A value without parts. -/
  | plain {v : Value} (hp : v.isProxy = false) (ho : v.object? = none) : Value.Within R v
  /-- An object of a class that is within. -/
  | object {o : Object} (h : Class.Within R o.cls) : Value.Within R (.object o)
  /-- A proxy of a client over a value that is within. -/
  | foreign {id : Identity} {interface : String} {target : Value} (h : Value.Within R target) :
    Value.Within R (.proxy id (.foreign interface) target)
  /-- An adapter of one of the resolvers, with parts that are within. -/
  | adapter {id : Identity} {b : Binding Value} {target : Value} (hr : R b.resolver)
    (hi : Class.Within R b.interface.cls) (hb : Class.Within R b.adapted.cls)
    (h : Value.Within R target) : Value.Within R (.proxy id (.adapter b) target)

/-- The fields of the class and of those it inherits from start with values that are within. -/
inductive Class.Within (R : Resolver → Prop) : Class Value → Prop
  | mk {c : Class Value} (h : ∀ d ∈ c.lineage, ∀ f ∈ d.fields, Value.Within R f.initial) :
    Class.Within R c

end

mutual

/-- What is within some resolvers is within more of them. -/
theorem Value.Within.mono {R R' : Resolver → Prop} (hR : ∀ r, R r → R' r) :
    ∀ {v : Value}, v.Within R → v.Within R'
  | _, .plain hp ho => .plain hp ho
  | _, .object h => .object (h.mono hR)
  | _, .foreign h => .foreign (h.mono hR)
  | _, .adapter hr hi hb h => .adapter (hR _ hr) (hi.mono hR) (hb.mono hR) (h.mono hR)

theorem Class.Within.mono {R R' : Resolver → Prop} (hR : ∀ r, R r → R' r) :
    ∀ {c : Class Value}, c.Within R → c.Within R'
  | _, .mk h => .mk fun d hd f hf => (h d hd f hf).mono hR

end

/-- The contract that admits what is within certain resolvers. -/
def Contract.within (R : Resolver → Prop) : Contract := ⟨Value.Within R, Class.Within R, R⟩

theorem Contract.within_closed (R : Resolver → Prop) : (Contract.within R).Closed where
  plain _ hp ho := .plain hp ho
  object o := by
    constructor
    · intro h
      cases h with
      | plain _ ho => cases ho
      | object h => exact h
    · exact .object
  seeds c hc := by
    obtain ⟨hc⟩ := hc
    exact Class.Starts.seeds hc
  staticSeeds c hc := by
    obtain ⟨hc⟩ := hc
    exact Class.Starts.staticSeeds hc
  target i f t h := by
    cases h with
    | plain hp => cases hp
    | foreign h => exact h
    | adapter _ _ _ h => exact h
  resolver i b t h := by
    cases h with
    | plain hp => cases hp
    | adapter hr => exact hr
  interface i b t h := by
    cases h with
    | plain hp => cases hp
    | adapter _ hi => exact hi
  adapted i b t h := by
    cases h with
    | plain hp => cases hp
    | adapter _ _ hb => exact hb
  adapter i b v hr hi hb hv := by
    refine .adapter hr hi hb ?_
    cases hv with
    | plain hp ho =>
      cases v with
      | proxy => cases hp
      | _ => exact .plain hp ho
    | object h => exact .object h
    | foreign h => exact h
    | adapter _ _ _ h => exact h
  planned i s plan hparent hfields := by
    refine .mk (Class.Starts.ofPlan (fun p hp => ?_) hfields i s)
    obtain ⟨h⟩ := hparent p hp
    exact h

theorem World.Respects.mono {C C' : Contract} (hv : ∀ v, C.value v → C'.value v)
    (hc : ∀ c, C.cls c → C'.cls c) {w : World} (hw : w.Respects C) : w.Respects C' where
  registers n v h := hv v (hw.registers n v h)
  objects i t h n v h' := hv v (hw.objects i t h n v h')
  statics i t h n v h' := hv v (hw.statics i t h n v h')
  definitions i n c h := hc c (hw.definitions i n c h)
  types i s h :=
    have ht := hw.types i s h
    ⟨fun i e h => hc _ (ht.entries i e h), fun n e h => hc _ (ht.byName n e h),
      fun n e h => hc _ (ht.byScopedName n e h)⟩
  memo i m h d k h' := hc _ (hw.memo i m h d k h')

/-! ### Sound worlds -/

/-- The slot is bound to a provider that was made or to the declaration of the variable, with the
retention of this source.  Nothing is said of what it keeps. -/
structure Slot.Sound (P : List Provider) (doc : Mapping.Document) (name : String)
    (s : Slot) : Prop where
  retention : s.retention = s.source.retention
  registered : ∀ p, s.source = .registered p → p ∈ P
  declared : ∀ d, s.source = .declared d → doc.declarations.get? name = some d

/-- What is in use in the world is among the resolvers and the providers that were made. -/
structure World.Sound (R : List Resolver) (P : List Provider) (w : World) : Prop where
  /-- Adapters are of resolvers that were made. -/
  respects : w.Respects (.within (· ∈ R))
  /-- Resolvers are told apart by their identities. -/
  resolvers : Apart Resolver.id R w.next
  /-- Providers are told apart by their identities. -/
  providers : Apart Provider.id P w.next
  /-- Providers that are registered were made. -/
  registered : ∀ (r : Resolver) name p, (w.stateOf r).registry.get? name = some p → p ∈ P
  /-- Slots are those of resolvers that were made. -/
  bound : ∀ (r : Resolver) name id, (w.stateOf r).slots.get? name = some id →
    r.id < w.next ∧ id < w.next
  /-- Slots are bound to what they may be bound to. -/
  slot : ∀ r ∈ R, ∀ name id s, w.slotOf r name = some (id, s) → s.Sound P r.document name

namespace World.Sound

variable {R : List Resolver} {P : List Provider} {w w' : World}

theorem empty : World.empty.Sound [] [] where
  respects := .empty
  resolvers := .nil
  providers := .nil
  registered r name p h := by simp [World.empty, stateOf, default] at h
  bound r name id h := by simp [World.empty, stateOf, default] at h
  slot _ h := by cases h

/-- Only what resolvers know of names matters, and what the world stores. -/
theorem congr (hw : w.Sound R P) (respects : w'.Respects (.within (· ∈ R)))
    (next : w.next ≤ w'.next)
    (registry : ∀ r, (w'.stateOf r).registry = (w.stateOf r).registry)
    (slots : ∀ r, (w'.stateOf r).slots = (w.stateOf r).slots)
    (slotOf : ∀ r name, w'.slotOf r name = w.slotOf r name) : w'.Sound R P where
  respects := respects
  resolvers := hw.resolvers.mono next
  providers := hw.providers.mono next
  registered r name p h := hw.registered r name p (registry r ▸ h)
  bound r name id h := by
    obtain ⟨hr, hid⟩ := hw.bound r name id (slots r ▸ h)
    exact ⟨Nat.lt_of_lt_of_le hr next, Nat.lt_of_lt_of_le hid next⟩
  slot r hr name id s h := hw.slot r hr name id s (slotOf r name ▸ h)

/-- What happens elsewhere leaves the world sound. -/
theorem stable (R : List Resolver) (P : List Provider) :
    Stable (.within (· ∈ R)) (World.Sound R P) where
  respects _ hw := hw.respects
  change w w' h _ hw := by
    have spares (r : Resolver) : w.Spares r w' := h.spares r
    exact hw.congr (h.respects (Contract.within_closed _).toBasic hw.respects) h.next_le
      (fun r => (spares r).registry) (fun r => (spares r).slotIds) fun r name => (spares r).slotOf name

/-- A slot for a source of the variable is sound. -/
theorem sound_of (hw : w.Sound R P) {r : Resolver} {name : String} {src : SlotSource}
    (hsrc : r.sourceOf w name = some src) : (Slot.of src).Sound P r.document name where
  retention := by rw [Slot.retention_of, Slot.source_of]
  registered p hp := by
    rw [Slot.source_of] at hp
    exact hw.registered r name p (Resolver.registered_of_sourceOf (hp ▸ hsrc))
  declared d hd := by
    rw [Slot.source_of] at hd
    exact Resolver.declared_of_sourceOf (w := w) (hd ▸ hsrc)

/-- A slot that fits the source of its variable is bound to it. -/
theorem source_eq (hw : w.Sound R P) {r : Resolver} (hr : r ∈ R) {name : String} {src : SlotSource}
    (hsrc : r.sourceOf w name = some src) {id : Identity} {s : Slot}
    (hslot : w.slotOf r name = some (id, s)) (hfits : s.fits src = true) : s.source = src := by
  have sound := hw.slot r hr name id s hslot
  refine Slot.source_eq_of_fits hfits (fun p q hp hq hid => ?_) fun d e hd he => ?_
  · have made : q ∈ P := hw.registered r name q (Resolver.registered_of_sourceOf (hq ▸ hsrc))
    exact hw.providers.inj p (sound.registered p hp) q made hid
  · have declared := sound.declared d hd
    rw [Resolver.declared_of_sourceOf (he ▸ hsrc)] at declared
    exact (Option.some.inj declared).symm

/-- A slot is bound. -/
theorem bindSlot (hw : w.Sound R P) {r : Resolver} (hr : r ∈ R) {name : String} {src : SlotSource}
    (hsrc : r.sourceOf w name = some src) : (w.bindSlot r name (.of src)).Sound R P where
  respects := by
    have fresh : World.Respects (.within (· ∈ R)) { w with next := w.next + 1 } := { hw.respects with }
    exact Indifferent.of_respects.state _ r _ rfl (Indifferent.of_respects.slots _ _ fresh)
  resolvers := hw.resolvers.mono (Nat.le_succ _)
  providers := hw.providers.mono (Nat.le_succ _)
  registered r' n p h := hw.registered r' n p (w.registry_bindSlot r name (.of src) r' ▸ h)
  bound r' n id h := by
    refine ⟨?_, World.lt_next_bindSlot (fun id hid => (hw.bound r' n id hid).2) h⟩
    rw [World.slots_bindSlot] at h
    split at h
    · rename_i hid
      exact Nat.lt_succ_of_lt (hid ▸ hw.resolvers.below r hr)
    · exact Nat.lt_succ_of_lt (hw.bound r' n id h).1
  slot r' hr' n id s h := by
    rw [World.slotOf_bindSlot_of_lt _ fun id h => (hw.bound r' n id h).2] at h
    split at h
    · rename_i hsame
      obtain ⟨hid, rfl⟩ := hsame
      obtain rfl := hw.resolvers.inj r hr r' hr' hid
      cases h
      exact hw.sound_of hsrc
    · exact hw.slot r' hr' n id s h

/-- A value is kept. -/
theorem keepIn (hw : w.Sound R P) {id : Identity} {s : Slot} (hs : w.slots.get? id = some s)
    (v : String) : (w.keepIn id s v).Sound R P where
  respects := Indifferent.of_respects.slots _ _ hw.respects
  resolvers := hw.resolvers
  providers := hw.providers
  registered := hw.registered
  bound := hw.bound
  slot r hr n i t h := by
    rw [World.slotOf_keepIn_of_get? hs, Option.map_eq_some_iff] at h
    obtain ⟨⟨i', t'⟩, h, ht⟩ := h
    have sound := hw.slot r hr n i' t' h
    dsimp only at ht
    split at ht
    · rename_i hi
      cases ht
      -- it is this very slot, now with a value
      have same : t' = s := by
        have := (World.slotOf_eq_some_iff.1 h).2
        rw [hi, hs] at this
        exact (Option.some.inj this).symm
      subst same
      exact ⟨sound.retention, sound.registered, sound.declared⟩
    · cases ht
      exact sound

/-- What belongs to a resolver changes, apart from types and slots. -/
theorem withState (hw : w.Sound R P) (r : Resolver) {s : ResolverState}
    (types : s.types = (w.stateOf r).types) (slots : s.slots = (w.stateOf r).slots)
    (registered : ∀ name p, s.registry.get? name = some p → p ∈ P) :
    (w.withState r s).Sound R P where
  respects := Indifferent.of_respects.state w r s types hw.respects
  resolvers := hw.resolvers
  providers := hw.providers
  registered r' name p h := by
    rw [World.stateOf_withState] at h
    split at h
    · exact registered name p h
    · exact hw.registered r' name p h
  bound r' name id h :=
    hw.bound r' name id (w.apply_stateOf_withState ResolverState.slots slots r' ▸ h)
  slot r' hr' name id t h := hw.slot r' hr' name id t (w.slotOf_withState slots r' name ▸ h)

/-- The bookkeeping of resolvers that were made leaves the world sound. -/
theorem tended (R : List Resolver) (P : List Provider) :
    Tended (.within (· ∈ R)) (World.Sound R P) where
  bind _ _ _ _ hr hsrc _ hw := hw.bindSlot hr hsrc
  keep _ _ _ v hs _ hw := hw.keepIn hs v
  enter _ _ _ hw := hw.congr { hw.respects with } (Nat.le_refl _) (fun _ => rfl) (fun _ => rfl)
    fun _ _ => rfl
  leave _ hw := hw.congr { hw.respects with } (Nat.le_refl _) (fun _ => rfl) (fun _ => rfl)
    fun _ _ => rfl
  index _ r _ hw := hw.withState r rfl rfl (hw.registered r)
  rename _ _ r _ _ _ _ hw := hw.withState r rfl rfl (hw.registered r)

/-- Evaluation leaves the world sound. -/
theorem keeps_level (R : List Resolver) (P : List Provider) (n : Nat) :
    (Host.level n).Keeps (.within (· ∈ R)) (World.Sound R P) :=
  Host.keeps_level_of_tended (stable R P) (tended R P) (Contract.within_closed _) n

/-- A resolver is made. -/
theorem resolver (hw : w.Sound R P) {r : Resolver} (hr : r.id = w.next) :
    World.Sound (r :: R) P { w with next := w.next + 1 } where
  respects := by
    have more : ∀ r', r' ∈ R → r' ∈ r :: R := fun _ => List.mem_cons_of_mem r
    have old : World.Respects (.within (· ∈ R)) { w with next := w.next + 1 } := { hw.respects with }
    exact old.mono (fun v (hv : v.Within _) => hv.mono more) fun c (hc : c.Within _) => hc.mono more
  resolvers := hw.resolvers.cons hr
  providers := hw.providers.mono (Nat.le_succ _)
  registered := hw.registered
  bound r' name id h := by
    obtain ⟨hr', hid⟩ := hw.bound r' name id h
    exact ⟨Nat.lt_succ_of_lt hr', Nat.lt_succ_of_lt hid⟩
  slot r' hr' name id s h := by
    rcases List.mem_cons.1 hr' with rfl | hr'
    · -- a resolver that has just been made has no slots
      have below := (hw.bound r' name id (World.slotOf_eq_some_iff.1 h).1).1
      exact absurd (hr ▸ below) (Nat.lt_irrefl _)
    · exact hw.slot r' hr' name id s h

/-- A provider is made. -/
theorem provider (hw : w.Sound R P) {p : Provider} (hp : p.id = w.next) :
    World.Sound R (p :: P) { w with next := w.next + 1 } where
  respects := { hw.respects with }
  resolvers := hw.resolvers.mono (Nat.le_succ _)
  providers := hw.providers.cons hp
  registered r name q h := List.mem_cons_of_mem p (hw.registered r name q h)
  bound r name id h := by
    obtain ⟨hr, hid⟩ := hw.bound r name id h
    exact ⟨Nat.lt_succ_of_lt hr, Nat.lt_succ_of_lt hid⟩
  slot r hr name id s h := by
    have sound := hw.slot r hr name id s h
    exact ⟨sound.retention, fun q hq => List.mem_cons_of_mem p (sound.registered q hq),
      sound.declared⟩

end World.Sound

/-! ### Sessions -/

theorem Act.newResolver_eq_done {doc : Mapping.Document} {scope : Scope} {r : Resolver}
    {w w' : World} (h : (Act.newResolver doc scope).run w = .done (.ok r) w') :
    r.id = w.next ∧ w' = { w with next := w.next + 1 } := by
  unfold Act.newResolver at h
  split at h
  · cases h
  · cases h
    exact ⟨rfl, rfl⟩

namespace Session

/-- The resolvers and the providers that a client holds were made, and the world is sound for all
that were. -/
structure Founded (R : List Resolver) (P : List Provider) (k : Names) (w : World) : Prop where
  sound : w.Sound R P
  admitted : k.Admitted (.within (· ∈ R))
  providers : ∀ l p, k.providers.get? l = some p → p ∈ P

/-- The names that a client has after a request: a request that fails leaves them as they are. -/
def Names.after (k : Names) : Except BindingError Names → Names
  | .ok k' => k'
  | .error _ => k

variable {R : List Resolver} {P : List Provider} {k : Names} {w w' : World}
  {proxied : Value → Bool} {n : Nat}

/-- A request preserves soundness, with what it makes added. -/
theorem Founded.perform (hk : Founded R P k w) (q : Request) {x : Except BindingError Names}
    (hq : (Session.perform proxied (Host.level n) k q).run w = .done x w') :
    ∃ R' P', Founded R' P' (k.after x) w' := by
  have use (registers : q.registers = false) (makes : q.makes = false) :
      ∃ R' P', Founded R' P' (k.after x) w' := by
    obtain ⟨sound, more⟩ := keeps_use (World.Sound.stable R P) (Contract.within_closed _)
      (World.Sound.keeps_level R P n) (Host.grows_level (Contract.within_closed _) n) (fun i m v hv _ => Value.Within.foreign hv) hk.admitted q
      registers makes hk.sound hq
    cases x with
    | ok k' =>
      have e := more k' rfl
      exact ⟨R, P, sound, e.admitted, e.providers ▸ hk.providers⟩
    | error e => exact ⟨R, P, sound, hk.admitted, hk.providers⟩
  cases q with
  | resolver label document scope =>
    rcases Attempt.run_except_bind_eq_done.1 hq with ⟨s, -, hq⟩ | ⟨e, -, rfl, rfl⟩
    · rcases Attempt.run_bind_eq_done.1 hq with ⟨r, w₁, hr, hq⟩ | ⟨e, hr, rfl⟩
      · cases hq
        obtain ⟨hid, rfl⟩ := Act.newResolver_eq_done hr
        have admitted : k.Admitted (.within (· ∈ r :: R)) := hk.admitted.mono
          (fun c (hc : c.Within _) => hc.mono fun _ => List.mem_cons_of_mem r)
          fun _ => List.mem_cons_of_mem r
        exact ⟨r :: R, P, hk.sound.resolver hid,
          ⟨admitted.classes, Table.forall_insert admitted.resolvers List.mem_cons_self⟩, hk.providers⟩
      · exact ⟨R, P, (keeps_newResolver (World.Sound.stable R P) document s hk.sound hr).1,
          hk.admitted, hk.providers⟩
    · exact ⟨R, P, hk⟩
  | provider label retention source =>
    obtain ⟨p, w₁, hp, hq⟩ | ⟨e, hp, -⟩ := Attempt.run_bind_eq_done.1 hq
    · cases hq
      obtain ⟨_, hok, hp⟩ := Attempt.run_liftM_eq_done.1 hp
      cases hok
      cases hp
      have held := Table.forall_insert (k := label)
        (fun l q hq => List.mem_cons_of_mem _ (hk.providers l q hq))
        (List.mem_cons_self (a := (⟨w.next, some label, retention, source⟩ : Provider)))
      exact ⟨R, _ :: P, hk.sound.provider rfl,
        ⟨hk.admitted.classes, hk.admitted.resolvers⟩, held⟩
    · obtain ⟨_, hok, -⟩ := Attempt.run_liftM_eq_done.1 hp
      cases hok
  | register resolver name provider =>
    rcases Attempt.run_except_bind_eq_done.1 hq with ⟨r, -, hq⟩ | ⟨e, -, rfl, rfl⟩
    · rcases Attempt.run_except_bind_eq_done.1 hq with ⟨p, hp, hq⟩ | ⟨e, -, rfl, rfl⟩
      · cases hq
        refine ⟨R, P, hk.sound.withState r rfl rfl ?_, hk.admitted, hk.providers⟩
        exact Table.forall_insert (hk.sound.registered r) (hk.providers _ p (get?_of_named hp))
      · exact ⟨R, P, hk⟩
    · exact ⟨R, P, hk⟩
  | unregister resolver name =>
    rcases Attempt.run_except_bind_eq_done.1 hq with ⟨r, -, hq⟩ | ⟨e, -, rfl, rfl⟩
    · cases hq
      refine ⟨R, P, hk.sound.withState r rfl rfl fun n p hp => ?_, hk.admitted, hk.providers⟩
      rw [Table.get?_erase] at hp
      split at hp
      · cases hp
      · exact hk.sound.registered r n p hp
    · exact ⟨R, P, hk⟩
  | _ => exact use rfl rfl

theorem Founded.run (hk : Founded R P k w) (qs : List Request) {k' : Names}
    (hqs : Session.run proxied (Host.level n) qs k w = .done k' w') :
    ∃ R' P', Founded R' P' k' w' := by
  induction qs generalizing R P k w with
  | nil =>
    cases hqs
    exact ⟨R, P, hk⟩
  | cons q qs ih =>
    obtain ⟨x, w₁, hq, hqs⟩ := Act.bind_eq_done.1 hqs
    obtain ⟨R₁, P₁, hk₁⟩ := hk.perform q hq
    cases x with
    | ok k₁ => exact ih hk₁ hqs
    | error e => exact ih hk₁ hqs

/-- Every world that a session reaches is sound for the resolvers and the providers that were
made. -/
theorem Reached.founded (hw : Reached proxied (Host.level n) k w) : ∃ R P, Founded R P k w := by
  obtain ⟨qs, hqs⟩ := hw
  have start : Founded [] [] ∅ World.empty :=
    ⟨World.Sound.empty, Names.Admitted.empty, fun l p h => by cases h⟩
  exact start.run qs hqs

end Session

end LateBinding
