import LateBinding.Proofs.Meaning.Classes
import LateBinding.Proofs.Reading.Asking
import LateBinding.Proofs.Retained

/-!
# Readings give the meaning

A resolver is *in tune* with a setting (`Resolver.InTune`) while variables are being evaluated if the
setting holds, if the cache of types agrees with it, and if what the slots keep is what their
variables mean.  In a transparent setting reading a variable gives its meaning, whatever was kept
before, and leaves the resolver in tune (`Setting.Transparent.gives_valueOf`).

The invariant is about the variables that are being evaluated as well: nothing is kept for them, so
whatever is nested in their evaluation cannot fix their values.  Evaluations nest no deeper than
there are declarations that are not being evaluated.
-/

namespace LateBinding

/-- Variables that have slots stay with them. -/
def World.Stays (r : Resolver) (w w' : World) : Prop :=
  ∀ name id s, w.slotOf r name = some (id, s) → ∃ s', w'.slotOf r name = some (id, s')

namespace World.Stays

variable {r : Resolver} {w w' w'' : World}

theorem refl (r : Resolver) (w : World) : Stays r w w := fun _ _ s h => ⟨s, h⟩

theorem trans (h : Stays r w w') (h' : Stays r w' w'') : Stays r w w'' := by
  intro name id s hs
  obtain ⟨s', hs'⟩ := h name id s hs
  exact h' name id s' hs'

theorem of_spares (h : w.Spares r w') : Stays r w w' :=
  fun name _ s hs => ⟨s, (h.slotOf name).trans hs⟩

theorem bindSlot {name : String} (bound : r.Bound w) (hnone : w.slotOf r name = none) (s : Slot) :
    Stays r w (w.bindSlot r name s) := by
  intro n id t ht
  refine ⟨t, ?_⟩
  rw [slotOf_bindSlot_of_lt s (bound n), if_neg, ht]
  rintro ⟨-, rfl⟩
  rw [hnone] at ht
  cases ht

theorem keepIn {id : Identity} {s : Slot} (hs : w.slots.get? id = some s) (v : String) :
    Stays r w (w.keepIn id s v) := by
  intro n i t ht
  rw [slotOf_keepIn_of_get? hs, ht, Option.map_some]
  split
  · rename_i hi
    cases hi
    exact ⟨_, rfl⟩
  · exact ⟨t, rfl⟩

end World.Stays

namespace Resolver

/-- What the slots keep is what their variables mean, and nothing is kept for those that are being
evaluated. -/
structure InTune (E : Setting) (depth : Nat) (r : Resolver) (S : List String) (w : World) :
    Prop where
  document : r.document = E.document
  registry : (w.stateOf r).registry = E.registry
  holds : E.Holds depth r.defaultScope w
  informed : r.Informed E w
  /-- These variables are being evaluated for the resolver, after what others evaluate. -/
  evaluating : ∃ others, (∀ name, (r.id, name) ∉ others) ∧
    w.evaluating = S.map (fun name => (r.id, name)) ++ others
  bound : r.Bound w
  injective : ∀ name name' id, (w.stateOf r).slots.get? name = some id →
    (w.stateOf r).slots.get? name' = some id → name = name'
  /-- A slot is bound to the source of its variable. -/
  source : ∀ name id s, w.slotOf r name = some (id, s) →
    E.source name = some s.source ∧ s.retention = s.source.retention
  /-- What is kept is what the variable means. -/
  kept : ∀ name id s v, w.slotOf r name = some (id, s) → s.frozen = some v →
    s.retention = .cached ∧ name ∉ S ∧ E.meaning [] name = some v

namespace InTune

variable {E : Setting} {depth : Nat} {r : Resolver} {S : List String} {w w' : World} {name : String}
  {src : SlotSource} {id : Identity} {s : Slot}

theorem sourceOf (hw : r.InTune E depth S w) (name : String) :
    r.sourceOf w name = E.source name := by
  rw [Resolver.sourceOf, hw.registry, hw.document]
  rfl

theorem isEvaluating (hw : r.InTune E depth S w) (name : String) :
    w.isEvaluating r name = decide (name ∈ S) := by
  obtain ⟨others, hothers, hlist⟩ := hw.evaluating
  rw [World.isEvaluating, hlist]
  simp [hothers]

/-! ### Steps -/

theorem of_quiet (hw : r.InTune E depth S w) (informed : r.Informed E w') (h : w.Quiet r w') :
    r.InTune E depth S w' where
  document := hw.document
  registry := h.spares.registry.trans hw.registry
  holds := hw.holds.of_alike h.alike
  informed := informed
  evaluating := by
    rw [h.spares.evaluating]
    exact hw.evaluating
  bound := hw.bound.congr h.spares.next h.spares.slotIds
  injective := by
    rw [h.spares.slotIds]
    exact hw.injective
  source name := by
    rw [h.spares.slotOf]
    exact hw.source name
  kept name := by
    rw [h.spares.slotOf]
    exact hw.kept name

theorem bindSlot (hw : r.InTune E depth S w) (hsrc : E.source name = some src) :
    r.InTune E depth S (w.bindSlot r name (.of src)) where
  document := hw.document
  registry := (w.registry_bindSlot r name _ r).trans hw.registry
  holds := hw.holds.of_alike ⟨Nat.le_succ _, rfl, fun _ _ => rfl, rfl, rfl⟩
  informed := hw.informed.congr (Nat.le_succ _)
    (World.apply_stateOf_withState { w with next := w.next + 1, slots := w.slots.insert w.next _ }
      ResolverState.types
      (s := { w.stateOf r with slots := (w.stateOf r).slots.insert name w.next }) rfl r) rfl
  evaluating := hw.evaluating
  bound n _ hid := World.lt_next_bindSlot (hw.bound n) hid
  injective n n' i hi hi' := by
    rw [World.slots_bindSlot, if_pos rfl, Table.get?_insert] at hi hi'
    split at hi <;> split at hi'
    · rename_i hn hn'
      rw [← hn, hn']
    · -- no slot has the fresh identity yet
      cases hi
      exact absurd (hw.bound _ _ hi') (Nat.lt_irrefl _)
    · cases hi'
      exact absurd (hw.bound _ _ hi) (Nat.lt_irrefl _)
    · exact hw.injective n n' i hi hi'
  source n i t ht := by
    rw [World.slotOf_bindSlot_of_lt _ (hw.bound n)] at ht
    split at ht
    · rename_i hn
      cases ht
      rw [Slot.source_of, Slot.retention_of, ← hn.2]
      exact ⟨hsrc, rfl⟩
    · exact hw.source n i t ht
  kept n i t v ht hv := by
    rw [World.slotOf_bindSlot_of_lt _ (hw.bound n)] at ht
    split at ht
    · cases ht
      rw [Slot.frozen_of] at hv
      cases hv
    · exact hw.kept n i t v ht hv

/-- The meaning of a variable is kept. -/
theorem keepIn (hw : r.InTune E depth S w) (hslot : w.slotOf r name = some (id, s))
    (hret : s.retention = .cached) (hname : name ∉ S) {v : String}
    (hv : E.meaning [] name = some v) : r.InTune E depth S (w.keepIn id s v) := by
  obtain ⟨hid, hs⟩ := World.slotOf_eq_some_iff.1 hslot
  -- only the slot of this variable changes, and what is kept there
  have changed {n i t} (ht : (w.keepIn id s v).slotOf r n = some (i, t)) :
      w.slotOf r n = some (i, t) ∨ n = name ∧ t = { s with frozen := some v } := by
    rw [World.slotOf_keepIn_of_get? hs, Option.map_eq_some_iff] at ht
    obtain ⟨⟨i', t'⟩, ht', ht⟩ := ht
    dsimp only at ht
    split at ht
    · rename_i hi
      subst hi
      cases ht
      exact .inr ⟨hw.injective _ _ _ (World.slotOf_eq_some_iff.1 ht').1 hid, rfl⟩
    · cases ht
      exact .inl ht'
  refine ⟨hw.document, hw.registry,
    hw.holds.of_alike ⟨Nat.le_refl _, rfl, fun _ _ => rfl, rfl, rfl⟩,
    hw.informed.congr (Nat.le_refl _) rfl rfl, hw.evaluating, hw.bound.congr (Nat.le_refl _) rfl,
    hw.injective, fun n i t ht => ?_, fun n i t u ht hu => ?_⟩
  · rcases changed ht with ht | ⟨rfl, rfl⟩
    · exact hw.source n i t ht
    · exact hw.source n id s hslot
  · rcases changed ht with ht | ⟨rfl, rfl⟩
    · exact hw.kept n i t u ht hu
    · cases hu
      exact ⟨hret, hname, hv⟩

/-- A variable for which nothing is kept begins to be evaluated. -/
theorem enter (hw : r.InTune E depth S w)
    (hnone : ∀ id s, w.slotOf r name = some (id, s) → s.frozen = none) :
    r.InTune E depth (name :: S) (w.enter r name) where
  document := hw.document
  registry := hw.registry
  holds := hw.holds.of_alike ⟨Nat.le_refl _, rfl, fun _ _ => rfl, rfl, rfl⟩
  informed := hw.informed.congr (Nat.le_refl _) rfl rfl
  evaluating := by
    obtain ⟨others, hothers, hlist⟩ := hw.evaluating
    exact ⟨others, hothers, by rw [World.enter, hlist]; rfl⟩
  bound := hw.bound
  injective := hw.injective
  source := hw.source
  kept n i t v ht hv := by
    have ht : w.slotOf r n = some (i, t) := ht
    obtain ⟨hret, hn, hmeaning⟩ := hw.kept n i t v ht hv
    refine ⟨hret, ?_, hmeaning⟩
    rw [List.mem_cons, not_or]
    refine ⟨?_, hn⟩
    rintro rfl
    rw [hnone i t ht] at hv
    cases hv

/-- The innermost evaluation ends. -/
theorem leave (hw : r.InTune E depth (name :: S) w) : r.InTune E depth S w.leave where
  document := hw.document
  registry := hw.registry
  holds := hw.holds.of_alike ⟨Nat.le_refl _, rfl, fun _ _ => rfl, rfl, rfl⟩
  informed := hw.informed.congr (Nat.le_refl _) rfl rfl
  evaluating := by
    obtain ⟨others, hothers, hlist⟩ := hw.evaluating
    exact ⟨others, hothers, by rw [World.leave, hlist]; rfl⟩
  bound := hw.bound
  injective := hw.injective
  source := hw.source
  kept n i t v ht hv := by
    obtain ⟨hret, hn, hmeaning⟩ := hw.kept n i t v ht hv
    exact ⟨hret, fun h => hn (List.mem_cons_of_mem _ h), hmeaning⟩

/-- The slot that is used for a variable is bound to its source. -/
theorem slotFor (hw : r.InTune E depth S w) (hsrc : E.source name = some src) :
    ∃ id s w₁, r.slotFor name w = .done (some (id, s)) w₁ ∧ w₁.slotOf r name = some (id, s) ∧
      s.source = src ∧ r.InTune E depth S w₁ ∧ w.Stays r w₁ := by
  rw [slotFor_eq, hw.sourceOf, hsrc]
  dsimp only
  cases hslot : w.slotOf r name with
  | none =>
    refine ⟨w.next, .of src, _, rfl, ?_, Slot.source_of src, hw.bindSlot hsrc,
      .bindSlot hw.bound hslot _⟩
    rw [World.slotOf_bindSlot_of_lt _ (hw.bound name), if_pos ⟨rfl, rfl⟩]
  | some p =>
    obtain ⟨id, s⟩ := p
    have hs : s.source = src := Option.some.inj ((hw.source name id s hslot).1.symm.trans hsrc)
    have hfits : s.fits src = true := by
      subst hs
      cases h : s.source <;> simp [Slot.fits, Slot.isBoundTo, Slot.isDeclared, h]
    rw [Option.filter_some, if_pos hfits]
    exact ⟨id, s, w, rfl, hslot, hs, hw, .refl r w⟩

end InTune

/-! ### Asking -/

/-- In tune, after a world in which variables had their slots. -/
def InTuneSince (E : Setting) (depth : Nat) (r : Resolver) (S : List String) (w w' : World) :
    Prop :=
  r.InTune E depth S w' ∧ w.Stays r w'

section Asking

variable {E : Setting} {depth k : Nat} {r : Resolver} {S : List String} {w₀ : World}
  {name : String} {d : Mapping.Descriptor}

theorem InTuneSince.of_quiet {w w' : World} (hw : r.InTuneSince E depth S w₀ w)
    (informed : r.Informed E w') (h : w.Quiet r w') : r.InTuneSince E depth S w₀ w' :=
  ⟨hw.1.of_quiet informed h, hw.2.trans (.of_spares h.spares)⟩

/-- A steady source is asked. -/
theorem gives_steady (hk : depth ≤ k) {source : Host → Act (Option String)}
    {answer : Option String}
    (hsteady : ∀ w, r.InTune E depth S w → Steady depth w source answer) :
    Act.Gives (r.InTuneSince E depth S w₀) answer (source (.level k)) := by
  intro w hw
  obtain ⟨w', hdone, hgrows⟩ := hsteady w hw.1 k hk w (.refl w)
  exact ⟨w', hdone, hw.of_quiet (hw.1.informed.of_grows hgrows) (.of_grows hgrows)⟩

theorem gives_get (hk : depth ≤ k) {n : String} {p : Provider} (hp : E.registry.get? n = some p) :
    Act.Gives (r.InTuneSince E depth S w₀) (E.given p) (p.get (.level k)) :=
  gives_steady hk fun _ hw => hw.holds.given n p hp

/-- A class that a template denotes is asked. -/
theorem gives_of_describedClass {template : String} {answer : Class Value → Option String}
    {ask : TypeEntry Value → Act (Option String)}
    (hsubst : Act.Gives (r.InTuneSince E depth S w₀) (E.resolved S template)
      (r.substitute (.level k) template))
    (hask : ∀ e w, r.InTune E depth S w → r.Has w e → (∃ n, E.find? n = some e.cls) →
      ∃ w', ask e w = .done (answer e.cls) w' ∧ r.Informed E w' ∧ w.Quiet r w') :
    Act.Gives (r.InTuneSince E depth S w₀) ((E.find? (E.resolved S template)).bind answer) (do
      match ← r.describedClass (.level k) template with
      | some e => ask e
      | none => return none) := by
  rw [describedClass_eq, bind_assoc]
  refine hsubst.bind fun w hw => ?_
  obtain ⟨o, w₁, ho, hfind, hhas, hinformed, hquiet⟩ :=
    hw.1.informed.classNamed hw.1.holds (E.resolved S template)
  have hw₁ := hw.of_quiet hinformed hquiet
  cases o with
  | none =>
    refine ⟨w₁, Act.bind_eq_done.2 ⟨none, w₁, ho, ?_⟩, hw₁⟩
    rw [← hfind]
    rfl
  | some e =>
    have hfind : E.find? (E.resolved S template) = some e.cls := hfind.symm
    obtain ⟨w', hdone, hinformed', hquiet'⟩ := hask e w₁ hw₁.1 (hhas e rfl) ⟨_, hfind⟩
    refine ⟨w', Act.bind_eq_done.2 ⟨some e, w₁, ho, ?_⟩, hw₁.of_quiet hinformed' hquiet'⟩
    rw [hfind]
    exact hdone

/-- The evaluation of a description gives what it answers, if its template resolves as the setting
says. -/
theorem gives_evaluate (hk : depth ≤ k) (hd : E.described name = some d)
    (hsubst : ∀ template ∈ d.template?, Act.Gives (r.InTuneSince E depth S w₀)
      (E.resolved S template) (r.substitute (.level k) template)) :
    Act.Gives (r.InTuneSince E depth S w₀) (E.answer (E.resolved S) d)
      (r.evaluate (.level k) d) := by
  unfold Mapping.Descriptor.template? at hsubst
  unfold Setting.answer evaluate
  cases hkind : d.kind with
  | value => exact .pure _
  | registered =>
    cases hv : d.value with
    | none => exact .pure _
    | some n =>
      intro w hw
      -- the registered providers are those of the setting
      have found : r.registered n w = .done (E.registry.get? n) w := by
        rw [← hw.1.registry]
        rfl
      dsimp only
      rw [Act.bind_apply, found, Option.bind_some]
      cases hp : E.registry.get? n with
      | none => exact ⟨w, rfl, hw⟩
      | some p => exact gives_get hk hp w hw
  | static =>
    rw [hkind] at hsubst
    cases hp : d.provider with
    | none => exact .pure _
    | some template =>
      cases hv : d.value with
      | none => exact .pure _
      | some method =>
        refine gives_of_describedClass (hsubst template (by simp [hp, hv])) ?_
        rintro e w hw he ⟨n, hfind⟩
        exact hw.informed.staticText hk he
          (hw.holds.static name d hd hkind method (by rw [hv]; rfl) n e.cls hfind)
  | provider =>
    rw [hkind] at hsubst
    cases hp : d.provider with
    | none => exact .pure _
    | some template =>
      refine gives_of_describedClass (hsubst template hp) ?_
      rintro e w hw he ⟨n, hfind⟩
      exact hw.informed.providerText hk he (hw.holds.made name d hd hkind n e.cls hfind)

end Asking

end Resolver

/-! ### Reading -/

namespace Resolver

section Reading

variable {E : Setting} {depth k : Nat} {r : Resolver} {S : List String} {w₀ w : World}
  {name : String} {src : SlotSource} {id : Identity} {s : Slot}

/-- Asking a source gives what its variable means, if the template of its description resolves as
the setting says while the variable is being evaluated. -/
theorem InTuneSince.ask (hw : r.InTuneSince E depth S w₀ w) (hk : depth ≤ k)
    (hsrc : E.source name = some src)
    (hnone : ∀ id s, w.slotOf r name = some (id, s) → s.frozen = none)
    (hsubst : ∀ d, E.described name = some d → name ∉ S → ∀ template ∈ d.template?,
      Act.Gives (r.InTuneSince E depth (name :: S) w₀) (E.resolved (name :: S) template)
        (r.substitute (.level k) template)) :
    ∃ w', r.ask (.level k) name src w = .done (E.meaning S name) w' ∧
      r.InTuneSince E depth S w₀ w' := by
  match src with
  | .registered p =>
    rw [Setting.meaning_of_registered hsrc]
    exact gives_get hk (E.registered_of_source hsrc) w hw
  | .declared (.literal text) =>
    rw [Setting.meaning_of_literal hsrc]
    exact ⟨w, rfl, hw⟩
  | .declared (.described d) =>
    have hd : E.described name = some d := E.described_eq_some_iff.2 hsrc
    have heval := hw.1.isEvaluating name
    change ∃ w', r.guarded name (r.evaluate (.level k) d) w = .done _ w' ∧ _
    rw [Setting.meaning_of_described hd]
    by_cases hname : name ∈ S
    · rw [if_pos hname]
      exact ⟨w, guarded_eq_of_evaluating _ (by simp [heval, hname]), hw⟩
    · rw [if_neg hname]
      obtain ⟨w₁, hdone, hw₁⟩ := gives_evaluate hk hd (hsubst d hd hname) (w.enter r name)
        ⟨hw.1.enter hnone, hw.2⟩
      exact ⟨w₁.leave, (guarded_eq_done _ (by simp [heval, hname])).2 ⟨w₁, hdone, rfl⟩,
        hw₁.1.leave, hw₁.2⟩

/-- Keeping what a variable means in its slot. -/
theorem InTuneSince.retain (hE : E.Transparent) (nested : E.Nested S) (reads : E.Reads S name)
    (hw : r.InTuneSince E depth S w₀ w) (hsrc : E.source name = some src)
    (hret : s.retention = src.retention) {t : Slot} (hslot : w.slotOf r name = some (id, t)) :
    ∃ w', s.retain id (E.meaning S name) w = .done (E.meaning S name) w' ∧
      r.InTuneSince E depth S w₀ w' := by
  cases hv : E.meaning S name with
  | none => exact ⟨w, rfl, hw⟩
  | some v =>
    unfold Slot.retain
    dsimp only
    cases hcached : s.retention with
    | lazy => exact ⟨w, rfl, hw⟩
    | cached =>
      have hname : name ∉ S := nested.notMem_of_meaning hv
      have outside : E.meaning [] name = some v := by
        rw [← hv, hE.meaning_eq nested reads hsrc (hret.symm.trans hcached) hname]
      have hid := (World.slotOf_eq_some_iff.1 hslot).2
      cases hf : t.frozen with
      | some kept =>
        -- it was read within its own evaluation, and meant the same there
        obtain ⟨-, -, hkept⟩ := hw.1.kept name id t kept hslot hf
        obtain rfl : kept = v := Option.some.inj (hkept.symm.trans outside)
        have frozen : (w.slots.get? id).bind Slot.frozen = some kept := by
          rw [hid, Option.bind_some, hf]
        exact ⟨w, Act.bind_eq_done.2 ⟨kept, w, Slot.freeze_eq_of_frozen frozen, rfl⟩, hw⟩
      | none =>
        obtain ⟨hsource, hretention⟩ := hw.1.source name id t hslot
        have hret' : t.retention = .cached := by
          rw [hretention, ← Option.some.inj (hsrc.symm.trans hsource), ← hret, hcached]
        exact ⟨w.keepIn id t v,
          Act.bind_eq_done.2 ⟨v, _, Slot.freeze_eq_of_not_frozen hid hf, rfl⟩,
          hw.1.keepIn hslot hret' hname outside, hw.2.trans (.keepIn hid v)⟩

/-- Reading a variable gives what it means, if templates resolve as the setting says in what is
nested. -/
theorem InTuneSince.valueOf (hE : E.Transparent) (nested : E.Nested S) (reads : E.Reads S name)
    (hw : r.InTuneSince E depth S w₀ w) (hk : depth ≤ k)
    (hsubst : ∀ d, E.described name = some d → name ∉ S → ∀ template ∈ d.template?, ∀ w₁,
      Act.Gives (r.InTuneSince E depth (name :: S) w₁) (E.resolved (name :: S) template)
        (r.substitute (.level k) template)) :
    ∃ w', r.valueOf (.level k) name w = .done (E.meaning S name) w' ∧
      r.InTuneSince E depth S w₀ w' := by
  rw [valueOf_eq, Act.bind_apply]
  cases hsrc : E.source name with
  | none =>
    rw [slotFor_eq, hw.1.sourceOf, hsrc, Setting.meaning_of_source_eq_none hsrc]
    exact ⟨w, rfl, hw⟩
  | some src =>
    obtain ⟨id, s, w₁, hslotFor, hslot, hs, hw₁, hstays⟩ := hw.1.slotFor hsrc
    have hsince : r.InTuneSince E depth S w₀ w₁ := ⟨hw₁, hw.2.trans hstays⟩
    have hid := (World.slotOf_eq_some_iff.1 hslot).2
    have hret : s.retention = src.retention := by rw [(hw₁.source name id s hslot).2, hs]
    rw [hslotFor]
    dsimp only
    cases hf : s.frozen with
    | some v =>
      obtain ⟨hcached, hname, hkept⟩ := hw₁.kept name id s v hslot hf
      refine ⟨w₁, ?_, hsince⟩
      rw [hE.meaning_eq nested reads hsrc (hret ▸ hcached) hname, hkept]
      exact Slot.value_eq_of_frozen hcached (by rw [hid, Option.bind_some, hf]) _
    | none =>
      have hnone : ∀ i t, w₁.slotOf r name = some (i, t) → t.frozen = none := by
        intro i t ht
        rw [hslot] at ht
        cases ht
        exact hf
      obtain ⟨w₂, hask, hw₂⟩ := InTuneSince.ask ⟨hw₁, .refl r w₁⟩ hk hsrc hnone
        fun d hd hname template ht => hsubst d hd hname template ht w₁
      -- the slot is still there when the source has answered
      obtain ⟨t, ht⟩ := hw₂.2 name id s hslot
      obtain ⟨w', hretain, hw'⟩ := hw₂.retain hE nested reads hsrc hret ht
      rw [Slot.value_eq_of_not_frozen (by rw [hid, Option.bind_some, hf]), hs]
      exact ⟨w', Act.bind_eq_done.2 ⟨_, w₂, hask, hretain⟩, hw'.1, hsince.2.trans hw'.2⟩

end Reading

end Resolver

/-- In a transparent setting, reading a variable gives what it means, whatever was kept before. -/
theorem Setting.Transparent.gives_valueOf {E : Setting} (hE : E.Transparent) {depth : Nat}
    {r : Resolver} {w₀ : World} (k : Nat) {S : List String} {name : String} (nested : E.Nested S)
    (reads : E.Reads S name) (hk : depth + E.pending S < k) :
    Act.Gives (r.InTuneSince E depth S w₀) (E.meaning S name) ((Host.level k).valueOf r name) := by
  induction k generalizing S name w₀ with
  | zero => exact absurd hk (Nat.not_lt_zero _)
  | succ k ih =>
    intro w hw
    refine hw.valueOf hE nested reads (by omega) fun d hd hname template ht w₁ => ?_
    -- what is nested has one variable fewer to evaluate
    have fewer := pending_cons_lt (E.described_eq_some_iff.1 hd) hname
    exact Resolver.gives_substitute_of_asks template fun n hn =>
      ih (.cons nested reads hd hname) ⟨d, template, hd, ht, hn⟩ (by omega)

end LateBinding
