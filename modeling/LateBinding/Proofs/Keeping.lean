import LateBinding.Proofs.Retained

/-!
# What a name keeps

A resolver keeps values in the slots of names, and a name has one slot.  So a value is kept for the
name by which it was asked for, and not for the provider or the declaration that it came from:

* `Resolver.cached_provider_is_kept_by_name` : what a provider that is to be kept gave by the name
  that it is registered under stays for this name, as long as it is registered there; but a
  declaration that refers to this name asks the provider itself, and keeps what it gets, or does
  not, as the declaration says;
* `Resolver.cached_declaration_is_kept_until_displaced` : what a declaration that is to be kept
  gave stays, even while providers are registered under its name and taken away; but if the name
  is read while a provider is registered, the declaration is asked anew when it counts again.

Hence one provider can give two values on two paths
(`Resolver.provider_differs_by_declaration`), and one declaration two values one after the other
(`Resolver.declaration_is_asked_again`).
-/

namespace LateBinding.Resolver

open Relation Session

variable {proxied : Value → Bool} {n m : Nat} {k : Names} {label name : String} {r : Resolver}
  {w w₁ w₂ : World} {p : Provider} {v : String}

/-! ### Providers -/

/-- An activity at whose end a provider is registered under a name. -/
def Under (r : Resolver) (name : String) (p : Provider) (w w' : World) : Prop :=
  r.Activity w w' ∧ (w'.stateOf r).registry.get? name = some p

/-- While a provider is registered under a name, nothing disturbs the name. -/
theorem undisturbed_of_under (hp : (w.stateOf r).registry.get? name = some p)
    (h : ReflTransGen (r.Under name p) w w₁) :
    ReflTransGen (r.Undisturbed name (.registered p)) w w₁ ∧
      (w₁.stateOf r).registry.get? name = some p := by
  induction h with
  | refl => exact ⟨.refl, hp⟩
  | tail _ h ih => exact ⟨ih.1.tail ⟨h.1, .inl (sourceOf_of_registered ih.2)⟩, h.2⟩

theorem registry_withState {o : Option Provider} (hw : (w.stateOf r).registry.get? name = o)
    {r' : Resolver} {s : ResolverState} (hs : s.registry = (w.stateOf r').registry) :
    ((w.withState r' s).stateOf r).registry.get? name = o := by
  rw [w.apply_stateOf_withState ResolverState.registry hs, hw]

/-- Bookkeeping leaves the registered providers as they are. -/
theorem bookInvariant_registry (r : Resolver) (name : String) (o : Option Provider) :
    r.BookInvariant fun w => (w.stateOf r).registry.get? name = o where
  spares w w' h hw := by
    rw [h.registry, hw]
  tended := {
    bind := fun w r' n src _ _ _ hw => by
      rw [w.registry_bindSlot, hw]
    keep := fun _ _ _ _ _ _ hw => hw
    enter := fun _ _ _ hw => hw
    leave := fun _ hw => hw
    index := fun _ _ _ hw => registry_withState hw rfl
    rename := fun _ _ _ _ _ _ _ hw => registry_withState hw rfl }

/-- Reading a variable leaves the registered providers as they are. -/
theorem registry_of_valueOf {q : Option Provider} (hq : (w.stateOf r).registry.get? name = q)
    {x : String} {o : Option String} (h : r.valueOf (Host.level m) x w = .done o w₁) :
    (w₁.stateOf r).registry.get? name = q :=
  (bookInvariant_registry r name q).valueOf hq h

/-- A provider stays registered during requests that register nothing and take nothing away. -/
theorem under_of_run (qs : List Request) (hqs : ∀ q ∈ qs, q.registers = false) {k' : Names}
    (hp : (w.stateOf r).registry.get? name = some p)
    (h : Session.run proxied (Host.level n) qs k w = .done k' w₁) :
    ReflTransGen (r.Under name p) w w₁ := by
  refine steps_of_run (I := fun w => (w.stateOf r).registry.get? name = some p) qs
    (fun q hq k x w w' hp h => ?_) hp h
  have hp' := (bookInvariant_registry r name (some p)).request (hqs q hq) hp h
  exact ⟨⟨.request h, hp'⟩, hp'⟩

/-- A declaration that refers to a name asks the provider that is registered under it, and not the
slot of the name. -/
theorem ask_of_refers {d : Mapping.Descriptor} (kind : d.kind = .registered)
    (refers : d.value = some name) (hp : (w.stateOf r).registry.get? name = some p) (h : Host)
    (x : String) : r.ask h x (.declared (.described d)) w = r.guarded x (p.get h) w := by
  refine guarded_congr ?_
  have registered : r.registered name (w.enter r x) = .done (some p) (w.enter r x) := by
    rw [← hp]
    rfl
  simp only [evaluate, kind, refers, Act.bind_apply, registered]

/-- **A provider that is to be kept is kept by its name.**  While it is registered under a name, all
readings of this name give the same from the first value on.  A declaration that refers to the name
asks the provider and not the name: if it is to be kept itself, all readings of it give the same
from its own first value on, and otherwise each of them asks the provider. -/
theorem cached_provider_is_kept_by_name (reached : Reached proxied (Host.level n) k w)
    (held : k.resolvers.get? label = some r)
    (registered : (w.stateOf r).registry.get? name = some p) (cached : p.retention = .cached) :
    (∀ m v w₁, r.valueOf (Host.level m) name w = .done (some v) w₁ →
      ∀ w₂, ReflTransGen (r.Under name p) w₁ w₂ →
        ∀ h, r.valueOf h name w₂ = .done (some v) w₂) ∧
    (∀ x d, r.document.declarations.get? x = some (.described d) → d.kind = .registered →
      d.value = some name → (w.stateOf r).registry.get? x = none →
        (d.retention = .cached → ∀ m v w₁, r.valueOf (Host.level m) x w = .done (some v) w₁ →
          ∀ w₂, ReflTransGen (r.Undisturbed x (.declared (.described d))) w₁ w₂ →
            (w₂.stateOf r).registry.get? x = none →
              ∀ h, r.valueOf h x w₂ = .done (some v) w₂) ∧
        (d.retention = .lazy → ∀ h, r.valueOf h x w =
          r.guarded x (p.get h) (r.slotted w x (.declared (.described d))))) := by
  obtain ⟨R, P, founded⟩ := reached.founded
  have made : r ∈ R := founded.admitted.resolvers label r held
  have source := sourceOf_of_registered registered
  refine ⟨fun m v w₁ first w₂ between h => ?_, fun x d declared kind refers free => ⟨?_, ?_⟩⟩
  · obtain ⟨between, registered₂⟩ :=
      undisturbed_of_under (registry_of_valueOf registered first) between
    exact valueOf_stays founded.sound made source cached first between
      (sourceOf_of_registered registered₂) h
  · intro hc m v w₁ first w₂ between free₂ h
    exact valueOf_stays founded.sound made (sourceOf_of_declared declared free) hc first between
      (sourceOf_of_declared declared free₂) h
  · intro hl h
    rw [valueOf_of_lazy founded.sound made (sourceOf_of_declared declared free) hl]
    refine ask_of_refers kind refers ?_ h x
    rw [registry_slotted, registered]

namespace Keeping

/-- What is found out while a client makes requests, asks for one variable, makes more requests, and
asks for another one. -/
structure Story where
  /-- The resolver that is asked. -/
  resolver : Resolver
  /-- The provider that is registered under a name at first. -/
  before : Option Provider
  /-- The provider that is registered under the name of the second variable at first. -/
  overriding : Option Provider
  /-- The first value. -/
  first : Option String
  /-- The provider that is registered under the name in the end. -/
  after : Option Provider
  /-- The second value. -/
  second : Option String

/-- Requests, a reading of `x`, more requests, and a reading of `y`.  What is registered is looked
up before the readings. -/
def story (earlier later : List Request) (name x y : String) : Act (Option Story) := do
  let k ← Session.run (fun _ => true) (Host.level 4) earlier ∅
  match k.resolvers.get? "r" with
  | none => return none
  | some r =>
    let before ← r.registered name
    let overriding ← r.registered y
    let first ← r.valueOf (Host.level 4) x
    let _ ← Session.run (fun _ => true) (Host.level 4) later k
    let after ← r.registered name
    let second ← r.valueOf (Host.level 4) y
    return some ⟨r, before, overriding, first, after, second⟩

/-- The story takes place in these worlds. -/
structure Story.Passes (t : Story) (later : List Request) (name x y : String) (k : Names)
    (w w₁ w₂ w₃ : World) : Prop where
  reached : Reached (fun _ => true) (Host.level 4) k w
  held : k.resolvers.get? "r" = some t.resolver
  before : (w.stateOf t.resolver).registry.get? name = t.before
  overriding : (w.stateOf t.resolver).registry.get? y = t.overriding
  first : t.resolver.valueOf (Host.level 4) x w = .done t.first w₁
  later : ∃ k', Session.run (fun _ => true) (Host.level 4) later k w₁ = .done k' w₂
  after : (w₂.stateOf t.resolver).registry.get? name = t.after
  second : t.resolver.valueOf (Host.level 4) y w₂ = .done t.second w₃

theorem passes_of_story {earlier later : List Request} {name x y : String} {t : Story} {w₃ : World}
    (h : story earlier later name x y World.empty = .done (some t) w₃) :
    ∃ k w w₁ w₂, t.Passes later name x y k w w₁ w₂ w₃ := by
  obtain ⟨k, w, hk, h⟩ := Act.bind_eq_done.1 h
  cases hr : k.resolvers.get? "r" with
  | none =>
    rw [hr] at h
    cases h
  | some r =>
    rw [hr] at h
    obtain ⟨before, _, hbefore, h⟩ := Act.bind_eq_done.1 h
    cases hbefore
    obtain ⟨overriding, _, hoverriding, h⟩ := Act.bind_eq_done.1 h
    cases hoverriding
    obtain ⟨first, w₁, hfirst, h⟩ := Act.bind_eq_done.1 h
    obtain ⟨k', w₂, hlater, h⟩ := Act.bind_eq_done.1 h
    obtain ⟨after, _, hafter, h⟩ := Act.bind_eq_done.1 h
    cases hafter
    obtain ⟨second, w₃, hsecond, h⟩ := Act.bind_eq_done.1 h
    cases h
    exact ⟨k, _, w₁, _, ⟨earlier, hk⟩, hr, rfl, rfl, hfirst, ⟨k', hlater⟩, rfl, hsecond⟩

/-- What is seen of a story. -/
structure Seen where
  /-- The declaration of a variable. -/
  declaration : Option Mapping.Declaration
  /-- The retentions of the providers that are registered. -/
  retentions : Option Retention × Option Retention × Option Retention
  /-- The values. -/
  values : Option String × Option String
  deriving DecidableEq

/-- What is seen of a story, with the declaration of this variable. -/
def Story.seen (z : String) (t : Story) : Seen where
  declaration := t.resolver.document.declarations.get? z
  retentions := (t.before.map Provider.retention, t.overriding.map Provider.retention,
    t.after.map Provider.retention)
  values := (t.first, t.second)

/-- A story of which this is seen takes place. -/
theorem exists_of_seen {earlier later : List Request} {name x y z : String} {s : Seen}
    (h : (story earlier later name x y World.empty).seen (fun t _ => t.map (Story.seen z)) =
      some (some s)) :
    ∃ (t : Story) (k : Names) (w w₁ w₂ w₃ : World),
      t.Passes later name x y k w w₁ w₂ w₃ ∧ t.seen z = s := by
  obtain ⟨t, w₃, hstory, hseen⟩ := Outcome.exists_of_seen h
  obtain ⟨t, rfl, rfl⟩ := Option.map_eq_some_iff.1 hseen
  obtain ⟨k, w, w₁, w₂, passes⟩ := passes_of_story hstory
  exact ⟨t, k, w, w₁, w₂, w₃, passes, rfl⟩

/-- The variable `x` refers to the name `n`, and is not to be kept. -/
def referring : Mapping.Descriptor := ⟨.registered, .lazy, none, some "n", []⟩

/-- A client registers a provider that gives what is in a register, and is to be kept. -/
def registering : List Request := [
  .scope "app" "app" none,
  .resolver "r" (Mapping.Document.empty.declare "x" (.described referring)) "app",
  .evaluate "src" (.literal (.str "one")),
  .provider "p" .cached (.computed (.register "src") none),
  .register "r" "n" "p"]

/-- The client writes the register. -/
def changing : List Request := [.evaluate "src" (.literal (.str "two"))]

theorem changing_registers : ∀ q ∈ changing, q.registers = false := by
  simp [changing, Request.registers]

/-- The name is read, the register is written, and the variable that refers to the name is read. -/
theorem exists_registering : ∃ (k k' : Names) (r : Resolver) (p : Provider) (w w₁ w₂ w₃ : World),
    Reached (fun _ => true) (Host.level 4) k w ∧ k.resolvers.get? "r" = some r ∧
      (w.stateOf r).registry.get? "n" = some p ∧ p.retention = .cached ∧
      r.document.declarations.get? "x" = some (.described referring) ∧
      (w.stateOf r).registry.get? "x" = none ∧
      r.valueOf (Host.level 4) "n" w = .done (some "one") w₁ ∧
      Session.run (fun _ => true) (Host.level 4) changing k w₁ = .done k' w₂ ∧
      r.valueOf (Host.level 4) "x" w₂ = .done (some "two") w₃ := by
  have seen : (story registering changing "n" "n" "x" World.empty).seen
      (fun t _ => t.map (Story.seen "x")) = some (some ⟨some (.described referring),
        (some .cached, none, some .cached), (some "one", some "two")⟩) := by decide +kernel
  obtain ⟨t, k, w, w₁, w₂, w₃, passes, hseen⟩ := exists_of_seen seen
  simp only [Story.seen, Seen.mk.injEq, Prod.mk.injEq, Option.map_eq_none_iff] at hseen
  obtain ⟨declared, ⟨hbefore, free, -⟩, hfirst, hsecond⟩ := hseen
  obtain ⟨p, hp, cached⟩ := Option.map_eq_some_iff.1 hbefore
  obtain ⟨k', later⟩ := passes.later
  have first := passes.first
  have second := passes.second
  rw [hfirst] at first
  rw [hsecond] at second
  exact ⟨k, k', t.resolver, p, w, w₁, w₂, w₃, passes.reached, passes.held, passes.before.trans hp,
    cached, declared, passes.overriding.trans free, first, later, second⟩

end Keeping

open Keeping in
/-- The name of a provider that is to be kept gives the first text again when the provider would
give another one, and the declaration that refers to the name asks the provider. -/
theorem name_keeps_one : ∃ (k : Names) (r : Resolver) (p : Provider) (w w₁ w₂ : World),
    Reached (fun _ => true) (Host.level 4) k w ∧ k.resolvers.get? "r" = some r ∧
      (w.stateOf r).registry.get? "n" = some p ∧ p.retention = .cached ∧
      r.valueOf (Host.level 4) "n" w = .done (some "one") w₁ ∧
      (∃ k', Session.run (fun _ => true) (Host.level 4) changing k w₁ = .done k' w₂) ∧
      r.valueOf (Host.level 4) "n" w₂ = .done (some "one") w₂ ∧
      r.valueOf (Host.level 4) "x" w =
        r.guarded "x" (p.get (Host.level 4)) (r.slotted w "x" (.declared (.described referring))) := by
  obtain ⟨k, k', r, p, w, w₁, w₂, -, reached, held, registered, cached, declared, free, first, later,
    -⟩ := exists_registering
  obtain ⟨kept, refers⟩ := cached_provider_is_kept_by_name reached held registered cached
  obtain ⟨-, asks⟩ := refers "x" referring declared rfl rfl free
  -- the provider is registered until the name is read again
  have between := under_of_run changing changing_registers (registry_of_valueOf registered first)
    later
  exact ⟨k, r, p, w, w₁, w₂, reached, held, registered, cached, first, ⟨k', later⟩,
    kept 4 "one" w₁ first w₂ between _, asks rfl _⟩

open Keeping in
/-- **One provider, two values.**  A provider that is to be kept can give a declaration that refers
to its name another value than it gave the name, although in between nothing was registered and
nothing taken away. -/
theorem provider_differs_by_declaration :
    ¬ ∀ (n m : Nat) (k k' : Names) (w : World) (label : String) (r : Resolver) (name x : String)
      (p : Provider) (d : Mapping.Descriptor) (qs : List Request) (v v' : String)
      (w₁ w₂ w₃ : World),
      Reached (fun _ => true) (Host.level n) k w → k.resolvers.get? label = some r →
        (w.stateOf r).registry.get? name = some p → p.retention = .cached →
        r.document.declarations.get? x = some (.described d) → d.kind = .registered →
        d.value = some name → (w.stateOf r).registry.get? x = none →
        r.valueOf (Host.level m) name w = .done (some v) w₁ →
        (∀ q ∈ qs, q.registers = false) →
        Session.run (fun _ => true) (Host.level n) qs k w₁ = .done k' w₂ →
        r.valueOf (Host.level m) x w₂ = .done (some v') w₃ → v' = v := by
  intro claim
  obtain ⟨k, k', r, p, w, w₁, w₂, w₃, reached, held, registered, cached, declared, free, first,
    later, second⟩ := exists_registering
  have same := claim 4 4 k k' w "r" r "n" "x" p referring changing "one" "two" w₁ w₂ w₃ reached held
    registered cached declared rfl rfl free first changing_registers later second
  revert same
  decide

/-! ### Declarations -/

/-- **A declaration that is to be kept is kept until its name is overridden and read.**  From its
first value on, all readings that use the declaration give this value, if between them the name was
not read while a provider was registered under it, however often providers were registered and
taken away.  If it was, the declaration is asked anew at the first reading that uses it again. -/
theorem cached_declaration_is_kept_until_displaced
    (reached : Reached proxied (Host.level n) k w) (held : k.resolvers.get? label = some r)
    {d : Mapping.Declaration} (declared : r.document.declarations.get? name = some d)
    (cached : d.retention = .cached) (free : (w.stateOf r).registry.get? name = none)
    (first : r.valueOf (Host.level m) name w = .done (some v) w₁) :
    (∀ w₂, ReflTransGen (r.Undisturbed name (.declared d)) w₁ w₂ →
      (w₂.stateOf r).registry.get? name = none →
        ∀ h, r.valueOf h name w₂ = .done (some v) w₂) ∧
    (∀ w₂ p m' o w₃, ReflTransGen r.Activity w₁ w₂ →
      (w₂.stateOf r).registry.get? name = some p →
      r.valueOf (Host.level m') name w₂ = .done o w₃ →
        ∀ w₄, ReflTransGen (r.Undisturbed name (.registered p)) w₃ w₄ →
          (w₄.stateOf r).registry.get? name = none →
            ∀ h, r.valueOf h name w₄ =
              (r.ask h name (.declared d) >>= (Slot.of (.declared d)).retain w₄.next)
                (w₄.bindSlot r name (.of (.declared d)))) := by
  obtain ⟨R, P, founded⟩ := reached.founded
  have made : r ∈ R := founded.admitted.resolvers label r held
  have source := sourceOf_of_declared declared free
  refine ⟨fun w₂ between free₂ h => ?_, fun w₂ p m' o w₃ before hp overridden w₄ between free₄ h => ?_⟩
  · exact valueOf_stays founded.sound made source cached first between
      (sourceOf_of_declared declared free₂) h
  · have bound : r.Bound w₁ := (bookInvariant_bound r).valueOf (.of_sound founded.sound) first
    exact valueOf_forgets (bound.activities before) hp overridden between
      (sourceOf_of_declared declared free₄) h

namespace Keeping

/-- The variable `v` is what a static method gives, and is to be kept. -/
def computed : Mapping.Descriptor := ⟨.static, .cached, some "pkg.B", some "id", []⟩

/-- The static method gives what is in a register. -/
def method : MethodDecl := ⟨"id", [], "str", .pub, true, [], some (.register "src")⟩

/-- A client declares the variable. -/
def declaring : List Request := [
  .scope "app" "app" none,
  .define "b" ⟨"pkg.B", .concrete, none, [method], [], [], []⟩ (some "app"),
  .resolver "r" (Mapping.Document.empty.declare "v" (.described computed)) "app",
  .evaluate "src" (.literal (.str "one")),
  .provider "over" .lazy (.constant "over")]

/-- The client writes the register; then it overrides the variable and releases it, without asking
for it. -/
def releasing : List Request := changing ++ [.register "r" "v" "over", .unregister "r" "v"]

/-- The client overrides the variable, asks for it, releases it, and writes the register. -/
def overriding : List Request :=
  [.register "r" "v" "over", .valueOf "r" "v", .unregister "r" "v"] ++ changing

end Keeping

open Keeping in
/-- A declaration that is to be kept gives the first text again after its name was overridden and
released. -/
theorem declaration_keeps_one : ∃ (k : Names) (r : Resolver) (w w₁ w₂ : World),
    Reached (fun _ => true) (Host.level 4) k w ∧ k.resolvers.get? "r" = some r ∧
      r.document.declarations.get? "v" = some (.described computed) ∧
      (w.stateOf r).registry.get? "v" = none ∧
      r.valueOf (Host.level 4) "v" w = .done (some "one") w₁ ∧
      (∃ k', Session.run (fun _ => true) (Host.level 4) releasing k w₁ = .done k' w₂) ∧
      r.valueOf (Host.level 4) "v" w₂ = .done (some "one") w₂ := by
  have seen : (story declaring releasing "v" "v" "v" World.empty).seen
      (fun t _ => t.map (Story.seen "v")) = some (some ⟨some (.described computed),
        (none, none, none), (some "one", some "one")⟩) := by decide +kernel
  obtain ⟨t, k, w, w₁, w₂, w₃, passes, hseen⟩ := exists_of_seen seen
  simp only [Story.seen, Seen.mk.injEq, Prod.mk.injEq, Option.map_eq_none_iff] at hseen
  obtain ⟨declared, ⟨hbefore, -, hafter⟩, hfirst, -⟩ := hseen
  have free := passes.before.trans hbefore
  obtain ⟨k', later⟩ := passes.later
  have first := passes.first
  rw [hfirst] at first
  obtain ⟨kept, -⟩ := cached_declaration_is_kept_until_displaced passes.reached passes.held declared
    rfl free first
  refine ⟨k, t.resolver, w, w₁, w₂, passes.reached, passes.held, declared, free, first,
    ⟨k', later⟩, kept w₂ ?_ (passes.after.trans hafter) _⟩
  -- the register is written while the declaration counts; then there are only registrations
  obtain ⟨x, w', writes, registrations⟩ := Act.bind_eq_done.1 later
  have begins : t.resolver.Undisturbed "v" (.declared (.described computed)) w₁ w' :=
    ⟨.request writes, .inl (sourceOf_of_declared declared (registry_of_valueOf free first))⟩
  cases x with
  | ok | error =>
    exact .head begins
      (Undisturbed.of_run_registers _ (by simp [Request.registers]) registrations)

open Keeping in
/-- **One declaration, two values.**  A declaration that is to be kept can give another value when
its name was overridden and released. -/
theorem declaration_is_asked_again :
    ¬ ∀ (n m : Nat) (k k' : Names) (w : World) (label : String) (r : Resolver) (name : String)
      (d : Mapping.Declaration) (qs : List Request) (v v' : String) (w₁ w₂ w₃ : World),
      Reached (fun _ => true) (Host.level n) k w → k.resolvers.get? label = some r →
        r.document.declarations.get? name = some d → d.retention = .cached →
        (w.stateOf r).registry.get? name = none →
        r.valueOf (Host.level m) name w = .done (some v) w₁ →
        Session.run (fun _ => true) (Host.level n) qs k w₁ = .done k' w₂ →
        (w₂.stateOf r).registry.get? name = none →
        r.valueOf (Host.level m) name w₂ = .done (some v') w₃ → v' = v := by
  intro claim
  have seen : (story declaring overriding "v" "v" "v" World.empty).seen
      (fun t _ => t.map (Story.seen "v")) = some (some ⟨some (.described computed),
        (none, none, none), (some "one", some "two")⟩) := by decide +kernel
  obtain ⟨t, k, w, w₁, w₂, w₃, passes, hseen⟩ := exists_of_seen seen
  simp only [Story.seen, Seen.mk.injEq, Prod.mk.injEq, Option.map_eq_none_iff] at hseen
  obtain ⟨declared, ⟨hbefore, -, hafter⟩, hfirst, hsecond⟩ := hseen
  obtain ⟨k', later⟩ := passes.later
  have first := passes.first
  have second := passes.second
  rw [hfirst] at first
  rw [hsecond] at second
  have same := claim 4 4 k k' w "r" t.resolver "v" (.described computed) overriding "one" "two"
    w₁ w₂ w₃ passes.reached passes.held declared rfl (passes.before.trans hbefore) first later
    (passes.after.trans hafter) second
  revert same
  decide

end LateBinding.Resolver
