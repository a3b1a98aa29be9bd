import LateBinding.Proofs.Remembering

/-!
# New instances and the types they are bound to

A new instance is planned, constructed and then bound (`Resolver.newInstance_eq`).  The template of
the interface is resolved twice, when the adapted type is planned and again when the object is bound
to it, and what runs in between may change the values of variables.

* `Resolver.constructed_is_adapted` : **the object is of the planned class**, made by the
  constructor that this class declares for the adapted parameter types, **and the adapter is bound
  to that class if the template comes to the same name again**;
* `Resolver.constructed_is_not_adapted` : it may be bound to another class if a constructor makes
  the template come to another name.

A name that was found stays found whatever happens (`World.CachedIn`), so binding a new instance
fails only if the template has come to another name (`Resolver.bind_of_planned`).
-/

namespace LateBinding

/-- What is known stays known at all levels of evaluation. -/
theorem Host.keeps_cachedIn (m : Nat) (w : World) :
    (level m).Keeps (.free fun _ => True) w.CachedIn :=
  keeps_level_of_indifferent (World.CachedIn.stable w) (.cachedIn w) .free m

theorem Host.cachedIn_of_substitute (m : Nat) {r : Resolver} {template name : String} {w w' : World}
    (h : r.substitute (level m) template w = .done name w') : w.CachedIn w' :=
  ((Resolver.keeps_substitute trivial (keeps_cachedIn m w).reads template) (.refl w) h).1

/-! ### Templates of interfaces -/

namespace TypeEntry

variable {e : TypeEntry Value} {template : String} {w w' : World}

/-- The template of a type is that of the marker that is looked up. -/
theorem run_adaptsTemplate (e : TypeEntry Value) :
    e.adaptsTemplate.run =
      if e.cls.isInterface then
        e.marker .adapts >>= fun o => pure (match o.bind Marker.template? with
          | some template => .ok template
          | none => .error (.missingAdapts e.cls.name))
      else pure (.error (.notInterface e.cls.name)) := by
  unfold adaptsTemplate
  cases e.cls.isInterface with
  | false => rfl
  | true =>
    refine (Attempt.run_liftM_bind_eq _ _).trans ?_
    congr 1
    funext o
    cases o.bind Marker.template? <;> rfl

/-- An interface with a template, which is remembered. -/
def Adapts (e : TypeEntry Value) (template : String) (w : World) : Prop :=
  e.cls.isInterface = true ∧ ∃ x : Marker,
    (w.memoOf e).markers.get? .adapts = some (some x) ∧ x.template? = some template

theorem Adapts.cachedIn (h : e.Adapts template w) (hw : w.CachedIn w') : e.Adapts template w' := by
  obtain ⟨hi, x, hx, ht⟩ := h
  exact ⟨hi, x, hw.markers e _ _ hx, ht⟩

/-- The template of an interface is remembered from then on. -/
theorem adapts_of_adaptsTemplate (h : e.adaptsTemplate.run w = .done (.ok template) w') :
    e.Adapts template w' := by
  rw [run_adaptsTemplate] at h
  split at h
  · rename_i hi
    obtain ⟨o, w₁, ho, h⟩ := Act.bind_eq_done.1 h
    split at h
    · rename_i t ht
      cases h
      obtain ⟨x, rfl, hx⟩ := Option.bind_eq_some_iff.1 ht
      exact ⟨hi, x, e.known_of_marker ho, hx⟩
    · cases h
  · cases h

/-- A template that is remembered is found, and nothing else happens. -/
theorem Adapts.adaptsTemplate (h : e.Adapts template w) :
    e.adaptsTemplate.run w = .done (.ok template) w := by
  obtain ⟨hi, x, hx, ht⟩ := h
  rw [run_adaptsTemplate, if_pos hi]
  exact Act.bind_eq_done.2 ⟨some x, w, e.marker_of_known hx, by rw [Option.bind_some, ht]; rfl⟩

end TypeEntry

/-- An interface with a template is bound to the type that the template denotes now, or else that
type is not found. -/
theorem Adapter.bind_of_adapts {h : Host} {r : Resolver} {e : TypeEntry Value} {template : String}
    {target : Value} {scope : Option Scope} {w w' : World} {x : Except BindingError Adapter}
    (he : e.Adapts template w) (hx : (bind h r e target scope).run w = .done x w') :
    ∃ name w₁ o w₂, r.substitute h template w = .done name w₁ ∧
      r.classNamedIn name ((scope <|> target.unwrap.definingScope?).getD r.defaultScope) w₁ =
        .done o w₂ ∧
      ((∃ adapted a, o = some adapted ∧ x = .ok a ∧ a.target = target.unwrap ∧
          a.binding.adapted = adapted) ∨
        o = none ∧ x = .error (.typeNotFound template name)) := by
  obtain ⟨_, _, ht, hx⟩ | ⟨_, ht, -⟩ := Attempt.run_bind_eq_done.1 hx
  · rw [he.adaptsTemplate] at ht
    cases ht
    obtain ⟨adapted, w₂, hadapted, hx⟩ | ⟨err, hadapted, rfl⟩ := Attempt.run_bind_eq_done.1 hx
    · obtain ⟨name, w₁, o, hname, ho, hfound⟩ := Resolver.resolveClass_eq_done hadapted
      cases o with
      | some e' =>
        cases hfound
        cases hx
        exact ⟨name, w₁, _, w₂, hname, ho, .inl ⟨_, _, rfl, rfl, rfl, rfl⟩⟩
      | none => cases hfound
    · obtain ⟨name, w₁, o, hname, ho, hfound⟩ := Resolver.resolveClass_eq_done hadapted
      cases o with
      | some e' => cases hfound
      | none =>
        cases hfound
        exact ⟨name, w₁, _, w', hname, ho, .inr ⟨rfl, rfl⟩⟩
  · rw [he.adaptsTemplate] at ht
    cases ht

/-! ### Plans -/

namespace Resolver

variable {h : Host} {r : Resolver}

/-- What a world knows of a plan: the template of the interface, and the type that is adapted. -/
structure Planned (r : Resolver) (p : InstancePlan) (template : String) (w : World) : Prop where
  adapts : p.interface.Adapts template w
  known : (w.stateOf r).types.known r p.name p.scope.id = some p.adapted

theorem Planned.cachedIn {p : InstancePlan} {template : String} {w w' : World}
    (h : r.Planned p template w) (hw : w.CachedIn w') : r.Planned p template w' :=
  ⟨h.adapts.cachedIn hw, (hw.types r).known h.known⟩

/-- The name of the type that an interface adapts, as it is resolved now. -/
def adaptedName (h : Host) (r : Resolver) (interface : TypeEntry Value) :
    Attempt BindingError String := do
  r.substitute h (← interface.adaptsTemplate)

theorem adaptedName_of_adapts {e : TypeEntry Value} {template name : String} {w w' : World}
    (he : e.Adapts template w) (hname : r.substitute h template w = .done name w') :
    (r.adaptedName h e).run w = .done (.ok name) w' :=
  Attempt.run_bind_eq_done.2 (.inl ⟨template, w, he.adaptsTemplate,
    Attempt.run_liftM_eq_done.2 ⟨name, rfl, hname⟩⟩)

/-- A planned type is bound if the template comes to its name again; it may fail to be found only if
the template comes to another name. -/
theorem bind_of_planned {p : InstancePlan} {template : String} {o : Object} {w w' : World}
    {x : Except BindingError Adapter} (hp : r.Planned p template w)
    (hsub : ∀ name w₁, r.substitute h template w = .done name w₁ → w.CachedIn w₁)
    (hx : (Adapter.bind h r p.interface (.object o) (some p.scope)).run w = .done x w') :
    ∃ name w₁, (r.adaptedName h p.interface).run w = .done (.ok name) w₁ ∧
      ((∃ a, x = .ok a ∧ a.target = .object o ∧
          (name = p.name → a.binding.adapted = p.adapted)) ∨
        x = .error (.typeNotFound template name) ∧ name ≠ p.name) := by
  obtain ⟨name, w₁, found, w₂, hname, hfound, hx⟩ := Adapter.bind_of_adapts hp.adapts hx
  refine ⟨name, w₁, adaptedName_of_adapts hp.adapts hname, ?_⟩
  -- the name that was planned is still known when it is looked up again
  have again : name = p.name → found = some p.adapted := by
    rintro rfl
    exact r.eq_of_known (hp.cachedIn (hsub _ _ hname)).known hfound
  obtain ⟨adapted, a, rfl, rfl, htarget, hadapted⟩ | ⟨rfl, rfl⟩ := hx
  · refine .inl ⟨a, rfl, htarget, fun same => ?_⟩
    rw [hadapted, ← Option.some.injEq, again same]
  · refine .inr ⟨rfl, fun same => ?_⟩
    cases again same

/-- What the world knows of a plan that is made, whose constructor is that of the adapted type. -/
theorem planned_of_plan {m : Nat} {interface : String} {params : List String}
    {scope : Option Scope} {p : InstancePlan} {w w' : World} (hw : w.Accurate)
    (hp : (r.plan (Host.level m) interface params scope).run w = .done (.ok p) w') :
    (∃ template, r.Planned p template w') ∧
      p.adapted.cls.constructorHandle? p.params = some p.ctor := by
  obtain ⟨e, template, name, adapted, w₁, w₂, w₃, w₄, he, ht, hname, hadapted, hp⟩ := plan_eq_ok hp
  obtain ⟨params', w₅, k, hparams, hk, rfl⟩ := planOf_eq_ok hp
  -- worlds stay accurate, and go on knowing what they know
  have stable (w₀ : World) := World.Accurate.stable.and (World.CachedIn.stable w₀)
  have keeps (w₀ : World) := Host.keeps_level_of_indifferent (stable w₀)
    (World.Accurate.indifferent.and (.cachedIn w₀)) .free m
  have accurate₁ := ((keeps_resolveClass trivial (keeps w).reads (stable w).noting _ _)
    ⟨hw, .refl w⟩ he).1.1
  have accurate₂ := ((e.keeps_adaptsTemplate (stable w₁).noting)
    ⟨⟨accurate₁, .refl w₁⟩, caches_of_resolveClass he⟩ ht).1.1.1
  obtain ⟨accurate₃, cached₃⟩ :=
    ((keeps_substitute trivial (keeps w₂).reads _) ⟨accurate₂, .refl w₂⟩ hname).1
  obtain ⟨accurate₄, cached₄⟩ :=
    ((r.keeps_classNamedIn (stable w₃).noting _ _) ⟨accurate₃, .refl w₃⟩ hadapted).1
  obtain ⟨accurate₅, cached₅⟩ :=
    ((keeps_adaptTypes (stable w₄).noting (keeps w₄).reads trivial _ _)
      ⟨accurate₄, .refl w₄⟩ hparams).1
  have planned : r.Planned ⟨e, _, name, adapted, params', k⟩ template w₄ :=
    ⟨(e.adapts_of_adaptsTemplate ht).cachedIn (cached₃.trans cached₄),
      r.known_of_classNamedIn hadapted⟩
  have held : w₅.Caches adapted := ⟨r, .of_known (planned.cachedIn cached₅).known⟩
  have cached := ((adapted.leads_constructor (stable w₅).noting trivial params')
    ⟨⟨accurate₅, .refl w₅⟩, held⟩ hk).1.2
  exact ⟨⟨template, planned.cachedIn (cached₅.trans cached)⟩,
    (accurate₅.eq_of_constructor held hk).symm⟩

/-- When a new instance has been constructed, the world still knows its plan. -/
theorem planned_of_construct {m : Nat} {interface : String} {params : List String}
    {args : List Value} {scope : Option Scope} {p : InstancePlan} {o : Object} {w w₁ w₂ : World}
    (hw : w.Accurate) (hp : (r.plan (Host.level m) interface params scope).run w = .done (.ok p) w₁)
    (ho : (p.ctor.construct (Host.level m) args).run w₁ = .done (.ok o) w₂) :
    (∃ template, r.Planned p template w₂) ∧ o.cls = p.adapted.cls ∧
      p.adapted.cls.constructorHandle? p.params = some p.ctor := by
  obtain ⟨⟨template, planned⟩, hctor⟩ := planned_of_plan hw hp
  obtain ⟨cached, hcls⟩ := (Class.keeps_construct (Host.keeps_cachedIn m w₁).runs
    (World.CachedIn.stable w₁) (.free _) trivial _ fun _ _ => trivial) (.refl w₁) ho
  exact ⟨⟨template, planned.cachedIn cached⟩,
    (hcls o rfl).trans (Class.cls_of_constructorHandle? hctor), hctor⟩

/-- **A new instance is of the planned class**, and was made by the constructor that this class
declares for the adapted parameter types.  **It is bound to this very class if the template of the
interface comes to the name again** that it came to before the constructor ran. -/
theorem constructed_is_adapted {n m : Nat} {k : Session.Names} {w w' : World}
    (hw : Session.Reached (fun _ => true) (Host.level n) k w) {interface : String}
    {params : List String} {args : List Value} {scope : Option Scope} {a : Adapter}
    (ha : (r.newInstance (Host.level m) interface params args scope).run w = .done (.ok a) w') :
    ∃ p w₁ o w₂ name w₃,
      (r.plan (Host.level m) interface params scope).run w = .done (.ok p) w₁ ∧
      (p.ctor.construct (Host.level m) (args.map Value.unwrap)).run w₁ = .done (.ok o) w₂ ∧
      (r.adaptedName (Host.level m) p.interface).run w₂ = .done (.ok name) w₃ ∧
      a.target = .object o ∧ o.cls = p.adapted.cls ∧
      p.adapted.cls.constructorHandle? p.params = some p.ctor ∧
      (name = p.name → a.binding.adapted = p.adapted) := by
  obtain ⟨_, -, hx⟩ | ⟨p, w₁, hp, ⟨_, -, hx⟩ | ⟨o, w₂, ho, hbind⟩⟩ := newInstance_cases ha
  · cases hx
  · cases hx
  obtain ⟨⟨template, planned⟩, hcls, hctor⟩ := planned_of_construct hw.accurate hp ho
  obtain ⟨name, w₃, hname, ⟨a', hx, htarget, hadapted⟩ | ⟨hx, -⟩⟩ :=
    bind_of_planned planned (fun _ _ => Host.cachedIn_of_substitute m) hbind
  · cases hx
    exact ⟨p, w₁, o, w₂, name, w₃, hp, ho, hname, htarget, hcls, hctor, hadapted⟩
  · cases hx

/-! ### A constructor that changes what the template comes to -/

namespace Twins

open Session

/-- There are two classes of boxes, and a register says which one is adapted.  The constructor of
the first one writes that register. -/
def requests (start : String) : List Request := [
  .scope "app" "app" none,
  .evaluate "src" (.literal (.str start)),
  .define "one" ⟨"pkg.one", .concrete, none, [], [],
    [⟨[], .pub, .store "src" (.literal (.str "two"))⟩], []⟩ (some "app"),
  .define "two" ⟨"pkg.two", .concrete, none, [], [], [], []⟩ (some "app"),
  .define "box" ⟨"app.Box", .interface, none, [], [], [], [.adapts "pkg.@v@"]⟩ (some "app"),
  .resolver "r" ∅ "app",
  .provider "p" .lazy (.computed (.register "src") none),
  .register "r" "v" "p"]

/-- The names that the template comes to before a box is constructed and after that. -/
def names (r : Resolver) : Attempt BindingError (String × String) := do
  let p ← r.plan (Host.level 3) "app.Box" [] none
  let _ ← Attempt.ofTarget (p.ctor.construct (Host.level 3) [])
  let name ← r.adaptedName (Host.level 3) p.interface
  return (p.name, name)

theorem run_names {r : Resolver} {p : InstancePlan} {o : Object} {name : String}
    {w w₁ w₂ w₃ : World}
    (hp : (r.plan (Host.level 3) "app.Box" [] none).run w = .done (.ok p) w₁)
    (ho : (p.ctor.construct (Host.level 3) []).run w₁ = .done (.ok o) w₂)
    (hname : (r.adaptedName (Host.level 3) p.interface).run w₂ = .done (.ok name) w₃) :
    (names r).run w = .done (.ok (p.name, name)) w₃ :=
  Attempt.run_bind_eq_done.2 (.inl ⟨p, w₁, hp, Attempt.run_bind_eq_done.2 (.inl ⟨o, w₂,
    Attempt.run_ofTarget_eq_done.2 ho, Attempt.run_bind_eq_done.2 (.inl ⟨name, w₃, hname, rfl⟩)⟩)⟩)

/-- What is found out when a new box is made. -/
structure Story where
  /-- The names of the client. -/
  names : Names
  /-- The world before. -/
  before : World
  /-- The resolver. -/
  resolver : Resolver
  /-- The adapter. -/
  adapter : Adapter

/-- A new box is made. -/
def story (start : String) : Option Story := do
  let (k, w) ← played 3 (requests start)
  let r ← k.resolvers.get? "r"
  let a ← ((r.newInstance (Host.level 3) "app.Box" [] [] none).run w).result
  return ⟨k, w, r, a⟩

/-- The names of the class of the object and of the class that it is bound to. -/
def Story.classes (t : Story) : Option String × String :=
  (t.adapter.target.object?.map fun o => o.cls.name, t.adapter.binding.adapted.cls.name)

/-- The story takes place. -/
structure Story.Passes (t : Story) : Prop where
  reached : Reached (fun _ => true) (Host.level 3) t.names t.before
  held : t.names.resolvers.get? "r" = some t.resolver
  made : ∃ w, (t.resolver.newInstance (Host.level 3) "app.Box" [] [] none).run t.before =
    .done (.ok t.adapter) w

theorem passes_of_story {start : String} {t : Story} (h : story start = some t) : t.Passes := by
  simp only [story, Option.bind_eq_bind, Option.bind_eq_some_iff, Option.pure_def,
    Option.some.injEq] at h
  obtain ⟨⟨k, w⟩, hplayed, r, hr, a, ha, rfl⟩ := h
  exact ⟨reached_of_played hplayed, hr, Outcome.exists_of_result ha⟩

end Twins

open Twins in
/-- A box whose constructor does not change what the template comes to is bound to its class. -/
theorem second_box_is_adapted : ∃ (k : Session.Names) (r : Resolver) (w w' : World) (a : Adapter)
    (o : Object), Session.Reached (fun _ => true) (Host.level 3) k w ∧
      k.resolvers.get? "r" = some r ∧
      (r.newInstance (Host.level 3) "app.Box" [] [] none).run w = .done (.ok a) w' ∧
      a.target = .object o ∧ o.cls = a.binding.adapted.cls ∧ o.cls.name = "pkg.two" := by
  have same : (story "two").bind (fun t => ((names t.resolver).run t.before).result.map
      fun n => (t.classes, n)) = some ((some "pkg.two", "pkg.two"), "pkg.two", "pkg.two") := by
    decide +kernel
  obtain ⟨t, ht, hsame⟩ := Option.bind_eq_some_iff.1 same
  obtain ⟨n, hn, hsame⟩ := Option.map_eq_some_iff.1 hsame
  have passes := passes_of_story ht
  obtain ⟨w', hmade⟩ := passes.made
  obtain ⟨p, w₁, o, w₂, name, w₃, hp, ho, hname, htarget, hcls, -, hadapted⟩ :=
    constructed_is_adapted passes.reached hmade
  rw [run_names hp ho hname] at hn
  cases hn
  simp only [Story.classes, htarget, Value.object?, Option.map_some, Prod.mk.injEq,
    Option.some.injEq] at hsame
  obtain ⟨⟨hclass, -⟩, hplan, hagain⟩ := hsame
  have adapted := hadapted (hagain.trans hplan.symm)
  exact ⟨t.names, t.resolver, t.before, w', t.adapter, o, passes.reached, passes.held, hmade,
    htarget, hcls.trans (congrArg TypeEntry.cls adapted).symm, hclass⟩

open Twins in
/-- The object of a box need not be of the class that the adapter is bound to. -/
theorem constructed_is_not_adapted :
    ¬ ∀ (n : Nat) (k : Session.Names) (w : World),
      Session.Reached (fun _ => true) (Host.level n) k w →
        ∀ (label : String) (r : Resolver) (interface : String) (params : List String)
          (args : List Value) (scope : Option Scope) (a : Adapter) (w' : World),
          k.resolvers.get? label = some r →
          (r.newInstance (Host.level n) interface params args scope).run w = .done (.ok a) w' →
            ∃ o, a.target = .object o ∧ o.cls = a.binding.adapted.cls := by
  intro claim
  have other : (story "one").map Story.classes = some (some "pkg.one", "pkg.two") := by
    decide +kernel
  obtain ⟨t, ht, hother⟩ := Option.map_eq_some_iff.1 other
  have passes := passes_of_story ht
  obtain ⟨w', hmade⟩ := passes.made
  obtain ⟨o, htarget, hcls⟩ :=
    claim 3 t.names t.before passes.reached "r" t.resolver _ _ _ _ _ w' passes.held hmade
  simp only [Story.classes, htarget, Value.object?, Option.map_some, Prod.mk.injEq,
    Option.some.injEq] at hother
  rw [← hcls, hother.1] at hother
  exact absurd hother.2 (by decide)

end Resolver

end LateBinding
