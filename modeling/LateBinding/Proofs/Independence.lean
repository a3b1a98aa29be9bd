import LateBinding.Proofs.Meaning.Agreement

/-!
# Resolution without a past

What a template resolves to, as it depends on what was resolved before.

A resolver is *fresh* (`Resolver.Fresh`) if nothing was asked of it yet.

* `Resolver.resolution_is_independent` : **a template resolves to the same text after any other
  templates as with a fresh resolver**, if the sources are steady and a variable whose value is to
  be kept means the same wherever it comes to be evaluated.

The description of a variable has no value within its own evaluation, and a value that is kept is
kept for good.  So if variables whose values are to be kept depend on each other in a circle, a
value may be kept that was computed while an input was missing, and then it matters which of them
was read first (`Resolver.cut_value_is_kept`).
-/

namespace LateBinding

namespace Resolver

/-- Nothing was asked of the resolver yet: nothing belongs to it but registered providers.  No
identity has a memo before it is handed out. -/
structure Fresh (E : Setting) (r : Resolver) (w : World) : Prop where
  document : r.document = E.document
  state : w.stateOf r = { (default : ResolverState) with registry := E.registry }
  idle : ∀ name, w.isEvaluating r name = false
  unused : ∀ i, w.next ≤ i → w.members.get? i = none

section Independence

variable {E : Setting} {depth k : Nat} {r : Resolver} {w : World}

theorem Fresh.inTune (hw : r.Fresh E w) (holds : E.Holds depth r.defaultScope w) :
    r.InTune E depth [] w := by
  have slots name : (w.stateOf r).slots.get? name = none := by
    rw [hw.state]
    rfl
  have slotOf name : w.slotOf r name = none := by
    rw [World.slotOf, slots]
    rfl
  have entries i : (w.stateOf r).types.entries.get? i = none := by
    rw [hw.state]
    rfl
  have byName name : (w.stateOf r).types.byName.get? name = none := by
    rw [hw.state]
    rfl
  exact {
    document := hw.document
    registry := by rw [hw.state]
    holds := holds
    informed := {
      entries := by simp [entries]
      apart := by simp [entries]
      byName := by simp [byName]
      unused := hw.unused }
    evaluating := by
      refine ⟨w.evaluating, fun name hmem => ?_, rfl⟩
      have := hw.idle name
      rw [World.isEvaluating, List.contains_iff_mem.2 hmem] at this
      cases this
    bound := fun name id hid => by
      rw [slots] at hid
      cases hid
    injective := by simp [slots]
    source := by simp [slotOf]
    kept := by simp [slotOf] }

/-- In tune, a template resolves to what the setting says. -/
theorem gives_substitute_of_inTune (hE : E.Transparent)
    (hk : depth + E.document.declarations.size < k) (template : String) :
    Act.Gives (r.InTune E depth []) (E.resolved [] template)
      (r.substitute (.level k) template) := by
  have enough : depth + E.pending [] < k :=
    Nat.lt_of_le_of_lt (Nat.add_le_add_left (E.pending_le []) depth) hk
  intro w hw
  obtain ⟨w', hdone, hw', -⟩ := gives_substitute_of_asks template
    (fun _ _ => hE.gives_valueOf k .nil trivial enough) w ⟨hw, .refl r w⟩
  exact ⟨w', hdone, hw'⟩

/-- After any templates that were resolved before, a template resolves to the same text as with any
other resolver that is fresh in the same setting: to what variables mean. -/
theorem resolution_is_independent (hE : E.Transparent)
    (hk : depth + E.document.declarations.size < k) (holds : E.Holds depth r.defaultScope w)
    (fresh : r.Fresh E w) (earlier : List String) (template : String) :
    ∃ w₁ w₂, earlier.mapM (r.substitute (.level k)) w = .done (earlier.map (E.resolved [])) w₁ ∧
      E.Holds depth r.defaultScope w₁ ∧
      r.substitute (.level k) template w₁ = .done (E.resolved [] template) w₂ ∧
      ∀ (r' : Resolver) (w' : World), E.Holds depth r'.defaultScope w' → r'.Fresh E w' →
        ∃ w'', r'.substitute (.level k) template w' = .done (E.resolved [] template) w'' := by
  obtain ⟨w₁, hearlier, hw₁⟩ :=
    Act.Gives.mapM (gives_substitute_of_inTune hE hk) earlier w (fresh.inTune holds)
  obtain ⟨w₂, hlater, -⟩ := gives_substitute_of_inTune hE hk template w₁ hw₁
  refine ⟨w₁, w₂, hearlier, hw₁.holds, hlater, fun r' w' holds' fresh' => ?_⟩
  obtain ⟨w'', hdone, -⟩ := gives_substitute_of_inTune hE hk template w' (fresh'.inTune holds')
  exact ⟨w'', hdone⟩

end Independence

namespace Voices

/-- A class with a static method that gives a text. -/
def voice (id : Identity) (name text : String) : Class Value where
  decl :=
    { id, name
      kind := .concrete
      scope := none
      methods := [⟨"id", [], "str", .pub, true, [], some (.literal (.str text))⟩]
      fields := []
      constructors := [.implicit]
      markers := [] }
  inherited := []

/-- The text that the first method of a class gives, if it gives one. -/
def said (c : Class Value) : Option String :=
  c.decl.methods.head?.bind fun m =>
    match m.body with
    | some (.literal (.str text)) => some text
    | _ => none

/-- Classes for texts, by name. -/
def classes (l : List (String × String)) : Table String (Class Value) :=
  .ofList (l.zipIdx.map fun p => (p.1.1, voice (p.2 + 1) p.1.1 p.1.2))

/-- The scope that defines the classes. -/
def scope : Scope := .root 0 "app"

/-- The world in which the scope and its classes are all there is. -/
def world (l : List (String × String)) : World :=
  { World.empty with
    next := l.length + 2
    definitions := Store.insert ∅ scope.id (classes l) }

/-- A resolver for a document. -/
def resolver (l : List (String × String)) (doc : Mapping.Document) : Resolver :=
  ⟨l.length + 1, doc, scope⟩

/-- What there is around the resolver. -/
def setting (l : List (String × String)) (doc : Mapping.Document) : Setting where
  document := doc
  registry := ∅
  find? := (world l).find? scope
  given _ := none
  static c _ := said c
  made _ := none

variable {l : List (String × String)} {doc : Mapping.Document}

theorem exists_voice {name : String} {c : Class Value}
    (h : (setting l doc).find? name = some c) :
    ∃ i p, l[i]? = some p ∧ c = voice (i + 1) p.1 p.2 := by
  have lookup : (setting l doc).find? name = (classes l).get? name := by
    simp [setting, World.find?, World.classesOf, world, Scope.chain, scope, Scope.id]
  rw [lookup] at h
  obtain ⟨⟨p, i⟩, hp, heq⟩ := List.mem_map.1 (Table.mem_of_get?_ofList h)
  cases heq
  exact ⟨i, p, List.mem_zipIdx_iff_getElem?.1 hp, rfl⟩

theorem fresh (l : List (String × String)) (doc : Mapping.Document) :
    (resolver l doc).Fresh (setting l doc) (world l) := by
  refine ⟨rfl, ?_, fun _ => rfl, fun i _ => Store.get?_empty i⟩
  rw [World.stateOf, show (world l).resolvers = ∅ from rfl, Store.get?_empty]
  rfl

/-- Methods that give texts are steady. -/
theorem holds (hdoc : ∀ name d, doc.declarations.get? name = some (.described d) →
      d.kind = .static ∧ d.value = some "id" ∧ d.params = []) :
    (setting l doc).Holds 1 scope (world l) where
  found _ := rfl
  distinct name name' c c' hc hc' hid := by
    obtain ⟨i, p, hp, rfl⟩ := exists_voice hc
    obtain ⟨j, q, hq, rfl⟩ := exists_voice hc'
    obtain rfl : i = j := Nat.succ.inj hid
    rw [hp] at hq
    cases hq
    rfl
  given name p hp := by cases hp
  static name d hd _ method hm typeName c hc := by
    obtain ⟨i, p, -, rfl⟩ := exists_voice hc
    have declared := (setting l doc).declared_of_source (Setting.described_eq_some_iff _ |>.1 hd)
    obtain ⟨-, hvalue, hparams⟩ := hdoc name d declared
    rw [hvalue] at hm
    cases hm
    rw [hparams]
    intro k hk w' _
    obtain ⟨k, rfl⟩ := Nat.exists_eq_add_of_le' hk
    exact ⟨w', rfl, .refl w'⟩
  made name d hd hkind := by
    have declared := (setting l doc).declared_of_source (Setting.described_eq_some_iff _ |>.1 hd)
    rw [(hdoc name d declared).1] at hkind
    cases hkind

/-- A variable whose value a static method gives, of the class that a template denotes. -/
def asked (template : String) (retention : Retention) : Mapping.Declaration :=
  .described ⟨.static, retention, some template, some "id", []⟩

/-- Two variables depend on each other, and on one that depends on itself and whose value is to be
kept. -/
def tides : Mapping.Document :=
  ((Mapping.Document.empty.declare "root" (asked "@root@.Home" .cached)).declare "app"
    (asked "@root@.@lib@" .lazy)).declare "lib" (asked "@root@.@app@" .lazy)

/-- What the classes of these variables say. -/
def tideClasses : List (String × String) :=
  [("root.Home", "org"), ("org.app", "low"), ("org.low", "high"), ("org.lib", "left"),
    ("org.left", "right")]

theorem declared_tides {name : String} {d : Mapping.Descriptor}
    (h : tides.declarations.get? name = some (.described d)) :
    (name = "root" ∧ d = ⟨.static, .cached, some "@root@.Home", some "id", []⟩) ∨
      (d.kind = .static ∧ d.value = some "id" ∧ d.params = [] ∧ d.retention = .lazy) := by
  have entries : tides.declarations.entries =
    [("root", asked "@root@.Home" .cached), ("app", asked "@root@.@lib@" .lazy),
      ("lib", asked "@root@.@app@" .lazy)] := by decide +kernel
  have hmem := Table.mem_of_get? h
  simp only [entries, asked, List.mem_cons, Prod.mk.injEq, List.not_mem_nil, or_false,
    Mapping.Declaration.described.injEq] at hmem
  rcases hmem with ⟨rfl, rfl⟩ | ⟨-, rfl⟩ | ⟨-, rfl⟩ <;> simp

/-- The variable whose value is to be kept depends on nothing but itself. -/
theorem eq_of_depends {n : String} (hd : (setting tideClasses tides).described "root" =
      some ⟨.static, .cached, some "@root@.Home", some "id", []⟩)
    (h : (setting tideClasses tides).Depends "root" n) : n = "root" := by
  obtain ⟨S, d, template, hd', ht, i, -, hn⟩ := h
  have itself := Setting.meaning_of_described hd ("root" :: S)
  rw [if_pos List.mem_cons_self] at itself
  rw [hd] at hd'
  cases hd'
  cases ht
  have tokens : Template.tokens "@root@.Home" = ["root"] := by decide +kernel
  cases i with
  | zero => simpa [tokens] using hn
  | succ i =>
    -- within its own evaluation it has no value, and no token is left
    have pass : Template.once ((setting tideClasses tides).meaning ("root" :: S)) "@root@.Home" =
        Template.once (fun _ => none) "@root@.Home" :=
      Template.once_congr fun name hname => by
        rw [tokens, List.mem_singleton] at hname
        rw [hname, itself]
    have bare : Template.once (fun _ => none) "@root@.Home" = "root.Home" := by decide +kernel
    have plain : Template.hasTokens "root.Home" = false := by decide +kernel
    have none : Template.tokens "root.Home" = [] := by decide +kernel
    rw [Function.iterate_succ_apply, pass, bare, Template.iterate_once_of_not_hasTokens _ plain,
      none] at hn
    cases hn

theorem tides_transparent : (setting tideClasses tides).Transparent := by
  refine Setting.transparent_of_acyclic fun name d hd hcached n hn back => ?_
  clear back
  rcases declared_tides (Setting.declared_of_source _ ((Setting.described_eq_some_iff _).1 hd)) with
    ⟨rfl, rfl⟩ | ⟨-, -, -, hlazy⟩
  · induction hn with
    | single h => exact eq_of_depends hd h
    | tail _ h ih => exact eq_of_depends hd (ih ▸ h)
  · rw [hlazy] at hcached
    cases hcached

theorem holds_tides : (setting tideClasses tides).Holds 1 scope (world tideClasses) := by
  refine holds fun name d hd => ?_
  rcases declared_tides hd with ⟨-, rfl⟩ | ⟨hkind, hvalue, hparams, -⟩
  · exact ⟨rfl, rfl, rfl⟩
  · exact ⟨hkind, hvalue, hparams⟩

/-- What is seen of resolving a template first is what the variables mean. -/
theorem resolved_tides {template text : String}
    (h : ((resolver tideClasses tides).substitute (.level 5) template (world tideClasses)).seen
      (fun t _ => t) = some text) : (setting tideClasses tides).resolved [] template = text := by
  obtain ⟨t, w, hdone, rfl⟩ := Outcome.exists_of_seen h
  obtain ⟨w', hmeant, -⟩ := gives_substitute_of_inTune tides_transparent (k := 5) (by decide)
    template (world tideClasses) ((fresh tideClasses tides).inTune holds_tides)
  rw [hdone] at hmeant
  cases hmeant
  rfl

end Voices

open Voices in
/-- Variables that depend on each other resolve alike in any order, since their values are not
kept. -/
theorem tides_resolve_alike :
    (setting tideClasses tides).Transparent ∧ 1 + tides.declarations.size < 5 ∧
      (setting tideClasses tides).Holds 1 scope (world tideClasses) ∧
      (resolver tideClasses tides).Fresh (setting tideClasses tides) (world tideClasses) ∧
      ∃ w₁ w₂, ["@lib@", "@root@"].mapM ((resolver tideClasses tides).substitute (.level 5))
          (world tideClasses) = .done ["right", "org"] w₁ ∧
        (resolver tideClasses tides).substitute (.level 5) "@app@" w₁ = .done "high" w₂ ∧
        ∃ w, (resolver tideClasses tides).substitute (.level 5) "@app@" (world tideClasses) =
          .done "high" w := by
  obtain ⟨w₁, w₂, hearlier, -, hlater, hfresh⟩ :=
    resolution_is_independent tides_transparent (k := 5) (by decide) holds_tides
      (fresh tideClasses tides) ["@lib@", "@root@"] "@app@"
  obtain ⟨w, hw⟩ := hfresh _ _ holds_tides (fresh tideClasses tides)
  have lib : (setting tideClasses tides).resolved [] "@lib@" = "right" :=
    resolved_tides (by decide +kernel)
  have root : (setting tideClasses tides).resolved [] "@root@" = "org" :=
    resolved_tides (by decide +kernel)
  have app : (setting tideClasses tides).resolved [] "@app@" = "high" :=
    resolved_tides (by decide +kernel)
  rw [List.map_cons, List.map_cons, List.map_nil, lib, root] at hearlier
  rw [app] at hlater hw
  exact ⟨tides_transparent, by decide, holds_tides, fresh tideClasses tides, w₁, w₂, hearlier,
    hlater, w, hw⟩

namespace Voices

/-- Two variables whose values are to be kept depend on each other. -/
def circle : Mapping.Document :=
  (Mapping.Document.empty.declare "a" (asked "@b@.X" .cached)).declare "b" (asked "@a@.Y" .cached)

/-- What the classes of these variables say. -/
def circleClasses : List (String × String) :=
  [("a.Y", "p"), ("b.X", "q"), ("p.X", "r"), ("q.Y", "s")]

theorem declared_circle {name : String} {d : Mapping.Descriptor}
    (h : circle.declarations.get? name = some (.described d)) :
    d.kind = .static ∧ d.value = some "id" ∧ d.params = [] := by
  have entries : circle.declarations.entries =
    [("a", asked "@b@.X" .cached), ("b", asked "@a@.Y" .cached)] := by decide +kernel
  have hmem := Table.mem_of_get? h
  simp only [entries, asked, List.mem_cons, Prod.mk.injEq, List.not_mem_nil, or_false,
    Mapping.Declaration.described.injEq] at hmem
  rcases hmem with ⟨-, rfl⟩ | ⟨-, rfl⟩ <;> simp

end Voices

open Voices in
/-- If a variable is read within the evaluation of another one on which it depends, it misses an
input, and its value is kept all the same: read after the other one, it has another value than with
a fresh resolver. -/
theorem cut_value_is_kept :
    (setting circleClasses circle).Holds 1 scope (world circleClasses) ∧
      (resolver circleClasses circle).Fresh (setting circleClasses circle) (world circleClasses) ∧
      (∃ w₁ w₂, (resolver circleClasses circle).substitute (.level 4) "@a@" (world circleClasses) =
          .done "r" w₁ ∧
        (resolver circleClasses circle).substitute (.level 4) "@b@" w₁ = .done "p" w₂) ∧
      ∃ w, (resolver circleClasses circle).substitute (.level 4) "@b@" (world circleClasses) =
        .done "s" w := by
  have both : ((do
      let a ← (resolver circleClasses circle).substitute (.level 4) "@a@"
      let b ← (resolver circleClasses circle).substitute (.level 4) "@b@"
      return (a, b) : Act (String × String)) (world circleClasses)).seen (fun t _ => t) =
        some ("r", "p") := by
    decide +kernel
  have alone : ((resolver circleClasses circle).substitute (.level 4) "@b@"
      (world circleClasses)).seen (fun t _ => t) = some "s" := by
    decide +kernel
  refine ⟨holds fun _ _ => declared_circle, fresh circleClasses circle, ?_, ?_⟩
  · obtain ⟨_, w₂, hdone, rfl⟩ := Outcome.exists_of_seen both
    obtain ⟨a, w₁, ha, hdone⟩ := Act.bind_eq_done.1 hdone
    obtain ⟨b, _, hb, hdone⟩ := Act.bind_eq_done.1 hdone
    cases hdone
    exact ⟨w₁, w₂, ha, hb⟩
  · obtain ⟨_, w, hdone, rfl⟩ := Outcome.exists_of_seen alone
    exact ⟨w, hdone⟩

end Resolver

end LateBinding
