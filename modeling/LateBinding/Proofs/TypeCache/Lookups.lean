import LateBinding.Proofs.Slots

/-!
# Lookups of classes, exactly

The cache of a resolver remembers three things: the entry of each class, what names mean in the
default scope, and what names mean in other scopes.  The two tables of names are used alike
(`TypeCache.known`, `TypeCache.learn`), so a lookup by name has one equation
(`Resolver.classNamedIn_eq`), and so has the lookup of an entry (`Resolver.entry_eq`).
-/

namespace LateBinding

namespace World

/-- The world in which a resolver has another cache of types. -/
def withTypes (w : World) (r : Resolver) (t : TypeCache) : World :=
  w.withState r { w.stateOf r with types := t }

theorem types_withTypes (w : World) (r r' : Resolver) (t : TypeCache) :
    ((w.withTypes r t).stateOf r').types = if r.id = r'.id then t else (w.stateOf r').types := by
  rw [withTypes, stateOf_withState]
  split <;> rfl

end World

namespace TypeCache

/-- The entry that a resolver remembers for a name in a scope. -/
def known (t : TypeCache) (r : Resolver) (name : String) (scope : Identity) :
    Option (TypeEntry Value) :=
  if scope = r.defaultScope.id then t.byName.get? name else t.byScopedName.get? (name, scope)

/-- Remember an entry for a name in a scope. -/
def learn (t : TypeCache) (r : Resolver) (name : String) (scope : Identity)
    (e : TypeEntry Value) : TypeCache :=
  if scope = r.defaultScope.id then { t with byName := t.byName.insert name e }
  else { t with byScopedName := t.byScopedName.insert (name, scope) e }

/-- Remember the entry of a class. -/
def enter (t : TypeCache) (e : TypeEntry Value) : TypeCache :=
  { t with entries := t.entries.insert e.cls.id e }

variable (t : TypeCache) (r : Resolver)

@[simp] theorem entries_learn (name : String) (scope : Identity) (e : TypeEntry Value) :
    (t.learn r name scope e).entries = t.entries := by
  unfold learn
  split <;> rfl

/-- What is learnt about a name in a scope is known from then on, and nothing else is. -/
theorem known_learn (name name' : String) (scope scope' : Identity) (e : TypeEntry Value) :
    (t.learn r name scope e).known r name' scope' =
      if name = name' ∧ scope = scope' then some e else t.known r name' scope' := by
  by_cases hs : scope = r.defaultScope.id <;> by_cases hs' : scope' = r.defaultScope.id
  · simp [learn, known, hs, hs', Table.get?_insert]
  · have : scope ≠ scope' := fun h => hs' (h ▸ hs)
    simp [learn, known, hs, hs', hs ▸ this]
  · simp [learn, known, hs, hs']
  · simp [learn, known, hs, hs', Table.get?_insert, Prod.mk.injEq]

end TypeCache

namespace Resolver

variable (r : Resolver) (w : World)

theorem entry_eq (c : Class Value) :
    r.entry c w =
      match (w.stateOf r).types.entries.get? c.id with
      | some e => .done e w
      | none =>
        .done ⟨w.next, c⟩
          ({ w with next := w.next + 1 }.withTypes r ((w.stateOf r).types.enter ⟨w.next, c⟩)) := by
  simp only [entry, types, state, Act.bind_apply, Act.world_apply, Act.pure_apply]
  cases (w.stateOf r).types.entries.get? c.id <;> rfl

/-- A lookup in a scope: a name that is known is not looked up again, and one that means nothing is
not remembered.  The default scope is told by its identity. -/
theorem classNamedIn_eq (name : String) {scope : Scope}
    (hs : scope.id = r.defaultScope.id → scope = r.defaultScope) :
    r.classNamedIn name scope w =
      match (w.stateOf r).types.known r name scope.id with
      | some e => .done (some e) w
      | none =>
        match w.find? scope name with
        | none => .done none w
        | some c => (do
            let e ← r.entry c
            r.updateTypes fun t => t.learn r name scope.id e
            return some e : Act (Option (TypeEntry Value))) w := by
  by_cases h : scope.id = r.defaultScope.id
  · have same : scope.same r.defaultScope = true := by simpa [Scope.same] using h
    obtain rfl := hs h
    rw [classNamedIn, if_pos same]
    simp only [classNamed, types, state, Act.bind_apply, Act.world_apply, Act.pure_apply,
      TypeCache.known, TypeCache.learn, if_true]
    cases (w.stateOf r).types.byName.get? name with
    | some e => rfl
    | none =>
      simp only [Act.bind_apply, Act.world_apply]
      cases w.find? r.defaultScope name <;> rfl
  · have other : scope.same r.defaultScope = false := by simpa [Scope.same] using h
    rw [classNamedIn, other, if_neg Bool.false_ne_true]
    simp only [types, state, Act.bind_apply, Act.world_apply, Act.pure_apply,
      TypeCache.known, TypeCache.learn, if_neg h]
    cases (w.stateOf r).types.byScopedName.get? (name, scope.id) with
    | some e => rfl
    | none =>
      simp only [Act.bind_apply, Act.world_apply]
      cases w.find? scope name <;> rfl

/-- The two ways of asking for a class in the default scope are one. -/
theorem classNamedIn_defaultScope (name : String) :
    r.classNamedIn name r.defaultScope = r.classNamed name := by
  simp [classNamedIn, Scope.same]

/-- How a lookup in a scope ends: the name is known, it means nothing, or its class is reached and
the name is known from then on. -/
theorem classNamedIn_cases {w w' : World} {name : String} {scope : Scope}
    {o : Option (TypeEntry Value)} (h : r.classNamedIn name scope w = .done o w') :
    (∃ e, (w.stateOf r).types.known r name scope.id = some e ∧ o = some e ∧ w' = w) ∨
    (w.stateOf r).types.known r name scope.id = none ∧
      (o = none ∧ w' = w ∨
        ∃ s c e w₁, w.find? s name = some c ∧ r.entry c w = .done e w₁ ∧ o = some e ∧
          w' = w₁.withTypes r ((w₁.stateOf r).types.learn r name scope.id e)) := by
  -- a scope that is the default scope by its identity is looked up as the default scope
  obtain ⟨s, hid, hs, h⟩ : ∃ s : Scope, s.id = scope.id ∧
      (s.id = r.defaultScope.id → s = r.defaultScope) ∧ r.classNamedIn name s w = .done o w' := by
    by_cases hid : scope.id = r.defaultScope.id
    · refine ⟨r.defaultScope, hid.symm, fun _ => rfl, ?_⟩
      rw [classNamedIn_defaultScope, ← h, classNamedIn, if_pos (by simpa [Scope.same] using hid)]
    · exact ⟨scope, rfl, fun h => absurd h hid, h⟩
  rw [r.classNamedIn_eq w name hs, hid] at h
  cases hknown : (w.stateOf r).types.known r name scope.id with
  | some e =>
    rw [hknown] at h
    cases h
    exact .inl ⟨e, rfl, rfl, rfl⟩
  | none =>
    rw [hknown] at h
    refine .inr ⟨rfl, ?_⟩
    cases hfind : w.find? s name with
    | none =>
      rw [hfind] at h
      cases h
      exact .inl ⟨rfl, rfl⟩
    | some c =>
      rw [hfind] at h
      obtain ⟨e, w₁, he, h⟩ := Act.bind_eq_done.1 h
      cases h
      exact .inr ⟨s, c, e, w₁, hfind, he, rfl, rfl⟩

/-- A name that is known means what it is known for. -/
theorem eq_of_known {w w' : World} {name : String} {scope : Scope} {e : TypeEntry Value}
    {o : Option (TypeEntry Value)} (hknown : (w.stateOf r).types.known r name scope.id = some e)
    (h : r.classNamedIn name scope w = .done o w') : o = some e := by
  obtain ⟨e', he, rfl, -⟩ | ⟨hnew, -⟩ := r.classNamedIn_cases h
  · rw [← he, hknown]
  · rw [hknown] at hnew
    cases hnew

end Resolver

end LateBinding
