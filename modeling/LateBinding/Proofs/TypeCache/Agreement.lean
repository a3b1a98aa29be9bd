import LateBinding.Proofs.TypeCache.History
import LateBinding.Proofs.TypeCache.Lookups

/-!
# Caches of types and histories

A cache *agrees* with a history (`TypeCache.Agrees`) if its entries are those that were handed out
and it knows names as they were found first.  Then there is one entry for each class, and there are
as many entries as classes that were reached (`Agrees.unique`, `Agrees.size_entries`).
-/

namespace LateBinding

namespace TypeCache

/-! ### Histories -/

section Histories

variable {r r' : Resolver} {past : List Event} {x : Event}

/-- The event is one of a resolver that was asked. -/
def Event.IsBy (r : Resolver) : Event → Prop
  | .defined _ _ => False
  | .reached r' _ _ => r' = r
  | .sought r' _ _ _ => r' = r

theorem latest_cons_of_isBy (hx : x.IsBy r) (scope : Identity) (name : String) :
    latest scope name (x :: past) = latest scope name past := by
  cases x with
  | defined => exact hx.elim
  | reached => rfl
  | sought => rfl

theorem handed_cons_of_isBy (hx : x.IsBy r) (hr : r.id ≠ r'.id) :
    handed r' (x :: past) = handed r' past := by
  cases x with
  | defined => exact hx.elim
  | reached r₁ c e =>
    obtain rfl : r₁ = r := hx
    simp [handed, Event.entry?, hr]
  | sought r₁ name scope found =>
    obtain rfl : r₁ = r := hx
    simp [handed, Event.entry?, hr]

theorem firstFound_cons_of_isBy (hx : x.IsBy r) (hr : r.id ≠ r'.id) (name : String)
    (scope : Identity) : firstFound r' name scope (x :: past) = firstFound r' name scope past := by
  cases x with
  | defined => exact hx.elim
  | reached => rfl
  | sought r₁ name' scope' found =>
    obtain rfl : r₁ = r := hx
    simp [firstFound, hr]

@[simp] theorem handed_reached (c : Class Value) (e : TypeEntry Value) :
    handed r (.reached r c e :: past) = e :: handed r past := by
  simp [handed, Event.entry?]

@[simp] theorem handed_sought_some (name : String) (scope : Scope) (e : TypeEntry Value) :
    handed r (.sought r name scope (some e) :: past) = e :: handed r past := by
  simp [handed, Event.entry?]

@[simp] theorem handed_sought_none (name : String) (scope : Scope) :
    handed r (.sought r name scope none :: past) = handed r past := by
  simp [handed, Event.entry?]

@[simp] theorem firstFound_reached (r' : Resolver) (c : Class Value) (e : TypeEntry Value)
    (name : String) (scope : Identity) :
    firstFound r name scope (.reached r' c e :: past) = firstFound r name scope past := rfl

/-- What was found first was handed out. -/
theorem mem_handed_of_firstFound {name : String} {scope : Identity} {e : TypeEntry Value}
    (h : firstFound r name scope past = some e) : e ∈ handed r past := by
  induction past with
  | nil => cases h
  | cons x past ih =>
    have earlier : e ∈ handed r past → e ∈ handed r (x :: past) := by
      intro he
      unfold handed at he ⊢
      rw [List.filterMap_cons]
      split
      · exact he
      · exact List.mem_cons_of_mem _ he
    cases x with
    | defined => exact earlier (ih h)
    | reached => exact earlier (ih h)
    | sought r' name' scope' found =>
      rw [firstFound, Option.or_eq_some_iff] at h
      rcases h with h | ⟨-, h⟩
      · exact earlier (ih h)
      · split at h
        · rename_i hr
          subst h
          simp [handed, Event.entry?, hr.1]
        · cases h

/-- The class that a name means is one that was defined under it. -/
theorem exists_latest_of_meaning {name : String} {scope : Scope} {c : Class Value}
    (h : meaning past name scope = some c) : ∃ s, latest s name past = some c := by
  induction scope with
  | root id _ => exact ⟨id, h⟩
  | child id _ parent ih =>
    rw [meaning, Option.or_eq_some_iff] at h
    rcases h with h | ⟨-, h⟩
    · exact ⟨id, h⟩
    · exact ih h

/-- Scopes that define what they came to define last find what names mean. -/
theorem find?_eq_meaning {w : World}
    (h : ∀ scope name, (w.classesOf scope).get? name = latest scope name past)
    (scope : Scope) (name : String) : w.find? scope name = meaning past name scope := by
  induction scope with
  | root id _ => simp [World.find?, Scope.chain, meaning, h]
  | child id _ parent ih =>
    have ih : (parent.chain.findSome? fun s => (w.classesOf s).get? name) = meaning past name parent :=
      ih
    rw [World.find?, Scope.chain, List.findSome?_cons, ih, meaning, h]
    cases latest id name past <;> rfl

end Histories

/-! ### Agreement with a history -/

/-- The entries are those that the resolver handed out, and the names that it knows are those that
it found. -/
structure Agrees (r : Resolver) (past : List Event) (t : TypeCache) : Prop where
  /-- The entry of a class is the one that was handed out. -/
  entries : ∀ i e, t.entries.get? i = some e ↔ e ∈ handed r past ∧ e.cls.id = i
  /-- A name is known as it was found first. -/
  known : ∀ name scope, t.known r name scope = firstFound r name scope past

namespace Agrees

variable {r : Resolver} {past : List Event} {t : TypeCache}

/-- There is one entry for each class. -/
theorem unique (h : Agrees r past t) {e e' : TypeEntry Value} (he : e ∈ handed r past)
    (he' : e' ∈ handed r past) (hc : e.cls.id = e'.cls.id) : e = e' := by
  have h₁ := (h.entries e.cls.id e).2 ⟨he, rfl⟩
  have h₂ := (h.entries e.cls.id e').2 ⟨he', hc.symm⟩
  rw [h₁] at h₂
  exact Option.some.inj h₂

/-- There are as many entries as classes that were reached. -/
theorem size_entries (h : Agrees r past t) :
    t.entries.size = (classesReached r past).card := by
  have keys : t.entries.keys.toFinset = classesReached r past := by
    ext i
    rw [List.mem_toFinset, classesReached, List.mem_toFinset, List.mem_map]
    constructor
    · intro hi
      obtain ⟨e, he⟩ := Option.ne_none_iff_exists'.1 fun hn => Table.get?_eq_none_iff.1 hn hi
      exact ⟨e, (h.entries i e).1 he⟩
    · rintro ⟨e, he⟩
      by_contra hi
      have := (h.entries i e).2 he
      rw [Table.get?_eq_none_iff.2 hi] at this
      cases this
  have nodup : t.entries.keys.Nodup := t.entries.nodup
  rw [← keys, List.toFinset_card_of_nodup nodup]
  simp [Table.size, Table.keys]

/-- An entry that is there is handed out. -/
theorem hit (h : Agrees r past t) {c : Class Value} {e : TypeEntry Value}
    (he : t.entries.get? e.cls.id = some e) : Agrees r (.reached r c e :: past) t where
  entries i e' := by
    rw [h.entries, handed_reached, List.mem_cons]
    constructor
    · rintro ⟨he', hi⟩
      exact ⟨.inr he', hi⟩
    · rintro ⟨rfl | he', hi⟩
      · exact ⟨((h.entries _ _).1 he).1, hi⟩
      · exact ⟨he', hi⟩
  known name scope := h.known name scope

/-- A new entry is handed out. -/
theorem miss (h : Agrees r past t) {c : Class Value} {e : TypeEntry Value}
    (he : t.entries.get? e.cls.id = none) : Agrees r (.reached r c e :: past) (t.enter e) where
  entries i e' := by
    rw [enter, Table.get?_insert, handed_reached, List.mem_cons]
    split
    · rename_i hi
      constructor
      · intro h
        cases h
        exact ⟨.inl rfl, hi⟩
      · rintro ⟨rfl | he', hi'⟩
        · rfl
        · have := (h.entries i e').2 ⟨he', hi'⟩
          rw [← hi, he] at this
          cases this
    · rename_i hi
      rw [h.entries]
      constructor
      · rintro ⟨he', hi'⟩
        exact ⟨.inr he', hi'⟩
      · rintro ⟨rfl | he', hi'⟩
        · exact absurd hi' hi
        · exact ⟨he', hi'⟩
  known name scope := h.known name scope

/-- A name that is known is found again. -/
theorem again (h : Agrees r past t) {name : String} {scope : Scope} {e : TypeEntry Value}
    (he : t.known r name scope.id = some e) : Agrees r (.sought r name scope (some e) :: past) t where
  entries i e' := by
    have mem : e ∈ handed r past := mem_handed_of_firstFound ((h.known name scope.id).symm.trans he)
    rw [h.entries, handed_sought_some, List.mem_cons]
    constructor
    · rintro ⟨he', hi⟩
      exact ⟨.inr he', hi⟩
    · rintro ⟨rfl | he', hi⟩
      · exact ⟨mem, hi⟩
      · exact ⟨he', hi⟩
  known name' scope' := by
    rw [firstFound, h.known]
    by_cases hn : name = name' ∧ scope.id = scope'
    · obtain ⟨rfl, rfl⟩ := hn
      rw [← h.known, he, Option.some_or]
    · simp [hn]

/-- Finding nothing is not remembered. -/
theorem missing (h : Agrees r past t) (name : String) (scope : Scope) :
    Agrees r (.sought r name scope none :: past) t where
  entries i e := by rw [h.entries, handed_sought_none]
  known name' scope' := by simp [firstFound, h.known]

/-- A name that was found with an entry that was handed out is known from then on. -/
theorem found {c : Class Value} {e : TypeEntry Value} (h : Agrees r (.reached r c e :: past) t)
    {name : String} {scope : Scope} (hnew : firstFound r name scope.id past = none) :
    Agrees r (.sought r name scope (some e) :: past) (t.learn r name scope.id e) where
  entries i e' := by
    rw [entries_learn, h.entries, handed_reached, handed_sought_some]
  known name' scope' := by
    rw [known_learn, h.known, firstFound_reached, firstFound]
    by_cases hn : name = name' ∧ scope.id = scope'
    · obtain ⟨rfl, rfl⟩ := hn
      simp [hnew]
    · simp [hn]

end Agrees

end TypeCache

end LateBinding
