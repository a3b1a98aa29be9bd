import LateBinding.Proofs.Storage

/-!
# What new objects start with

The fields of a new object are entered class by class, from the most distant one of the lineage to
the class of the object, and on each class in the order of declaration; a later entry replaces an
earlier one of its name.  So what stays for a name is the last instance field that the nearest class
with such a field declares (`Class.Seeds`), which is what a search from the class upwards finds
first (`Class.get?_seeds`).  Static fields take no part in this, whichever class declares them.

* `Object.new_object_is_seeded` : **a new object has a field for exactly the names under which some
  class of its lineage declares an instance field, and it starts with the value that the last
  declaration on the nearest such class gives**.
-/

namespace LateBinding

/-- The last pair for a key stays. -/
theorem Table.get?_ofList {κ α : Type} [DecidableEq κ] (l : List (κ × α)) (k : κ) :
    (ofList l).get? k = (l.reverse.find? fun e => decide (e.1 = k)).map Prod.snd := by
  induction l using List.reverseRecOn with
  | nil => rfl
  | append_singleton l e ih =>
    rw [ofList_append_singleton, get?_insert, List.reverse_append, List.reverse_singleton,
      List.singleton_append, List.find?_cons]
    by_cases hk : e.1 = k
    · simp [hk]
    · simp [hk, ih]

/-! ### Declarations that count -/

section Declarations

variable {V : Type}

/-- It is an instance field of this name. -/
structure FieldDecl.Instances (f : FieldDecl V) (name : String) : Prop where
  /-- The field bears the name. -/
  named : f.name = name
  /-- Every object has one. -/
  instanced : f.isStatic = false

theorem FieldDecl.instances_iff {f : FieldDecl V} {name : String} :
    f.Instances name ↔ f.name = name ∧ f.isStatic = false :=
  ⟨fun h => ⟨h.1, h.2⟩, fun h => ⟨h.1, h.2⟩⟩

instance (f : FieldDecl V) (name : String) : Decidable (f.Instances name) :=
  decidable_of_iff _ FieldDecl.instances_iff.symm

namespace ClassDecl

/-- The last instance field of this name that the class declares. -/
def seed? (k : ClassDecl V) (name : String) : Option (FieldDecl V) :=
  k.fields.reverse.find? fun f => decide (f.Instances name)

/-- The class declares this instance field, and no other of its name behind it. -/
def Seeds (k : ClassDecl V) (name : String) (f : FieldDecl V) : Prop :=
  ∃ before behind, k.fields = before ++ f :: behind ∧ f.Instances name ∧
    ∀ g ∈ behind, ¬ g.Instances name

variable {k : ClassDecl V} {name : String}

theorem seed?_eq_some_iff {f : FieldDecl V} : k.seed? name = some f ↔ k.Seeds name f := by
  simp only [seed?, List.find?_eq_some_iff_append, decide_eq_true_eq, Bool.not_eq_true',
    decide_eq_false_iff_not]
  constructor
  · rintro ⟨counts, behind, before, hfields, hbehind⟩
    rw [List.reverse_eq_append_iff] at hfields
    exact ⟨before.reverse, behind.reverse, by simpa using hfields, counts, by simpa using hbehind⟩
  · rintro ⟨before, behind, hfields, counts, hbehind⟩
    exact ⟨counts, behind.reverse, before.reverse, by simp [hfields], by simpa using hbehind⟩

theorem seed?_eq_none_iff : k.seed? name = none ↔ ∀ f ∈ k.fields, ¬ f.Instances name := by
  simp [seed?]

end ClassDecl

namespace Class

/-- The field that a search from the class upwards finds first. -/
def seed? (c : Class V) (name : String) : Option (FieldDecl V) :=
  c.lineage.findSome? fun k => k.seed? name

/-- This is the last instance field of the name on the nearest class of the lineage that declares
one. -/
def Seeds (c : Class V) (name : String) (f : FieldDecl V) : Prop :=
  ∃ nearer k farther, c.lineage = nearer ++ k :: farther ∧ k.Seeds name f ∧
    ∀ j ∈ nearer, ∀ g ∈ j.fields, ¬ g.Instances name

variable {c : Class V} {name : String}

theorem seed?_eq_some_iff {f : FieldDecl V} : c.seed? name = some f ↔ c.Seeds name f := by
  simp only [seed?, Seeds, List.findSome?_eq_some_iff, ClassDecl.seed?_eq_some_iff,
    ClassDecl.seed?_eq_none_iff]

theorem seed?_eq_none_iff :
    c.seed? name = none ↔ ∀ k ∈ c.lineage, ∀ f ∈ k.fields, ¬ f.Instances name := by
  simp only [seed?, List.findSome?_eq_none_iff, ClassDecl.seed?_eq_none_iff]

/-- Entering the fields from the most distant class on leaves what the search finds. -/
theorem get?_seeds (c : Class V) (name : String) :
    (Table.ofList c.seeds).get? name = (c.seed? name).map FieldDecl.initial := by
  have entered (f : FieldDecl V) :
      (if f.isStatic then none else some (f.name, f.initial)).any (fun e => decide (e.1 = name)) =
        decide (f.Instances name) := by
    rw [Bool.eq_iff_iff, decide_eq_true_iff, FieldDecl.instances_iff]
    by_cases hstatic : f.isStatic = true <;> simp [hstatic]
  rw [Table.get?_ofList, seeds, ← List.filterMap_reverse, List.reverse_flatMap,
    List.reverse_reverse, List.find?_filterMap, List.find?_flatMap]
  simp only [entered, Function.comp_apply]
  change ((c.seed? name).bind _).map _ = _
  cases hseed : c.seed? name with
  | none => rfl
  | some f =>
    obtain ⟨_, _, _, _, ⟨_, _, _, counts, _⟩, _⟩ := seed?_eq_some_iff.1 hseed
    simp [counts.instanced]

/-- Of two fields of one name the last counts, and a static one hides nothing. -/
example :
    let near : ClassDecl Nat :=
      ⟨2, "pkg.Near", .concrete, none, [], [⟨"size", "int", .pub, true, 7⟩], [], []⟩
    let far : ClassDecl Nat := ⟨1, "pkg.Far", .concrete, none, [],
      [⟨"size", "int", .pub, false, 3⟩, ⟨"size", "int", .pub, false, 4⟩], [], []⟩
    (Table.ofList (seeds ⟨near, [far]⟩)).entries = [("size", 4)] := by decide

end Class

end Declarations

/-- Some declaration counts if there is one at all. -/
theorem Class.hasField_iff_exists_seeds {c : Class Value} {name : String} :
    c.HasField name ↔ ∃ f, c.Seeds name f := by
  simp only [← seed?_eq_some_iff, ← Option.ne_none_iff_exists', ne_eq, seed?_eq_none_iff,
    FieldDecl.instances_iff, HasField, not_forall, not_not, exists_prop]

/-! ### New objects -/

namespace Object

/-- Reading a field gives what is stored under its name. -/
theorem get_eq_done_iff {o : Object} {name : String} {w : World} {x : Option Value} :
    o.get name w = .done x w ↔ (w.fieldsOf o).get? name = x := by
  have read : o.get name w = .done ((w.fieldsOf o).get? name) w := rfl
  rw [read, Outcome.done.injEq, and_iff_left rfl]

/-- What is stored for a new object is what the search of its class finds. -/
theorem stored_of_alloc {c : Class Value} {o : Object} {w w' : World}
    (h : alloc c w = .done o w') (name : String) :
    (w'.fieldsOf o).get? name = (c.seed? name).map FieldDecl.initial := by
  cases h
  rw [World.fieldsOf, Store.get?_insert_self, Option.getD_some, Class.get?_seeds]

/-- **A new object is seeded from the nearest classes.**  Making an object of a class gives one that
has a field for exactly the names under which the class, or one that it extends, declares an
instance field.  Reading the field gives the value that the last declaration on the nearest of these
classes starts with. -/
theorem new_object_is_seeded (c : Class Value) (w : World) :
    ∃ o w', alloc c w = .done o w' ∧ o.cls = c ∧
      ∀ name, (name ∈ (w'.fieldsOf o).keys ↔ c.HasField name) ∧
        ∀ v, o.get name w' = .done (some v) w' ↔ ∃ f, c.Seeds name f ∧ f.initial = v := by
  refine ⟨_, _, rfl, rfl, fun name => ?_⟩
  have stored := stored_of_alloc (c := c) (w := w) rfl name
  constructor
  · rw [Class.hasField_iff_exists_seeds, ← not_iff_not, ← Table.get?_eq_none_iff, stored,
      Option.map_eq_none_iff]
    simp only [← Class.seed?_eq_some_iff, ← Option.ne_none_iff_exists', ne_eq, not_not]
  · intro v
    rw [get_eq_done_iff, stored, Option.map_eq_some_iff]
    simp only [Class.seed?_eq_some_iff]

end Object

end LateBinding
