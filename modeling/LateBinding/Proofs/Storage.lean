import Mathlib.Logic.Relation
import LateBinding.Proofs.Cells
import LateBinding.Proofs.Overriding
import LateBinding.Proofs.Session

/-!
# Storage of objects

An object gets a value for every instance field of its class and of those it extends when it is made
(`Object.alloc`), and nothing takes such a value away: whatever happens in a world, it is made of
small changes and of bookkeeping (`World.Moves`, `World.Later`), and these write fields but drop
none.  So an object that was made at some time (`Object.Made`) has all of them
(`Object.Made.whole`).

A handle of a field checks its receiver by the name of a class.  Two classes may share a name, since
scopes may hold different versions of a class.

* `FieldHandle.accesses_only_what_is_stored` : **a field that the class of the object has is read
  as it is stored, and written where it was stored**.  This is so for every handle that was found on
  the class of the object or on one that it extends.
* `version_without_field_gives_null` : on an object of another version of the class, which lacks the
  field, reading the field succeeds, and gives null.
-/

namespace LateBinding

/-! ### What happens in a world -/

namespace World

/-- Something happens in a world: it changes, or a resolver keeps its books. -/
inductive Moves (w : World) : World → Prop
  /-- It changes. -/
  | change {w' : World} (h : Change (.free fun _ => True) w w') : Moves w w'
  /-- Slots are bound or filled. -/
  | slots (s : Store Slot) : Moves w { w with slots := s }
  /-- The evaluation of a description begins or ends. -/
  | evaluating (l : List (Identity × String)) : Moves w { w with evaluating := l }
  /-- A resolver notes something of names. -/
  | state (r : Resolver) (s : ResolverState) :
    Moves w { w with resolvers := w.resolvers.insert r.id s }

/-- The second world has come about from the first one. -/
def Later : World → World → Prop := Relation.ReflTransGen Moves

namespace Later

variable {w w' : World}

theorem stable (w : World) : Stable (.free fun _ => True) (Later w) where
  respects w' _ := .free _ w'
  change _ _ h _ hw := hw.tail (.change h)

theorem indifferent (w : World) : Indifferent (Later w) where
  slots _ s hw := hw.tail (.slots s)
  evaluating _ l hw := hw.tail (.evaluating l)
  state _ r s _ hw := hw.tail (.state r s)

theorem level (w : World) (m : Nat) : (Host.level m).Keeps (.free fun _ => True) (Later w) :=
  Host.keeps_level_of_indifferent (stable w) (indifferent w) .free m

/-- Running a body leads to a later world. -/
theorem of_run {m : Nat} {body : Expr} {receiver : Value} {args : List Value}
    {x : Except Exception Value} (h : ((Host.level m).run body receiver args).run w = .done x w') :
    w.Later w' :=
  ((level w m).runs body receiver args trivial (fun _ _ => trivial) .refl h).1

/-- So do the requests of a client. -/
theorem of_requests {proxied : Value → Bool} {m : Nat} {qs : List Session.Request}
    {k k' : Session.Names} (h : Session.run proxied (Host.level m) qs k w = .done k' w') :
    w.Later w' := by
  have held : k.Admitted (.free fun _ => True) := ⟨fun _ _ _ => trivial, fun _ _ _ => trivial⟩
  exact (Session.keeps_run (stable w) .free (level w m) (Host.grows_level .free m) (indifferent w)
    (fun _ => trivial) (fun _ _ _ _ _ => trivial) qs held .refl h).1

end Later

end World

/-! ### Objects that were made -/

/-- The class or one that it extends declares an instance field of this name. -/
def Class.HasField (c : Class Value) (name : String) : Prop :=
  ∃ k ∈ c.lineage, ∃ f ∈ k.fields, f.name = name ∧ f.isStatic = false

theorem Class.hasField_iff {c : Class Value} {name : String} :
    c.HasField name ↔ name ∈ c.seeds.map Prod.fst := by
  simp only [HasField, seeds, List.mem_map, List.mem_filterMap, List.mem_flatMap, List.mem_reverse]
  constructor
  · rintro ⟨k, hk, f, hf, rfl, instanced⟩
    exact ⟨(f.name, f.initial), ⟨f, ⟨k, hk, hf⟩, by simp [instanced]⟩, rfl⟩
  · rintro ⟨e, ⟨f, ⟨k, hk, hf⟩, he⟩, rfl⟩
    split at he
    · cases he
    · rename_i instanced
      cases he
      exact ⟨k, hk, f, hf, rfl, by simpa using instanced⟩

theorem Table.exists_get?_ofList {κ α : Type} [DecidableEq κ] {l : List (κ × α)} {k : κ}
    (h : k ∈ l.map Prod.fst) : ∃ a, (ofList l).get? k = some a := by
  induction l using List.reverseRecOn with
  | nil => simp at h
  | append_singleton l e ih =>
    rw [ofList_append_singleton, get?_insert]
    by_cases hk : e.1 = k
    · exact ⟨e.2, if_pos hk⟩
    · have before : k ∈ l.map Prod.fst := by
        simpa [Ne.symm hk] using h
      rw [if_neg hk]
      exact ih before

namespace Object

/-- The object was made before, and has a value for each instance field that its class has. -/
structure Whole (o : Object) (w : World) : Prop where
  id_lt : o.id < w.next
  stored : ∀ name, o.cls.HasField name → ∃ v, w.cell? (.field o.id name) = some v

/-- The object was made at some time, and the world has come about since. -/
def Made (o : Object) (w : World) : Prop :=
  ∃ w₀ w₁, alloc o.cls w₀ = .done o w₁ ∧ w₁.Later w

variable {o : Object} {w w' : World}

/-- A new object is whole. -/
theorem whole_of_alloc {c : Class Value} (h : alloc c w = .done o w') : o.Whole w' := by
  cases h
  constructor
  · exact Nat.lt_succ_self w.next
  · intro name hname
    have seeded := Table.exists_get?_ofList (Class.hasField_iff.1 hname)
    simpa [World.cell?] using seeded

namespace Whole

variable (ho : o.Whole w)

include ho

/-- A world in which the same objects have the same fields. -/
theorem of_objects_eq (next : w.next ≤ w'.next) (same : w'.objects = w.objects) : o.Whole w' where
  id_lt := Nat.lt_of_lt_of_le ho.id_lt next
  stored name hname := by
    rw [World.cell?, same]
    exact ho.stored name hname

/-- Another object is made. -/
theorem alloc (c : Class Value) :
    o.Whole { w with
      next := w.next + 1
      objects := w.objects.insert w.next (Table.ofList c.seeds) } where
  id_lt := Nat.lt_succ_of_lt ho.id_lt
  stored name hname := by
    have other : w.next ≠ o.id := Nat.ne_of_gt ho.id_lt
    rw [World.cell?, Store.get?_insert, if_neg other]
    exact ho.stored name hname

/-- A field of an object is written. -/
theorem write (c : Cell) (v : Value) : o.Whole (w.write c v) where
  id_lt := by cases c <;> exact ho.id_lt
  stored name hname := World.exists_cell?_write (ho.stored name hname) c v

/-- Whatever happens, the object stays whole. -/
theorem moves (h : w.Moves w') : o.Whole w' := by
  cases h with
  | change h =>
    cases h with
    | note h =>
      cases h with
      | fresh | reach => exact ho.of_objects_eq (Nat.le_succ _) rfl
      | learn | memo | constructor => exact ho.of_objects_eq (Nat.le_refl _) rfl
    | alloc => exact ho.alloc _
    | field o' name => exact ho.write (.field o'.id name) _
    | register | static | seed | define => exact ho.of_objects_eq (Nat.le_refl _) rfl
  | slots | evaluating | state => exact ho.of_objects_eq (Nat.le_refl _) rfl

theorem later (h : w.Later w') : o.Whole w' := by
  induction h with
  | refl => exact ho
  | tail _ last ih => exact ih.moves last

end Whole

theorem made_of_alloc {c : Class Value} (h : alloc c w = .done o w') : o.cls = c ∧ o.Made w' := by
  have cls : o.cls = c := by
    cases h
    rfl
  exact ⟨cls, w, w', cls ▸ h, .refl⟩

theorem Made.whole (h : o.Made w) : o.Whole w := by
  obtain ⟨w₀, w₁, made, later⟩ := h
  exact (whole_of_alloc made).later later

theorem Made.later (h : o.Made w) (later : w.Later w') : o.Made w' := by
  obtain ⟨w₀, w₁, made, before⟩ := h
  exact ⟨w₀, w₁, made, before.trans later⟩

end Object

theorem Class.alloc_of_start {c : Class Value} {k : ConstructorDecl} {args : List Value}
    {o : Object} {w w' : World} (h : (c.start k args).run w = .done (.ok o) w') :
    Object.alloc c w = .done o w' := by
  unfold start at h
  dsimp only at h
  split at h
  · cases h
  split at h
  · cases h
  obtain ⟨_, hok, made⟩ := Attempt.run_liftM_eq_done.1 h
  cases hok
  exact made

/-- A constructor makes its object. -/
theorem Class.made_of_construct {m : Nat} {c : Class Value} {k : ConstructorDecl}
    {args : List Value} {o : Object} {w w' : World}
    (h : (c.construct (Host.level m) k args).run w = .done (.ok o) w') : o.Made w' := by
  rw [construct_eq] at h
  obtain ⟨o', w₁, started, h⟩ | ⟨_, -, h⟩ := Attempt.run_bind_eq_done.1 h
  · obtain ⟨_, w₂, ran, h⟩ | ⟨_, -, h⟩ := Attempt.run_bind_eq_done.1 h
    · cases h
      exact (Object.made_of_alloc (alloc_of_start started)).2.later (.of_run ran)
    · cases h
  · cases h

/-! ### Handles of fields -/

/-- A field that is found is declared in the lineage, with its name. -/
theorem Class.hasField_of_findField {c a : Class Value} {name : String} {f : FieldHandle}
    (above : c.Extends a) (found : a.findField name = some f)
    (instanced : f.decl.isStatic = false) : c.HasField name := by
  obtain ⟨declaring, declared⟩ := declared_of_search found
  have named : f.decl.name = name := by simpa using List.find?_some declared
  exact ⟨f.declaring, above.lineage_suffix.mem declaring, f.decl,
    List.mem_of_find?_eq_some declared, named, instanced⟩

namespace FieldHandle

variable {f : FieldHandle} {target : Value} {w w' : World}

/-- The cell that a handle of an instance field accesses belongs to the target. -/
theorem cell_eq_ok {c : Cell} (instanced : f.decl.isStatic = false) (h : f.cell target = .ok c) :
    ∃ o, target = .object o ∧ o.cls.isSubclassOf f.declaring.name = true ∧
      c = .field o.id f.decl.name := by
  unfold cell at h
  rw [instanced] at h
  cases hreceiver : f.receiver target with
  | ok o =>
    obtain ⟨rfl, passes⟩ := receiver_eq_ok hreceiver
    rw [hreceiver] at h
    cases h
    exact ⟨o, rfl, passes, rfl⟩
  | error e =>
    rw [hreceiver] at h
    cases h

/-- **Stored fields are accessed where they are stored.**  Let a handle of an instance field be
found under a name.  A target on which the field can be read or written is an object.  Reading gives
what the object holds under the name, or null.  If the class of the object has such a field, as it
does if it is or extends the class on which the handle was found, then the object does hold a value,
which is the one that is read, and writing replaces it. -/
theorem accesses_only_what_is_stored {a : Class Value} {name : String}
    (found : a.findField name = some f) (instanced : f.decl.isStatic = false)
    (made : ∀ o : Object, target = .object o → o.Made w) :
    (∀ v w', (f.get target).run w = .done (.ok v) w' →
      ∃ o, target = .object o ∧ w' = w ∧ v = (w.cell? (.field o.id name)).getD .null ∧
        (o.cls.HasField name ∨ o.cls.Extends a → w.cell? (.field o.id name) = some v)) ∧
    ∀ u w', (f.set target u).run w = .done (.ok ()) w' →
      ∃ o, target = .object o ∧ w' = w.write (.field o.id name) u ∧
        (o.cls.HasField name ∨ o.cls.Extends a → ∃ old, w.cell? (.field o.id name) = some old) := by
  have declared := (Class.declared_of_search found).2
  have named : f.decl.name = name := by simpa using List.find?_some declared
  have stored (o : Object) (ho : target = .object o) (has : o.cls.HasField name ∨ o.cls.Extends a) :
      ∃ old, w.cell? (.field o.id name) = some old := by
    refine (made o ho).whole.stored name ?_
    rcases has with has | above
    · exact has
    · exact Class.hasField_of_findField above found instanced
  constructor
  · intro v w' h
    rw [run_get] at h
    cases hcell : f.cell target with
    | error e =>
      rw [hcell] at h
      cases h
    | ok c =>
      rw [hcell] at h
      obtain ⟨o, ho, -, rfl⟩ := cell_eq_ok instanced hcell
      rw [named] at h
      cases h
      refine ⟨o, ho, rfl, rfl, fun has => ?_⟩
      obtain ⟨old, hold⟩ := stored o ho has
      simp [hold]
  · intro u w' h
    rw [run_set] at h
    cases hcell : f.cell target with
    | error e =>
      rw [hcell] at h
      cases h
    | ok c =>
      rw [hcell] at h
      obtain ⟨o, ho, -, rfl⟩ := cell_eq_ok instanced hcell
      rw [named] at h
      cases h
      exact ⟨o, ho, rfl, stored o ho⟩

end FieldHandle

/-! ### Two versions of a class -/

namespace Versions

open Session

/-- A class that declares a field, another version of it that does not, and a class that extends the
first one. -/
def requests : List Request := [
  .scope "app" "app" none,
  .define "first" ⟨"pkg.Box", .concrete, none, [],
    [⟨"size", "int", .pub, false, .literal (.int 5)⟩], [], []⟩ (some "app"),
  .define "second" ⟨"pkg.Box", .concrete, none, [], [], [], []⟩ (some "app"),
  .define "large" ⟨"pkg.Large", .concrete, some "first", [], [], [], []⟩ (some "app"),
  .alloc "box" "second"]

/-- What is found out about an object of a class and the field of the first version. -/
structure Story where
  /-- The names of the client. -/
  names : Names
  /-- The world. -/
  world : World
  /-- The first version. -/
  first : Class Value
  /-- Its field. -/
  field : FieldHandle

/-- The field is looked up on the first version. -/
def story : Option Story := do
  let (k, w) ← played 1 requests
  let c ← k.classes.get? "first"
  let f ← c.findField "size"
  return ⟨k, w, c, f⟩

/-- The story takes place. -/
structure Story.Passes (t : Story) : Prop where
  reached : Reached (fun _ => true) (Host.level 1) t.names t.world
  known : t.names.classes.get? "first" = some t.first
  found : t.first.findField "size" = some t.field

theorem passes_of_story {t : Story} (h : story = some t) : t.Passes := by
  simp only [story, Option.bind_eq_bind, Option.bind_eq_some_iff, Option.pure_def,
    Option.some.injEq] at h
  obtain ⟨⟨k, w⟩, hplayed, c, hc, f, hf, rfl⟩ := h
  exact ⟨reached_of_played hplayed, hc, hf⟩

/-- The box, an object of the second version. -/
def Story.box (t : Story) : Option Object := do
  (← t.world.registers.get? "box").object?

/-- A new object of the class that extends the first version. -/
def Story.large (t : Story) : Option (Object × World) := do
  (Object.alloc (← t.names.classes.get? "large") t.world).seen Prod.mk

end Versions

open Versions Session in
/-- The field of the first version is read on an object of a class that extends it. -/
theorem size_of_large_box : ∃ (k : Names) (w w' : World) (c : Class Value) (f : FieldHandle)
    (o : Object), Reached (fun _ => true) (Host.level 1) k w ∧
      k.classes.get? "first" = some c ∧ c.findField "size" = some f ∧
      Object.alloc o.cls w = .done o w' ∧ o.cls.name = "pkg.Large" ∧
      ∃ v, (f.get (.object o)).run w' = .done (.ok v) w' ∧ v.int? = some 5 ∧
        w'.cell? (.field o.id "size") = some v := by
  have told : (story.bind fun t => t.large.map fun (o, w') =>
      (t.field.decl.isStatic, o.cls.name, decide ("size" ∈ o.cls.seeds.map Prod.fst),
        ((t.field.get (.object o)).run w').result.bind Value.int?)) =
      some (false, "pkg.Large", true, some 5) := by decide +kernel
  obtain ⟨t, ht, told⟩ := Option.bind_eq_some_iff.1 told
  obtain ⟨⟨o, w'⟩, hlarge, hseen⟩ := Option.map_eq_some_iff.1 told
  simp only [Prod.mk.injEq, decide_eq_true_eq] at hseen
  obtain ⟨instanced, hname, has, hanswer⟩ := hseen
  have passes := passes_of_story ht
  obtain ⟨c, hc, hlarge⟩ := Option.bind_eq_some_iff.1 hlarge
  obtain ⟨_, _, hmade, hsame⟩ := Outcome.exists_of_seen hlarge
  cases hsame
  obtain ⟨v, hv, hint⟩ := Option.bind_eq_some_iff.1 hanswer
  obtain ⟨w₁, hrun⟩ := Outcome.exists_of_result hv
  have made (o' : Object) (ho : Value.object o = .object o') : o'.Made w' := by
    cases ho
    exact (Object.made_of_alloc hmade).2
  obtain ⟨_, hobject, rfl, -, hstored⟩ :=
    (FieldHandle.accesses_only_what_is_stored passes.found instanced made).1 v w₁ hrun
  cases hobject
  exact ⟨t.names, t.world, w₁, t.first, t.field, o, passes.reached, passes.known, passes.found,
    (Object.made_of_alloc hmade).1 ▸ hmade, hname, v, hrun, hint,
    hstored (.inl (Class.hasField_iff.2 has))⟩

open Versions Session in
/-- On the box, which is of the second version, reading the field gives a null that is not
stored. -/
theorem version_without_field_gives_null :
    ¬ ∀ (n : Nat) (k : Names) (w : World), Reached (fun _ => true) (Host.level n) k w →
      ∀ (label register name : String) (c : Class Value) (f : FieldHandle) (o : Object),
        k.classes.get? label = some c → c.findField name = some f → f.decl.isStatic = false →
        w.registers.get? register = some (.object o) →
          ∀ v w', (f.get (.object o)).run w = .done (.ok v) w' →
            w.cell? (.field o.id name) = some v := by
  intro claim
  have told : (story.bind fun t => t.box.map fun o =>
      (t.field.decl.isStatic, ((t.field.get (.object o)).run t.world).result.map Value.isNull,
        (t.world.cell? (.field o.id "size")).isSome)) =
      some (false, some true, false) := by decide +kernel
  obtain ⟨t, ht, told⟩ := Option.bind_eq_some_iff.1 told
  obtain ⟨o, hbox, hseen⟩ := Option.map_eq_some_iff.1 told
  simp only [Prod.mk.injEq, Option.map_eq_some_iff] at hseen
  obtain ⟨instanced, ⟨v, hv, -⟩, missing⟩ := hseen
  have passes := passes_of_story ht
  obtain ⟨w', hrun⟩ := Outcome.exists_of_result hv
  obtain ⟨u, hu, ho⟩ := Option.bind_eq_some_iff.1 hbox
  rw [Value.eq_object_of_object? ho] at hu
  have stored := claim 1 t.names t.world passes.reached "first" "box" "size" t.first t.field o
    passes.known passes.found instanced hu v w' hrun
  rw [stored] at missing
  cases missing

end LateBinding
