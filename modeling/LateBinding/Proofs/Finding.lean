import Mathlib.Data.Option.Basic
import LateBinding.Proofs.Action
import LateBinding.Proofs.Members

/-!
# What lookups find

A lookup of a member looks at the first declaration on each class only, and goes by its visibility
(`Class.search`).  What it ought to find is the nearest class that declares the member publicly, or
else what the class itself declares privately (`Sought.Answers`).

The two are the same unless a public declaration is *hidden*: the nearest class that has one
declares the member privately too, and declares that first (`Sought.Unhidden`).

* `Sought.answers_search_iff` : a search answers as it ought to if and only if nothing is hidden;
* `TypeEntry.Consulted` : the entry remembers what lookups on it found, whatever they were;
* `TypeEntry.lookups_are_complete` : **a lookup of a method or a field on such an entry returns, and
  answers as it ought to if and only if nothing is hidden.**

A class that declares a method privately and then publicly hides it from everybody
(`TypeEntry.hidden_method_is_flagged`).
-/

namespace LateBinding

/-! ### Answers of a search -/

/-- Members that are searched for. -/
structure Sought (α : Type) where
  /-- What a class declares of the kind, in order. -/
  declared : ClassDecl Value → List α
  /-- Whether a declaration is one that is sought. -/
  fits : α → Bool
  /-- Who finds a declaration. -/
  visibility : α → Visibility

/-- The methods of a signature. -/
def Sought.method (d : Descriptor) : Sought MethodDecl :=
  ⟨ClassDecl.methods, fun m => m.name = d.name ∧ m.params = d.params, MethodDecl.visibility⟩

/-- The fields of a name. -/
def Sought.field (name : String) : Sought (FieldDecl Value) :=
  ⟨ClassDecl.fields, fun f => f.name = name, FieldDecl.visibility⟩

namespace Sought

variable {α : Type} (s : Sought α) (c : Class Value)

/-- The class declares this member. -/
def Declares (k : ClassDecl Value) (v : Visibility) (a : α) : Prop :=
  a ∈ s.declared k ∧ s.fits a = true ∧ s.visibility a = v

/-- The first declaration on a class. -/
def first (k : ClassDecl Value) : Option α := (s.declared k).find? s.fits

/-- Whether the class has a public declaration. -/
def declaresPublicly (k : ClassDecl Value) : Bool :=
  (s.declared k).any fun a => s.fits a && s.visibility a = .pub

/-- The nearest class of the lineage that has a public declaration. -/
def nearest : Option (ClassDecl Value) := c.lineage.find? s.declaresPublicly

/-- What a search ought to answer. -/
structure Answers (found : Option (Found Value α)) : Prop where
  /-- It finds something if there is anything to be found. -/
  found_iff : found.isSome ↔
    (∃ k ∈ c.lineage, ∃ a, s.Declares k .pub a) ∨ ∃ a, s.Declares c.decl .priv a
  /-- The nearest public declaration comes first. -/
  nearest : ∀ f, found = some f → ∀ k, s.nearest c = some k →
    f.declaring = k ∧ s.Declares k .pub f.decl ∧ f.overridden = false
  /-- Without a public declaration, it is a private one of the class itself. -/
  own : ∀ f, found = some f → s.nearest c = none →
    f.declaring = c.decl ∧ s.Declares c.decl .priv f.decl ∧ f.overridden = true

/-- The nearest class that declares a member publicly declares no private one before it. -/
def Unhidden : Prop :=
  ∀ k, s.nearest c = some k → ∀ a, s.first k = some a → s.visibility a = .pub

variable {s c}

theorem declaresPublicly_iff (k : ClassDecl Value) :
    s.declaresPublicly k = true ↔ ∃ a, s.Declares k .pub a := by
  simp [declaresPublicly, Declares, List.any_eq_true]

theorem declares_of_first {k : ClassDecl Value} {a : α} (h : s.first k = some a) :
    s.Declares k (s.visibility a) a :=
  ⟨List.mem_of_find?_eq_some h, List.find?_some h, rfl⟩

theorem exists_first_of_declares {k : ClassDecl Value} {v : Visibility} {a : α}
    (h : s.Declares k v a) : ∃ b, s.first k = some b :=
  Option.isSome_iff_exists.1 (List.find?_isSome.2 ⟨a, h.1, h.2.1⟩)

theorem exists_declares_of_nearest {k : ClassDecl Value} (h : s.nearest c = some k) :
    k ∈ c.lineage ∧ ∃ a, s.Declares k .pub a :=
  ⟨List.mem_of_find?_eq_some h, (declaresPublicly_iff k).1 (List.find?_some h)⟩

theorem nearest_eq_none_iff : s.nearest c = none ↔ ∀ k ∈ c.lineage, ¬ ∃ a, s.Declares k .pub a := by
  simp only [nearest, List.find?_eq_none, declaresPublicly_iff]

/-- A search finds the first declaration on the nearest class with a public one, if it is
public. -/
theorem search_of_nearest {k : ClassDecl Value} {a : α} (h : s.nearest c = some k)
    (hfirst : s.first k = some a) (pub : s.visibility a = .pub) :
    c.search s.first s.visibility = some ⟨k, a, false⟩ := by
  obtain ⟨-, nearer, farther, hlineage, hnearer⟩ := List.find?_eq_some_iff_append.1 h
  have : c.lineage.findSome? (fun k => (s.first k).bind fun a =>
      if s.visibility a = .pub then some (⟨k, a, false⟩ : Found Value α) else none) =
        some ⟨k, a, false⟩ := by
    refine List.findSome?_eq_some_iff.2 ⟨nearer, k, farther, hlineage, ?_, fun j hj => ?_⟩
    · rw [hfirst, Option.bind_some, if_pos pub]
    · -- a public first declaration is a public declaration
      cases hj' : s.first j with
      | none => rfl
      | some b =>
        rw [Option.bind_some, if_neg]
        intro hb
        have := hnearer j hj
        rw [(declaresPublicly_iff j).2 ⟨b, hb ▸ declares_of_first hj'⟩] at this
        cases this
  rw [Class.search, this]
  rfl

/-- Without a public declaration, a search finds the first one on the class itself. -/
theorem search_of_nearest_eq_none (h : s.nearest c = none) :
    c.search s.first s.visibility = (s.first c.decl).map fun a => ⟨c.decl, a, true⟩ := by
  have : c.lineage.findSome? (fun k => (s.first k).bind fun a =>
      if s.visibility a = .pub then some (⟨k, a, false⟩ : Found Value α) else none) = none := by
    refine List.findSome?_eq_none_iff.2 fun k hk => ?_
    cases hk' : s.first k with
    | none => rfl
    | some a =>
      rw [Option.bind_some, if_neg]
      intro ha
      exact nearest_eq_none_iff.1 h k hk ⟨a, ha ▸ declares_of_first hk'⟩
  rw [Class.search, this]
  rfl

/-- What a search finds without a flag is the first declaration on its class, and public. -/
theorem first_of_search {f : Found Value α} (h : c.search s.first s.visibility = some f)
    (plain : f.overridden = false) :
    s.first f.declaring = some f.decl ∧ s.visibility f.decl = .pub := by
  unfold Class.search at h
  dsimp only at h
  rcases (Option.orElse_eq_some _ _ _).1 h with h | ⟨-, h⟩
  · obtain ⟨k, -, h⟩ := List.exists_of_findSome?_eq_some h
    obtain ⟨a, ha, h⟩ := Option.bind_eq_some_iff.1 h
    split at h
    · rename_i pub
      cases h
      exact ⟨ha, pub⟩
    · cases h
  · obtain ⟨a, -, rfl⟩ := Option.map_eq_some_iff.1 h
    cases plain

/-- **A search answers as it ought to if and only if nothing is hidden.** -/
theorem answers_search_iff : s.Answers c (c.search s.first s.visibility) ↔ s.Unhidden c := by
  constructor
  · intro answers k hk a ha
    obtain ⟨hmem, hpub⟩ := exists_declares_of_nearest hk
    obtain ⟨f, hf⟩ := Option.isSome_iff_exists.1 (answers.found_iff.2 (.inl ⟨k, hmem, hpub⟩))
    obtain ⟨rfl, -, plain⟩ := answers.nearest f hf k hk
    obtain ⟨hfirst, pub⟩ := first_of_search hf plain
    cases ha.symm.trans hfirst
    exact pub
  · intro unhidden
    cases hk : s.nearest c with
    | some k =>
      obtain ⟨hmem, b, hb⟩ := exists_declares_of_nearest hk
      obtain ⟨a, ha⟩ := exists_first_of_declares hb
      have pub := unhidden k hk a ha
      rw [search_of_nearest hk ha pub]
      refine ⟨iff_of_true rfl (.inl ⟨k, hmem, b, hb⟩), fun f hf k' hk' => ?_, fun f hf hnone => ?_⟩
      · cases hf
        cases hk.symm.trans hk'
        exact ⟨rfl, pub ▸ declares_of_first ha, rfl⟩
      · cases hk.symm.trans hnone
    | none =>
      have nowhere := nearest_eq_none_iff.1 hk
      rw [search_of_nearest_eq_none hk]
      -- whatever the class itself declares is private
      have priv {a : α} (ha : s.first c.decl = some a) : s.Declares c.decl .priv a := by
        have := declares_of_first ha
        cases hv : s.visibility a with
        | pub => exact absurd ⟨a, hv ▸ this⟩ (nowhere c.decl (List.mem_cons_self ..))
        | priv => exact hv ▸ this
      refine ⟨⟨fun h => ?_, fun h => ?_⟩, fun f _ k hk' => ?_, fun f hf _ => ?_⟩
      · obtain ⟨f, hf⟩ := Option.isSome_iff_exists.1 h
        obtain ⟨a, ha, -⟩ := Option.map_eq_some_iff.1 hf
        exact .inr ⟨a, priv ha⟩
      · rcases h with ⟨k, hmem, h⟩ | ⟨a, ha⟩
        · exact absurd h (nowhere k hmem)
        · obtain ⟨b, hb⟩ := exists_first_of_declares ha
          rw [hb]
          rfl
      · cases hk.symm.trans hk'
      · obtain ⟨a, ha, rfl⟩ := Option.map_eq_some_iff.1 hf
        exact ⟨rfl, priv ha, rfl⟩

end Sought

/-! ### Lookups -/

/-- What is remembered of methods, fields and constructors is what a search of the class finds. -/
structure MemberMemo.Exact (m : MemberMemo) (c : Class Value) : Prop extends m.Truthful c where
  fields : ∀ name o, m.fields.get? name = some o → o = c.findField name

namespace TypeEntry

/-- What the entry remembers in a world comes from lookups on it. -/
inductive Consulted (e : TypeEntry Value) : World → Prop
  /-- It remembers nothing yet. -/
  | new {w : World} (h : w.memoOf e = default) : e.Consulted w
  /-- A method was looked up. -/
  | method {w w' : World} (before : e.Consulted w) {d : Descriptor} {o : Option MethodHandle}
    (h : e.method d w = .done o w') : e.Consulted w'
  /-- A field was looked up. -/
  | field {w w' : World} (before : e.Consulted w) {name : String} {o : Option FieldHandle}
    (h : e.field name w = .done o w') : e.Consulted w'
  /-- A constructor was looked up. -/
  | constructor {w w' : World} (before : e.Consulted w) {params : List String}
    {o : Option ConstructorHandle} (h : e.constructor params w = .done o w') : e.Consulted w'
  /-- A marker was looked up. -/
  | marker {w w' : World} (before : e.Consulted w) {kind : MarkerKind} {o : Option Marker}
    (h : e.marker kind w = .done o w') : e.Consulted w'
  /-- Something happened elsewhere. -/
  | elsewhere {w w' : World} (before : e.Consulted w) (h : w'.memoOf e = w.memoOf e) :
    e.Consulted w'

variable {e : TypeEntry Value} {w w' : World}

theorem fields_of_method {d : Descriptor} {o : Option MethodHandle}
    (h : e.method d w = .done o w') : (w'.memoOf e).fields = (w.memoOf e).fields := by
  rw [method_eq] at h
  split at h
  · cases h
    rfl
  · split at h
    · cases h
      rw [World.memoOf_remembering]
    · cases h
      rw [World.memoOf_remembering]

theorem fields_of_constructor {params : List String} {o : Option ConstructorHandle}
    (h : e.constructor params w = .done o w') : (w'.memoOf e).fields = (w.memoOf e).fields := by
  rw [constructor_eq] at h
  split at h
  · cases h
    rfl
  · cases h
    rw [World.memoOf_remembering]

/-- An exact memo stays exact as fields are looked up, and a lookup finds what a search finds. -/
theorem field_of_exact (hw : (w.memoOf e).Exact e.cls) (name : String) :
    ∃ w', e.field name w = .done (e.cls.findField name) w' ∧ (w'.memoOf e).Exact e.cls := by
  rw [field_eq]
  cases hmemo : (w.memoOf e).fields.get? name with
  | some known => exact ⟨w, by rw [hw.fields name known hmemo], hw⟩
  | none =>
    refine ⟨_, rfl, ?_⟩
    rw [World.memoOf_remembering]
    refine ⟨⟨hw.methods, hw.constructors⟩, fun name' o h => ?_⟩
    rw [Table.get?_insert] at h
    split at h
    · rename_i hname
      cases h
      rw [hname]
    · exact hw.fields name' o h

/-- Nothing is remembered of members when a marker is looked up. -/
theorem exact_of_marker (hw : (w.memoOf e).Exact e.cls) {kind : MarkerKind} {o : Option Marker}
    (h : e.marker kind w = .done o w') : (w'.memoOf e).Exact e.cls := by
  rw [marker_eq] at h
  split at h
  · cases h
    exact hw
  · cases h
    rw [World.memoOf_remembering]
    exact ⟨⟨hw.methods, hw.constructors⟩, hw.fields⟩

/-- An entry that is consulted, in whatever order, remembers what a search of its class finds. -/
theorem Consulted.exact (h : e.Consulted w) : (w.memoOf e).Exact e.cls := by
  induction h with
  | new h => exact h ▸ ⟨MemberMemo.truthful_default _, nofun⟩
  | @method w w' _ d o h ih =>
    obtain ⟨_, _, h', -, notes⟩ := method_of_truthful ih.toTruthful d
    cases h.symm.trans h'
    exact ⟨notes.truthful, fields_of_method h ▸ ih.fields⟩
  | @field w w' _ name o h ih =>
    obtain ⟨_, h', hexact⟩ := field_of_exact ih name
    cases h.symm.trans h'
    exact hexact
  | @constructor w w' _ params o h ih =>
    obtain ⟨_, h', notes⟩ := constructor_of_truthful ih.toTruthful params
    cases h.symm.trans h'
    exact ⟨notes.truthful, fields_of_constructor h ▸ ih.fields⟩
  | marker _ h ih => exact exact_of_marker ih h
  | elsewhere _ h ih => exact h ▸ ih

/-- **Lookups are complete unless a public declaration is hidden.**  On an entry that remembers what
lookups on it found, a lookup of a method or of a field returns.  It answers as it ought to if and
only if no public declaration is hidden: with what the nearest class that declares the member
publicly declares, or else with the private declaration of the class itself, flagged, or else with
nothing. -/
theorem lookups_are_complete (he : e.Consulted w) :
    (∀ d, ∃ o w', e.method d w = .done o w' ∧
      ((Sought.method d).Answers e.cls (o.map MethodHandle.found) ↔
        (Sought.method d).Unhidden e.cls)) ∧
    (∀ name, ∃ o w', e.field name w = .done o w' ∧
      ((Sought.field name).Answers e.cls o ↔ (Sought.field name).Unhidden e.cls)) := by
  constructor
  · intro d
    obtain ⟨o, w', h, ho, -⟩ := method_of_truthful he.exact.toTruthful d
    refine ⟨o, w', h, ?_⟩
    rw [ho]
    exact Sought.answers_search_iff
  · intro name
    obtain ⟨w', h, -⟩ := field_of_exact he.exact name
    exact ⟨_, w', h, Sought.answers_search_iff⟩

end TypeEntry

/-! ### Declarations that hide others -/

namespace Boxes

/-- A method that tells where it is declared. -/
def origin (visibility : Visibility) (told : String) : MethodDecl :=
  ⟨"origin", [], "str", visibility, false, [], some (.literal (.str told))⟩

/-- A class that declares the method some times. -/
def declaring (id : Identity) (name : String) (parent : Option (Class Value))
    (methods : List MethodDecl) : Class Value :=
  .ofPlan id none ⟨name, .concrete, parent, methods, [], [], []⟩

/-- It declares the method publicly, and then privately. -/
def crate : Class Value :=
  declaring 0 "pkg.Crate" none [origin .pub "crate", origin .priv "inner crate"]

/-- It has a method of its own. -/
def box : Class Value := declaring 1 "pkg.Box" (some crate) [origin .priv "box"]

/-- It declares the method privately, and then publicly. -/
def chest : Class Value :=
  declaring 2 "pkg.Chest" none [origin .priv "inner chest", origin .pub "chest"]

/-- The method that they declare. -/
abbrev sought : Sought MethodDecl := .method ⟨"origin", []⟩

theorem nearest_box : sought.nearest box = some crate.decl := rfl

theorem nearest_chest : sought.nearest chest = some chest.decl := rfl

theorem box_hides_nothing : sought.Unhidden box := by
  intro k hk a ha
  cases nearest_box.symm.trans hk
  cases ha
  rfl

end Boxes

open Boxes in
/-- The method of a box that is not its own is found again, in front of its own one. -/
theorem TypeEntry.public_method_is_found : ∃ o w w' m, method ⟨9, box⟩ ⟨"origin", []⟩ .empty =
    .done o w ∧ method ⟨9, box⟩ ⟨"origin", []⟩ w = .done (some m) w' ∧
    m.declaring = crate.decl ∧ m.overridden = false := by
  have new : Consulted ⟨9, box⟩ .empty := .new rfl
  obtain ⟨o, w, first, -⟩ := (lookups_are_complete new).1 ⟨"origin", []⟩
  obtain ⟨o', w', second, answers⟩ :=
    (lookups_are_complete (new.method first)).1 ⟨"origin", []⟩
  have answers := answers.2 box_hides_nothing
  obtain ⟨hmem, hpub⟩ := Sought.exists_declares_of_nearest nearest_box
  obtain ⟨f, hf⟩ := Option.isSome_iff_exists.1 (answers.found_iff.2 (.inl ⟨_, hmem, hpub⟩))
  obtain ⟨m, rfl, rfl⟩ := Option.map_eq_some_iff.1 hf
  obtain ⟨declaring, -, plain⟩ := answers.nearest _ hf _ nearest_box
  exact ⟨o, w, w', m, first, second, declaring, plain⟩

open Boxes in
/-- The public method of a chest is not found: it is hidden by the private one before it, which is
flagged. -/
theorem TypeEntry.hidden_method_is_flagged :
    ¬ ∀ (e : TypeEntry Value) (w : World), e.Consulted w → ∀ d o w', e.method d w = .done o w' →
      (Sought.method d).Answers e.cls (o.map MethodHandle.found) := by
  intro complete
  have flagged : (method ⟨9, chest⟩ ⟨"origin", []⟩ .empty).seen
      (fun o _ => o.map MethodHandle.overridden) = some (some true) := by
    decide
  obtain ⟨o, w', h, ho⟩ := Outcome.exists_of_seen flagged
  obtain ⟨m, rfl, hm⟩ := Option.map_eq_some_iff.1 ho
  have answers := complete _ _ (.new rfl) _ _ _ h
  obtain ⟨-, -, plain⟩ := answers.nearest _ rfl _ nearest_chest
  exact Bool.false_ne_true (plain.symm.trans hm)

end LateBinding
