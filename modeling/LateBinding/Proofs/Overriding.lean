import LateBinding.Evaluate
import LateBinding.Proofs.Receivers

/-!
# Calls run overrides

A lookup of a method on a class and a call on an object search differently.  The lookup
(`Class.findMethod`) takes the nearest public declaration, whether it has a body or not, and falls
back to what the class itself declares.  The call (`MethodHandle.invoke`) starts at the class of the
object and takes the nearest class whose first declaration is public, not static and has a body
(`Class.Runs`).

* `Class.findOverride_eq_some_iff`, `Class.findOverride_eq_none_iff` : what the search of a call
  finds, and when it finds nothing.
* `Class.publicly_declared` : what a lookup finds, if it is public: the nearest public declaration.
* `MethodHandle.calls_do_not_depend_on_lookups` : **a call on an object does not depend on the class
  on which its handle was found**, as long as the object is an instance of that class and the
  handle is public and not static.  It runs what the class of the object runs, and fails if that
  class runs nothing.
-/

namespace LateBinding

/-! ### Classes that extend others -/

namespace Class

variable {V : Type}

/-- The class is the other one, or extends it directly or through other classes. -/
inductive Extends : Class V → Class V → Prop
  /-- It is the other one. -/
  | self (c : Class V) : Extends c c
  /-- Its parent extends the other one. -/
  | parent {c p a : Class V} (up : c.parent? = some p) (above : Extends p a) : Extends c a

theorem lineage_of_parent? {c p : Class V} (h : c.parent? = some p) :
    c.lineage = c.decl :: p.lineage := by
  unfold parent? at h
  split at h
  · cases h
  · rename_i d ds hinherited
    cases h
    rw [lineage, hinherited]
    rfl

/-- The lineage of a class ends with the lineage of any class that it extends. -/
theorem Extends.lineage_suffix {c a : Class V} (h : c.Extends a) : a.lineage <:+ c.lineage := by
  induction h with
  | self => exact List.suffix_refl _
  | parent up _ ih =>
    rw [lineage_of_parent? up]
    exact ih.trans (List.suffix_cons _ _)

/-- An instance of a class passes for an instance of every class of its lineage. -/
theorem isSubclassOf_of_mem {c : Class V} {k : ClassDecl V} (h : k ∈ c.lineage) :
    c.isSubclassOf k.name = true :=
  List.any_eq_true.2 ⟨k, h, beq_self_eq_true _⟩

end Class

/-! ### The two searches -/

/-- The method may be run in the place of another one: it is public, not static, and has a body. -/
structure MethodDecl.Implements (m : MethodDecl) : Prop where
  isPublic : m.visibility = .pub
  instanced : m.isStatic = false
  hasBody : m.hasBody = true

theorem MethodDecl.implements_iff {m : MethodDecl} :
    (!m.isStatic && m.visibility = .pub && m.hasBody) = true ↔ m.Implements := by
  simp only [Bool.and_eq_true, Bool.not_eq_true', decide_eq_true_eq]
  exact ⟨fun h => ⟨h.1.2, h.1.1, h.2⟩, fun h => ⟨⟨h.2, h.1⟩, h.3⟩⟩

namespace Class

variable {V : Type} {c : Class V} {d : Descriptor}

/-- The class of the lineage that is nearest among those whose first declaration implements the
descriptor declares this method. -/
def Runs (c : Class V) (d : Descriptor) (m : MethodDecl) : Prop :=
  ∃ nearer k farther, c.lineage = nearer ++ k :: farther ∧ k.method? d = some m ∧ m.Implements ∧
    ∀ j ∈ nearer, ∀ other, j.method? d = some other → ¬ other.Implements

/-- No class of the lineage has a first declaration that implements the descriptor. -/
def RunsNothing (c : Class V) (d : Descriptor) : Prop :=
  ∀ k ∈ c.lineage, ∀ m, k.method? d = some m → ¬ m.Implements

/-- Whether the first declaration of a class implements the descriptor, as it is tested. -/
theorem any_method?_eq_false_iff (k : ClassDecl V) (d : Descriptor) :
    (k.method? d).any (fun m => !m.isStatic && m.visibility = .pub && m.hasBody) = false ↔
      ∀ m, k.method? d = some m → ¬ m.Implements := by
  cases h : k.method? d with
  | none => simp
  | some m => simp [← MethodDecl.implements_iff]

theorem findOverride_eq_some_iff {m : MethodDecl} : c.findOverride d = some m ↔ c.Runs d m := by
  rw [findOverride, List.find?_filterMap, Option.bind_eq_some_iff]
  constructor
  · rintro ⟨k, hk, hm⟩
    obtain ⟨hfits, nearer, farther, hlineage, hnearer⟩ := List.find?_eq_some_iff_append.1 hk
    have implements : m.Implements := by
      rw [hm] at hfits
      exact MethodDecl.implements_iff.1 hfits
    refine ⟨nearer, k, farther, hlineage, hm, implements, fun j hj => ?_⟩
    have := hnearer j hj
    rw [Bool.not_eq_true'] at this
    exact (any_method?_eq_false_iff j d).1 this
  · rintro ⟨nearer, k, farther, hlineage, hm, implements, hnearer⟩
    refine ⟨k, List.find?_eq_some_iff_append.2 ⟨?_, nearer, farther, hlineage, fun j hj => ?_⟩, hm⟩
    · rw [hm]
      exact MethodDecl.implements_iff.2 implements
    · rw [Bool.not_eq_true']
      exact (any_method?_eq_false_iff j d).2 (hnearer j hj)

theorem findOverride_eq_none_iff : c.findOverride d = none ↔ c.RunsNothing d := by
  constructor
  · intro h k hk m hm implements
    rw [findOverride, List.find?_eq_none] at h
    exact h m (List.mem_filterMap.2 ⟨k, hk, hm⟩) (MethodDecl.implements_iff.2 implements)
  · intro h
    rw [findOverride, List.find?_eq_none]
    intro m hm fits
    obtain ⟨k, hk, hm⟩ := List.mem_filterMap.1 hm
    exact h k hk m hm (MethodDecl.implements_iff.1 fits)

/-- What a search finds is declared by a class of the lineage. -/
theorem declared_of_search {α : Type} {declared : ClassDecl V → Option α}
    {visibility : α → Visibility} {f : Found V α} (h : c.search declared visibility = some f) :
    f.declaring ∈ c.lineage ∧ declared f.declaring = some f.decl := by
  unfold search at h
  dsimp only at h
  rcases (Option.orElse_eq_some _ _ _).1 h with h | ⟨-, h⟩
  · obtain ⟨k, hk, h⟩ := List.exists_of_findSome?_eq_some h
    obtain ⟨x, hx, h⟩ := Option.bind_eq_some_iff.1 h
    split at h
    · cases h
      exact ⟨hk, hx⟩
    · cases h
  · obtain ⟨x, hx, rfl⟩ := Option.map_eq_some_iff.1 h
    exact ⟨List.mem_cons_self .., hx⟩

/-- A public method that a lookup finds is the first declaration of the nearest class whose first
declaration is public. -/
theorem publicly_declared {f : Found V MethodDecl} (h : c.findMethod d = some f)
    (pub : f.decl.visibility = .pub) :
    ∃ nearer farther, c.lineage = nearer ++ f.declaring :: farther ∧
      f.declaring.method? d = some f.decl ∧
      ∀ j ∈ nearer, ∀ m, j.method? d = some m → m.visibility ≠ .pub := by
  unfold findMethod search at h
  dsimp only at h
  rcases (Option.orElse_eq_some _ _ _).1 h with h | ⟨hnone, h⟩
  · obtain ⟨nearer, k, farther, hlineage, hk, hnearer⟩ := List.findSome?_eq_some_iff.1 h
    obtain ⟨m, hm, hk⟩ := Option.bind_eq_some_iff.1 hk
    split at hk
    · cases hk
      refine ⟨nearer, farther, hlineage, hm, fun j hj m' hm' hpub => ?_⟩
      have := hnearer j hj
      rw [hm', Option.bind_some, if_pos hpub] at this
      cases this
    · cases hk
  · -- what the class itself declares is not public here, since the first search would have met it
    obtain ⟨m, hm, rfl⟩ := Option.map_eq_some_iff.1 h
    have := List.findSome?_eq_none_iff.1 hnone c.decl (List.mem_cons_self ..)
    rw [hm, Option.bind_some, if_pos pub] at this
    cases this

end Class

/-! ### Calls -/

namespace MethodDecl

variable {m : MethodDecl} {d : Descriptor}

/-- A call of a method with a body runs the body, after the number of arguments was checked. -/
theorem call_of_body (signature : d = ⟨m.name, m.params⟩) {body : Expr} (hbody : m.body = some body)
    (h : Host) (receiver : Value) (args : List Value) :
    m.call h receiver args =
      if args.length = d.arity then h.run body receiver args
      else throw (.wrongArity d.name d.arity args.length) := by
  subst signature
  by_cases arity : args.length = m.params.length
  · simp [call, Descriptor.arity, arity, hbody]
  · simp [call, Descriptor.arity, arity]

/-- A call of a method without a body fails, after the number of arguments was checked. -/
theorem call_of_bodiless (signature : d = ⟨m.name, m.params⟩) (hbody : m.body = none) (h : Host)
    (receiver : Value) (args : List Value) :
    m.call h receiver args =
      if args.length = d.arity then throw (.abstractMember (d.name ++ " has no implementation"))
      else throw (.wrongArity d.name d.arity args.length) := by
  subst signature
  by_cases arity : args.length = m.params.length
  · simp [call, Descriptor.arity, arity, hbody]
  · simp [call, Descriptor.arity, arity]

end MethodDecl

namespace MethodHandle

variable {o : Object} {d : Descriptor} {a : Class Value} {m : MethodHandle}

theorem signature_of_found (found : a.findMethod d = some m.found) :
    d = ⟨m.decl.name, m.decl.params⟩ :=
  ClassDecl.signature_of_method? (Class.method?_of_findMethod found)

/-- A handle that is found on a class that the class of the object extends is declared in the
lineage of that object. -/
theorem declaring_mem_lineage (above : o.cls.Extends a) (found : a.findMethod d = some m.found) :
    m.declaring ∈ o.cls.lineage :=
  above.lineage_suffix.mem (Class.declared_of_search found).1

/-- What a public handle that is not static does on an instance of the class that it was found
on. -/
theorem invoke_of_extends (above : o.cls.Extends a) (found : a.findMethod d = some m.found)
    (pub : m.decl.visibility = .pub) (instanced : m.decl.isStatic = false) (h : Host)
    (args : List Value) :
    m.invoke h (.object o) args = ((o.cls.findOverride d).getD m.decl).call h (.object o) args := by
  have passes : o.cls.isSubclassOf m.declaring.name = true :=
    Class.isSubclassOf_of_mem (declaring_mem_lineage above found)
  have signature := signature_of_found found
  have shared : ¬ m.decl.visibility = .priv := by
    rw [pub]
    nofun
  simp only [invoke, instanced, requireInstance, passes, if_true, if_neg shared, ← signature]
  rfl

/-- A method with a body that is found on the class of the object is what that class runs. -/
theorem runs_of_found (found : o.cls.findMethod d = some m.found) (implements : m.decl.Implements) :
    o.cls.Runs d m.decl := by
  obtain ⟨nearer, farther, hlineage, hm, hnearer⟩ :=
    Class.publicly_declared found implements.isPublic
  refine ⟨nearer, m.declaring, farther, hlineage, hm, implements, fun j hj other hother his => ?_⟩
  exact hnearer j hj other hother his.isPublic

/-- If the class of the object runs nothing, then the method of a handle that is found on a class
that it extends has no body. -/
theorem bodiless_of_runsNothing (above : o.cls.Extends a) (found : a.findMethod d = some m.found)
    (pub : m.decl.visibility = .pub) (instanced : m.decl.isStatic = false)
    (nothing : o.cls.RunsNothing d) : m.decl.body = none := by
  have declaring := declaring_mem_lineage above found
  have declared : m.declaring.method? d = some m.decl := Class.method?_of_findMethod found
  cases hbody : m.decl.body with
  | none => rfl
  | some body =>
    have hasBody : m.decl.hasBody = true := by simp [MethodDecl.hasBody, hbody]
    exact absurd ⟨pub, instanced, hasBody⟩ (nothing m.declaring declaring m.decl declared)

/-- **Calls do not depend on lookups.**  Let two handles be found under one descriptor, on the class
of an object or on classes that it extends, both public and not static.  Invoked on the object with
the same arguments, they do the same: what the class of the object runs is called; if the class runs
nothing, the call fails, because of the number of arguments or as abstract.  A handle with a
body that is found on the class of the object itself runs this body. -/
theorem calls_do_not_depend_on_lookups {o : Object} {d : Descriptor} {a₁ a₂ : Class Value}
    {m₁ m₂ : MethodHandle}
    (above₁ : o.cls.Extends a₁) (found₁ : a₁.findMethod d = some m₁.found)
    (pub₁ : m₁.decl.visibility = .pub) (instanced₁ : m₁.decl.isStatic = false)
    (above₂ : o.cls.Extends a₂) (found₂ : a₂.findMethod d = some m₂.found)
    (pub₂ : m₂.decl.visibility = .pub) (instanced₂ : m₂.decl.isStatic = false)
    (h : Host) (args : List Value) :
    m₁.invoke h (.object o) args = m₂.invoke h (.object o) args ∧
    ((∃ e, o.cls.Runs d e ∧ m₁.invoke h (.object o) args = e.call h (.object o) args) ∨
      o.cls.RunsNothing d ∧ m₁.invoke h (.object o) args =
        if args.length = d.arity then
          throw (.abstractMember (d.name ++ " has no implementation"))
        else throw (.wrongArity d.name d.arity args.length)) ∧
    (a₁ = o.cls → ∀ body, m₁.decl.body = some body →
      m₁.invoke h (.object o) args =
        if args.length = d.arity then h.run body (.object o) args
        else throw (.wrongArity d.name d.arity args.length)) := by
  have invoked₁ := invoke_of_extends above₁ found₁ pub₁ instanced₁ h args
  have invoked₂ := invoke_of_extends above₂ found₂ pub₂ instanced₂ h args
  have signature₁ := signature_of_found found₁
  have signature₂ := signature_of_found found₂
  refine ⟨?_, ?_, ?_⟩
  · cases hover : o.cls.findOverride d with
    | some e => rw [invoked₁, invoked₂, hover, Option.getD_some, Option.getD_some]
    | none =>
      have nothing := Class.findOverride_eq_none_iff.1 hover
      have bodiless₁ := bodiless_of_runsNothing above₁ found₁ pub₁ instanced₁ nothing
      have bodiless₂ := bodiless_of_runsNothing above₂ found₂ pub₂ instanced₂ nothing
      rw [invoked₁, invoked₂, hover, Option.getD_none, Option.getD_none,
        MethodDecl.call_of_bodiless signature₁ bodiless₁,
        MethodDecl.call_of_bodiless signature₂ bodiless₂]
  · cases hover : o.cls.findOverride d with
    | some e =>
      rw [hover, Option.getD_some] at invoked₁
      exact .inl ⟨e, Class.findOverride_eq_some_iff.1 hover, invoked₁⟩
    | none =>
      have nothing := Class.findOverride_eq_none_iff.1 hover
      have bodiless := bodiless_of_runsNothing above₁ found₁ pub₁ instanced₁ nothing
      rw [hover, Option.getD_none, MethodDecl.call_of_bodiless signature₁ bodiless] at invoked₁
      exact .inr ⟨nothing, invoked₁⟩
  · rintro rfl body hbody
    have hasBody : m₁.decl.hasBody = true := by simp [MethodDecl.hasBody, hbody]
    have runs := runs_of_found found₁ ⟨pub₁, instanced₁, hasBody⟩
    rw [invoked₁, Class.findOverride_eq_some_iff.2 runs, Option.getD_some,
      MethodDecl.call_of_body signature₁ hbody]

end MethodHandle

/-! ### A method that is declared four times -/

namespace Shapes

/-- A method that tells where it is declared, or does not. -/
def describe (visibility : Visibility) (told : Option String) : MethodDecl :=
  ⟨"describe", [], "str", visibility, false, [], told.map fun s => .literal (.str s)⟩

/-- A class that declares the method. -/
def declaring (id : Identity) (name : String) (parent : Option (Class Value)) (m : MethodDecl) :
    Class Value :=
  .ofPlan id none ⟨name, .concrete, parent, [m], [], [], []⟩

/-- The class at the end of the chain. -/
def base : Class Value := declaring 0 "pkg.Base" none (describe .pub (some "base"))

/-- It declares the method without a body. -/
def outline : Class Value := declaring 1 "pkg.Outline" (some base) (describe .pub none)

/-- It implements the method. -/
def square : Class Value := declaring 2 "pkg.Square" (some outline) (describe .pub (some "square"))

/-- It hides a method of its own under the same signature. -/
def tile : Class Value := declaring 3 "pkg.Tile" (some square) (describe .priv (some "tile"))

/-- What a lookup on a class finds, as a handle. -/
def lookUp (id : Identity) (c : Class Value) : Option MethodHandle :=
  (c.findMethod ⟨"describe", []⟩).map fun f => ⟨id, f.declaring, f.decl, f.overridden⟩

theorem found_of_lookUp {id : Identity} {c : Class Value} {m : MethodHandle}
    (h : lookUp id c = some m) : c.findMethod ⟨"describe", []⟩ = some m.found := by
  obtain ⟨f, hf, rfl⟩ := Option.map_eq_some_iff.1 h
  exact hf

/-- What is seen of a handle: whether it is public, not static and has a body. -/
def seen (m : MethodHandle) : Bool × Bool × Bool :=
  (m.decl.visibility = .pub, m.decl.isStatic, m.decl.hasBody)

end Shapes

open Shapes in
/-- On a tile, the method without a body that is found on the outline does what the method does that
is found on the tile. -/
theorem tile_describes_itself_as_square :
    ∃ m₁ m₂ : MethodHandle, outline.findMethod ⟨"describe", []⟩ = some m₁.found ∧
      tile.findMethod ⟨"describe", []⟩ = some m₂.found ∧ m₁.decl.hasBody = false ∧
      (∀ (h : Host) (args : List Value),
        m₁.invoke h (.object ⟨9, tile⟩) args = m₂.invoke h (.object ⟨9, tile⟩) args) ∧
      ((m₁.invoke (Host.level 1) (.object ⟨9, tile⟩) []).run .empty).result.bind Value.str? =
        some "square" := by
  have told₁ : (lookUp 7 outline).map seen = some (true, false, false) := by decide
  have told₂ : (lookUp 8 tile).map seen = some (true, false, true) := by decide
  obtain ⟨m₁, look₁, seen₁⟩ := Option.map_eq_some_iff.1 told₁
  obtain ⟨m₂, look₂, seen₂⟩ := Option.map_eq_some_iff.1 told₂
  simp only [seen, Prod.mk.injEq, decide_eq_true_eq] at seen₁ seen₂
  have above : tile.Extends outline := .parent (p := square) rfl (.parent rfl (.self outline))
  refine ⟨m₁, m₂, found_of_lookUp look₁, found_of_lookUp look₂, seen₁.2.2, fun h args => ?_, ?_⟩
  · exact (MethodHandle.calls_do_not_depend_on_lookups (o := ⟨9, tile⟩) above
      (found_of_lookUp look₁) seen₁.1 seen₁.2.1 (.self tile) (found_of_lookUp look₂) seen₂.1
      seen₂.2.1 h args).1
  · cases look₁
    decide +kernel

end LateBinding
