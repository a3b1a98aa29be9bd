import LateBinding.Proofs.Meaning.Basic
import LateBinding.Proofs.Members

/-!
# Sources that answer always the same

Bodies see registers, objects, static fields and classes, but not what resolvers keep.  To a body
two worlds are alike (`World.Alike`) if they differ in nothing else, new objects apart.

A source is *steady* (`Steady`) if it gives the same answer in all worlds that are alike, and leaves
nothing behind but new objects.  A setting *holds* in a world (`Setting.Holds`) if names denote the
classes that it says, and if everything that its document can ask is steady and answers as it says.
It then holds in all worlds that are alike (`Setting.Holds.of_alike`).
-/

namespace LateBinding

/-! ### Worlds that are alike -/

namespace World

/-- What bodies see is the same, except that there may be new objects. -/
structure Alike (w w' : World) : Prop where
  next : w.next ≤ w'.next
  registers : w'.registers = w.registers
  objects : ∀ i < w.next, w'.objects.get? i = w.objects.get? i
  statics : w'.statics = w.statics
  definitions : w'.definitions = w.definitions

namespace Alike

variable {w w' w'' : World}

theorem refl (w : World) : Alike w w := ⟨Nat.le_refl _, rfl, fun _ _ => rfl, rfl, rfl⟩

theorem trans (h : Alike w w') (h' : Alike w' w'') : Alike w w'' where
  next := Nat.le_trans h.next h'.next
  registers := h'.registers.trans h.registers
  objects i hi := (h'.objects i (Nat.lt_of_lt_of_le hi h.next)).trans (h.objects i hi)
  statics := h'.statics.trans h.statics
  definitions := h'.definitions.trans h.definitions

theorem find?_eq (h : Alike w w') (scope : Scope) (name : String) :
    w'.find? scope name = w.find? scope name := by
  simp only [find?, classesOf, h.definitions]

end Alike

/-- There may be new objects, and nothing else is new. -/
structure Grows (w w' : World) : Prop extends Alike w w' where
  slots : w'.slots = w.slots
  members : w'.members = w.members
  resolvers : w'.resolvers = w.resolvers
  evaluating : w'.evaluating = w.evaluating

theorem Grows.refl (w : World) : Grows w w := ⟨.refl w, rfl, rfl, rfl, rfl⟩

theorem Grows.stateOf {w w' : World} (h : Grows w w') (r : Resolver) :
    w'.stateOf r = w.stateOf r := by
  rw [World.stateOf, h.resolvers, World.stateOf]

theorem Grows.spares {w w' : World} (h : Grows w w') (r : Resolver) : w.Spares r w' where
  next := h.next
  state := ⟨(w.stateOf r).types, h.stateOf r⟩
  slots _ _ _ := by rw [h.slots]
  evaluating := h.evaluating

end World

/-! ### What classes answer -/

/-- A handle of what was found.  It is invoked like any other one: a method does not look at the
identity of its handle. -/
def MethodHandle.ofFound (f : Found Value MethodDecl) : MethodHandle :=
  ⟨0, f.declaring, f.decl, f.overridden⟩

namespace Class

/-- The text that a static method of a class gives. -/
def staticText (h : Host) (c : Class Value) (d : Descriptor) : Act (Option String) := do
  match c.findMethod d with
  | some f =>
    if f.decl.isStatic then
      return textResult (← ((MethodHandle.ofFound f).invoke h .null []).run)
    else return none
  | none => return none

/-- The text that a new instance of a provider class gives. -/
def instanceText (h : Host) (c : Class Value) : Act (Option String) := do
  match c.constructorHandle? [], c.findMethod Resolver.providerMethod with
  | some k, some get =>
    let asked : Attempt Exception Value := do
      let o ← k.construct h []
      (MethodHandle.ofFound get).invoke h (.object o) []
    return textResult (← asked.run)
  | _, _ => return none

end Class

namespace TypeEntry

variable {e : TypeEntry Value} {w : World} (hw : (w.memoOf e).Truthful e.cls) (h : Host)

include hw

/-- With a truthful memo, asking a static method is asking the one that a search finds. -/
theorem staticText_of_truthful (d : Descriptor) :
    ∃ w₁, w.Notes e w₁ ∧ Resolver.staticText h e d w = e.cls.staticText h d w₁ := by
  obtain ⟨o, w₁, ho, hfound, notes⟩ := method_of_truthful hw d
  refine ⟨w₁, notes, ?_⟩
  rw [Resolver.staticText, Act.bind_apply, ho, Class.staticText, ← hfound]
  cases o <;> rfl

/-- With a truthful memo, asking a new instance is asking what searches find. -/
theorem providerText_of_truthful :
    ∃ w₁, w.Notes e w₁ ∧ Resolver.providerText h e w = e.cls.instanceText h w₁ := by
  obtain ⟨w₁, hk, notes⟩ := constructor_of_truthful hw []
  rw [Resolver.providerText, Act.bind_apply, hk, Class.instanceText]
  cases e.cls.constructorHandle? [] with
  | none => exact ⟨w₁, notes, rfl⟩
  | some k =>
    obtain ⟨o, w₂, ho, hfound, notes₂⟩ := method_of_truthful notes.truthful Resolver.providerMethod
    refine ⟨w₂, notes.trans notes₂, ?_⟩
    dsimp only
    rw [Act.bind_apply, ho, ← hfound]
    cases o <;> rfl

end TypeEntry

/-! ### Steady sources -/

/-- In every world that is alike the source gives this answer, and leaves nothing but new objects
behind, if evaluations may nest deep enough. -/
def Steady (depth : Nat) (w : World) (source : Host → Act (Option String))
    (answer : Option String) : Prop :=
  ∀ k, depth ≤ k → ∀ w', w.Alike w' → ∃ w'', source (.level k) w' = .done answer w'' ∧ w'.Grows w''

theorem Steady.of_alike {depth : Nat} {w w' : World} {source : Host → Act (Option String)}
    {answer : Option String} (h : Steady depth w source answer) (hw : w.Alike w') :
    Steady depth w' source answer :=
  fun k hk _ hw' => h k hk _ (hw.trans hw')

/-- Names denote the classes that the setting says, which are told apart by their identities, and
all that the document can ask is steady and answers as the setting says. -/
structure Setting.Holds (E : Setting) (depth : Nat) (scope : Scope) (w : World) : Prop where
  found : ∀ name, w.find? scope name = E.find? name
  distinct : ∀ name name' c c', E.find? name = some c → E.find? name' = some c' → c.id = c'.id →
    c = c'
  given : ∀ name p, E.registry.get? name = some p → Steady depth w p.get (E.given p)
  static : ∀ name d, E.described name = some d → d.kind = .static → ∀ method ∈ d.value,
    ∀ typeName c, E.find? typeName = some c →
      Steady depth w (c.staticText · ⟨method, d.params⟩) (E.static c ⟨method, d.params⟩)
  made : ∀ name d, E.described name = some d → d.kind = .provider →
    ∀ typeName c, E.find? typeName = some c → Steady depth w c.instanceText (E.made c)

theorem Setting.Holds.of_alike {E : Setting} {depth : Nat} {scope : Scope} {w w' : World}
    (h : E.Holds depth scope w) (hw : w.Alike w') : E.Holds depth scope w' where
  found name := (hw.find?_eq scope name).trans (h.found name)
  distinct := h.distinct
  given name p hp := (h.given name p hp).of_alike hw
  static name d hd hkind method hm typeName c hc :=
    (h.static name d hd hkind method hm typeName c hc).of_alike hw
  made name d hd hkind typeName c hc := (h.made name d hd hkind typeName c hc).of_alike hw

end LateBinding
