import LateBinding.Member.Memo
import LateBinding.Member.Invoke
import LateBinding.Proofs.Change
import LateBinding.Resolver.Types

/-!
# What lookups and accesses keep

Looking up classes and members, reading and writing fields, and running members keep every
stable invariant, and give only what the contract admits; where a body is run, this supposes the
same of the host (`Host.Runs`).
-/

namespace LateBinding

variable {C : Contract} {I : World → Prop}

/-- Running an admitted body keeps the invariant: of admitted values it makes admitted ones. -/
def Host.Runs (C : Contract) (I : World → Prop) (h : Host) : Prop :=
  ∀ body receiver args, C.value receiver → (∀ v ∈ args, C.value v) →
    Attempt.Keeps I C.value (h.run body receiver args)

theorem Act.Keeps.world_of (hI : Noting C I) : Act.Keeps I (World.Respects C) Act.world :=
  Act.Keeps.world.mono fun _ hw => hI.respects _ hw

/-- A change that leaves what caches remember of members. -/
theorem Act.Keeps.change {f : World → World} (hI : Stable C I)
    (h : ∀ w, w.Respects C → World.Change C w (f w))
    (members : ∀ w, (f w).members = w.members := by exact fun _ => rfl) :
    Act.Keeps I (fun _ => True) (Act.update f) :=
  .update fun w hw => hI.change _ _ (h w (hI.respects w hw)) (.of_members (members w)) hw

theorem Act.Keeps.fresh_of (hI : Noting C I) : Act.Keeps I (fun _ => True) Act.fresh :=
  .fresh fun _ hw => hI.note _ _ .fresh (.of_members rfl) hw

/-! ### The cache of types -/

namespace Resolver

variable (r : Resolver)

theorem keeps_entry (hI : Noting C I) {c : Class Value} (hc : C.cls c) :
    Act.Keeps I (fun e => C.cls e.cls) (r.entry c) := by
  intro w e w' hw h
  rw [entry_eq] at h
  cases hknown : (w.stateOf r).types.entries.get? c.id with
  | some known =>
    rw [hknown] at h
    cases h
    exact ⟨hw, ((hI.respects w hw).typesOf r).entries _ _ hknown⟩
  | none =>
    rw [hknown] at h
    cases h
    exact ⟨hI.note _ _ (.reach r hc hknown) (.of_members rfl) hw, hc⟩

/-- The entry of a class is held from then on, and no name is found meanwhile. -/
theorem held_of_entry {c : Class Value} {e : TypeEntry Value} {w w' : World}
    (h : r.entry c w = .done e w') :
    (w'.stateOf r).types.Holds e ∧ ∀ name scope,
      (w'.stateOf r).types.known r name scope = (w.stateOf r).types.known r name scope := by
  rw [entry_eq] at h
  cases hknown : (w.stateOf r).types.entries.get? c.id with
  | some known =>
    rw [hknown] at h
    cases h
    exact ⟨.entry _ hknown, fun _ _ => rfl⟩
  | none =>
    rw [hknown] at h
    cases h
    rw [World.types_withTypes, if_pos rfl]
    exact ⟨.entry c.id (Table.get?_insert_self _ _ _), fun _ _ => rfl⟩

theorem keeps_classNamedIn (hI : Noting C I) (name : String) (scope : Scope) :
    Act.Keeps I (fun o => ∀ e ∈ o, C.cls e.cls) (r.classNamedIn name scope) := by
  intro w o w' hw h
  have respects := hI.respects w hw
  obtain ⟨e, he, rfl, rfl⟩ | ⟨hnew, ⟨rfl, rfl⟩ | ⟨s, c, e, w₁, hc, he, rfl, rfl⟩⟩ :=
    r.classNamedIn_cases h
  · exact ⟨hw, fun _ h => by cases h; exact (respects.typesOf r).known he⟩
  · exact ⟨hw, fun _ h => by cases h⟩
  · obtain ⟨hw₁, hcls⟩ := r.keeps_entry hI (respects.find? hc) hw he
    obtain ⟨held, known⟩ := r.held_of_entry he
    have new : (w₁.stateOf r).types.known r name scope.id = none := by rw [known, hnew]
    refine ⟨hI.note _ _ (.learn r name scope.id hcls ⟨r, held⟩ new) (.of_members rfl) hw₁,
      fun _ h => ?_⟩
    cases h
    exact hcls

theorem keeps_classNamed (hI : Noting C I) (name : String) :
    Act.Keeps I (fun o => ∀ e ∈ o, C.cls e.cls) (r.classNamed name) := by
  rw [← classNamedIn_defaultScope]
  exact r.keeps_classNamedIn hI name _

/-- A name that was found is known. -/
theorem known_of_classNamedIn {name : String} {scope : Scope} {e : TypeEntry Value} {w w' : World}
    (h : r.classNamedIn name scope w = .done (some e) w') :
    (w'.stateOf r).types.known r name scope.id = some e := by
  obtain ⟨e', he, ho, rfl⟩ | ⟨-, ⟨ho, -⟩ | ⟨s, c, e', w₁, -, -, ho, rfl⟩⟩ := r.classNamedIn_cases h
  · cases ho
    exact he
  · cases ho
  · cases ho
    rw [World.types_withTypes, if_pos rfl, TypeCache.known_learn, if_pos ⟨rfl, rfl⟩]

theorem keeps_typeNamed (hI : Noting C I) (name : String) (scope : Scope) :
    Act.Keeps I (fun o => ∀ e ∈ o, C.cls e.cls) (r.typeNamed name scope) := by
  refine .bind (r.keeps_classNamedIn hI name scope) fun o ho => ?_
  split
  · exact .pure ho
  · exact r.keeps_classNamed hI name

/-- A type that a name means has an entry that the cache holds. -/
theorem caches_of_typeNamed {name : String} {scope : Scope} {e : TypeEntry Value} {w w' : World}
    (h : r.typeNamed name scope w = .done (some e) w') : w'.Caches e := by
  obtain ⟨o, w₁, ho, h⟩ := Act.bind_eq_done.1 h
  cases o with
  | some e' =>
    cases h
    exact ⟨r, .of_known (r.known_of_classNamedIn ho)⟩
  | none =>
    rw [← classNamedIn_defaultScope] at h
    exact ⟨r, .of_known (r.known_of_classNamedIn h)⟩

end Resolver

/-! ### Lookups of members -/

namespace TypeEntry

variable (e : TypeEntry Value)

theorem keeps_method (hI : Noting C I) (d : Descriptor) :
    Act.Keeps I (fun _ => True) (e.method d) := by
  intro w o w' hw h
  rw [method_eq] at h
  split at h
  · cases h
    exact ⟨hw, trivial⟩
  rename_i hnew
  split at h
  · rename_i f hf
    cases h
    -- the handle gets its identity before it is remembered
    have fresh := hI.note _ _ .fresh (.of_members rfl) hw
    refine ⟨hI.note _ _ (.memo e (.method d hnew ?_)) (.remembering e rfl) fresh, trivial⟩
    exact hf.symm
  · rename_i hf
    cases h
    exact ⟨hI.note _ _ (.memo e (.method d hnew hf.symm)) (.remembering e rfl) hw, trivial⟩

theorem keeps_field (hI : Noting C I) (name : String) :
    Act.Keeps I (fun _ => True) (e.field name) := by
  intro w o w' hw h
  rw [field_eq] at h
  split at h
  · cases h
    exact ⟨hw, trivial⟩
  · rename_i hnew
    cases h
    exact ⟨hI.note _ _ (.memo e (.field name hnew)) (.remembering e rfl) hw, trivial⟩

/-- Looking a marker up on an entry that a cache holds. -/
theorem keeps_marker (hI : Noting C I) (kind : MarkerKind) :
    Act.Keeps (fun w => I w ∧ w.Caches e) (fun _ => True) (e.marker kind) := by
  rintro w o w' ⟨hw, held⟩ h
  rw [marker_eq] at h
  split at h
  · cases h
    exact ⟨⟨hw, held⟩, trivial⟩
  · rename_i hnew
    cases h
    exact ⟨⟨hI.note _ _ (.memo e (.marker kind hnew)) (.marker held kind) hw, held⟩, trivial⟩

/-- Looking a constructor up on an entry that a cache holds. -/
theorem leads_constructor (hI : Noting C I) (he : C.cls e.cls) (params : List String) :
    Act.Leads (fun w => I w ∧ w.Caches e) I (fun o => ∀ k ∈ o, C.cls k.cls)
      (e.constructor params) := by
  rintro w o w' ⟨hw, hheld⟩ h
  rw [constructor_eq] at h
  split at h
  · rename_i known hknown
    cases h
    refine ⟨hw, fun k hk => ?_⟩
    cases hk
    exact (hI.respects w hw).memoOf e _ _ hknown
  · cases h
    refine ⟨hI.note _ _ (.constructor he hheld params) (.remembering e rfl) hw, fun k hk => ?_⟩
    obtain ⟨f, -, rfl⟩ := Option.map_eq_some_iff.1 hk
    exact he

end TypeEntry

/-! ### Fields and registers -/

theorem Act.keeps_register (hI : Noting C I) (hC : C.Basic) (name : String) :
    Act.Keeps I C.value (Act.register name) :=
  .bind (.world_of hI) fun _ hw => .pure (hC.getD_null fun _ h => hw.registers _ _ h)

theorem Act.keeps_setRegister (hI : Stable C I) (name : String) {v : Value} (hv : C.value v) :
    Act.Keeps I (fun _ => True) (Act.setRegister name v) :=
  .change hI fun _ _ => .register name hv

theorem ClassDecl.keeps_staticGet (hI : Noting C I) (c : ClassDecl Value) (name : String) :
    Act.Keeps I (fun o => ∀ v ∈ o, C.value v) (c.staticGet name) :=
  .bind (.world_of hI) fun _ hw => .pure fun _ h => hw.staticsOf c _ _ h

theorem ClassDecl.keeps_staticSet (hI : Stable C I) (c : ClassDecl Value) (name : String)
    {v : Value} (hv : C.value v) :
    Act.Keeps I (fun o => ∀ v ∈ o, C.value v) (c.staticSet name v) :=
  .bind (c.keeps_staticGet hI.noting name) fun _ h =>
    .bind (.change hI fun _ _ => .static c name hv) fun _ _ => .pure h

namespace Object

theorem keeps_alloc (hI : Stable C I) {c : Class Value} (hc : C.cls c) :
    Act.Keeps I (fun o => o.cls = c) (alloc c) := by
  -- The identity and the fields come into being together, so this is one change.
  intro w o w' hw h
  have change : World.Change C w _ := .alloc hc
  cases h
  exact ⟨hI.change _ _ change (.of_members rfl) hw, rfl⟩

theorem keeps_get (hI : Noting C I) (o : Object) (name : String) :
    Act.Keeps I (fun r => ∀ v ∈ r, C.value v) (o.get name) :=
  .bind (.world_of hI) fun _ hw => .pure fun _ h => hw.fieldsOf o _ _ h

theorem keeps_set (hI : Stable C I) (o : Object) (name : String) {v : Value} (hv : C.value v) :
    Act.Keeps I (fun r => ∀ v ∈ r, C.value v) (o.set name v) :=
  .bind (o.keeps_get hI.noting name) fun _ h =>
    .bind (.change hI fun _ _ => .field o name hv) fun _ _ => .pure h

end Object

/-! ### Running members -/

section Members

variable {h : Host} (hh : h.Runs C I)

include hh

theorem MethodDecl.keeps_call (m : MethodDecl) {receiver : Value} {args : List Value}
    (hr : C.value receiver) (ha : ∀ v ∈ args, C.value v) :
    Attempt.Keeps I C.value (m.call h receiver args) := by
  unfold MethodDecl.call
  split
  · exact .throw
  · split
    · exact hh _ _ _ hr ha
    · exact .throw

theorem MethodHandle.keeps_invoke (hC : C.Basic) (m : MethodHandle) {receiver : Value}
    {args : List Value} (hr : C.value receiver) (ha : ∀ v ∈ args, C.value v) :
    Attempt.Keeps I C.value (m.invoke h receiver args) := by
  unfold MethodHandle.invoke
  split
  · exact m.decl.keeps_call hh hC.null ha
  · split
    · exact .throw
    · exact .bind (.except fun _ _ => trivial) fun _ _ => MethodDecl.keeps_call hh _ hr ha
    · exact m.decl.keeps_call hh hr ha

theorem Class.keeps_construct (hI : Stable C I) (hC : C.Basic) {c : Class Value} (hc : C.cls c)
    (k : ConstructorDecl) {args : List Value} (ha : ∀ v ∈ args, C.value v) :
    Attempt.Keeps I (fun o => o.cls = c) (c.construct h k args) := by
  unfold Class.construct
  dsimp only
  split
  · exact .throw_bind
  split
  · exact .throw_bind
  refine .bind (.liftM (Object.keeps_alloc hI hc)) fun o ho => ?_
  refine .bind (hh k.init (.object o) args ?_ ha) fun _ _ => .pure ho
  rw [hC.object, ho]
  exact hc

end Members

namespace FieldHandle

theorem keeps_get (hI : Noting C I) (hC : C.Basic) (f : FieldHandle) (target : Value) :
    Attempt.Keeps I C.value (f.get target) := by
  unfold FieldHandle.get
  split
  · exact .bind (.liftM (f.declaring.keeps_staticGet hI _)) fun _ h => .pure (hC.getD_null h)
  · exact .bind (.except fun _ _ => trivial) fun o _ =>
      .bind (.liftM (Object.keeps_get hI o _)) fun _ h => .pure (hC.getD_null h)

theorem keeps_set (hI : Stable C I) (f : FieldHandle) (target : Value) {v : Value}
    (hv : C.value v) : Attempt.Keeps I (fun _ => True) (f.set target v) := by
  unfold FieldHandle.set
  split
  · exact .bind (.liftM (f.declaring.keeps_staticSet hI _ hv)) fun _ _ => .pure trivial
  · exact .bind (.except fun _ _ => trivial) fun o _ =>
      .bind (.liftM (Object.keeps_set hI o _ hv)) fun _ _ => .pure trivial

end FieldHandle

end LateBinding
