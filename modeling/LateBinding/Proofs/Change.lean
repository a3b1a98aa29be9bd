import LateBinding.Proofs.Members
import LateBinding.Proofs.Table
import LateBinding.Proofs.TypeCache.Lookups

/-!
# Changes of a world

What happens to a world, apart from the bookkeeping of names, is a sequence of small changes:
something is made or written (`World.Change`), or a lookup is noted in a cache (`World.Note`).  An
invariant of worlds that no such change breaks is kept by everything that is built from them
(`Stable`); what looks up and does nothing else keeps even an invariant that only notes do not
break (`Noting`).

Which values and classes may be stored is left open: a `Contract` says which are admitted, and
`World.Respects` that a world stores no others.

* `World.Note.respects`, `World.Change.respects` : a change that stores only what is admitted leads
  from a world that respects the contract to another one;
* `Stable.of_respects` : hence respecting a contract is such an invariant.
-/

namespace LateBinding

/-! ### What fields start with -/

/-- The fields of the class and of those it inherits from start with values that satisfy a
condition. -/
def Class.Starts (P : Value → Prop) (c : Class Value) : Prop :=
  ∀ d ∈ c.lineage, ∀ f ∈ d.fields, P f.initial

namespace Class.Starts

variable {P : Value → Prop} {c : Class Value}

theorem seeds (h : c.Starts P) : ∀ e ∈ c.seeds, P e.2 := by
  intro e he
  simp only [Class.seeds, List.mem_filterMap, List.mem_flatMap, List.mem_reverse] at he
  obtain ⟨f, ⟨d, hd, hf⟩, he⟩ := he
  split at he
  · cases he
  · cases he
    exact h d hd f hf

theorem staticSeeds (h : c.Starts P) : ∀ e ∈ c.staticSeeds, P e.2 := by
  intro e he
  simp only [Class.staticSeeds, List.mem_filterMap] at he
  obtain ⟨f, hf, he⟩ := he
  split at he
  · cases he
    exact h c.decl List.mem_cons_self f hf
  · cases he

theorem ofPlan {plan : ClassPlan Value} (hparent : ∀ p ∈ plan.parent, p.Starts P)
    (hfields : ∀ f ∈ plan.fields, P f.initial) (id : Identity) (scope : Option Scope) :
    (Class.ofPlan id scope plan).Starts P := by
  intro d hd f hf
  rcases List.mem_cons.1 hd with rfl | hd
  · exact hfields f hf
  · cases hp : plan.parent with
    | none => simp [Class.ofPlan, hp] at hd
    | some p => exact hparent p hp d (by simpa [Class.ofPlan, Class.lineage, hp] using hd) f hf

end Class.Starts

/-! ### Contracts -/

/-- What may be stored in a world, and which resolvers may be used. -/
structure Contract where
  /-- The values that are admitted. -/
  value : Value → Prop
  /-- The classes that are admitted. -/
  cls : Class Value → Prop
  /-- The resolvers that are admitted. -/
  resolver : Resolver → Prop

namespace Contract

/-- The contract that admits all values and classes, and the resolvers that satisfy a condition. -/
def free (resolver : Resolver → Prop) : Contract := ⟨fun _ => True, fun _ => True, resolver⟩

variable (C : Contract)

/-- Values without parts are admitted, an object if its class is, and with a class what its
fields start with. -/
structure Basic : Prop where
  plain : ∀ v, v.isProxy = false → v.object? = none → C.value v
  object : ∀ o : Object, C.value (.object o) ↔ C.cls o.cls
  seeds : ∀ c, C.cls c → ∀ e ∈ c.seeds, C.value e.2
  staticSeeds : ∀ c, C.cls c → ∀ e ∈ c.staticSeeds, C.value e.2

/-- The table holds admitted values. -/
def Values (t : Table String Value) : Prop := ∀ n v, t.get? n = some v → C.value v

/-- The cache of types holds admitted classes. -/
structure Types (t : TypeCache) : Prop where
  entries : ∀ i e, t.entries.get? i = some e → C.cls e.cls
  byName : ∀ n e, t.byName.get? n = some e → C.cls e.cls
  byScopedName : ∀ n e, t.byScopedName.get? n = some e → C.cls e.cls

/-- The constructors that an entry remembers are those of admitted classes. -/
def Memo (m : MemberMemo) : Prop := ∀ d k, m.constructors.get? d = some (some k) → C.cls k.cls

/-- Moreover, what admitted proxies consist of is admitted, and so are the adapters and classes
that can be made of admitted parts.  An adapter is made of a value by taking the target of a
proxy first. -/
structure Closed : Prop extends Basic C where
  target : ∀ i f t, C.value (.proxy i f t) → C.value t
  resolver : ∀ i b t, C.value (.proxy i (.adapter b) t) → C.resolver b.resolver
  interface : ∀ i b t, C.value (.proxy i (.adapter b) t) → C.cls b.interface.cls
  adapted : ∀ i b t, C.value (.proxy i (.adapter b) t) → C.cls b.adapted.cls
  adapter : ∀ i (b : Binding Value) v, C.resolver b.resolver → C.cls b.interface.cls →
    C.cls b.adapted.cls → C.value v → C.value (.proxy i (.adapter b) v.unwrap)
  planned : ∀ i s (plan : ClassPlan Value), (∀ p ∈ plan.parent, C.cls p) →
    (∀ f ∈ plan.fields, C.value f.initial) → C.cls (Class.ofPlan i s plan)

variable {C}

theorem Closed.unwrap (hC : C.Closed) {v : Value} (hv : C.value v) : C.value v.unwrap := by
  cases v with
  | proxy i f t => exact hC.target i f t hv
  | _ => exact hv

theorem Basic.free (resolver : Resolver → Prop) : (Contract.free resolver).Basic where
  plain _ _ _ := trivial
  object _ := Iff.rfl
  seeds _ _ _ _ := trivial
  staticSeeds _ _ _ _ := trivial

theorem Closed.free : (Contract.free fun _ => True).Closed where
  toBasic := .free _
  target _ _ _ _ := trivial
  resolver _ _ _ _ := trivial
  interface _ _ _ _ := trivial
  adapted _ _ _ _ := trivial
  adapter _ _ _ _ _ _ _ := trivial
  planned _ _ _ _ _ := trivial

theorem Basic.null (hC : C.Basic) : C.value .null := hC.plain _ rfl rfl

theorem Basic.str (hC : C.Basic) (s : String) : C.value (.str s) := hC.plain _ rfl rfl

theorem Basic.getD_null (hC : C.Basic) {o : Option Value} (h : ∀ v ∈ o, C.value v) :
    C.value (o.getD .null) := by
  cases o with
  | none => exact hC.null
  | some v => exact h v rfl

theorem Values.insert {t : Table String Value} (ht : C.Values t) {v : Value} (hv : C.value v)
    (name : String) : C.Values (t.insert name v) :=
  Table.forall_insert ht hv

theorem Values.empty : C.Values ∅ := by
  intro n u h
  simp at h

theorem Values.ofList {l : List (String × Value)} (h : ∀ e ∈ l, C.value e.2) :
    C.Values (Table.ofList l) :=
  fun _ _ hu => h _ (Table.mem_of_get?_ofList hu)

theorem Types.enter {t : TypeCache} (ht : C.Types t) {e : TypeEntry Value} (he : C.cls e.cls) :
    C.Types (t.enter e) :=
  { ht with entries := Table.forall_insert ht.entries he }

theorem Types.learn {t : TypeCache} (ht : C.Types t) (r : Resolver) (name : String)
    (scope : Identity) {e : TypeEntry Value} (he : C.cls e.cls) :
    C.Types (t.learn r name scope e) := by
  unfold TypeCache.learn
  split
  · exact { ht with byName := Table.forall_insert ht.byName he }
  · exact { ht with byScopedName := Table.forall_insert ht.byScopedName he }

theorem Types.known {t : TypeCache} (ht : C.Types t) {r : Resolver} {name : String}
    {scope : Identity} {e : TypeEntry Value} (h : t.known r name scope = some e) : C.cls e.cls := by
  unfold TypeCache.known at h
  split at h
  · exact ht.byName _ _ h
  · exact ht.byScopedName _ _ h

theorem Memo.constructor {m : MemberMemo} (hm : C.Memo m) {c : Class Value} (hc : C.cls c)
    (params : List String) :
    C.Memo { m with
      constructors := m.constructors.insert (.ofConstructor params)
        (c.constructorHandle? params) } := by
  intro d k h
  rw [Table.get?_insert] at h
  split at h
  · obtain ⟨f, -, rfl⟩ := Option.map_eq_some_iff.1 (Option.some.inj h)
    exact hc
  · exact hm d k h

end Contract

/-! ### What is noted -/

/-- An entry remembers the outcome of one more lookup of a method, a field or a marker of its
class, of which it remembered nothing. -/
inductive MemberMemo.Learns (c : Class Value) (m : MemberMemo) : MemberMemo → Prop
  | method (d : Descriptor) {o : Option MethodHandle} (hnew : m.methods.get? d = none)
    (ho : o.map MethodHandle.found = c.findMethod d) :
    Learns c m { m with methods := m.methods.insert d o }
  | field (name : String) (hnew : m.fields.get? name = none) :
    Learns c m { m with fields := m.fields.insert name (c.findField name) }
  | marker (kind : MarkerKind) (hnew : m.markers.get? kind = none) :
    Learns c m { m with markers := m.markers.insert kind (c.decl.marker? kind) }

theorem MemberMemo.Learns.constructors {c : Class Value} {m m' : MemberMemo} (h : m.Learns c m') :
    m'.constructors = m.constructors := by
  cases h <;> rfl

namespace TypeCache

/-- The cache holds the entry. -/
inductive Holds (t : TypeCache) (e : TypeEntry Value) : Prop
  | entry (i : Identity) (h : t.entries.get? i = some e)
  | name (n : String) (h : t.byName.get? n = some e)
  | scopedName (n : String × Identity) (h : t.byScopedName.get? n = some e)

theorem Holds.of_known {t : TypeCache} {r : Resolver} {name : String} {scope : Identity}
    {e : TypeEntry Value} (h : t.known r name scope = some e) : t.Holds e := by
  unfold known at h
  split at h
  · exact .name _ h
  · exact .scopedName _ h

end TypeCache

namespace World

/-- The world stores only what the contract admits. -/
structure Respects (C : Contract) (w : World) : Prop where
  registers : C.Values w.registers
  objects : ∀ i t, w.objects.get? i = some t → C.Values t
  statics : ∀ i t, w.statics.get? i = some t → C.Values t
  definitions : ∀ i n c, (w.classesOf i).get? n = some c → C.cls c
  types : ∀ i s, w.resolvers.get? i = some s → C.Types s.types
  memo : ∀ i m, w.members.get? i = some m → C.Memo m

/-- A cache holds the entry: as that of a class, or for a name. -/
def Caches (w : World) (e : TypeEntry Value) : Prop := ∃ r : Resolver, (w.stateOf r).types.Holds e

/-- What a lookup notes.  Classes that are entered in a cache are admitted by the contract, nothing
that was noted is replaced, and constructors are looked up on entries that a cache holds. -/
inductive Note (C : Contract) (w : World) : World → Prop
  /-- An identity is handed out. -/
  | fresh : Note C w { w with next := w.next + 1 }
  /-- A class is reached: it gets an entry. -/
  | reach (r : Resolver) {c : Class Value} (hc : C.cls c)
    (hnew : (w.stateOf r).types.entries.get? c.id = none) :
    Note C w ({ w with next := w.next + 1 }.withTypes r ((w.stateOf r).types.enter ⟨w.next, c⟩))
  /-- A name is found. -/
  | learn (r : Resolver) (name : String) (scope : Identity) {e : TypeEntry Value} (he : C.cls e.cls)
    (hheld : w.Caches e) (hnew : (w.stateOf r).types.known r name scope = none) :
    Note C w (w.withTypes r ((w.stateOf r).types.learn r name scope e))
  /-- An entry remembers a method, a field or a marker. -/
  | memo (e : TypeEntry Value) {m : MemberMemo} (hm : (w.memoOf e).Learns e.cls m) :
    Note C w (w.remembering e m)
  /-- An entry remembers a constructor. -/
  | constructor {e : TypeEntry Value} (he : C.cls e.cls) (hheld : w.Caches e)
    (params : List String) :
    Note C w (w.remembering e { w.memoOf e with
      constructors := (w.memoOf e).constructors.insert (.ofConstructor params)
        (e.cls.constructorHandle? params) })

/-- A change of a world, the bookkeeping of names apart.  Values that are written
and classes that are entered in a cache are admitted by the contract. -/
inductive Change (C : Contract) (w : World) : World → Prop
  /-- A lookup is noted. -/
  | note {w' : World} (h : Note C w w') : Change C w w'
  /-- A register is written. -/
  | register (name : String) {v : Value} (hv : C.value v) :
    Change C w { w with registers := w.registers.insert name v }
  /-- An object is made. -/
  | alloc {c : Class Value} (hc : C.cls c) :
    Change C w { w with
      next := w.next + 1
      objects := w.objects.insert w.next (Table.ofList c.seeds) }
  /-- A field of an object is written. -/
  | field (o : Object) (name : String) {v : Value} (hv : C.value v) :
    Change C w { w with objects := w.objects.insert o.id ((w.fieldsOf o).insert name v) }
  /-- A static field is written. -/
  | static (c : ClassDecl Value) (name : String) {v : Value} (hv : C.value v) :
    Change C w { w with statics := w.statics.insert c.id ((w.staticsOf c).insert name v) }
  /-- The static fields of a new class get the values they start with. -/
  | seed {c : Class Value} (hc : C.cls c) :
    Change C w { w with statics := w.statics.insert c.id (Table.ofList c.staticSeeds) }
  /-- A class is defined in a scope. -/
  | define (scope : Identity) {c : Class Value} (hc : C.cls c) :
    Change C w { w with
      definitions := w.definitions.insert scope ((w.classesOf scope).insert c.name c) }

variable {C : Contract} {w w' : World}

namespace Respects

variable (hw : w.Respects C)

include hw

theorem fieldsOf (o : Object) : C.Values (w.fieldsOf o) := by
  rw [World.fieldsOf]
  cases h : w.objects.get? o.id with
  | none => exact .empty
  | some t => exact hw.objects _ _ h

theorem staticsOf (c : ClassDecl Value) : C.Values (w.staticsOf c) := by
  rw [World.staticsOf]
  cases h : w.statics.get? c.id with
  | none => exact .empty
  | some t => exact hw.statics _ _ h

theorem typesOf (r : Resolver) : C.Types (w.stateOf r).types := by
  rw [World.stateOf]
  cases h : w.resolvers.get? r.id with
  | none => constructor <;> intro _ _ h <;> cases h
  | some s => exact hw.types _ _ h

theorem memoOf (e : TypeEntry Value) : C.Memo (w.memoOf e) := by
  rw [World.memoOf]
  cases h : w.members.get? e.id with
  | none =>
    intro _ _ h
    cases h
  | some m => exact hw.memo _ _ h

omit hw in
theorem empty : World.empty.Respects C where
  registers := .empty
  objects _ _ h := by simp [World.empty] at h
  statics _ _ h := by simp [World.empty] at h
  definitions _ _ _ h := by simp [World.empty, classesOf] at h
  types _ _ h := by simp [World.empty] at h
  memo _ _ h := by simp [World.empty] at h

omit hw in
theorem free (p : Resolver → Prop) (w : World) : w.Respects (.free p) where
  registers _ _ _ := trivial
  objects _ _ _ _ _ _ := trivial
  statics _ _ _ _ _ _ := trivial
  definitions _ _ _ _ := trivial
  types _ _ _ := ⟨fun _ _ _ => trivial, fun _ _ _ => trivial, fun _ _ _ => trivial⟩
  memo _ _ _ _ _ _ := trivial

theorem find? {scope : Scope} {name : String} {c : Class Value}
    (h : w.find? scope name = some c) : C.cls c := by
  obtain ⟨i, -, hi⟩ := List.exists_of_findSome?_eq_some h
  exact hw.definitions _ _ _ hi

end Respects

theorem Note.respects (hw : w.Respects C) (h : Note C w w') : w'.Respects C := by
  cases h with
  | fresh => exact { hw with }
  | reach r hc _ =>
    exact { hw with types := Store.forall_insert hw.types ((hw.typesOf r).enter hc) }
  | learn r name scope he _ _ =>
    exact { hw with types := Store.forall_insert hw.types ((hw.typesOf r).learn r name scope he) }
  | memo e hm =>
    refine { hw with memo := Store.forall_insert hw.memo fun d k h => ?_ }
    exact hw.memoOf e d k (hm.constructors ▸ h)
  | constructor he _ params =>
    exact { hw with memo := Store.forall_insert hw.memo (.constructor (hw.memoOf _) he params) }

theorem Change.respects (hC : C.Basic) (hw : w.Respects C) (h : Change C w w') :
    w'.Respects C := by
  cases h with
  | note h => exact h.respects hw
  | register name hv => exact { hw with registers := hw.registers.insert hv name }
  | alloc hc =>
    have objects := Store.forall_insert hw.objects (i := w.next) (.ofList (hC.seeds _ hc))
    exact ⟨hw.registers, objects, hw.statics, hw.definitions, hw.types, hw.memo⟩
  | field o name hv =>
    exact { hw with objects := Store.forall_insert hw.objects ((hw.fieldsOf o).insert hv name) }
  | static c name hv =>
    exact { hw with statics := Store.forall_insert hw.statics ((hw.staticsOf c).insert hv name) }
  | seed hc =>
    exact { hw with
      statics := Store.forall_insert hw.statics (.ofList (hC.staticSeeds _ hc)) }
  | define scope hc =>
    refine { hw with definitions := fun i n c h => ?_ }
    rw [classesOf, Store.get?_insert] at h
    split at h
    · exact Table.forall_insert (hw.definitions scope) hc n c h
    · exact hw.definitions i n c h

/-! ### Markers that are remembered -/

/-- What is remembered of markers stays, or a marker was looked up on an entry that a cache holds,
and is remembered as its class declares it. -/
def MarksHeld (w w' : World) : Prop :=
  ∀ e, (w'.memoOf e).markers = (w.memoOf e).markers ∨
    ∃ e' kind, w.Caches e' ∧ e'.id = e.id ∧
      (w'.memoOf e).markers = (w.memoOf e).markers.insert kind (e'.cls.decl.marker? kind)

theorem MarksHeld.of_members (h : w'.members = w.members) : w.MarksHeld w' := fun e =>
  .inl (by simp only [memoOf, h])

/-- Something else is remembered of an entry. -/
theorem MarksHeld.remembering (e : TypeEntry Value) {m : MemberMemo}
    (h : m.markers = (w.memoOf e).markers) : w.MarksHeld (w.remembering e m) := by
  intro e'
  rw [memoOf_remembering_eq]
  split
  · rename_i hid
    exact .inl (by rw [h, memoOf, hid, memoOf])
  · exact .inl rfl

/-- A marker is remembered of an entry that a cache holds. -/
theorem MarksHeld.marker {e : TypeEntry Value} (held : w.Caches e) (kind : MarkerKind) :
    w.MarksHeld (w.remembering e { w.memoOf e with
      markers := (w.memoOf e).markers.insert kind (e.cls.decl.marker? kind) }) := by
  intro e'
  rw [memoOf_remembering_eq]
  split
  · rename_i hid
    refine .inr ⟨e, kind, held, hid, ?_⟩
    rw [memoOf, hid, memoOf]
  · exact .inl rfl

end World

/-! ### Stable invariants -/

/-- An invariant of worlds that respect a contract, which no note breaks; markers are only looked up
on entries that caches hold. -/
structure Noting (C : Contract) (I : World → Prop) : Prop where
  respects : ∀ w, I w → w.Respects C
  note : ∀ w w', World.Note C w w' → w.MarksHeld w' → I w → I w'

/-- An invariant of worlds that respect a contract, which no change breaks; markers are only looked
up on entries that caches hold. -/
structure Stable (C : Contract) (I : World → Prop) : Prop where
  respects : ∀ w, I w → w.Respects C
  change : ∀ w w', World.Change C w w' → w.MarksHeld w' → I w → I w'

theorem Stable.noting {C : Contract} {I : World → Prop} (hI : Stable C I) : Noting C I where
  respects := hI.respects
  note w w' h held hw := hI.change w w' (.note h) held hw

theorem Stable.and {C : Contract} {I J : World → Prop} (hI : Stable C I) (hJ : Stable C J) :
    Stable C fun w => I w ∧ J w where
  respects w hw := hI.respects w hw.1
  change w w' h held hw := ⟨hI.change w w' h held hw.1, hJ.change w w' h held hw.2⟩

theorem Stable.of_respects {C : Contract} (hC : C.Basic) : Stable C (World.Respects C) where
  respects _ hw := hw
  change _ _ h _ hw := h.respects hC hw

end LateBinding
