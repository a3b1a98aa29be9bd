import Mathlib.Data.List.Dedup
import Mathlib.Data.List.Perm.Basic
import LateBinding.Proofs.Finding
import LateBinding.Proofs.Table

/-!
# The memo of a class cannot be seen

A cached class remembers what was found on it: methods, fields, constructors and markers, and also
that nothing was found.  Members are asked for one after the other, in any order and again and
again (`TypeEntry.Asked`, with everything that was asked and what was replied, newest first).

An entry *recalls* a lookup if its tables have a reply to it (`MemberMemo.reply?`).  A lookup gives
what is recalled and changes nothing, or else searches the class and is recalled from then on, and
no other lookup with it (`TypeEntry.ask_cases`).  So the entry recalls exactly the replies that it
gave (`TypeEntry.Recalls`).

* `get?_markerTable` : the table of the markers of a method has the first of each kind;
* `TypeEntry.memo_is_transparent` : **whatever was asked, every reply is what a search of the class
  finds, the next lookup returns and replies so too, a lookup that is repeated has the very reply
  that it had, and the methods that are remembered are as many as the signatures asked for.**
-/

namespace LateBinding

/-! ### Markers of a method -/

/-- The markers that follow leave the table as it is for the kinds that it has. -/
theorem get?_foldl_markers (kind : MarkerKind) (markers : List Marker)
    (t : Table MarkerKind Marker) :
    (markers.foldl (fun t m => if t.contains m.kind then t else t.insert m.kind m) t).get? kind =
      (t.get? kind).or (firstMarker kind markers) := by
  induction markers generalizing t with
  | nil => simp [firstMarker]
  | cons m rest ih =>
    rw [List.foldl_cons, ih]
    by_cases hm : m.kind = kind
    · -- the marker is entered if it is the first of its kind
      have first : firstMarker kind (m :: rest) = some m :=
        List.find?_cons_of_pos (by simpa using hm)
      rw [first, Table.contains, hm]
      cases ht : t.get? kind with
      | some a => simp [ht]
      | none => simp
    · have later : firstMarker kind (m :: rest) = firstMarker kind rest :=
        List.find?_cons_of_neg (by simpa using hm)
      rw [later]
      split
      · rfl
      · rw [Table.get?_insert, if_neg hm]

/-- **The table of markers has the first marker of each kind.** -/
theorem get?_markerTable (kind : MarkerKind) (markers : List Marker) :
    (markerTable markers).get? kind = firstMarker kind markers := by
  rw [markerTable, get?_foldl_markers, Table.get?_empty, Option.none_or]

/-! ### Lookups and replies -/

/-- What can be looked up on a class. -/
inductive MemberQuery
  /-- A method, by its signature. -/
  | method (d : Descriptor)
  /-- A field, by its name. -/
  | field (name : String)
  /-- A constructor, by its parameter types. -/
  | constructor (params : List String)
  /-- A marker, by its kind. -/
  | marker (kind : MarkerKind)
  deriving DecidableEq

/-- The signature of the method that is looked up, if it is a method. -/
def MemberQuery.signature? : MemberQuery → Option Descriptor
  | method d => some d
  | _ => none

/-- What a lookup replies, `μ` standing for methods. -/
inductive MemberReply (μ : Type)
  /-- To a lookup of a method. -/
  | method (found : Option μ)
  /-- To a lookup of a field. -/
  | field (found : Option FieldHandle)
  /-- To a lookup of a constructor. -/
  | constructor (found : Option ConstructorHandle)
  /-- To a lookup of a marker. -/
  | marker (found : Option Marker)

/-- A reply with another account of the method. -/
def MemberReply.map {μ ν : Type} (f : μ → ν) : MemberReply μ → MemberReply ν
  | method found => .method (found.map f)
  | field found => .field found
  | constructor found => .constructor found
  | marker found => .marker found

/-- What a search of the class finds, nothing being remembered. -/
def Class.look (c : Class Value) : MemberQuery → MemberReply (Found Value MethodDecl)
  | .method d => .method (c.findMethod d)
  | .field name => .field (c.findField name)
  | .constructor params => .constructor (c.constructorHandle? params)
  | .marker kind => .marker (c.decl.marker? kind)

namespace MemberMemo

/-- The reply to a lookup that is in the tables. -/
def reply? (m : MemberMemo) : MemberQuery → Option (MemberReply MethodHandle)
  | .method d => (m.methods.get? d).map .method
  | .field name => (m.fields.get? name).map .field
  | .constructor params => (m.constructors.get? (.ofConstructor params)).map .constructor
  | .marker kind => (m.markers.get? kind).map .marker

/-- Signatures of methods are recalled if and only if the table of methods has them. -/
theorem mem_keys_methods_iff {m : MemberMemo} {d : Descriptor} :
    d ∈ m.methods.keys ↔ ∃ r, m.reply? (.method d) = some r := by
  rw [← not_iff_not, ← Table.get?_eq_none_iff]
  simp [reply?, Option.eq_none_iff_forall_ne_some]

section

variable (m : MemberMemo) (q : MemberQuery)

/-- What is entered for a method is recalled of that method alone, and so for all kinds. -/
theorem reply?_insert_method (d : Descriptor) (o : Option MethodHandle) :
    reply? { m with methods := m.methods.insert d o } q =
      if q = .method d then some (.method o) else m.reply? q := by
  cases q with
  | method d' =>
    by_cases hd : d = d'
    · simp [reply?, hd]
    · simp [reply?, Table.get?_insert, hd, Ne.symm hd]
  | field name => rfl
  | constructor params => rfl
  | marker kind => rfl

theorem reply?_insert_field (name : String) (o : Option FieldHandle) :
    reply? { m with fields := m.fields.insert name o } q =
      if q = .field name then some (.field o) else m.reply? q := by
  cases q with
  | method d => rfl
  | field name' =>
    by_cases hname : name = name'
    · simp [reply?, hname]
    · simp [reply?, Table.get?_insert, hname, Ne.symm hname]
  | constructor params => rfl
  | marker kind => rfl

theorem reply?_insert_constructor (params : List String) (o : Option ConstructorHandle) :
    reply? { m with constructors := m.constructors.insert (.ofConstructor params) o } q =
      if q = .constructor params then some (.constructor o) else m.reply? q := by
  cases q with
  | method d => rfl
  | field name => rfl
  | constructor params' =>
    by_cases hparams : params = params'
    · simp [reply?, hparams]
    · simp [reply?, Table.get?_insert, Descriptor.ofConstructor, hparams, Ne.symm hparams]
  | marker kind => rfl

theorem reply?_insert_marker (kind : MarkerKind) (o : Option Marker) :
    reply? { m with markers := m.markers.insert kind o } q =
      if q = .marker kind then some (.marker o) else m.reply? q := by
  cases q with
  | method d => rfl
  | field name => rfl
  | constructor params => rfl
  | marker kind' =>
    by_cases hkind : kind = kind'
    · simp [reply?, hkind]
    · simp [reply?, Table.get?_insert, hkind, Ne.symm hkind]

end

end MemberMemo

namespace TypeEntry

variable (e : TypeEntry Value)

/-- Look something up. -/
def ask : MemberQuery → Act (MemberReply MethodHandle)
  | .method d => .method <$> e.method d
  | .field name => .field <$> e.field name
  | .constructor params => .constructor <$> e.constructor params
  | .marker kind => .marker <$> e.marker kind

/-- What is asked for the first time is searched for, and recalled from then on. -/
structure Learns (q : MemberQuery) (r : MemberReply MethodHandle) (w w' : World) : Prop where
  new : (w.memoOf e).reply? q = none
  searched : r.map MethodHandle.found = e.cls.look q
  reply? : ∀ q', (w'.memoOf e).reply? q' = if q' = q then some r else (w.memoOf e).reply? q'

variable {e} {w : World}

/-- A search is learnt by entering what it found. -/
theorem learns_remembering {q : MemberQuery} {r : MemberReply MethodHandle} {m : MemberMemo}
    {w₁ : World} (new : (w.memoOf e).reply? q = none)
    (searched : r.map MethodHandle.found = e.cls.look q)
    (entered : ∀ q', m.reply? q' = if q' = q then some r else (w.memoOf e).reply? q') :
    e.Learns q r w (w₁.remembering e m) :=
  ⟨new, searched, fun q' => by rw [World.memoOf_remembering]; exact entered q'⟩

theorem ask_method_cases (d : Descriptor) :
    (∃ r, (w.memoOf e).reply? (.method d) = some r ∧ e.ask (.method d) w = .done r w) ∨
      ∃ r w', e.ask (.method d) w = .done r w' ∧ e.Learns (.method d) r w w' := by
  have lookup := method_eq e d w
  cases hmemo : (w.memoOf e).methods.get? d with
  | some known =>
    rw [hmemo] at lookup
    exact .inl ⟨.method known, by rw [MemberMemo.reply?, hmemo]; rfl, Act.map_eq_done lookup⟩
  | none =>
    have new : (w.memoOf e).reply? (.method d) = none := by rw [MemberMemo.reply?, hmemo]; rfl
    rw [hmemo] at lookup
    cases hf : e.cls.findMethod d with
    | some f =>
      rw [hf] at lookup
      refine .inr ⟨_, _, Act.map_eq_done lookup, learns_remembering new ?_ fun q' =>
        MemberMemo.reply?_insert_method ..⟩
      rw [Class.look, hf]
      rfl
    | none =>
      rw [hf] at lookup
      refine .inr ⟨_, _, Act.map_eq_done lookup, learns_remembering new ?_ fun q' =>
        MemberMemo.reply?_insert_method ..⟩
      rw [Class.look, hf]
      rfl

theorem ask_field_cases (name : String) :
    (∃ r, (w.memoOf e).reply? (.field name) = some r ∧ e.ask (.field name) w = .done r w) ∨
      ∃ r w', e.ask (.field name) w = .done r w' ∧ e.Learns (.field name) r w w' := by
  have lookup := field_eq e name w
  cases hmemo : (w.memoOf e).fields.get? name with
  | some known =>
    rw [hmemo] at lookup
    exact .inl ⟨.field known, by rw [MemberMemo.reply?, hmemo]; rfl, Act.map_eq_done lookup⟩
  | none =>
    have new : (w.memoOf e).reply? (.field name) = none := by
      rw [MemberMemo.reply?, hmemo]; rfl
    rw [hmemo] at lookup
    exact .inr ⟨_, _, Act.map_eq_done lookup, learns_remembering new rfl fun q' =>
      MemberMemo.reply?_insert_field ..⟩

theorem ask_constructor_cases (params : List String) :
    (∃ r, (w.memoOf e).reply? (.constructor params) = some r ∧
        e.ask (.constructor params) w = .done r w) ∨
      ∃ r w', e.ask (.constructor params) w = .done r w' ∧
        e.Learns (.constructor params) r w w' := by
  have lookup := constructor_eq e params w
  cases hmemo : (w.memoOf e).constructors.get? (.ofConstructor params) with
  | some known =>
    rw [hmemo] at lookup
    exact .inl ⟨.constructor known, by rw [MemberMemo.reply?, hmemo]; rfl, Act.map_eq_done lookup⟩
  | none =>
    have new : (w.memoOf e).reply? (.constructor params) = none := by
      rw [MemberMemo.reply?, hmemo]; rfl
    rw [hmemo] at lookup
    exact .inr ⟨_, _, Act.map_eq_done lookup, learns_remembering new rfl fun q' =>
      MemberMemo.reply?_insert_constructor ..⟩

theorem ask_marker_cases (kind : MarkerKind) :
    (∃ r, (w.memoOf e).reply? (.marker kind) = some r ∧ e.ask (.marker kind) w = .done r w) ∨
      ∃ r w', e.ask (.marker kind) w = .done r w' ∧ e.Learns (.marker kind) r w w' := by
  have lookup := marker_eq e kind w
  cases hmemo : (w.memoOf e).markers.get? kind with
  | some known =>
    rw [hmemo] at lookup
    exact .inl ⟨.marker known, by rw [MemberMemo.reply?, hmemo]; rfl, Act.map_eq_done lookup⟩
  | none =>
    have new : (w.memoOf e).reply? (.marker kind) = none := by
      rw [MemberMemo.reply?, hmemo]; rfl
    rw [hmemo] at lookup
    exact .inr ⟨_, _, Act.map_eq_done lookup, learns_remembering new rfl fun q' =>
      MemberMemo.reply?_insert_marker ..⟩

/-- A lookup gives what is recalled and changes nothing, or else it searches. -/
theorem ask_cases (e : TypeEntry Value) (q : MemberQuery) (w : World) :
    (∃ r, (w.memoOf e).reply? q = some r ∧ e.ask q w = .done r w) ∨
      ∃ r w', e.ask q w = .done r w' ∧ e.Learns q r w w' := by
  cases q with
  | method d => exact ask_method_cases d
  | field name => exact ask_field_cases name
  | constructor params => exact ask_constructor_cases params
  | marker kind => exact ask_marker_cases kind

/-! ### Histories of lookups -/

variable (e)

/-- What was asked of an entry and what was replied, newest first, until a world is reached. -/
inductive Asked : List (MemberQuery × MemberReply MethodHandle) → World → Prop
  /-- Nothing is remembered yet. -/
  | new {w : World} (h : w.memoOf e = default) : Asked [] w
  /-- Something was looked up. -/
  | ask {past : List (MemberQuery × MemberReply MethodHandle)} {w w' : World} {q : MemberQuery}
    {r : MemberReply MethodHandle} (before : Asked past w) (h : e.ask q w = .done r w') :
    Asked ((q, r) :: past) w'
  /-- Something happened elsewhere. -/
  | elsewhere {past : List (MemberQuery × MemberReply MethodHandle)} {w w' : World}
    (before : Asked past w) (h : w'.memoOf e = w.memoOf e) : Asked past w'

/-- The entry recalls the replies that it gave, and those are what a search finds. -/
structure Recalls (past : List (MemberQuery × MemberReply MethodHandle)) (m : MemberMemo) :
    Prop where
  reply?_iff : ∀ q r, m.reply? q = some r ↔ (q, r) ∈ past
  searched : ∀ p ∈ past, p.2.map MethodHandle.found = e.cls.look p.1

variable {e} {past : List (MemberQuery × MemberReply MethodHandle)} {w' : World}

theorem recalls_default : e.Recalls [] default where
  reply?_iff q r := by
    refine iff_of_false ?_ List.not_mem_nil
    cases q <;> exact nofun
  searched := nofun

/-- One more lookup. -/
theorem Recalls.ask {q : MemberQuery} {r : MemberReply MethodHandle}
    (hw : e.Recalls past (w.memoOf e)) (h : e.ask q w = .done r w') :
    e.Recalls ((q, r) :: past) (w'.memoOf e) := by
  obtain ⟨r', known, h'⟩ | ⟨r', w'', h', learns⟩ := ask_cases e q w
  · cases h.symm.trans h'
    have asked := (hw.reply?_iff q r).1 known
    refine ⟨fun q' r' => ?_, fun p hp => ?_⟩
    · rw [hw.reply?_iff, List.mem_cons, Prod.mk.injEq]
      exact ⟨.inr, fun h => h.elim (fun ⟨hq, hr⟩ => hq ▸ hr ▸ asked) fun h => h⟩
    · obtain rfl | hp := List.mem_cons.1 hp
      · exact hw.searched _ asked
      · exact hw.searched p hp
  · cases h.symm.trans h'
    refine ⟨fun q' r' => ?_, fun p hp => ?_⟩
    · rw [learns.reply?, List.mem_cons, Prod.mk.injEq, ← hw.reply?_iff]
      by_cases hq : q' = q
      · -- nothing was recalled of it before
        rw [if_pos hq, hq, learns.new]
        simp [eq_comm]
      · rw [if_neg hq]
        simp [hq]
    · obtain rfl | hp := List.mem_cons.1 hp
      · exact learns.searched
      · exact hw.searched p hp

/-- An entry recalls what was replied, whatever was asked. -/
theorem Asked.recalls (h : e.Asked past w) : e.Recalls past (w.memoOf e) := by
  induction h with
  | new h => exact h ▸ recalls_default
  | ask _ h ih => exact ih.ask h
  | elsewhere _ h ih => exact h ▸ ih

/-- The methods that are remembered are as many as the signatures that were asked for. -/
theorem Recalls.size_methods {m : MemberMemo} (h : e.Recalls past m) :
    m.methods.size = (past.filterMap fun p => p.1.signature?).dedup.length := by
  have same : m.methods.keys.Perm (past.filterMap fun p => p.1.signature?).dedup := by
    refine (List.perm_ext_iff_of_nodup m.methods.nodup (List.nodup_dedup _)).2 fun d => ?_
    change d ∈ m.methods.keys ↔ _
    rw [List.mem_dedup, List.mem_filterMap, MemberMemo.mem_keys_methods_iff]
    simp only [h.reply?_iff]
    constructor
    · rintro ⟨r, hr⟩
      exact ⟨_, hr, rfl⟩
    · rintro ⟨⟨q, r⟩, hp, hd⟩
      cases q with
      | method d' =>
        cases hd
        exact ⟨r, hp⟩
      | field name => cases hd
      | constructor params => cases hd
      | marker kind => cases hd
  rw [← same.length_eq, Table.keys, List.length_map, Table.size]

/-- **The memo cannot be seen.**  Let an entry have been asked for members and markers of its class,
in whatever order and however often, whatever happened elsewhere in between.

* Every reply was what a search of the class finds.
* Whatever is asked next, the lookup returns, with what a search of the class finds; and if that
  was asked before then the reply is the one that was given then, be it the same handle of a method
  or that nothing was found.
* The methods that are remembered are as many as the signatures that methods were asked for by,
  whether they were found or not; constructors, fields and markers do not count.
* On every handle of a method, the marker of a kind is the first one that was declared. -/
theorem memo_is_transparent (h : e.Asked past w) :
    (∀ p ∈ past, p.2.map MethodHandle.found = e.cls.look p.1) ∧
    (∀ q, ∃ r w', e.ask q w = .done r w' ∧ r.map MethodHandle.found = e.cls.look q ∧
      ∀ p ∈ past, p.1 = q → p.2 = r) ∧
    e.rememberedMethods w =
      .done (past.filterMap fun p => p.1.signature?).dedup.length w ∧
    ∀ (m : MethodHandle) kind, m.marker? kind = firstMarker kind m.decl.markers := by
  have recalls := h.recalls
  refine ⟨recalls.searched, fun q => ?_, ?_, fun m kind => get?_markerTable kind _⟩
  · obtain ⟨r, known, hask⟩ | ⟨r, w', hask, learns⟩ := ask_cases e q w
    · refine ⟨r, w, hask, recalls.searched _ ((recalls.reply?_iff q r).1 known), ?_⟩
      rintro ⟨_, r'⟩ hp rfl
      exact Option.some.inj (((recalls.reply?_iff _ r').2 hp).symm.trans known)
    · refine ⟨r, w', hask, learns.searched, ?_⟩
      rintro ⟨_, r'⟩ hp rfl
      cases learns.new.symm.trans ((recalls.reply?_iff _ r').2 hp)
  · rw [← recalls.size_methods]
    rfl

end TypeEntry

open Boxes in
/-- A box is asked for a method, for a method that has the name of constructors, and for the
constructor without parameters: that one is found and the method of its name is not, two methods are
remembered, and the first method is found once more as it was. -/
theorem TypeEntry.box_is_asked_again : ∃ r₁ r₂ r₃ w w',
    Asked ⟨9, box⟩ [(.constructor [], r₃), (.method (.ofConstructor []), r₂),
      (.method ⟨"origin", []⟩, r₁)] w ∧
    r₂.map MethodHandle.found = .method none ∧
    r₃.map MethodHandle.found = .constructor (box.constructorHandle? []) ∧
    rememberedMethods ⟨9, box⟩ w = .done 2 w ∧
    ask ⟨9, box⟩ (.method ⟨"origin", []⟩) w = .done r₁ w' := by
  have start : Asked ⟨9, box⟩ [] .empty := .new rfl
  obtain ⟨r₁, w₁, first, -⟩ := (memo_is_transparent start).2.1 (.method ⟨"origin", []⟩)
  have once := start.ask first
  obtain ⟨r₂, w₂, second, -⟩ := (memo_is_transparent once).2.1 (.method (.ofConstructor []))
  have twice := once.ask second
  obtain ⟨r₃, w₃, third, -⟩ := (memo_is_transparent twice).2.1 (.constructor [])
  have past := twice.ask third
  obtain ⟨searched, next, count, -⟩ := memo_is_transparent past
  obtain ⟨r, w', again, -, same⟩ := next (.method ⟨"origin", []⟩)
  cases same (.method ⟨"origin", []⟩, r₁) (by simp) rfl
  exact ⟨r₁, r₂, r₃, w₃, w', past, searched (.method (.ofConstructor []), r₂) (by simp),
    searched (.constructor [], r₃) (by simp), count, again⟩

end LateBinding
