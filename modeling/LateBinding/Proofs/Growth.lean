import LateBinding.Proofs.Change

/-!
# Caches grow

Nothing that a cache of types knows is ever replaced: whatever changes in a world, each cache goes
on answering what it answered (`TypeCache.GrowsTo`, `World.Change.types_growTo`).  So an entry that
a cache holds is held from then on (`Stable.caches`).  A name that is known stays known, and what is
remembered of a marker stays, too (`World.CachedIn`).
-/

namespace LateBinding

namespace Table

variable {κ α : Type} [DecidableEq κ]

/-- A key that is entered anew takes nothing away. -/
theorem get?_insert_of_new {t : Table κ α} {k k' : κ} {a b : α} (hnew : t.get? k = none)
    (h : t.get? k' = some b) : (t.insert k a).get? k' = some b := by
  rw [get?_insert, if_neg, h]
  rintro rfl
  rw [hnew] at h
  cases h

end Table

namespace TypeCache

/-- The second cache answers all that the first one does, in the same way. -/
structure GrowsTo (t t' : TypeCache) : Prop where
  entries : ∀ i e, t.entries.get? i = some e → t'.entries.get? i = some e
  byName : ∀ n e, t.byName.get? n = some e → t'.byName.get? n = some e
  byScopedName : ∀ n e, t.byScopedName.get? n = some e → t'.byScopedName.get? n = some e

namespace GrowsTo

variable {t t' : TypeCache}

theorem refl (t : TypeCache) : t.GrowsTo t := ⟨fun _ _ h => h, fun _ _ h => h, fun _ _ h => h⟩

theorem trans {t'' : TypeCache} (h : t.GrowsTo t') (h' : t'.GrowsTo t'') : t.GrowsTo t'' where
  entries i e he := h'.entries i e (h.entries i e he)
  byName n e he := h'.byName n e (h.byName n e he)
  byScopedName n e he := h'.byScopedName n e (h.byScopedName n e he)

theorem enter (t : TypeCache) {e : TypeEntry Value} (hnew : t.entries.get? e.cls.id = none) :
    t.GrowsTo (t.enter e) :=
  { refl t with entries := fun _ _ h => Table.get?_insert_of_new hnew h }

theorem learn (t : TypeCache) {r : Resolver} {name : String} {scope : Identity}
    (e : TypeEntry Value) (hnew : t.known r name scope = none) :
    t.GrowsTo (t.learn r name scope e) := by
  unfold TypeCache.learn
  unfold known at hnew
  split
  · rw [if_pos ‹_›] at hnew
    exact { refl t with byName := fun _ _ h => Table.get?_insert_of_new hnew h }
  · rw [if_neg ‹_›] at hnew
    exact { refl t with byScopedName := fun _ _ h => Table.get?_insert_of_new hnew h }

theorem holds (h : t.GrowsTo t') {e : TypeEntry Value} (he : t.Holds e) : t'.Holds e := by
  cases he with
  | entry i he => exact .entry i (h.entries i e he)
  | name n he => exact .name n (h.byName n e he)
  | scopedName n he => exact .scopedName n (h.byScopedName n e he)

theorem known (h : t.GrowsTo t') {r : Resolver} {name : String} {scope : Identity}
    {e : TypeEntry Value} (he : t.known r name scope = some e) :
    t'.known r name scope = some e := by
  unfold TypeCache.known at he ⊢
  split at he
  · rw [if_pos ‹_›]
    exact h.byName _ e he
  · rw [if_neg ‹_›]
    exact h.byScopedName _ e he

end GrowsTo

/-- What a cache holds after it has got another entry. -/
theorem Holds.of_enter {t : TypeCache} {e e' : TypeEntry Value} (h : (t.enter e).Holds e') :
    t.Holds e' ∨ e' = e := by
  cases h with
  | entry i h =>
    rw [enter, Table.get?_insert] at h
    split at h
    · exact .inr (Option.some.inj h).symm
    · exact .inl (.entry i h)
  | name n h => exact .inl (.name n h)
  | scopedName n h => exact .inl (.scopedName n h)

/-- What a cache holds after it has learnt a name. -/
theorem Holds.of_learn {t : TypeCache} {r : Resolver} {name : String} {scope : Identity}
    {e e' : TypeEntry Value} (h : (t.learn r name scope e).Holds e') : t.Holds e' ∨ e' = e := by
  unfold learn at h
  split at h
  · cases h with
    | entry i h => exact .inl (.entry i h)
    | name n h =>
      rw [Table.get?_insert] at h
      split at h
      · exact .inr (Option.some.inj h).symm
      · exact .inl (.name n h)
    | scopedName n h => exact .inl (.scopedName n h)
  · cases h with
    | entry i h => exact .inl (.entry i h)
    | name n h => exact .inl (.name n h)
    | scopedName n h =>
      rw [Table.get?_insert] at h
      split at h
      · exact .inr (Option.some.inj h).symm
      · exact .inl (.scopedName n h)

end TypeCache

/-! ### Changes -/

section Changes

variable {C : Contract} {w w' : World}

theorem World.growsTo_withTypes (r : Resolver) {t : TypeCache}
    (h : (w.stateOf r).types.GrowsTo t) (r' : Resolver) :
    (w.stateOf r').types.GrowsTo ((w.withTypes r t).stateOf r').types := by
  rw [types_withTypes]
  split
  · rename_i hid
    rw [← w.stateOf_congr hid]
    exact h
  · exact .refl _

theorem World.Note.types_growTo (h : Note C w w') (r : Resolver) :
    (w.stateOf r).types.GrowsTo (w'.stateOf r).types := by
  cases h with
  | fresh => exact .refl _
  | @reach r' c _ hnew =>
    have grows : (w.stateOf r').types.GrowsTo ((w.stateOf r').types.enter ⟨w.next, c⟩) :=
      .enter _ hnew
    exact growsTo_withTypes (w := { w with next := w.next + 1 }) r' grows r
  | learn r' _ _ _ _ hnew => exact growsTo_withTypes r' (.learn _ _ hnew) r
  | memo => exact .refl _
  | constructor => exact .refl _

/-- Caches only grow. -/
theorem World.Change.types_growTo (h : Change C w w') (r : Resolver) :
    (w.stateOf r).types.GrowsTo (w'.stateOf r).types := by
  cases h with
  | note h => exact h.types_growTo r
  | _ => exact .refl _

theorem World.Caches.grow {e : TypeEntry Value} (he : w.Caches e)
    (h : ∀ r, (w.stateOf r).types.GrowsTo (w'.stateOf r).types) : w'.Caches e := by
  obtain ⟨r, he⟩ := he
  exact ⟨r, (h r).holds he⟩

/-- What is true of the memo of an entry stays true as the entry learns more. -/
theorem World.Change.memo_stays {P : MemberMemo → Prop}
    (learns : ∀ {m m' : MemberMemo} {c : Class Value}, P m → m.Learns c m' → P m')
    (constructors : ∀ {m : MemberMemo} (t : Table Descriptor (Option ConstructorHandle)), P m →
      P { m with constructors := t })
    (h : Change C w w') {e : TypeEntry Value} (he : P (w.memoOf e)) : P (w'.memoOf e) := by
  -- one more lookup on an entry leaves what other entries remember
  have remembering (e' : TypeEntry Value) {m : MemberMemo} (hm : P (w.memoOf e') → P m) :
      P ((w.remembering e' m).memoOf e) := by
    rw [memoOf_remembering_eq]
    split
    · rename_i hid
      refine hm ?_
      rwa [memoOf, hid]
    · exact he
  cases h with
  | note h =>
    cases h with
    | fresh | reach | learn => exact he
    | memo e' hm => exact remembering e' fun h => learns h hm
    | @constructor e' _ _ _ => exact remembering e' fun h => constructors _ h
  | _ => exact he

/-- What an entry remembers of a marker is never replaced. -/
theorem World.Change.marker_stays (h : Change C w w') {e : TypeEntry Value} {kind : MarkerKind}
    {o : Option Marker} (hknown : (w.memoOf e).markers.get? kind = some o) :
    (w'.memoOf e).markers.get? kind = some o := by
  refine h.memo_stays (P := fun m => m.markers.get? kind = some o) (fun h hm => ?_)
    (fun _ h => h) hknown
  cases hm with
  | method | field => exact h
  | marker kind' hnew => exact Table.get?_insert_of_new hnew h

/-- What an entry remembers of a field is never replaced. -/
theorem World.Change.field_stays (h : Change C w w') {e : TypeEntry Value} {name : String}
    {o : Option FieldHandle} (hknown : (w.memoOf e).fields.get? name = some o) :
    (w'.memoOf e).fields.get? name = some o := by
  refine h.memo_stays (P := fun m => m.fields.get? name = some o) (fun h hm => ?_)
    (fun _ h => h) hknown
  cases hm with
  | method | marker => exact h
  | field name' hnew => exact Table.get?_insert_of_new hnew h

variable {I : World → Prop}

/-- An entry that a cache holds is held from then on. -/
theorem Noting.caches (hI : Noting C I) (e : TypeEntry Value) :
    Noting C fun w => I w ∧ w.Caches e where
  respects w hw := hI.respects w hw.1
  note w w' h held hw := ⟨hI.note w w' h held hw.1, hw.2.grow h.types_growTo⟩

theorem Stable.caches (hI : Stable C I) (e : TypeEntry Value) :
    Stable C fun w => I w ∧ w.Caches e where
  respects w hw := hI.respects w hw.1
  change w w' h held hw := ⟨hI.change w w' h held hw.1, hw.2.grow h.types_growTo⟩

end Changes

/-! ### What is known stays known -/

/-- All that caches know in the first world, and what is remembered of markers there, is so in the
second one. -/
structure World.CachedIn (w w' : World) : Prop where
  types : ∀ r, (w.stateOf r).types.GrowsTo (w'.stateOf r).types
  markers : ∀ e kind o, (w.memoOf e).markers.get? kind = some o →
    (w'.memoOf e).markers.get? kind = some o

namespace World.CachedIn

variable {w w' w'' : World}

theorem refl (w : World) : w.CachedIn w := ⟨fun _ => .refl _, fun _ _ _ h => h⟩

theorem trans (h : w.CachedIn w') (h' : w'.CachedIn w'') : w.CachedIn w'' where
  types r := (h.types r).trans (h'.types r)
  markers e kind o ho := h'.markers e kind o (h.markers e kind o ho)

theorem of_change {C : Contract} (h : World.Change C w w') : w.CachedIn w' where
  types := h.types_growTo
  markers _ _ _ := h.marker_stays

/-- Whatever changes, what is known stays known. -/
theorem stable (w : World) : Stable (.free fun _ => True) w.CachedIn where
  respects w' _ := .free _ w'
  change _ _ h _ hw := hw.trans (.of_change h)

end World.CachedIn

end LateBinding
