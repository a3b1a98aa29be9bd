import LateBinding.Member.Memo

/-!
# Lookups of members, exactly

What a lookup of a member or of a marker does, as an equation (`TypeEntry.method_eq`,
`TypeEntry.field_eq`, `TypeEntry.constructor_eq`, `TypeEntry.marker_eq`): what is remembered is
given again, and anything else is searched for and remembered.

A memo is *truthful* about a class (`MemberMemo.Truthful`) if it remembers what a search of the class
finds.  With a truthful memo a lookup finds what a search finds, and leaves the memo truthful
(`TypeEntry.method_of_truthful`, `TypeEntry.constructor_of_truthful`).
-/

namespace LateBinding

/-- What the lookup of the handle found. -/
def MethodHandle.found (m : MethodHandle) : Found Value MethodDecl :=
  ⟨m.declaring, m.decl, m.overridden⟩

/-- What a lookup of a constructor without a memo gives. -/
def Class.constructorHandle? (c : Class Value) (params : List String) : Option ConstructorHandle :=
  (c.findConstructor params).map fun f => ⟨c, f.decl, f.overridden⟩

theorem Class.cls_of_constructorHandle? {c : Class Value} {params : List String}
    {k : ConstructorHandle} (h : c.constructorHandle? params = some k) : k.cls = c := by
  obtain ⟨f, -, rfl⟩ := Option.map_eq_some_iff.1 h
  rfl

namespace World

/-- The world in which an entry remembers something else. -/
def remembering (w : World) (e : TypeEntry Value) (m : MemberMemo) : World :=
  { w with members := w.members.insert e.id m }

@[simp] theorem memoOf_remembering (w : World) (e : TypeEntry Value) (m : MemberMemo) :
    (w.remembering e m).memoOf e = m := by
  simp [memoOf, remembering]

theorem memoOf_remembering_eq (w : World) (e e' : TypeEntry Value) (m : MemberMemo) :
    (w.remembering e m).memoOf e' = if e.id = e'.id then m else w.memoOf e' := by
  simp only [memoOf, remembering, Store.get?_insert]
  split <;> rfl

end World

namespace TypeEntry

variable (e : TypeEntry Value)

theorem method_eq (d : Descriptor) (w : World) :
    e.method d w =
      match (w.memoOf e).methods.get? d with
      | some known => .done known w
      | none =>
        match e.cls.findMethod d with
        | some f =>
          let handle : MethodHandle := ⟨w.next, f.declaring, f.decl, f.overridden⟩
          .done (some handle) ({ w with next := w.next + 1 }.remembering e
            { w.memoOf e with methods := (w.memoOf e).methods.insert d (some handle) })
        | none =>
          .done none (w.remembering e
            { w.memoOf e with methods := (w.memoOf e).methods.insert d none }) := by
  simp only [method, memo, Act.bind_apply, Act.world_apply, Act.pure_apply]
  cases (w.memoOf e).methods.get? d with
  | some known => rfl
  | none => cases e.cls.findMethod d <;> rfl

theorem constructor_eq (params : List String) (w : World) :
    e.constructor params w =
      match (w.memoOf e).constructors.get? (.ofConstructor params) with
      | some known => .done known w
      | none =>
        .done (e.cls.constructorHandle? params) (w.remembering e
          { w.memoOf e with
            constructors := (w.memoOf e).constructors.insert (.ofConstructor params)
              (e.cls.constructorHandle? params) }) := by
  simp only [constructor, memo, Act.bind_apply, Act.world_apply, Act.pure_apply]
  cases (w.memoOf e).constructors.get? (.ofConstructor params) <;> rfl

theorem field_eq (name : String) (w : World) :
    e.field name w =
      match (w.memoOf e).fields.get? name with
      | some known => .done known w
      | none =>
        .done (e.cls.findField name) (w.remembering e
          { w.memoOf e with
            fields := (w.memoOf e).fields.insert name (e.cls.findField name) }) := by
  simp only [field, memo, Act.bind_apply, Act.world_apply, Act.pure_apply]
  cases (w.memoOf e).fields.get? name <;> rfl

theorem marker_eq (kind : MarkerKind) (w : World) :
    e.marker kind w =
      match (w.memoOf e).markers.get? kind with
      | some known => .done known w
      | none =>
        .done (e.cls.decl.marker? kind) (w.remembering e
          { w.memoOf e with
            markers := (w.memoOf e).markers.insert kind (e.cls.decl.marker? kind) }) := by
  simp only [marker, memo, Act.bind_apply, Act.world_apply, Act.pure_apply]
  cases (w.memoOf e).markers.get? kind <;> rfl

/-- What a lookup of a marker found is remembered. -/
theorem known_of_marker {kind : MarkerKind} {o : Option Marker} {w w' : World}
    (h : e.marker kind w = .done o w') : (w'.memoOf e).markers.get? kind = some o := by
  rw [marker_eq] at h
  split at h
  · rename_i known hknown
    cases h
    exact hknown
  · cases h
    rw [World.memoOf_remembering, Table.get?_insert_self]

/-- What is remembered of a marker is found, and nothing else happens. -/
theorem marker_of_known {kind : MarkerKind} {o : Option Marker} {w : World}
    (h : (w.memoOf e).markers.get? kind = some o) : e.marker kind w = .done o w := by
  rw [marker_eq, h]

/-- What a lookup of a signature finds: what the entry remembers of it, or else what a search of
the class finds. -/
def finds (w : World) (d : Descriptor) : Option (Found Value MethodDecl) :=
  match (w.memoOf e).methods.get? d with
  | some known => known.map MethodHandle.found
  | none => e.cls.findMethod d

theorem method_eq_done (d : Descriptor) (w : World) :
    ∃ o w', e.method d w = .done o w' ∧ o.map MethodHandle.found = e.finds w d := by
  rw [method_eq, finds]
  cases (w.memoOf e).methods.get? d with
  | some known => exact ⟨known, w, rfl, rfl⟩
  | none =>
    cases e.cls.findMethod d with
    | some f => exact ⟨_, _, rfl, rfl⟩
    | none => exact ⟨_, _, rfl, rfl⟩

end TypeEntry

/-! ### Truthful memos -/

/-- What is remembered is what a search of the class finds. -/
structure MemberMemo.Truthful (m : MemberMemo) (c : Class Value) : Prop where
  methods : ∀ d o, m.methods.get? d = some o → o.map MethodHandle.found = c.findMethod d
  constructors : ∀ params o, m.constructors.get? (.ofConstructor params) = some o →
    o = c.constructorHandle? params

/-- What remembers nothing is truthful. -/
theorem MemberMemo.truthful_default (c : Class Value) : (default : MemberMemo).Truthful c :=
  ⟨nofun, nofun⟩

/-- Something truthful is noted in the memo of an entry, and nothing else happens. -/
structure World.Notes (e : TypeEntry Value) (w w' : World) : Prop where
  next : w.next ≤ w'.next
  others : ∀ i, i ≠ e.id → w'.members.get? i = w.members.get? i
  truthful : (w'.memoOf e).Truthful e.cls
  same : w' = { w with next := w'.next, members := w'.members }

theorem World.Notes.remembering {e : TypeEntry Value} {w : World} {n : Identity} (hn : w.next ≤ n)
    {m : MemberMemo} (hm : m.Truthful e.cls) :
    w.Notes e ({ w with next := n }.remembering e m) where
  next := hn
  others i hi := by
    change (w.members.insert e.id m).get? i = _
    rw [Store.get?_insert, if_neg (Ne.symm hi)]
  truthful := by rwa [memoOf_remembering]
  same := rfl

theorem World.Notes.trans {e : TypeEntry Value} {w w' w'' : World} (h : w.Notes e w')
    (h' : w'.Notes e w'') : w.Notes e w'' where
  next := Nat.le_trans h.next h'.next
  others i hi := (h'.others i hi).trans (h.others i hi)
  truthful := h'.truthful
  same := by rw [h'.same, h.same]

namespace TypeEntry

variable {e : TypeEntry Value} {w : World}

theorem method_of_truthful (hw : (w.memoOf e).Truthful e.cls) (d : Descriptor) :
    ∃ o w', e.method d w = .done o w' ∧ o.map MethodHandle.found = e.cls.findMethod d ∧
      w.Notes e w' := by
  rw [method_eq]
  cases hmemo : (w.memoOf e).methods.get? d with
  | some known =>
    exact ⟨known, w, rfl, hw.methods d known hmemo, Nat.le_refl _, fun _ _ => rfl, hw, rfl⟩
  | none =>
    -- what is found is noted, whether there is a method or not
    have noted (o : Option MethodHandle) (ho : o.map MethodHandle.found = e.cls.findMethod d) :
        MemberMemo.Truthful { w.memoOf e with methods := (w.memoOf e).methods.insert d o } e.cls := by
      refine ⟨fun d' o' h => ?_, hw.constructors⟩
      rw [Table.get?_insert] at h
      split at h
      · rename_i hd
        cases h
        rw [ho, hd]
      · exact hw.methods d' o' h
    cases hf : e.cls.findMethod d with
    | some f => exact ⟨_, _, rfl, rfl, .remembering (Nat.le_succ _) (noted _ (by rw [hf]; rfl))⟩
    | none => exact ⟨_, _, rfl, rfl, .remembering (Nat.le_refl _) (noted _ (by rw [hf]; rfl))⟩

theorem constructor_of_truthful (hw : (w.memoOf e).Truthful e.cls) (params : List String) :
    ∃ w', e.constructor params w = .done (e.cls.constructorHandle? params) w' ∧ w.Notes e w' := by
  rw [constructor_eq]
  cases hmemo : (w.memoOf e).constructors.get? (.ofConstructor params) with
  | some known =>
    rw [hw.constructors params known hmemo]
    exact ⟨w, rfl, Nat.le_refl _, fun _ _ => rfl, hw, rfl⟩
  | none =>
    refine ⟨_, rfl, .remembering (Nat.le_refl _) ⟨hw.methods, fun params' o h => ?_⟩⟩
    rw [Table.get?_insert] at h
    split at h
    · rename_i hp
      obtain rfl : params = params' := by simpa [Descriptor.ofConstructor] using hp
      exact (Option.some.inj h).symm
    · exact hw.constructors params' o h

end TypeEntry

end LateBinding
