import Mathlib.Data.Option.Basic
import LateBinding.Proofs.Session
import LateBinding.Proofs.Sparing

/-!
# What caches remember is right

In every world that a session reaches, markers are remembered under their kinds, and the methods
that are remembered for a signature are declared with it (`World.Sensible`).  Entries that caches
hold are told apart by their identities, and what is remembered of their constructors and of their
markers is what their classes declare (`World.Accurate`, `World.Candid`).

* `World.Arises.sensible`, `Session.Reached.accurate`, `World.Arises.candid` : all of this holds in
  every world that a session reaches;
* `World.Accurate.eq_of_constructor`, `World.Candid.eq_of_marker` : so a lookup on an entry that a
  cache holds finds the constructor or the marker of its class.
-/

namespace LateBinding

/-! ### Searches -/

/-- What a search finds is declared, under the signature that it is searched for. -/
theorem Class.method?_of_findMethod {c : Class Value} {d : Descriptor} {f : Found Value MethodDecl}
    (h : c.findMethod d = some f) : f.declaring.method? d = some f.decl := by
  unfold findMethod search at h
  dsimp only at h
  rcases (Option.orElse_eq_some _ _ _).1 h with h | ⟨-, h⟩
  · obtain ⟨k, -, h⟩ := List.exists_of_findSome?_eq_some h
    obtain ⟨m, hm, h⟩ := Option.bind_eq_some_iff.1 h
    split at h
    · cases h
      exact hm
    · cases h
  · obtain ⟨m, hm, rfl⟩ := Option.map_eq_some_iff.1 h
    exact hm

theorem ClassDecl.kind_of_marker? {c : ClassDecl Value} {kind : MarkerKind} {m : Marker}
    (h : c.marker? kind = some m) : m.kind = kind := by
  simpa using List.find?_some h

/-! ### Markers and methods -/

/-- Markers are remembered under their kinds, and methods under the signatures with which they are
declared. -/
structure MemberMemo.Sensible (m : MemberMemo) : Prop where
  markers : ∀ kind x, m.markers.get? kind = some (some x) → x.kind = kind
  methods : ∀ d k, m.methods.get? d = some (some k) → k.declaring.method? d = some k.decl

namespace MemberMemo.Sensible

variable {m m' : MemberMemo}

theorem default : (default : MemberMemo).Sensible := ⟨nofun, nofun⟩

theorem learns (hm : m.Sensible) {c : Class Value} (h : m.Learns c m') : m'.Sensible := by
  cases h with
  | method d _ ho =>
    refine ⟨hm.markers, fun d' k h => ?_⟩
    rw [Table.get?_insert] at h
    split at h
    · rename_i hd
      cases h
      exact Class.method?_of_findMethod (hd ▸ ho.symm)
    · exact hm.methods d' k h
  | field => exact ⟨hm.markers, hm.methods⟩
  | marker kind _ =>
    refine ⟨fun kind' x h => ?_, hm.methods⟩
    rw [Table.get?_insert] at h
    split at h
    · rename_i hkind
      exact ClassDecl.kind_of_marker? (hkind ▸ Option.some.inj h)
    · exact hm.markers kind' x h

end MemberMemo.Sensible

namespace World

/-- All that is remembered of markers and methods is sensible. -/
def Sensible (w : World) : Prop := ∀ i m, w.members.get? i = some m → m.Sensible

variable {w w' : World}

theorem Sensible.memoOf (hw : w.Sensible) (e : TypeEntry Value) : (w.memoOf e).Sensible := by
  rw [World.memoOf]
  cases h : w.members.get? e.id with
  | none => exact .default
  | some m => exact hw _ m h

/-- A marker that is found is of the kind that is looked up. -/
theorem Sensible.kind_of_marker (hw : w.Sensible) {e : TypeEntry Value} {kind : MarkerKind}
    {x : Marker} (h : e.marker kind w = .done (some x) w') : x.kind = kind := by
  rw [TypeEntry.marker_eq] at h
  split at h
  · rename_i known hknown
    cases h
    exact (hw.memoOf e).markers kind x hknown
  · obtain ⟨declared, -⟩ := Outcome.done.inj h
    exact ClassDecl.kind_of_marker? declared

theorem Sensible.note {C : Contract} (hw : w.Sensible) (h : Note C w w') : w'.Sensible := by
  cases h with
  | fresh | reach | learn => exact hw
  | memo e hm => exact Store.forall_insert hw ((hw.memoOf e).learns hm)
  | constructor =>
    exact Store.forall_insert hw ⟨(hw.memoOf _).markers, (hw.memoOf _).methods⟩

theorem Sensible.stable : Stable (.free fun _ => True) Sensible where
  respects w _ := .free _ w
  change w w' h _ hw := by
    cases h with
    | note h => exact hw.note h
    | _ => exact hw

theorem Sensible.indifferent : Indifferent Sensible where
  slots _ _ hw := hw
  evaluating _ _ hw := hw
  state _ _ _ _ hw := hw

end World

theorem Host.keeps_sensible (m : Nat) : (level m).Keeps (.free fun _ => True) World.Sensible :=
  keeps_level_of_indifferent World.Sensible.stable World.Sensible.indifferent .free m

theorem World.Arises.sensible {w : World} (hw : w.Arises) : w.Sensible :=
  hw.holds World.Sensible.stable World.Sensible.indifferent fun i m h => by
    simp [World.empty] at h

theorem Session.Reached.sensible {proxied : Value → Bool} {n : Nat} {k : Names} {w : World}
    (hw : Reached proxied (Host.level n) k w) : w.Sensible :=
  hw.arises.sensible

/-! ### Constructors -/

namespace World

/-- Entries that caches hold are told apart by their identities, and remember the constructors that
their classes declare. -/
structure Accurate (w : World) : Prop where
  /-- Entries are told apart by their identities. -/
  apart : ∀ e e', w.Caches e → w.Caches e' → e.id = e'.id → e = e'
  /-- The identities of entries were handed out. -/
  below : ∀ e, w.Caches e → e.id < w.next
  /-- What remembers a constructor has an identity that was handed out. -/
  unused : ∀ (e : TypeEntry Value) d, w.next ≤ e.id → (w.memoOf e).constructors.get? d = none
  /-- Constructors are remembered as they are declared. -/
  constructors : ∀ e, w.Caches e → ∀ params o,
    (w.memoOf e).constructors.get? (.ofConstructor params) = some o →
      o = e.cls.constructorHandle? params

variable {w w' : World}

/-- What caches hold when one of them is replaced. -/
theorem Caches.of_withTypes {r : Resolver} {t : TypeCache} {e : TypeEntry Value}
    (h : (w.withTypes r t).Caches e) : w.Caches e ∨ t.Holds e := by
  obtain ⟨r', h⟩ := h
  rw [types_withTypes] at h
  split at h
  · exact .inr h
  · exact .inl ⟨r', h⟩

namespace Accurate

theorem empty : World.empty.Accurate := by
  have none_held : ∀ e, ¬ World.empty.Caches e := by
    rintro e ⟨r, h⟩
    have nothing : (World.empty.stateOf r).types = default := by
      simp [World.stateOf, World.empty, default]
    rw [nothing] at h
    cases h with
    | entry _ h | name _ h | scopedName _ h => cases h
  refine ⟨fun e _ h => absurd h (none_held e), fun e h => absurd h (none_held e), fun e d _ => ?_,
    fun e h => absurd h (none_held e)⟩
  have nothing : World.empty.memoOf e = default := by simp [World.memoOf, World.empty]
  rw [nothing]
  rfl

/-- Nothing that matters changes. -/
theorem congr (hw : w.Accurate) (next : w.next ≤ w'.next)
    (caches : ∀ e, w'.Caches e → w.Caches e)
    (constructors : ∀ e, (w'.memoOf e).constructors = (w.memoOf e).constructors) :
    w'.Accurate where
  apart e e' he he' := hw.apart e e' (caches e he) (caches e' he')
  below e he := Nat.lt_of_lt_of_le (hw.below e (caches e he)) next
  unused e d h := by rw [constructors, hw.unused e d (Nat.le_trans next h)]
  constructors e he params o h :=
    hw.constructors e (caches e he) params o (constructors e ▸ h)

/-- A class is reached. -/
theorem reach (hw : w.Accurate) (r : Resolver) (c : Class Value) :
    ({ w with next := w.next + 1 }.withTypes r
      ((w.stateOf r).types.enter ⟨w.next, c⟩)).Accurate := by
  have held {e : TypeEntry Value} (he : ({ w with next := w.next + 1 }.withTypes r
      ((w.stateOf r).types.enter ⟨w.next, c⟩)).Caches e) : w.Caches e ∨ e = ⟨w.next, c⟩ := by
    rcases Caches.of_withTypes he with he | he
    · exact .inl he
    · exact he.of_enter.imp_left fun he => ⟨r, he⟩
  constructor
  · intro e e' he he' hid
    rcases held he with he | rfl <;> rcases held he' with he' | rfl
    · exact hw.apart e e' he he' hid
    · exact absurd hid (Nat.ne_of_lt (hw.below e he))
    · exact absurd hid.symm (Nat.ne_of_lt (hw.below e' he'))
    · rfl
  · intro e he
    rcases held he with he | rfl
    · exact Nat.lt_succ_of_lt (hw.below e he)
    · exact Nat.lt_succ_self _
  · intro e d h
    exact hw.unused e d (Nat.le_of_succ_le h)
  · intro e he params o h
    rcases held he with he | rfl
    · exact hw.constructors e he params o h
    · -- the new entry remembers nothing
      have := hw.unused ⟨w.next, c⟩ (.ofConstructor params) (Nat.le_refl _)
      exact absurd h (by
        change (w.memoOf ⟨w.next, c⟩).constructors.get? _ ≠ _
        rw [this]
        nofun)

/-- A constructor is looked up. -/
theorem constructor (hw : w.Accurate) {e : TypeEntry Value} (hheld : w.Caches e)
    (params : List String) :
    (w.remembering e { w.memoOf e with
      constructors := (w.memoOf e).constructors.insert (.ofConstructor params)
        (e.cls.constructorHandle? params) }).Accurate where
  apart := hw.apart
  below := hw.below
  unused e' d h := by
    have other : e.id ≠ e'.id := Nat.ne_of_lt (Nat.lt_of_lt_of_le (hw.below e hheld) h)
    rw [memoOf_remembering_eq, if_neg other]
    exact hw.unused e' d h
  constructors e' he' params' o h := by
    rw [memoOf_remembering_eq] at h
    split at h
    · rename_i hid
      obtain rfl := hw.apart e e' hheld he' hid
      rw [Table.get?_insert] at h
      split at h
      · rename_i hp
        obtain rfl : params = params' := by simpa [Descriptor.ofConstructor] using hp
        exact (Option.some.inj h).symm
      · exact hw.constructors e he' params' o h
    · exact hw.constructors e' he' params' o h

theorem note {C : Contract} (hw : w.Accurate) (h : Note C w w') : w'.Accurate := by
  cases h with
  | fresh => exact hw.congr (Nat.le_succ _) (fun _ h => h) fun _ => rfl
  | @reach r c _ _ => exact hw.reach r c
  | learn r name scope he hheld hnew =>
    refine hw.congr (Nat.le_refl _) (fun e' h => ?_) fun _ => rfl
    rcases Caches.of_withTypes h with h | h
    · exact h
    · rcases h.of_learn with h | rfl
      · exact ⟨r, h⟩
      · exact hheld
  | memo e hm =>
    refine hw.congr (Nat.le_refl _) (fun _ h => h) fun e' => ?_
    rw [memoOf_remembering_eq]
    split
    · rename_i hid
      rw [hm.constructors, memoOf, hid, memoOf]
    · rfl
  | constructor _ hheld params => exact hw.constructor hheld params

theorem stable : Stable (.free fun _ => True) Accurate where
  respects w _ := .free _ w
  change w w' h _ hw := by
    cases h with
    | note h => exact hw.note h
    | alloc => exact hw.congr (Nat.le_succ _) (fun _ h => h) fun _ => rfl
    | _ => exact hw.congr (Nat.le_refl _) (fun _ h => h) fun _ => rfl

theorem indifferent : Indifferent Accurate where
  slots _ _ hw := hw.congr (Nat.le_refl _) (fun _ h => h) fun _ => rfl
  evaluating _ _ hw := hw.congr (Nat.le_refl _) (fun _ h => h) fun _ => rfl
  state w r s hs hw := by
    refine hw.congr (Nat.le_refl _) (fun e h => ?_) fun _ => rfl
    obtain ⟨r', h⟩ := h
    exact ⟨r', Indifferent.types_eq hs r' ▸ h⟩

/-- A lookup on an entry that a cache holds finds the constructor of its class. -/
theorem eq_of_constructor (hw : w.Accurate) {e : TypeEntry Value} (hheld : w.Caches e)
    {params : List String} {o : Option ConstructorHandle}
    (h : e.constructor params w = .done o w') : o = e.cls.constructorHandle? params := by
  rw [TypeEntry.constructor_eq] at h
  split at h
  · rename_i known hknown
    cases h
    exact hw.constructors e hheld params _ hknown
  · cases h
    rfl

end Accurate

end World

theorem Session.Reached.accurate {proxied : Value → Bool} {n : Nat} {k : Names} {w : World}
    (hw : Reached proxied (Host.level n) k w) : w.Accurate :=
  hw.holds World.Accurate.stable World.Accurate.indifferent .empty

/-! ### Markers of entries that caches hold -/

namespace World

variable {w w' : World}

/-- What a cache holds after a change it held before, or has a new identity. -/
theorem Change.caches_or_new {C : Contract} (h : Change C w w') {e : TypeEntry Value}
    (he : w'.Caches e) : w.Caches e ∨ w.next ≤ e.id := by
  cases h with
  | note h =>
    cases h with
    | @reach r c _ _ =>
      rcases Caches.of_withTypes he with he | he
      · exact .inl he
      · rcases he.of_enter with he | rfl
        · exact .inl ⟨r, he⟩
        · exact .inr (Nat.le_refl _)
    | learn r name scope _ hheld _ =>
      rcases Caches.of_withTypes he with he | he
      · exact .inl he
      · rcases he.of_learn with he | rfl
        · exact .inl ⟨r, he⟩
        · exact .inl hheld
    | _ => exact .inl he
  | _ => exact .inl he

/-- Moreover, entries that caches hold remember the markers that their classes declare. -/
structure Candid (w : World) : Prop extends Accurate w where
  /-- What remembers a marker has an identity that was handed out. -/
  unmarked : ∀ (e : TypeEntry Value) kind, w.next ≤ e.id → (w.memoOf e).markers.get? kind = none
  /-- Markers are remembered as they are declared. -/
  markers : ∀ e, w.Caches e → ∀ kind o, (w.memoOf e).markers.get? kind = some o →
    o = e.cls.decl.marker? kind

namespace Candid

theorem empty : World.empty.Candid := by
  have nothing (e : TypeEntry Value) : World.empty.memoOf e = default := by
    simp [World.memoOf, World.empty]
  exact ⟨.empty, fun e _ _ => by rw [nothing]; rfl, fun e _ _ _ h => by rw [nothing] at h; cases h⟩

theorem change {C : Contract} (hw : w.Candid) (h : Change C w w') (held : w.MarksHeld w')
    (accurate : w'.Accurate) : w'.Candid where
  toAccurate := accurate
  unmarked e kind hid := by
    have hid := Nat.le_trans h.next_le hid
    rcases held e with same | ⟨e', -, he', hsame, -⟩
    · rw [same, hw.unmarked e kind hid]
    · exact absurd (hsame ▸ hw.below e' he') (Nat.not_lt_of_le hid)
  markers e he kind o hknown := by
    rcases h.caches_or_new he with he | hnew
    · rcases held e with same | ⟨e', kind', he', hid, inserted⟩
      · exact hw.markers e he kind o (same ▸ hknown)
      · -- the marker was looked up on this very entry
        obtain rfl := hw.apart e' e he' he hid
        rw [inserted, Table.get?_insert] at hknown
        split at hknown
        · rename_i hkind
          exact hkind ▸ (Option.some.inj hknown).symm
        · exact hw.markers _ he kind o hknown
    · rcases held e with same | ⟨e', -, he', hid, -⟩
      · rw [same, hw.unmarked e kind hnew] at hknown
        cases hknown
      · exact absurd (hid ▸ hw.below e' he') (Nat.not_lt_of_le hnew)

theorem stable : Stable (.free fun _ => True) Candid where
  respects w _ := .free _ w
  change w w' h held hw := hw.change h held (Accurate.stable.change w w' h held hw.toAccurate)

theorem indifferent : Indifferent Candid where
  slots w s hw :=
    ⟨Accurate.indifferent.slots w s hw.toAccurate, hw.unmarked, fun e he => hw.markers e he⟩
  evaluating w l hw :=
    ⟨Accurate.indifferent.evaluating w l hw.toAccurate, hw.unmarked, fun e he => hw.markers e he⟩
  state w r s hs hw := by
    refine ⟨Accurate.indifferent.state w r s hs hw.toAccurate, hw.unmarked, ?_⟩
    rintro e ⟨r', h⟩
    exact hw.markers e ⟨r', Indifferent.types_eq hs r' ▸ h⟩

/-- A lookup on an entry that a cache holds finds the marker of its class. -/
theorem eq_of_marker (hw : w.Candid) {e : TypeEntry Value} (hheld : w.Caches e)
    {kind : MarkerKind} {o : Option Marker} (h : e.marker kind w = .done o w') :
    o = e.cls.decl.marker? kind := by
  rw [TypeEntry.marker_eq] at h
  split at h
  · rename_i known hknown
    cases h
    exact hw.markers e hheld kind _ hknown
  · cases h
    rfl

end Candid

end World

theorem Host.keeps_candid (m : Nat) : (level m).Keeps (.free fun _ => True) World.Candid :=
  keeps_level_of_indifferent World.Candid.stable World.Candid.indifferent .free m

theorem World.Arises.candid {w : World} (hw : w.Arises) : w.Candid :=
  hw.holds World.Candid.stable World.Candid.indifferent .empty

end LateBinding
