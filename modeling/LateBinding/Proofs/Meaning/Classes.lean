import LateBinding.Proofs.Meaning.Sources
import LateBinding.Proofs.TypeCache.Agreement

/-!
# Classes that are found where the setting says

A resolver is *informed* (`Resolver.Informed`) if its cache of types has only classes of the setting,
under names that denote them, and remembers of their members what searches find.  An informed
resolver finds the class that a name denotes (`Informed.classNamed`), and gets from a class the
answers that the setting says (`Informed.staticText`, `Informed.providerText`).  It stays informed,
and neither what it knows of names nor what bodies see is touched (`World.Quiet`).
-/

namespace LateBinding

/-- Neither what a resolver knows of names nor what bodies see is touched. -/
structure World.Quiet (r : Resolver) (w w' : World) : Prop where
  spares : w.Spares r w'
  alike : w.Alike w'

namespace World.Quiet

variable {r : Resolver} {w w' w'' : World}

theorem refl (r : Resolver) (w : World) : Quiet r w w := ⟨.refl r w, .refl w⟩

theorem trans (h : Quiet r w w') (h' : Quiet r w' w'') : Quiet r w w'' :=
  ⟨h.spares.trans h'.spares, h.alike.trans h'.alike⟩

theorem of_grows (h : w.Grows w') : Quiet r w w' := ⟨h.spares r, h.toAlike⟩

theorem of_notes {e : TypeEntry Value} (h : w.Notes e w') : Quiet r w w' := by
  rw [h.same]
  exact ⟨⟨h.next, ⟨_, rfl⟩, fun _ _ _ => rfl, rfl⟩, ⟨h.next, rfl, fun _ _ => rfl, rfl, rfl⟩⟩

/-- Another cache of types is none of the things that count. -/
theorem withTypes {n : Identity} (hn : w.next ≤ n) (t : TypeCache) :
    Quiet r w ({ w with next := n }.withTypes r t) where
  spares := {
    next := hn
    state := ⟨t, stateOf_withState_self _ _ _⟩
    slots := fun _ _ _ => rfl
    evaluating := rfl }
  alike := ⟨hn, rfl, fun _ _ => rfl, rfl, rfl⟩

end World.Quiet

namespace Resolver

/-- The cache of types agrees with the setting, and the memos of its entries with their classes. -/
structure Informed (E : Setting) (r : Resolver) (w : World) : Prop where
  /-- An entry is that of a class of the setting, with a truthful memo. -/
  entries : ∀ i e, (w.stateOf r).types.entries.get? i = some e →
    e.cls.id = i ∧ (∃ name, E.find? name = some e.cls) ∧ e.id < w.next ∧
      (w.memoOf e).Truthful e.cls
  /-- Different entries have different memos. -/
  apart : ∀ i j e e', (w.stateOf r).types.entries.get? i = some e →
    (w.stateOf r).types.entries.get? j = some e' → e.id = e'.id → e = e'
  /-- A name that is known is that of the class that it denotes. -/
  byName : ∀ name e, (w.stateOf r).types.byName.get? name = some e →
    E.find? name = some e.cls ∧ (w.stateOf r).types.entries.get? e.cls.id = some e
  /-- Identities that were not handed out have no memo. -/
  unused : ∀ i, w.next ≤ i → w.members.get? i = none

/-- The entry is the one that the resolver has for its class. -/
def Has (r : Resolver) (w : World) (e : TypeEntry Value) : Prop :=
  (w.stateOf r).types.entries.get? e.cls.id = some e

namespace Informed

variable {E : Setting} {r : Resolver} {w w' : World} {e : TypeEntry Value}

theorem congr (hw : r.Informed E w) (next : w.next ≤ w'.next)
    (types : (w'.stateOf r).types = (w.stateOf r).types) (members : w'.members = w.members) :
    r.Informed E w' where
  entries i e he := by
    rw [types] at he
    obtain ⟨hid, hfind, hlt, htruthful⟩ := hw.entries i e he
    refine ⟨hid, hfind, Nat.lt_of_lt_of_le hlt next, ?_⟩
    rwa [World.memoOf, members]
  apart := by
    rw [types]
    exact hw.apart
  byName := by
    rw [types]
    exact hw.byName
  unused i hi := by
    rw [members]
    exact hw.unused i (Nat.le_trans next hi)

theorem of_grows (hw : r.Informed E w) (h : w.Grows w') : r.Informed E w' :=
  hw.congr h.next (by rw [h.stateOf]) h.members

/-- Noting something truthful about a class of the cache. -/
theorem of_notes (hw : r.Informed E w) (he : r.Has w e) (h : w.Notes e w') : r.Informed E w' := by
  have state : w'.stateOf r = w.stateOf r := by
    rw [h.same]
    rfl
  obtain ⟨-, -, hlt, -⟩ := hw.entries _ e he
  refine ⟨fun i e' he' => ?_, ?_, ?_, fun i hi => ?_⟩
  · rw [state] at he'
    obtain ⟨hid, hfind, hlt', htruthful⟩ := hw.entries i e' he'
    refine ⟨hid, hfind, Nat.lt_of_lt_of_le hlt' h.next, ?_⟩
    by_cases hsame : e'.id = e.id
    · rw [hw.apart _ _ _ _ he' he hsame]
      exact h.truthful
    · rwa [World.memoOf, h.others _ hsame]
  · rw [state]
    exact hw.apart
  · rw [state]
    exact hw.byName
  · rw [h.others i (Nat.ne_of_gt (Nat.lt_of_lt_of_le hlt (Nat.le_trans h.next hi)))]
    exact hw.unused i (Nat.le_trans h.next hi)

/-! ### Finding classes -/

/-- A class of the setting that has no entry yet gets one, which has no memo. -/
theorem enter (hw : r.Informed E w) {name : String} {c : Class Value} (hc : E.find? name = some c)
    (hnone : (w.stateOf r).types.entries.get? c.id = none) :
    r.Informed E
      ({ w with next := w.next + 1 }.withTypes r ((w.stateOf r).types.enter ⟨w.next, c⟩)) := by
  have entered : ((w.stateOf r).types.enter ⟨w.next, c⟩).entries =
      (w.stateOf r).types.entries.insert c.id ⟨w.next, c⟩ := rfl
  refine ⟨?_, ?_, ?_, fun i hi => hw.unused i (Nat.le_of_succ_le hi)⟩
  · intro i e hi
    rw [World.types_withTypes, if_pos rfl, entered, Table.get?_insert] at hi
    split at hi
    · rename_i hid
      cases hi
      have memo : w.memoOf ⟨w.next, c⟩ = default := by
        rw [World.memoOf, hw.unused _ (Nat.le_refl _), Option.getD_none]
      have truthful : (w.memoOf ⟨w.next, c⟩).Truthful c := memo ▸ MemberMemo.truthful_default c
      exact ⟨hid, ⟨name, hc⟩, Nat.lt_succ_self _, truthful⟩
    · obtain ⟨hid, hfind, hlt, htruthful⟩ := hw.entries i e hi
      exact ⟨hid, hfind, Nat.lt_succ_of_lt hlt, htruthful⟩
  · intro i j e e' hi hj hid
    rw [World.types_withTypes, if_pos rfl, entered, Table.get?_insert] at hi hj
    split at hi <;> split at hj
    · cases hi
      cases hj
      rfl
    · cases hi
      obtain ⟨-, -, hlt, -⟩ := hw.entries j e' hj
      exact absurd hid (Nat.ne_of_gt hlt)
    · cases hj
      obtain ⟨-, -, hlt, -⟩ := hw.entries i e hi
      exact absurd hid (Nat.ne_of_lt hlt)
    · exact hw.apart i j e e' hi hj hid
  · intro name' e he
    rw [World.types_withTypes, if_pos rfl] at he ⊢
    obtain ⟨hfind, hentry⟩ := hw.byName name' e he
    refine ⟨hfind, ?_⟩
    -- a name that is known has its entry, so that is not the new one
    rw [entered, Table.get?_insert, if_neg, hentry]
    intro hid
    rw [← hid, hnone] at hentry
    cases hentry

/-- The entry of a class of the setting. -/
theorem entry (hw : r.Informed E w) {depth : Nat} {scope : Scope} (hE : E.Holds depth scope w)
    {name : String} {c : Class Value} (hc : E.find? name = some c) :
    ∃ e w', r.entry c w = .done e w' ∧ e.cls = c ∧ r.Has w' e ∧ r.Informed E w' ∧
      w.Quiet r w' := by
  rw [entry_eq]
  cases he : (w.stateOf r).types.entries.get? c.id with
  | some e =>
    obtain ⟨hid, ⟨name', hfind⟩, -⟩ := hw.entries _ e he
    have hcls : e.cls = c := hE.distinct _ _ _ _ hfind hc hid
    exact ⟨e, w, rfl, hcls, by rw [Has, hid, he], hw, .refl r w⟩
  | none =>
    refine ⟨⟨w.next, c⟩, _, rfl, rfl, ?_, hw.enter hc he, .withTypes (Nat.le_succ _) _⟩
    rw [Has, World.types_withTypes, if_pos rfl]
    exact Table.get?_insert_self ..

/-- A name of the default scope is found where the setting says. -/
theorem classNamed (hw : r.Informed E w) {depth : Nat} (hE : E.Holds depth r.defaultScope w)
    (name : String) :
    ∃ o w', r.classNamed name w = .done o w' ∧ o.map TypeEntry.cls = E.find? name ∧
      (∀ e ∈ o, r.Has w' e) ∧ r.Informed E w' ∧ w.Quiet r w' := by
  simp only [Resolver.classNamed, types, state, Act.bind_apply, Act.world_apply, Act.pure_apply]
  cases hknown : (w.stateOf r).types.byName.get? name with
  | some e =>
    obtain ⟨hfind, hentry⟩ := hw.byName name e hknown
    exact ⟨some e, w, rfl, hfind.symm, by rintro _ ⟨⟩; exact hentry, hw, .refl r w⟩
  | none =>
    simp only [Act.bind_apply, Act.world_apply, hE.found]
    cases hc : E.find? name with
    | none => exact ⟨none, w, rfl, rfl, by simp, hw, .refl r w⟩
    | some c =>
      obtain ⟨e, w₁, he, rfl, hhas, hw₁, hquiet⟩ := hw.entry hE hc
      let t : TypeCache :=
        { (w₁.stateOf r).types with byName := (w₁.stateOf r).types.byName.insert name e }
      have types : ((w₁.withTypes r t).stateOf r).types = t := by
        rw [World.types_withTypes, if_pos rfl]
      refine ⟨some e, w₁.withTypes r t, ?_, rfl, ?_, ⟨?_, ?_, ?_, hw₁.unused⟩,
        hquiet.trans (.withTypes (Nat.le_refl _) t)⟩
      · dsimp only
        rw [Act.bind_apply, he]
        rfl
      · rintro _ ⟨⟩
        rw [Has, types]
        exact hhas
      · rw [types]
        exact hw₁.entries
      · rw [types]
        exact hw₁.apart
      · intro name' e' he'
        rw [types] at he' ⊢
        rw [Table.get?_insert] at he'
        split at he'
        · rename_i hn
          cases he'
          exact ⟨hn ▸ hc, hhas⟩
        · exact hw₁.byName name' e' he'

/-! ### Asking classes -/

/-- What is noted before a class is asked does not count. -/
theorem ask_of_notes (hw : r.Informed E w) {depth k : Nat} (hk : depth ≤ k) (he : r.Has w e)
    {source : Host → Act (Option String)} {answer : Option String}
    (hsteady : Steady depth w source answer) {w₁ : World} (hnotes : w.Notes e w₁) :
    ∃ w', source (.level k) w₁ = .done answer w' ∧ r.Informed E w' ∧ w.Quiet r w' := by
  have hquiet : w.Quiet r w₁ := .of_notes hnotes
  obtain ⟨w', hdone, hgrows⟩ := hsteady k hk w₁ hquiet.alike
  exact ⟨w', hdone, (hw.of_notes he hnotes).of_grows hgrows, hquiet.trans (.of_grows hgrows)⟩

theorem truthful (hw : r.Informed E w) (he : r.Has w e) : (w.memoOf e).Truthful e.cls :=
  (hw.entries _ e he).2.2.2

theorem staticText (hw : r.Informed E w) {depth k : Nat} (hk : depth ≤ k) (he : r.Has w e)
    {d : LateBinding.Descriptor} {answer : Option String}
    (hsteady : Steady depth w (e.cls.staticText · d) answer) :
    ∃ w', Resolver.staticText (.level k) e d w = .done answer w' ∧ r.Informed E w' ∧
      w.Quiet r w' := by
  obtain ⟨w₁, hnotes, hstatic⟩ := TypeEntry.staticText_of_truthful (hw.truthful he) (.level k) d
  rw [hstatic]
  exact hw.ask_of_notes hk he hsteady hnotes

theorem providerText (hw : r.Informed E w) {depth k : Nat} (hk : depth ≤ k) (he : r.Has w e)
    {answer : Option String} (hsteady : Steady depth w e.cls.instanceText answer) :
    ∃ w', Resolver.providerText (.level k) e w = .done answer w' ∧ r.Informed E w' ∧
      w.Quiet r w' := by
  obtain ⟨w₁, hnotes, hmade⟩ := TypeEntry.providerText_of_truthful (hw.truthful he) (.level k)
  rw [hmade]
  exact hw.ask_of_notes hk he hsteady hnotes

end Informed

end Resolver

end LateBinding
