import LateBinding.Proofs.Activity

/-!
# Indexes that are being built

The index of the renames is built when a member is first resolved, and while it is being built it
is marked as such (`Resolver.Indexing`).  Whoever builds an index takes the mark away again, whatever
is evaluated in the meantime, and whoever meets the mark of an index does not return.  So marks are
balanced.

* `Resolver.keeps_marks` : an evaluation that ends leaves it as it was whether an index is being
  built;
* `Session.Reached.not_indexing` : between the requests of a session no index is being built.
-/

namespace LateBinding

namespace Resolver

variable {r r' : Resolver} {w w' : World} {b : Prop} {h : Host}

/-- The index of the renames is being built. -/
def Indexing (r : Resolver) (w : World) : Prop := (w.stateOf r).renames = .underway

/-- Whether the index of the renames is being built. -/
def Marked (r : Resolver) (b : Prop) (w : World) : Prop := r.Indexing w ↔ b

/-- An index that is ready is taken as it is, one that is being built is waited for, and otherwise
it is built. -/
theorem renameIndex_eq (h : Host) (r : Resolver) (w : World) :
    r.renameIndex h w =
      match (w.stateOf r).renames with
      | .ready index => .done index w
      | .underway => .blocked
      | .unset =>
        (do
          let index ← r.indexRenames h r.document.renames.entries ∅
          r.update fun s => { s with renames := .ready index }
          return index : Act RenameIndex)
          (w.withState r { w.stateOf r with renames := .underway }) := by
  have read : r.state w = .done (w.stateOf r) w := rfl
  rw [renameIndex, Act.bind_apply, read]
  dsimp only
  cases (w.stateOf r).renames <;> rfl

/-! ### What leaves a mark as it is -/

namespace Marked

theorem congr (hw : r.Marked b w) (h : (w'.stateOf r).renames = (w.stateOf r).renames) :
    r.Marked b w' := by
  rw [Marked, Indexing, h]
  exact hw

theorem of_spares (hw : r.Marked b w) (h : w.Spares r w') : r.Marked b w' := hw.congr h.renames

theorem withState (hw : r.Marked b w) {s : ResolverState}
    (hs : s.renames = (w.stateOf r').renames) : r.Marked b (w.withState r' s) :=
  hw.congr (w.apply_stateOf_withState ResolverState.renames hs r)

/-- The index of another resolver is written. -/
theorem of_ne (hw : r.Marked b w) (hid : r'.id ≠ r.id) (s : ResolverState) :
    r.Marked b (w.withState r' s) :=
  hw.congr (by rw [World.stateOf_withState, if_neg hid])

theorem bindSlot (hw : r.Marked b w) (name : String) (s : Slot) :
    r.Marked b (w.bindSlot r' name s) := by
  have fresh : r.Marked b { w with next := w.next + 1, slots := w.slots.insert w.next s } := hw
  exact fresh.withState rfl

end Marked

/-- The index begins to be built. -/
theorem marked_underway (r : Resolver) (w : World) :
    r.Marked True (w.withState r { w.stateOf r with renames := .underway }) :=
  iff_of_true (by rw [Indexing, World.stateOf_withState_self]) trivial

theorem stable_marked (r : Resolver) (b : Prop) : Stable (.free fun _ => True) (r.Marked b) :=
  .of_spares r fun _ _ h hw => hw.of_spares h

/-! ### Marks are balanced -/

/-- An index that has been built is no longer marked, whatever happened in the meantime. -/
theorem keeps_own_renameIndex (hid : r'.id = r.id) :
    Act.Keeps (r.Marked b) (fun _ => True) (r'.renameIndex h) := by
  intro w index w' hw hx
  rw [renameIndex_eq, w.stateOf_congr hid] at hx
  cases hrenames : (w.stateOf r).renames with
  | ready index =>
    rw [hrenames] at hx
    cases hx
    exact ⟨hw, trivial⟩
  | underway =>
    rw [hrenames] at hx
    cases hx
  | unset =>
    rw [hrenames] at hx
    obtain ⟨index, w₁, -, hx⟩ := Act.bind_eq_done.1 hx
    cases hx
    have idle : ¬ r.Indexing w := by rw [Indexing, hrenames]; exact nofun
    have ready : ¬ r.Indexing (w₁.withState r' { w₁.stateOf r' with renames := .ready index }) := by
      rw [Indexing, World.stateOf_withState, if_pos hid]
      exact nofun
    exact ⟨iff_of_false ready fun hb => idle (hw.2 hb), trivial⟩

/-- Building an index leaves no mark that was not there before. -/
theorem keeps_renameIndex_marked (hh : h.Reads (.free fun _ => True) (r.Marked b)) (r' : Resolver) :
    Act.Keeps (r.Marked b) (fun _ => True) (r'.renameIndex h) := by
  by_cases hid : r'.id = r.id
  · exact keeps_own_renameIndex hid
  · exact keeps_renameIndex trivial hh fun w x hw => hw.of_ne hid _

/-- **Marks are balanced.**  An evaluation that ends leaves it as it was whether an index is being
built, at any depth. -/
theorem keeps_marks (r : Resolver) (b : Prop) (n : Nat) :
    (Host.level n).Keeps (.free fun _ => True) (r.Marked b) := by
  refine Host.keeps_level (ι := Unit) (I := fun _ => r.Marked b) (fun _ => r.stable_marked b) .free
    ?_ ?_ n ()
  · intro h hrun hh _ r' name _
    exact keeps_valueOf_within (J := r.Marked b) (.free _) (hrun ())
      (fun _ _ _ _ hw => hw.bindSlot name _) (fun _ _ _ _ _ _ hw => hw) (fun _ hw => hw)
      (fun _ hw => hw) (keeps_evaluate (r.stable_marked b) (.free _) (hrun ()) trivial (hh ()))
  · intro h _ hh r' owner logical _
    rw [resolveMember_eq]
    exact (keeps_findMember trivial hh (keeps_renameIndex_marked hh r')
      (fun _ _ _ _ _ _ hw => hw.withState rfl) owner logical).map fun _ _ => trivial

end Resolver

/-- Between the requests of a session no index is being built. -/
theorem Session.Reached.not_indexing {proxied : Value → Bool} {n : Nat} {k : Names} {w : World}
    (hw : Reached proxied (Host.level n) k w) (r : Resolver) : ¬ r.Indexing w := by
  have start : ¬ r.Indexing World.empty := by
    simp [Resolver.Indexing, World.empty, World.stateOf, default]
  exact (hw.holds_of_level (r.stable_marked False) (r.keeps_marks False n)
    (fun _ _ _ hw => hw.withState rfl) (iff_of_false start id)).1

end LateBinding
