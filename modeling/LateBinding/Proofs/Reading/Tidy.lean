import Mathlib.Data.List.Perm.Subperm
import LateBinding.Proofs.Reading.Orderly

/-!
# Evaluations that are under way

While the description of a variable is evaluated, the variable has its slot, which waits for the
value (`Resolver.Waits`).  What a resolver knows of names is *tidy* if this is so for all variables
that are being evaluated, if none of them is being evaluated twice, and if each slot is that of one
variable, bound to nothing but its declaration or a provider (`Resolver.Tidy`).  Nothing is said of
what other slots keep.

What happens during an evaluation restores what was under way when it began
(`Resolver.Restores`): the same variables are being evaluated, and have the slots that they had.
-/

namespace LateBinding.Resolver

variable {made : List Provider} {r : Resolver} {w w' w'' : World} {name n : String}
  {src : SlotSource} {id : Identity} {s : Slot} {d : Mapping.Descriptor}

/-! ### Variables under evaluation -/

/-- The declared variables that have descriptions. -/
def described (r : Resolver) : List String :=
  r.document.declarations.keys.filter fun name =>
    match r.document.declarations.get? name with
    | some (.described _) => true
    | _ => false

theorem length_described_le (r : Resolver) :
    r.described.length ≤ r.document.declarations.size := by
  refine Nat.le_trans (List.length_filter_le _ _) (Nat.le_of_eq ?_)
  rw [Table.keys, List.length_map, Table.size]

theorem mem_described (hd : r.document.declarations.get? name = some (.described d)) :
    name ∈ r.described := by
  refine List.mem_filter.2 ⟨?_, by rw [hd]⟩
  by_contra hno
  rw [Table.get?_eq_none_iff.2 hno] at hd
  cases hd

/-- The variables whose descriptions the resolver is evaluating, innermost first. -/
def underway (r : Resolver) (w : World) : List String :=
  w.evaluating.filterMap fun p => if p.1 = r.id then some p.2 else none

theorem mem_underway : name ∈ r.underway w ↔ w.isEvaluating r name = true := by
  rw [underway, World.isEvaluating, List.contains_iff_mem, List.mem_filterMap]
  constructor
  · rintro ⟨⟨i, n⟩, hp, h⟩
    dsimp only at h
    split at h
    · rename_i hi
      cases h
      exact hi ▸ hp
    · cases h
  · intro h
    exact ⟨_, h, if_pos rfl⟩

theorem underway_congr (h : w'.evaluating = w.evaluating) : r.underway w' = r.underway w := by
  rw [underway, h, underway]

theorem isEvaluating_congr (h : w'.evaluating = w.evaluating) :
    w'.isEvaluating r name = w.isEvaluating r name := by
  rw [World.isEvaluating, h, World.isEvaluating]

@[simp] theorem underway_enter (r : Resolver) (w : World) (name : String) :
    r.underway (w.enter r name) = name :: r.underway w := by
  simp [underway, World.enter]

theorem isEvaluating_enter : (w.enter r name).isEvaluating r n = true ↔
    n = name ∨ w.isEvaluating r n = true := by
  rw [← mem_underway, underway_enter, List.mem_cons, mem_underway]

/-- The slot of a described variable waits for the value. -/
def Waits (r : Resolver) (w : World) (name : String) : Prop :=
  ∃ d id s, r.sourceOf w name = some (.declared (.described d)) ∧
    w.slotOf r name = some (id, s) ∧ s.isDeclared = true ∧
      (s.retention = .cached → s.frozen = none)

theorem Waits.congr (h : r.Waits w name) (hsrc : r.sourceOf w' name = r.sourceOf w name)
    (hslot : w'.slotOf r name = w.slotOf r name) : r.Waits w' name := by
  rw [Waits, hsrc, hslot]
  exact h

/-- What a resolver knows of names is in order. -/
structure Tidy (r : Resolver) (w : World) : Prop where
  /-- Slots have identities that were handed out. -/
  bound : ∀ name id, (w.stateOf r).slots.get? name = some id → id < w.next
  /-- A slot is that of one variable. -/
  injective : ∀ name name' id, (w.stateOf r).slots.get? name = some id →
    (w.stateOf r).slots.get? name' = some id → name = name'
  /-- A slot that is bound to a declaration is bound to that of its variable. -/
  declared : ∀ name id s d, w.slotOf r name = some (id, s) → s.source = .declared d →
    r.document.declarations.get? name = some d
  /-- No variable is being evaluated twice. -/
  distinct : (r.underway w).Nodup
  /-- The slots of variables that are being evaluated wait for the values. -/
  waits : ∀ name, w.isEvaluating r name = true → r.Waits w name

/-- The same variables are being evaluated as before, and have the slots that they had. -/
structure Restores (r : Resolver) (w w' : World) : Prop where
  tidy : r.Tidy w'
  evaluating : w'.evaluating = w.evaluating
  slots : ∀ name, w.isEvaluating r name = true →
    (w'.stateOf r).slots.get? name = (w.stateOf r).slots.get? name

/-- Slots that are in order are tidy while nothing is being evaluated. -/
theorem Orderly.tidy (hw : r.Orderly made w) (idle : ∀ name, w.isEvaluating r name = false) :
    r.Tidy w where
  bound := hw.bound
  injective := hw.injective
  declared name id s d hs := (hw.proper name id s hs).declared d
  distinct := by
    have nothing : r.underway w = [] := by
      refine List.eq_nil_iff_forall_not_mem.2 fun name hname => ?_
      rw [mem_underway, idle] at hname
      cases hname
    rw [nothing]
    exact List.nodup_nil
  waits name h := by
    rw [idle] at h
    cases h

namespace Tidy

/-- A variable that is being evaluated is one of those with descriptions. -/
theorem mem_described (hw : r.Tidy w) (h : name ∈ r.underway w) : name ∈ r.described := by
  obtain ⟨d, -, -, hsrc, -⟩ := hw.waits name (mem_underway.1 h)
  exact Resolver.mem_described (declared_of_sourceOf hsrc)

/-- Evaluations nest at most as deep as there are variables with descriptions. -/
theorem length_underway_le (hw : r.Tidy w) : (r.underway w).length ≤ r.described.length :=
  (List.Nodup.subperm hw.distinct fun _ => hw.mem_described).length_le

theorem restores_self (hw : r.Tidy w) : r.Restores w w := ⟨hw, rfl, fun _ _ => rfl⟩

/-- What spares the resolver restores what is under way. -/
theorem of_spares (hw : r.Tidy w) (h : w.Spares r w') : r.Restores w w' where
  tidy := {
    bound := fun name id hid => Nat.lt_of_lt_of_le (hw.bound name id (h.slotIds ▸ hid)) h.next
    injective := by
      rw [h.slotIds]
      exact hw.injective
    declared := fun name id s d hs => hw.declared name id s d (h.slotOf name ▸ hs)
    distinct := by
      rw [underway_congr h.evaluating]
      exact hw.distinct
    waits := fun name hn => (hw.waits name (isEvaluating_congr h.evaluating ▸ hn)).congr
      (h.sourceOf name) (h.slotOf name) }
  evaluating := h.evaluating
  slots _ _ := by rw [h.slotIds]

/-! ### Slots that are bound -/

theorem slotOf_bindSlot (hw : r.Tidy w) (s : Slot) :
    (w.bindSlot r name s).slotOf r n = if name = n then some (w.next, s) else w.slotOf r n := by
  rw [World.slotOf_bindSlot_of_lt s (hw.bound n)]
  simp

/-- A slot is bound for a variable whose slot does not fit its source. -/
theorem bindSlot (hw : r.Tidy w) (hsrc : r.sourceOf w name = some src)
    (hnone : (w.slotOf r name).filter (fun p => p.2.fits src) = none) :
    r.Restores w (w.bindSlot r name (.of src)) := by
  -- the slot of a variable that is being evaluated fits
  have others {n : String} (hn : w.isEvaluating r n = true) : name ≠ n := by
    rintro rfl
    obtain ⟨d, id, s, hsrc', hslot, hdeclared, -⟩ := hw.waits name hn
    cases hsrc.symm.trans hsrc'
    rw [hslot, Option.filter_some, Slot.fits, hdeclared] at hnone
    cases hnone
  have slots (n : String) : ((w.bindSlot r name (.of src)).stateOf r).slots.get? n =
      if name = n then some w.next else (w.stateOf r).slots.get? n := by
    rw [World.slots_bindSlot, if_pos rfl, Table.get?_insert]
  refine ⟨⟨fun n id hid => World.lt_next_bindSlot (hw.bound n) hid, fun n n' id hid hid' => ?_,
    fun n id s d hs hd => ?_, hw.distinct, fun n hn => ?_⟩, rfl, fun n hn => ?_⟩
  · rw [slots] at hid hid'
    split at hid
    · rename_i hn
      cases hid
      split at hid'
      · rename_i hn'
        exact hn.symm.trans hn'
      · -- no slot has the fresh identity yet
        exact absurd (hw.bound _ _ hid') (Nat.lt_irrefl _)
    · split at hid'
      · cases hid'
        exact absurd (hw.bound _ _ hid) (Nat.lt_irrefl _)
      · exact hw.injective _ _ _ hid hid'
  · rw [hw.slotOf_bindSlot] at hs
    split at hs
    · rename_i hn
      cases hs
      rw [Slot.source_of] at hd
      exact hn ▸ declared_of_sourceOf (hd ▸ hsrc)
    · exact hw.declared n id s d hs hd
  · replace hn : w.isEvaluating r n = true := hn
    refine (hw.waits n hn).congr (r.sourceOf_bindSlot _ _ _ _ _) ?_
    rw [hw.slotOf_bindSlot, if_neg (others hn)]
  · rw [slots, if_neg (others hn)]

theorem slotted (hw : r.Tidy w) (hsrc : r.sourceOf w name = some src) :
    r.Restores w (r.slotted w name src) := by
  unfold Resolver.slotted
  split
  · exact hw.restores_self
  · rename_i hnone
    exact hw.bindSlot hsrc hnone

/-! ### Values that are kept -/

/-- A value is kept in the slot of a variable that is not being evaluated. -/
theorem keepIn (hw : r.Tidy w) (hid : (w.stateOf r).slots.get? name = some id)
    (hs : w.slots.get? id = some s) (idle : w.isEvaluating r name = false) (v : String) :
    r.Restores w (w.keepIn id s v) := by
  refine ⟨⟨hw.bound, hw.injective, fun n i t d ht hd => ?_, hw.distinct, fun n hn => ?_⟩, rfl,
    fun _ _ => rfl⟩
  · rw [World.slotOf_keepIn_of_get? hs, Option.map_eq_some_iff] at ht
    obtain ⟨⟨i', t'⟩, ht', hsame⟩ := ht
    dsimp only at hsame
    split at hsame
    · rename_i hi
      cases hsame
      cases (World.slotOf_eq_some_iff.1 ht').2.symm.trans (hi ▸ hs)
      exact hw.declared n i' s d ht' hd
    · cases hsame
      exact hw.declared n i t d ht' hd
  · replace hn : w.isEvaluating r n = true := hn
    obtain ⟨d, i, t, hsrc, hslot, hrest⟩ := hw.waits n hn
    refine ⟨d, i, t, hsrc, ?_, hrest⟩
    rw [World.slotOf_keepIn_of_get? hs, hslot, Option.map_some, if_neg]
    -- slots of different variables are different
    rintro rfl
    rw [hw.injective _ _ _ hid (World.slotOf_eq_some_iff.1 hslot).1, hn] at idle
    cases idle

/-- A slot that is to keep a value leaves what is under way as it is. -/
theorem retain (hw : r.Tidy w) (hid : (w.stateOf r).slots.get? name = some id)
    (idle : w.isEvaluating r name = false) (s : Slot) (o : Option String) :
    (s.retain id o).Ends w fun _ w' => r.Restores w w' := by
  refine .of_returns (s.returns_retain id o) fun v w' h => ?_
  cases o with
  | none =>
    cases h
    exact hw.restores_self
  | some v =>
    cases hr : s.retention with
    | lazy =>
      rw [Slot.retain, hr] at h
      cases h
      exact hw.restores_self
    | cached =>
      rw [Slot.retain, hr] at h
      obtain ⟨kept, w₁, hkept, h⟩ := Act.bind_eq_done.1 h
      cases h
      cases hs : w.slots.get? id with
      | none =>
        rw [Slot.freeze, Act.bind_apply, Slot.frozenAt_eq, hs] at hkept
        cases hkept
        simp only [hs]
        exact hw.restores_self
      | some t =>
        cases hf : t.frozen with
        | none =>
          rw [Slot.freeze_eq_of_not_frozen hs hf] at hkept
          cases hkept
          exact hw.keepIn hid hs idle v
        | some before =>
          rw [Slot.freeze_eq_of_frozen (by rw [hs, Option.bind_some, hf])] at hkept
          cases hkept
          exact hw.restores_self

/-! ### Evaluations that begin and end -/

/-- The description of a variable begins to be evaluated. -/
theorem enter (hw : r.Tidy w) (idle : w.isEvaluating r name = false) (waits : r.Waits w name) :
    r.Tidy (w.enter r name) where
  bound := hw.bound
  injective := hw.injective
  declared := hw.declared
  distinct := by
    rw [underway_enter, List.nodup_cons, mem_underway, idle]
    exact ⟨Bool.false_ne_true, hw.distinct⟩
  waits n hn := by
    rcases isEvaluating_enter.1 hn with rfl | hn
    · exact waits
    · exact hw.waits n hn

end Tidy

namespace Restores

theorem trans (h : r.Restores w w') (h' : r.Restores w' w'') : r.Restores w w'' where
  tidy := h'.tidy
  evaluating := h'.evaluating.trans h.evaluating
  slots name hn :=
    (h'.slots name (isEvaluating_congr h.evaluating ▸ hn)).trans (h.slots name hn)

/-- An evaluation ends. -/
theorem leave (h : r.Restores (w.enter r name) w') : r.Restores w w'.leave := by
  have evaluating : w'.leave.evaluating = w.evaluating := by
    rw [World.leave, h.evaluating]
    rfl
  have outer {n : String} (hn : w.isEvaluating r n = true) : w'.isEvaluating r n = true := by
    rw [isEvaluating_congr h.evaluating]
    exact isEvaluating_enter.2 (.inr hn)
  refine ⟨⟨h.tidy.bound, h.tidy.injective, h.tidy.declared, ?_, fun n hn => ?_⟩, evaluating,
    fun n hn => h.slots n (isEvaluating_enter.2 (.inr hn))⟩
  · have inner := h.tidy.distinct
    rw [underway_congr h.evaluating, underway_enter] at inner
    rw [underway_congr evaluating]
    exact (List.nodup_cons.1 inner).2
  · exact h.tidy.waits n (outer (isEvaluating_congr evaluating ▸ hn))

end Restores

end LateBinding.Resolver
