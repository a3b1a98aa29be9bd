import LateBinding.Proofs.Action
import LateBinding.Resolver.Variable

/-!
# Slots, exactly

What asking for a variable does, as equations.  The variable has a source
(`Resolver.sourceOf`): the provider registered under its name, or else its declaration, if there
is one.  The slot of the variable is used if it fits the source, and otherwise a fresh one is
bound (`Resolver.slotFor_eq`); then the value is that of the slot, where the source is asked if
there has to be a value (`Resolver.ask`, `Resolver.valueOf_eq`, `Slot.value_eq_of_frozen`,
`Slot.value_eq_of_not_frozen`).
-/

namespace LateBinding

namespace World

variable (w : World)

/-- The world with another state of a resolver. -/
def withState (r : Resolver) (s : ResolverState) : World :=
  { w with resolvers := w.resolvers.insert r.id s }

theorem stateOf_withState (r r' : Resolver) (s : ResolverState) :
    (w.withState r s).stateOf r' = if r.id = r'.id then s else w.stateOf r' := by
  rw [stateOf, withState, Store.get?_insert]
  split <;> rfl

@[simp] theorem stateOf_withState_self (r : Resolver) (s : ResolverState) :
    (w.withState r s).stateOf r = s := by
  simp [stateOf_withState]

/-- What belongs to a resolver is known by its identity. -/
theorem stateOf_congr {r r' : Resolver} (h : r.id = r'.id) : w.stateOf r = w.stateOf r' := by
  rw [stateOf, h, stateOf]

/-- A part of what belongs to resolvers that is not written stays the same for all of them. -/
theorem apply_stateOf_withState {α : Type} (f : ResolverState → α) {r : Resolver}
    {s : ResolverState} (h : f s = f (w.stateOf r)) (r' : Resolver) :
    f ((w.withState r s).stateOf r') = f (w.stateOf r') := by
  rw [stateOf_withState]
  split
  · rename_i hid
    rw [h, w.stateOf_congr hid]
  · rfl

/-- The slot of a variable, with its identity. -/
def slotOf (r : Resolver) (name : String) : Option (Identity × Slot) := do
  let id ← (w.stateOf r).slots.get? name
  let s ← w.slots.get? id
  return (id, s)

theorem slotOf_eq_some_iff {w : World} {r : Resolver} {name : String} {id : Identity} {s : Slot} :
    w.slotOf r name = some (id, s) ↔
      (w.stateOf r).slots.get? name = some id ∧ w.slots.get? id = some s := by
  simp [slotOf, Option.bind_eq_some_iff]

/-- A change of what belongs to a resolver, apart from its slots, leaves every variable with its
slot. -/
theorem slotOf_withState {r : Resolver} {s : ResolverState} (hs : s.slots = (w.stateOf r).slots)
    (r' : Resolver) (name : String) : (w.withState r s).slotOf r' name = w.slotOf r' name := by
  rw [slotOf, w.apply_stateOf_withState ResolverState.slots hs r']
  rfl

/-- The world in which a variable has a fresh slot. -/
def bindSlot (r : Resolver) (name : String) (s : Slot) : World :=
  { w with next := w.next + 1, slots := w.slots.insert w.next s }.withState r
    { w.stateOf r with slots := (w.stateOf r).slots.insert name w.next }

theorem slots_bindSlot (r : Resolver) (name : String) (s : Slot) (r' : Resolver) :
    ((w.bindSlot r name s).stateOf r').slots =
      if r.id = r'.id then (w.stateOf r').slots.insert name w.next else (w.stateOf r').slots := by
  rw [bindSlot, stateOf_withState]
  split
  · rename_i hid
    rw [w.stateOf_congr hid]
  · rfl

/-- Slots keep to identities that were handed out. -/
theorem lt_next_bindSlot {w : World} {r r' : Resolver} {name n : String} {s : Slot} {id : Identity}
    (hn : ∀ id, (w.stateOf r').slots.get? n = some id → id < w.next)
    (h : ((w.bindSlot r name s).stateOf r').slots.get? n = some id) :
    id < (w.bindSlot r name s).next := by
  rw [slots_bindSlot] at h
  split at h
  · rw [Table.get?_insert] at h
    split at h
    · cases h
      exact Nat.lt_succ_self _
    · exact Nat.lt_succ_of_lt (hn id h)
  · exact Nat.lt_succ_of_lt (hn id h)

theorem registry_bindSlot (r : Resolver) (name : String) (s : Slot) (r' : Resolver) :
    ((w.bindSlot r name s).stateOf r').registry = (w.stateOf r').registry :=
  apply_stateOf_withState { w with next := w.next + 1, slots := w.slots.insert w.next s }
    ResolverState.registry
    (s := { w.stateOf r with slots := (w.stateOf r).slots.insert name w.next }) rfl r'

/-- A slot that is bound is that of one variable; the other variables have the slots that they had,
whose identities were handed out before. -/
theorem slotOf_bindSlot_of_lt {w : World} {r r' : Resolver} {name n : String} (s : Slot)
    (hn : ∀ id, (w.stateOf r').slots.get? n = some id → id < w.next) :
    (w.bindSlot r name s).slotOf r' n =
      if r.id = r'.id ∧ name = n then some (w.next, s) else w.slotOf r' n := by
  have others : ((w.stateOf r').slots.get? n).bind (fun id => (w.bindSlot r name s).slots.get? id >>=
      fun t => some (id, t)) = w.slotOf r' n := by
    rw [slotOf]
    cases hid : (w.stateOf r').slots.get? n with
    | none => rfl
    | some id =>
      change ((w.slots.insert w.next s).get? id).bind _ = (w.slots.get? id).bind _
      rw [Store.get?_insert, if_neg (Nat.ne_of_gt (hn id hid))]
      rfl
  rw [slotOf, slots_bindSlot]
  by_cases hr : r.id = r'.id
  · rw [if_pos hr, Table.get?_insert]
    by_cases hname : name = n
    · rw [if_pos hname, if_pos ⟨hr, hname⟩]
      change ((w.slots.insert w.next s).get? w.next).bind _ = _
      rw [Store.get?_insert_self]
      rfl
    · rw [if_neg hname, if_neg fun h => hname h.2]
      exact others
  · rw [if_neg hr, if_neg fun h => hr h.1]
    exact others

/-- The world in which a value is kept in a slot. -/
def keepIn (id : Identity) (s : Slot) (v : String) : World :=
  { w with slots := w.slots.insert id { s with frozen := some v } }

theorem slotOf_keepIn_of_get? {w : World} {id : Identity} {s : Slot}
    (hs : w.slots.get? id = some s) (v : String) (r : Resolver) (n : String) :
    (w.keepIn id s v).slotOf r n = (w.slotOf r n).map fun p =>
      if p.1 = id then (id, { s with frozen := some v }) else p := by
  rw [slotOf, slotOf]
  change ((w.stateOf r).slots.get? n).bind _ = _
  cases (w.stateOf r).slots.get? n with
  | none => rfl
  | some i =>
    change ((w.slots.insert id { s with frozen := some v }).get? i).bind _ =
      Option.map _ ((w.slots.get? i).bind _)
    rw [Store.get?_insert]
    by_cases hi : id = i
    · subst hi
      simp [hs]
    · cases w.slots.get? i <;> simp [hi, Ne.symm hi]

/-- The world in which a description is being evaluated. -/
def enter (r : Resolver) (name : String) : World :=
  { w with evaluating := (r.id, name) :: w.evaluating }

/-- The world in which the innermost evaluation of a description has ended. -/
def leave : World := { w with evaluating := w.evaluating.tail }

/-- Whether the description of a variable is being evaluated. -/
def isEvaluating (r : Resolver) (name : String) : Bool := w.evaluating.contains (r.id, name)

end World

/-! ### Sources -/

namespace Slot

/-- Whether the slot takes its value from a source as it is asked for: from this very provider,
or from a declaration. -/
def fits (s : Slot) : SlotSource → Bool
  | .registered p => s.isBoundTo p
  | .declared _ => s.isDeclared

/-- A fresh slot for a source. -/
def of : SlotSource → Slot
  | .registered p => .ofProvider p
  | .declared d => .ofDeclaration d

@[simp] theorem source_of (src : SlotSource) : (of src).source = src := by
  cases src <;> rfl

@[simp] theorem frozen_of (src : SlotSource) : (of src).frozen = none := by
  cases src <;> rfl

end Slot

/-- A fresh slot fits its source. -/
theorem Slot.fits_of (src : SlotSource) : (of src).fits src = true := by
  cases src <;> simp [fits, of, isBoundTo, isDeclared, ofProvider, ofDeclaration]

/-- A slot is bound to a registered provider or to a declaration. -/
theorem Slot.fits_declared_of_fits_registered {s : Slot} {p : Provider}
    (h : s.fits (.registered p) = true) (d : Mapping.Declaration) :
    s.fits (.declared d) = false := by
  cases hs : s.source with
  | registered q => simp [fits, isDeclared, hs]
  | declared e => simp [fits, isBoundTo, hs] at h

/-- A slot that fits a source takes its value from it, if providers are known by their identities
and the variable has one declaration. -/
theorem Slot.source_eq_of_fits {s : Slot} {src : SlotSource} (h : s.fits src = true)
    (registered : ∀ p q, s.source = .registered p → src = .registered q → p.id = q.id → p = q)
    (declared : ∀ d e, s.source = .declared d → src = .declared e → d = e) : s.source = src := by
  cases src with
  | registered q =>
    cases hs : s.source with
    | registered p =>
      simp only [fits, isBoundTo, hs, beq_iff_eq] at h
      rw [registered p q hs rfl h]
    | declared d => simp [fits, isBoundTo, hs] at h
  | declared e =>
    cases hs : s.source with
    | registered p => simp [fits, isDeclared, hs] at h
    | declared d => rw [declared d e hs rfl]

/-- How long the value of a source is kept. -/
def SlotSource.retention : SlotSource → Retention
  | .registered p => p.retention
  | .declared d => d.retention

@[simp] theorem Slot.retention_of (src : SlotSource) : (Slot.of src).retention = src.retention := by
  cases src <;> rfl

namespace Resolver

variable (r : Resolver)

/-- The source of a variable: the provider registered under its name, or else its declaration. -/
def sourceOf (w : World) (name : String) : Option SlotSource :=
  match (w.stateOf r).registry.get? name with
  | some p => some (.registered p)
  | none => (r.document.declarations.get? name).map .declared

variable {r} in
theorem sourceOf_congr {w w' : World} (h : (w'.stateOf r).registry = (w.stateOf r).registry)
    (name : String) : r.sourceOf w' name = r.sourceOf w name := by
  rw [sourceOf, h, sourceOf]

/-- A registered provider that is the source of a variable is registered under its name. -/
theorem registered_of_sourceOf {r : Resolver} {w : World} {name : String} {p : Provider}
    (h : r.sourceOf w name = some (.registered p)) :
    (w.stateOf r).registry.get? name = some p := by
  unfold sourceOf at h
  split at h
  · rename_i q hq
    cases h
    exact hq
  · simp at h

/-- A declaration that is the source of a variable is that of the document. -/
theorem declared_of_sourceOf {r : Resolver} {w : World} {name : String} {d : Mapping.Declaration}
    (h : r.sourceOf w name = some (.declared d)) : r.document.declarations.get? name = some d := by
  unfold sourceOf at h
  split at h
  · cases h
  · obtain ⟨d', hd, hd'⟩ := Option.map_eq_some_iff.1 h
    cases hd'
    exact hd

/-- A declaration counts only while nothing is registered. -/
theorem free_of_sourceOf {r : Resolver} {w : World} {name : String} {d : Mapping.Declaration}
    (h : r.sourceOf w name = some (.declared d)) : (w.stateOf r).registry.get? name = none := by
  unfold sourceOf at h
  split at h
  · cases h
  · assumption

theorem sourceOf_of_registered {r : Resolver} {w : World} {name : String} {p : Provider}
    (h : (w.stateOf r).registry.get? name = some p) :
    r.sourceOf w name = some (.registered p) := by
  rw [sourceOf, h]

theorem sourceOf_of_declared {r : Resolver} {w : World} {name : String} {d : Mapping.Declaration}
    (hd : r.document.declarations.get? name = some d)
    (free : (w.stateOf r).registry.get? name = none) :
    r.sourceOf w name = some (.declared d) := by
  rw [sourceOf, free]
  exact Option.map_eq_some_iff.2 ⟨d, hd, rfl⟩

/-- A change of what belongs to a resolver, apart from its registered providers, leaves every
variable with its source. -/
theorem sourceOf_withState (w : World) {r' : Resolver} {s : ResolverState}
    (hs : s.registry = (w.stateOf r').registry) (name : String) :
    r.sourceOf (w.withState r' s) name = r.sourceOf w name :=
  sourceOf_congr (w.apply_stateOf_withState ResolverState.registry hs r) name

theorem sourceOf_bindSlot (w : World) (r' : Resolver) (n : String) (s : Slot) (name : String) :
    r.sourceOf (w.bindSlot r' n s) name = r.sourceOf w name :=
  sourceOf_congr (w.registry_bindSlot r' n s r) name

/-- Ask a source for its value. -/
def ask (h : Host) (name : String) : SlotSource → Act (Option String)
  | .registered p => p.get h
  | .declared (.literal text) => return some text
  | .declared (.described d) => r.guarded name (r.evaluate h d)

theorem keepOrBind_eq (name : String) (keep : Slot → Bool) (s : Slot) (w : World) :
    r.keepOrBind name keep s w =
      match (w.slotOf r name).filter fun p => keep p.2 with
      | some p => .done p w
      | none => .done (w.next, s) (w.bindSlot r name s) := by
  have bound : r.bindSlot name s w = .done (w.next, s) (w.bindSlot r name s) := rfl
  simp only [keepOrBind, state, Act.bind_apply, Act.world_apply, Act.pure_apply]
  cases hid : (w.stateOf r).slots.get? name with
  | none => simp [World.slotOf, hid, bound]
  | some id =>
    simp only [Act.bind_apply, Act.world_apply]
    cases hs : w.slots.get? id with
    -- a name whose slot is gone counts as one without
    | none => simp [World.slotOf, hid, hs, bound]
    | some current =>
      have slot : w.slotOf r name = some (id, current) := World.slotOf_eq_some_iff.2 ⟨hid, hs⟩
      cases hk : keep current <;> simp [slot, hk, bound, Option.filter]

/-- The slot of a variable is the one it has, if that fits its source, or else a fresh one. -/
theorem slotFor_eq (name : String) (w : World) :
    r.slotFor name w =
      match r.sourceOf w name with
      | none => .done none w
      | some src =>
        match (w.slotOf r name).filter fun p => p.2.fits src with
        | some p => .done (some p) w
        | none => .done (some (w.next, .of src)) (w.bindSlot r name (.of src)) := by
  -- a slot is kept or bound in the same way for either kind of source
  have bound (keep : Slot → Bool) (s : Slot) :
      (some <$> r.keepOrBind name keep s) w =
        match (w.slotOf r name).filter fun p => keep p.2 with
        | some p => .done (some p) w
        | none => .done (some (w.next, s)) (w.bindSlot r name s) := by
    rw [← bind_pure_comp, Act.bind_apply, keepOrBind_eq]
    cases (w.slotOf r name).filter fun p => keep p.2 <;> rfl
  simp only [slotFor, registered, state, sourceOf, Act.bind_apply, Act.world_apply, Act.pure_apply]
  cases (w.stateOf r).registry.get? name with
  | some p => exact bound (fun s => s.isBoundTo p) (.ofProvider p)
  | none =>
    cases r.document.declarations.get? name with
    | none => rfl
    | some d => exact bound Slot.isDeclared (.ofDeclaration d)

theorem returns_slotFor (name : String) : (r.slotFor name).Returns := by
  intro w
  rw [slotFor_eq]
  split
  · exact ⟨_, _, rfl⟩
  · split <;> exact ⟨_, _, rfl⟩

theorem valueOf_eq (h : Host) (name : String) :
    r.valueOf h name = (do
      match ← r.slotFor name with
      | none => return none
      | some (id, s) => s.value id (r.ask h name s.source)) := by
  rfl

/-- The world in which the slot of a variable is the one that is used for it. -/
def slotted (w : World) (name : String) (src : SlotSource) : World :=
  match (w.slotOf r name).filter fun p => p.2.fits src with
  | some _ => w
  | none => w.bindSlot r name (.of src)

theorem registry_slotted (w : World) (name : String) (src : SlotSource) :
    ((r.slotted w name src).stateOf r).registry = (w.stateOf r).registry := by
  unfold slotted
  split
  · rfl
  · exact w.registry_bindSlot r name (.of src) r

section Used

variable {r} {name : String} {src : SlotSource} {id : Identity} {s : Slot} {w w' : World}

/-- A variable that has a source has a slot. -/
theorem exists_slotFor (hsrc : r.sourceOf w name = some src) :
    ∃ id s, r.slotFor name w = .done (some (id, s)) (r.slotted w name src) := by
  rw [slotFor_eq, hsrc, slotted]
  dsimp only
  cases (w.slotOf r name).filter fun p => p.2.fits src with
  | some p => exact ⟨p.1, p.2, rfl⟩
  | none => exact ⟨w.next, .of src, rfl⟩

/-- The slot that is used for a variable is entered for it. -/
theorem slotOf_of_slotFor (h : r.slotFor name w = .done (some (id, s)) w') :
    w'.slotOf r name = some (id, s) := by
  rw [slotFor_eq] at h
  cases hsrc : r.sourceOf w name with
  | none =>
    rw [hsrc] at h
    cases h
  | some src =>
    rw [hsrc] at h
    dsimp only at h
    cases hslot : (w.slotOf r name).filter fun p => p.2.fits src with
    | some p =>
      rw [hslot] at h
      cases h
      exact (Option.filter_eq_some_iff.1 hslot).1
    | none =>
      rw [hslot] at h
      cases h
      refine World.slotOf_eq_some_iff.2 ⟨?_, Store.get?_insert_self _ _ _⟩
      rw [World.slots_bindSlot, if_pos rfl, Table.get?_insert_self]

/-- The slot that is used for a variable fits its source. -/
theorem fits_of_slotFor (h : r.slotFor name w = .done (some (id, s)) w') :
    ∃ src, r.sourceOf w name = some src ∧ w' = r.slotted w name src ∧ s.fits src = true := by
  rw [slotFor_eq] at h
  cases hsrc : r.sourceOf w name with
  | none =>
    rw [hsrc] at h
    cases h
  | some src =>
    rw [hsrc] at h
    refine ⟨src, rfl, ?_⟩
    rw [slotted]
    dsimp only at h ⊢
    cases hslot : (w.slotOf r name).filter fun p => p.2.fits src with
    | some p =>
      rw [hslot] at h
      cases h
      exact ⟨rfl, (Option.filter_eq_some_iff.1 hslot).2⟩
    | none =>
      rw [hslot] at h
      cases h
      exact ⟨rfl, Slot.fits_of src⟩

end Used

variable {r} {name : String} {w : World} (evaluation : Act (Option String))

theorem guarded_eq_of_evaluating (h : w.isEvaluating r name = true) :
    r.guarded name evaluation w = .done none w := by
  unfold World.isEvaluating at h
  rw [guarded, Act.bind_apply, Act.world_apply]
  dsimp only
  rw [if_pos h]
  rfl

theorem guarded_eq_done {v : Option String} {w' : World} (h : w.isEvaluating r name = false) :
    r.guarded name evaluation w = .done v w' ↔
      ∃ w₁, evaluation (w.enter r name) = .done v w₁ ∧ w' = w₁.leave := by
  unfold World.isEvaluating at h
  rw [guarded, Act.bind_apply, Act.world_apply]
  dsimp only
  rw [h, if_neg Bool.false_ne_true, Act.bind_apply, Act.update_apply]
  dsimp only
  rw [Act.bind_eq_done]
  constructor
  · rintro ⟨v', w₁, hv, h⟩
    cases h
    exact ⟨w₁, hv, rfl⟩
  · rintro ⟨w₁, hv, rfl⟩
    exact ⟨v, w₁, hv, rfl⟩

/-- Only what the evaluation does once it has begun matters. -/
theorem guarded_congr {evaluation evaluation' : Act (Option String)}
    (h : evaluation (w.enter r name) = evaluation' (w.enter r name)) :
    r.guarded name evaluation w = r.guarded name evaluation' w := by
  rw [guarded, guarded, Act.bind_apply, Act.bind_apply, Act.world_apply]
  dsimp only
  split
  · rfl
  · change (evaluation >>= _) (w.enter r name) = (evaluation' >>= _) (w.enter r name)
    rw [Act.bind_apply, Act.bind_apply, h]

end Resolver

namespace Slot

theorem frozenAt_eq (id : Identity) (w : World) :
    frozenAt id w = .done ((w.slots.get? id).bind Slot.frozen) w := rfl

theorem freeze_eq_of_not_frozen {id : Identity} {v : String} {w : World} {s : Slot}
    (hs : w.slots.get? id = some s) (hf : s.frozen = none) :
    freeze id v w = .done v (w.keepIn id s v) := by
  rw [freeze, Act.bind_apply, frozenAt_eq, hs, Option.bind_some, hf]
  simp only [Act.bind_apply, Act.update_apply, hs, Act.pure_apply, World.keepIn]

theorem freeze_eq_of_frozen {id : Identity} {v kept : String} {w : World}
    (hf : (w.slots.get? id).bind Slot.frozen = some kept) : freeze id v w = .done kept w := by
  rw [freeze, Act.bind_apply, frozenAt_eq, hf]
  rfl

theorem value_eq_of_frozen {s : Slot} (h : s.retention = .cached) {id : Identity} {kept : String}
    {w : World} (hf : (w.slots.get? id).bind Slot.frozen = some kept)
    (compute : Act (Option String)) : s.value id compute w = .done (some kept) w := by
  rw [value, h]
  simp only [Act.bind_apply, frozenAt_eq, hf, Act.pure_apply]

/-- Keep what was computed, if the retention is to keep it. -/
def retain (s : Slot) (id : Identity) : Option String → Act (Option String)
  | none => return none
  | some v =>
    match s.retention with
    | .lazy => return some v
    | .cached => return some (← freeze id v)

/-- What is computed for a slot that keeps nothing is not kept. -/
theorem value_eq_of_lazy {s : Slot} (h : s.retention = .lazy) (id : Identity)
    (compute : Act (Option String)) : s.value id compute = compute >>= s.retain id := by
  have pure_retain : s.retain id = pure := by
    funext o
    cases o with
    | none => rfl
    | some v => rw [retain, h]
  rw [pure_retain, bind_pure, value, h]

theorem value_eq_of_not_frozen {id : Identity} {w : World}
    (hf : (w.slots.get? id).bind Slot.frozen = none) (s : Slot) (compute : Act (Option String)) :
    s.value id compute w = (compute >>= s.retain id) w := by
  cases hr : s.retention with
  | lazy => rw [value_eq_of_lazy hr]
  | cached =>
    rw [value, hr]
    cases hc : compute w with
    | done o w' =>
      cases o with
      | none => simp only [Act.bind_apply, frozenAt_eq, hf, hc, retain]
      | some v => simp only [Act.bind_apply, frozenAt_eq, hf, hc, retain, hr]
    | exhausted => simp only [Act.bind_apply, frozenAt_eq, hf, hc]
    | blocked => simp only [Act.bind_apply, frozenAt_eq, hf, hc]

/-- The value of a slot is the one that is kept in it, or it is computed; a slot that is to keep its
value has it computed only while it keeps none. -/
theorem value_cases (s : Slot) (id : Identity) (w : World) :
    (∃ v, ∀ compute, s.value id compute w = .done (some v) w) ∨
      (∀ compute, s.value id compute w = (compute >>= s.retain id) w) ∧
        (s.retention = .cached → (w.slots.get? id).bind Slot.frozen = none) := by
  cases hf : (w.slots.get? id).bind Slot.frozen with
  | none => exact .inr ⟨value_eq_of_not_frozen hf s, fun _ => rfl⟩
  | some v =>
    cases hr : s.retention with
    | lazy => exact .inr ⟨fun compute => by rw [value_eq_of_lazy hr], nofun⟩
    | cached => exact .inl ⟨v, value_eq_of_frozen hr hf⟩

/-- A value that comes of keeping one in a slot that is there is kept in it. -/
theorem frozen_of_freeze {id : Identity} {v kept : String} {w w' : World} {t : Slot}
    (ht : w'.slots.get? id = some t) (h : freeze id v w = .done kept w') :
    (w'.slots.get? id).bind Slot.frozen = some kept := by
  cases hf : (w.slots.get? id).bind Slot.frozen with
  | some before =>
    rw [freeze_eq_of_frozen hf] at h
    cases h
    exact hf
  | none =>
    rw [freeze, Act.bind_apply, frozenAt_eq, hf] at h
    cases h
    cases hs : w.slots.get? id with
    | some s => simp [hs, Store.get?_insert_self]
    | none =>
      simp only [hs] at ht
      cases ht

/-- The value of a slot that is to keep it is kept there. -/
theorem frozen_of_value {s t : Slot} (hc : s.retention = .cached) {id : Identity} {v : String}
    {w w' : World} (ht : w'.slots.get? id = some t) {compute : Act (Option String)}
    (h : s.value id compute w = .done (some v) w') :
    (w'.slots.get? id).bind Slot.frozen = some v := by
  cases hf : (w.slots.get? id).bind Slot.frozen with
  | some kept =>
    rw [value_eq_of_frozen hc hf] at h
    cases h
    exact hf
  | none =>
    rw [value_eq_of_not_frozen hf] at h
    obtain ⟨o, w₁, -, h⟩ := Act.bind_eq_done.1 h
    cases o with
    | none => cases h
    | some x =>
      rw [retain, hc] at h
      obtain ⟨kept, w₂, hkept, h⟩ := Act.bind_eq_done.1 h
      cases h
      exact frozen_of_freeze ht hkept

/-- What is computed is kept by a cached slot that keeps nothing yet. -/
theorem retain_eq_done {s t : Slot} {id : Identity} {w w' : World} {o v : Option String}
    (ht : w.slots.get? id = some t) (hf : t.frozen = none) (h : s.retain id o w = .done v w') :
    v = o ∧ (w' = w ∧ (s.retention = .cached → o = none) ∨
      ∃ x, o = some x ∧ s.retention = .cached ∧ w' = w.keepIn id t x) := by
  cases o with
  | none =>
    cases h
    exact ⟨rfl, .inl ⟨rfl, fun _ => rfl⟩⟩
  | some x =>
    cases hr : s.retention with
    | lazy =>
      rw [retain, hr] at h
      cases h
      exact ⟨rfl, .inl ⟨rfl, nofun⟩⟩
    | cached =>
      rw [retain, hr] at h
      simp only [Act.bind_apply, freeze_eq_of_not_frozen ht hf] at h
      cases h
      exact ⟨rfl, .inr ⟨x, rfl, rfl, rfl⟩⟩

theorem returns_frozenAt (id : Identity) : (frozenAt id).Returns :=
  Act.Returns.world.bind fun _ => .pure _

theorem returns_freeze (id : Identity) (v : String) : (freeze id v).Returns := by
  refine (returns_frozenAt id).bind fun o => ?_
  split
  · exact .pure _
  · exact (Act.Returns.update _).bind fun _ => .pure _

theorem returns_retain (s : Slot) (id : Identity) (o : Option String) :
    (s.retain id o).Returns := by
  cases o with
  | none => exact .pure _
  | some v =>
    unfold retain
    dsimp only
    split
    · exact .pure _
    · exact (returns_freeze id v).bind fun _ => .pure _

end Slot

end LateBinding
