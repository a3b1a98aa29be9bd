import LateBinding.Proofs.Reading.Orderly

/-!
# What is kept, and what was recorded

The invariant that ties the slots of a resolver to the history of its readings
(`Resolver.Ready`): a slot keeps only what its source answered; what a cached source answered is
kept until the name is changed; and if the last reading had no value, nothing is kept.  While the
description of a variable is evaluated nothing is kept for it, so whatever is nested in this
evaluation cannot fix its value.

The invariant holds of histories too: all readings in them are justified.  Each step of a reading
preserves it: what spares the resolver (`Ready.of_spares`), entering an evaluation and leaving it,
binding a slot (`Ready.slotted`), and keeping and recording an answer (`Ready.push`,
`Ready.keep`).
-/

namespace LateBinding.Resolver

variable {code : Nat → Code} {made made' : List Provider} {r : Resolver} {past : List Event}
  {w w' : World} {name : String} {src : SlotSource} {id : Identity} {s : Slot} {e : Reading}

/-! ### What is kept -/

/-- Binding a slot where none fits keeps nothing and loses nothing. -/
theorem kept_bindSlot (hw : Orderly made r w) (hsrc : r.sourceOf w name = some src)
    (hnone : r.fitting w name = none) (n : String) :
    r.kept (w.bindSlot r name (.of src)) n = r.kept w n := by
  by_cases hn : name = n
  · subst hn
    have before : r.kept w name = none := by rw [kept, hnone, Option.bind_none]
    rw [before, kept, fitting, Resolver.sourceOf_bindSlot, hsrc, Option.bind_some,
      World.slotOf_bindSlot hw, if_pos rfl, Option.filter]
    split <;> simp
  · refine kept_congr (fitting_congr (r.sourceOf_bindSlot _ _ _ _ _) ?_)
    rw [World.slotOf_bindSlot hw, if_neg hn]

/-- A value that is kept in the slot of a variable is kept for this variable only. -/
theorem kept_keepIn (hw : Orderly made r w) (hfit : r.fitting w name = some (id, s)) (v n : String) :
    r.kept (w.keepIn id s v) n = if name = n then some v else r.kept w n := by
  obtain ⟨src, hsrc, hslot, hfits⟩ := fitting_eq_some_iff.1 hfit
  by_cases hn : name = n
  · subst hn
    have hkeeps : r.fitting (w.keepIn id s v) name = some (id, { s with frozen := some v }) := by
      refine fitting_eq_some_iff.2 ⟨src, hsrc, ?_, by cases src <;> exact hfits⟩
      rw [World.slotOf_keepIn hw hslot, if_pos rfl]
    rw [kept_of_fitting hkeeps, if_pos rfl]
  · rw [if_neg hn]
    refine kept_congr (fitting_congr rfl ?_)
    rw [World.slotOf_keepIn hw hslot, if_neg hn]

/-! ### The invariant -/

/-- What is kept agrees with what was recorded. -/
structure Ready (code : Nat → Code) (made : List Provider) (r : Resolver) (past : List Event)
    (w : World) : Prop extends Orderly made r w where
  /-- What a slot keeps was answered by its source. -/
  given : ∀ name id s v, w.slotOf r name = some (id, s) → s.frozen = some v →
    ∃ e : Reading, .read e ∈ past ∧ e.name = name ∧ e.Asks code r s.source ∧ e.value = some v
  /-- A value of a cached source is kept until the name is changed. -/
  holds : ∀ name src, r.sourceOf w name = some src → src.retention = .cached →
    ∀ e ∈ stretch name past, ∀ v, e.value = some v → r.kept w name = some v
  /-- Nothing is kept if the last reading gave no value. -/
  misses : ∀ name, ∀ e ∈ (stretch name past).find? (fun e => !e.nested r), e.value = none →
    r.kept w name = none
  /-- A variable that is being evaluated is described, and nothing is kept for it. -/
  evaluates : ∀ name, w.isEvaluating r name = true →
    (∃ d, r.sourceOf w name = some (.declared (.described d))) ∧ r.kept w name = none
  /-- All readings are as they should be. -/
  justified : ∀ later e earlier, past = later ++ .read e :: earlier → e.Justified code r earlier

namespace Ready

/-- A variable is evaluated only if it is described. -/
theorem isEvaluating_eq_false (hw : Ready code made r past w) (hsrc : r.sourceOf w name = some src)
    (h : ∀ d, src ≠ .declared (.described d)) : w.isEvaluating r name = false := by
  by_contra heval
  obtain ⟨⟨d, hd⟩, -⟩ := hw.evaluates name (by simpa using heval)
  rw [hsrc] at hd
  cases hd
  exact h d rfl

/-! ### Changes that leave slots alone -/

theorem congr (hw : Ready code made r past w) (horderly : r.Orderly made' w')
    (hsrc : ∀ name, r.sourceOf w' name = r.sourceOf w name)
    (hslot : ∀ name, w'.slotOf r name = w.slotOf r name)
    (heval : ∀ name, w'.isEvaluating r name = true → w.isEvaluating r name = true ∨
      (∃ d, r.sourceOf w name = some (.declared (.described d))) ∧ r.kept w name = none) :
    Ready code made' r past w' := by
  have hkept name : r.kept w' name = r.kept w name :=
    kept_congr (fitting_congr (hsrc name) (hslot name))
  refine ⟨horderly, ?_, ?_, ?_, ?_, hw.justified⟩
  · intro name id s v hs hv
    rw [hslot] at hs
    exact hw.given name id s v hs hv
  · intro name src hs
    rw [hsrc] at hs
    rw [hkept]
    exact hw.holds name src hs
  · intro name
    rw [hkept]
    exact hw.misses name
  · intro name h
    rw [hkept, hsrc]
    rcases heval name h with h | h
    · exact hw.evaluates name h
    · exact h

theorem of_spares (hw : Ready code made r past w) (h : w.Spares r w') :
    Ready code made r past w' := by
  refine hw.congr (hw.toOrderly.of_spares h) h.sourceOf h.slotOf fun name hn => .inl ?_
  rwa [World.isEvaluating, h.evaluating] at hn

theorem enter (hw : Ready code made r past w) {d : Mapping.Descriptor}
    (hsrc : r.sourceOf w name = some (.declared (.described d))) (hkept : r.kept w name = none) :
    Ready code made r past (w.enter r name) := by
  refine hw.congr (hw.toOrderly.congr (Nat.le_refl _) rfl rfl fun _ => rfl) (fun _ => rfl)
    (fun _ => rfl) fun n hn => ?_
  simp only [World.isEvaluating, World.enter, List.contains_cons, Bool.or_eq_true] at hn
  rcases hn with hn | hn
  · simp only [beq_iff_eq, Prod.mk.injEq, true_and] at hn
    subst hn
    exact .inr ⟨⟨d, hsrc⟩, hkept⟩
  · exact .inl hn

theorem leave (hw : Ready code made r past w) : Ready code made r past w.leave := by
  refine hw.congr (hw.toOrderly.congr (Nat.le_refl _) rfl rfl fun _ => rfl) (fun _ => rfl)
    (fun _ => rfl) fun n hn => .inl ?_
  simp only [World.isEvaluating, World.leave, List.contains_iff_mem] at hn ⊢
  exact List.mem_of_mem_tail hn

/-! ### Slots that are bound -/

theorem slotted (hw : Ready code made r past w) (hsrc : r.sourceOf w name = some src) :
    Ready code made r past (r.slotted w name src) := by
  unfold Resolver.slotted
  split
  · exact hw
  rename_i hnone
  have hkept := kept_bindSlot hw.toOrderly hsrc (by rw [fitting, hsrc]; exact hnone)
  refine ⟨hw.toOrderly.bindSlot hsrc, ?_, ?_, ?_, ?_, hw.justified⟩
  · intro n id s v hs hv
    rw [World.slotOf_bindSlot hw.toOrderly] at hs
    split at hs
    · -- a fresh slot keeps nothing
      cases hs
      simp at hv
    · exact hw.given n id s v hs hv
  · intro n src' hs
    rw [Resolver.sourceOf_bindSlot] at hs
    rw [hkept]
    exact hw.holds n src' hs
  · intro n
    rw [hkept]
    exact hw.misses n
  · intro n hn
    rw [hkept, Resolver.sourceOf_bindSlot]
    exact hw.evaluates n hn

/-! ### Readings that are recorded -/

/-- What a slot keeps was answered, also when more is recorded. -/
theorem given_cons (hw : Ready code made r past w) (ev : Event) {v : String}
    (hs : w.slotOf r name = some (id, s)) (hv : s.frozen = some v) :
    ∃ e : Reading, .read e ∈ ev :: past ∧ e.name = name ∧ e.Asks code r s.source ∧
      e.value = some v := by
  obtain ⟨e, he, h⟩ := hw.given name id s v hs hv
  exact ⟨e, List.mem_cons_of_mem _ he, h⟩

theorem stretch_cons (e : Reading) (past : List Event) (name : String) :
    stretch name (.read e :: past) =
      if e.name = name then e :: stretch name past else stretch name past := rfl

theorem justified_cons (hw : Ready code made r past w) (he : e.Justified code r past) :
    ∀ later e' earlier, Event.read e :: past = later ++ .read e' :: earlier →
      e'.Justified code r earlier := by
  intro later e' earlier h
  rw [List.cons_eq_append_iff] at h
  rcases h with ⟨rfl, h⟩ | ⟨later, rfl, h⟩
  · cases h
    exact he
  · exact hw.justified later e' earlier h

theorem push (hw : Ready code made r past w) (he : e.Justified code r past)
    (hholds : ∀ src v, r.sourceOf w e.name = some src → src.retention = .cached →
      e.value = some v → r.kept w e.name = some v)
    (hmisses : e.nested r = false → e.value = none → r.kept w e.name = none) :
    Ready code made r (.read e :: past) w := by
  refine ⟨hw.toOrderly, fun _ _ _ _ => hw.given_cons _, ?_, ?_, hw.evaluates, hw.justified_cons he⟩
  · intro name src hs hret e' he' v hv
    rw [stretch_cons] at he'
    split at he'
    · rename_i hn
      subst hn
      rcases List.mem_cons.1 he' with rfl | he'
      · exact hholds src v hs hret hv
      · exact hw.holds _ src hs hret e' he' v hv
    · exact hw.holds _ src hs hret e' he' v hv
  · intro name e' he' hv
    rw [stretch_cons] at he'
    split at he'
    · rename_i hn
      subst hn
      rw [List.find?_cons] at he'
      split at he'
      · rename_i hnested
        cases he'
        exact hmisses (by simpa using hnested) hv
      · exact hw.misses _ e' he' hv
    · exact hw.misses _ e' he' hv

/-- Keeping an answer and recording it. -/
theorem keep (hw : Ready code made r past w) (hfit : r.fitting w e.name = some (id, s))
    (hret : s.retention = .cached) (hfrozen : s.frozen = none)
    (heval : w.isEvaluating r e.name = false) (he : e.Justified code r past)
    (hasks : e.Asks code r s.source) {v : String} (hv : e.value = some v) :
    Ready code made r (.read e :: past) (w.keepIn id s v) := by
  have hslot := slotOf_of_fitting hfit
  have hnone : r.kept w e.name = none := by rw [kept_of_fitting hfit, hfrozen]
  have hself : r.kept (w.keepIn id s v) e.name = some v := by
    rw [kept_keepIn hw.toOrderly hfit, if_pos rfl]
  have hother {n} (hn : e.name ≠ n) : r.kept (w.keepIn id s v) n = r.kept w n := by
    rw [kept_keepIn hw.toOrderly hfit, if_neg hn]
  refine ⟨hw.toOrderly.keepIn hslot hret v, ?_, ?_, ?_, ?_, hw.justified_cons he⟩
  · intro n i t u ht hu
    rw [World.slotOf_keepIn hw.toOrderly hslot] at ht
    split at ht
    · rename_i hn
      cases ht
      cases hu
      exact ⟨e, List.mem_cons_self, hn, hasks, hv⟩
    · exact hw.given_cons _ ht hu
  · intro n src' hs hret' e' he' u hu
    have hs : r.sourceOf w n = some src' := hs
    rw [stretch_cons] at he'
    split at he'
    · rename_i hn
      subst hn
      rcases List.mem_cons.1 he' with rfl | he'
      · rw [hself, ← hv, hu]
      · -- an earlier value would still be kept, and nothing was
        have := hw.holds _ src' hs hret' e' he' u hu
        rw [hnone] at this
        cases this
    · rename_i hn
      rw [hother hn]
      exact hw.holds _ src' hs hret' e' he' u hu
  · intro n e' he' hu
    rw [stretch_cons] at he'
    split at he'
    · -- the last reading that is not nested is this one, and it has a value
      have hnested : e.nested r = false := by
        by_contra h
        have := he.cut (by simpa using h)
        rw [hv] at this
        cases this
      rw [List.find?_cons_of_pos (by simp [hnested])] at he'
      cases he'
      rw [hv] at hu
      cases hu
    · rename_i hn
      rw [hother hn]
      exact hw.misses _ e' he' hu
  · intro n hn
    have hn : w.isEvaluating r n = true := hn
    have hne : e.name ≠ n := by
      rintro rfl
      rw [heval] at hn
      cases hn
    rw [hother hne]
    exact hw.evaluates n hn

/-! ### Names that are changed -/

/-- Registering or taking away a provider begins a new stretch for its name. -/
theorem change (hw : Ready code made r past w) {registry : Table String Provider}
    (hreg : ∀ n p, registry.get? n = some p → p ∈ made)
    (hothers : ∀ n, name ≠ n → registry.get? n = (w.stateOf r).registry.get? n)
    (hidle : ∀ n, w.isEvaluating r n = false) :
    Ready code made r (.changed name :: past)
      (w.withState r { w.stateOf r with registry := registry }) := by
  have hslot n : (w.withState r { w.stateOf r with registry := registry }).slotOf r n =
      w.slotOf r n := by
    rw [World.slotOf, World.stateOf_withState_self]
    rfl
  have hsrc {n} (hn : name ≠ n) :
      r.sourceOf (w.withState r { w.stateOf r with registry := registry }) n =
        r.sourceOf w n := by
    rw [sourceOf, World.stateOf_withState_self, sourceOf]
    dsimp only
    rw [hothers n hn]
  have hkept {n} (hn : name ≠ n) :
      r.kept (w.withState r { w.stateOf r with registry := registry }) n = r.kept w n :=
    kept_congr (fitting_congr (hsrc hn) (hslot n))
  refine ⟨hw.toOrderly.withRegistry hreg, ?_, ?_, ?_, fun n hn => ?_, ?_⟩
  · intro n id s v hs hv
    rw [hslot] at hs
    exact hw.given_cons _ hs hv
  · intro n src hs hret e he v hv
    rw [stretch] at he
    split at he
    · cases he
    · rename_i hn
      rw [hsrc hn] at hs
      rw [hkept hn]
      exact hw.holds n src hs hret e he v hv
  · intro n e he hv
    rw [stretch] at he
    split at he
    · cases he
    · rename_i hn
      rw [hkept hn]
      exact hw.misses n e he hv
  · have hn : w.isEvaluating r n = true := hn
    rw [hidle n] at hn
    cases hn
  · intro later e earlier h
    rw [List.cons_eq_append_iff] at h
    rcases h with ⟨-, h⟩ | ⟨later, rfl, h⟩
    · cases h
    · exact hw.justified later e earlier h

/-- In the beginning nothing is known. -/
theorem new (hw : w.resolvers.get? r.id = none) (hidle : ∀ n, w.isEvaluating r n = false) :
    Ready code [] r [] w := by
  have hstate : w.stateOf r = default := by rw [World.stateOf, hw, Option.getD_none]
  have hslot n : w.slotOf r n = none := by
    rw [World.slotOf, hstate]
    rfl
  refine ⟨⟨?_, ?_, ?_, ?_, ?_, ?_⟩, ?_, ?_, ?_, fun n hn => ?_, ?_⟩
  · simp
  · simp
  · intro name p hp
    rw [hstate] at hp
    cases hp
  · intro name id hid
    rw [hstate] at hid
    cases hid
  · intro name name' id hid
    rw [hstate] at hid
    cases hid
  · intro name id s hs
    rw [hslot] at hs
    cases hs
  · intro name id s v hs
    rw [hslot] at hs
    cases hs
  · intro name src _ _ e he
    cases he
  · intro name e he
    cases he
  · rw [hidle n] at hn
    cases hn
  · intro later e earlier h
    simp at h

end Ready

end LateBinding.Resolver
