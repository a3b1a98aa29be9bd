import LateBinding.Proofs.Reading.Asking
import LateBinding.Proofs.Reading.Ready

/-!
# One reading

Reading a variable, with all that is nested in it, preserves the invariant (`Ready.read`): either
a value that is kept is recalled (`Ready.recall`), or the source is asked (`Ready.ask`) and its
answer is recorded (`Ready.answer`).  What is nested is read at the level below, so readings
preserve the invariant at every level (`Resolver.preservedAt`).
-/

namespace LateBinding.Resolver

variable {code : Nat → Code} {made : List Provider} {r : Resolver} {past : List Event}
  {w w' : World} {name : String} {src : SlotSource} {id : Identity} {s : Slot} {e : Reading}

/-! ### What is nested -/

theorem opened_of_sourceOf_eq_none (h : r.sourceOf w name = none) : r.opened w name = none := by
  rw [opened, h]

theorem opened_of_kept {v : String} (h : r.kept w name = some v) : r.opened w name = none := by
  rw [opened]
  split
  · rfl
  · rw [if_pos (by rw [h]; rfl)]

theorem opened_of_not_kept (hsrc : r.sourceOf w name = some src) (h : r.kept w name = none) :
    r.opened w name = r.opens (r.slotted w name src) name src := by
  rw [opened, hsrc]
  dsimp only
  rw [if_neg (by rw [h]; simp)]

/-- Readings at a level preserve the invariant, and leave slots where they are. -/
def PreservedAt (code : Nat → Code) (made : List Provider) (r : Resolver) (k : Nat) : Prop :=
  ∀ ⦃past w name v w'⦄, Ready code made r past w →
    (Host.around code k).valueOf r name w = .done v w' →
      Ready code made r (r.record code k name w past) w' ∧ w.Settles r w'

/-- Looking names up one after the other does what each lookup does. -/
theorem Ready.run_lookups {α : Type} {k : Nat} (ih : PreservedAt code made r k)
    (x : Lookups α) (hw : Ready code made r past w) {a : α}
    (hx : x.run ((Host.around code k).valueOf r) w = .done a w') :
    Ready code made r (x.record ((Host.around code k).valueOf r) (r.record code k) w past) w' ∧
      w.Settles r w' := by
  induction x generalizing past w with
  | done a =>
    cases hx
    exact ⟨hw, .refl r _⟩
  | ask name next ihx =>
    obtain ⟨v, w₁, hv, hx⟩ := Act.bind_eq_done.1 hx
    obtain ⟨hw₁, hsettles⟩ := ih hw hv
    obtain ⟨hw', hsettles'⟩ := ihx v hw₁ hx
    rw [Lookups.record, hv]
    exact ⟨hw', hsettles.trans hsettles'⟩

/-- Resolving the template that a description names, if it names one. -/
theorem Ready.run_template {k : Nat} (ih : PreservedAt code made r k)
    (hw : Ready code made r past w) {template : Option String}
    (h : r.Substitutes (.around code k) w template w') :
    Ready code made r
        (r.recordOpened (.around code k) (r.record code k) (template.map fun t => (t, w)) past) w' ∧
      w.Settles r w' := by
  cases template with
  | none =>
    cases h
    exact ⟨hw, .refl r _⟩
  | some t =>
    obtain ⟨u, hu⟩ := h
    rw [← Lookups.run_substitute] at hu
    exact Ready.run_lookups ih _ hw hu

/-- Asking for a description for which nothing is kept keeps nothing for it. -/
theorem Ready.ask_described {k : Nat} {d : Mapping.Descriptor}
    (hrun : Code.Spares r (Host.around code k).run) (ih : PreservedAt code made r k)
    (hw : Ready code made r past w) (hsrc : r.sourceOf w name = some (.declared (.described d)))
    (hkept : r.kept w name = none) {o : Option String}
    (ho : r.guarded name (r.evaluate (.around code k) d) w = .done o w') :
    Ready code made r
        (r.recordOpened (.around code k) (r.record code k)
          (r.opens w name (.declared (.described d))) past) w' ∧
      w.Settles r w' ∧ r.kept w' name = none ∧ (w.isEvaluating r name = true → o = none) := by
  rw [opens]
  cases heval : w.isEvaluating r name with
  | true =>
    -- the reading is nested in an evaluation of the same description
    rw [guarded_eq_of_evaluating _ heval] at ho
    cases ho
    exact ⟨hw, .refl r w, hkept, fun _ => rfl⟩
  | false =>
    obtain ⟨w₂, hd, rfl⟩ := (guarded_eq_done _ heval).1 ho
    obtain ⟨w₁, hopened, hspares⟩ := spares_of_evaluate hrun hd
    -- the template is resolved while the description counts as being evaluated
    obtain ⟨hw₁, hsettles⟩ := (hw.enter hsrc hkept).run_template ih hopened
    have hw₂ := hw₁.of_spares hspares
    have hsettles₂ := hsettles.trans (.of_spares hspares)
    have hstill : w₂.isEvaluating r name = true := by
      rw [World.isEvaluating, hsettles₂.evaluating]
      simp [World.enter]
    exact ⟨hw₂.leave, hsettles₂.of_enter, (hw₂.evaluates name hstill).2, by simp⟩

/-- Asking a source for which nothing is kept keeps nothing for it. -/
theorem Ready.ask {k : Nat} (hcode : ∀ k, (code k).Spares r) (ih : PreservedAt code made r k)
    (hw : Ready code made r past w) (hsrc : r.sourceOf w name = some src)
    (hkept : r.kept w name = none) {o : Option String}
    (ho : r.ask (.around code k) name src w = .done o w') :
    Ready code made r
        (r.recordOpened (.around code k) (r.record code k) (r.opens w name src) past) w' ∧
      w.Settles r w' ∧ r.kept w' name = none ∧ (w.isEvaluating r name = true → o = none) := by
  have hrun : Code.Spares r (Host.around code k).run := by
    rw [Host.run_around]
    exact hcode k
  cases src with
  | registered p =>
    have hspares : w.Spares r w' :=
      (keeps_get (.free fun _ => True) (runs_spares hrun w) p (.refl r w) ho).1
    have hnested := hw.isEvaluating_eq_false hsrc nofun
    refine ⟨hw.of_spares hspares, .of_spares hspares, ?_, fun h => ?_⟩
    · rw [kept_congr (fitting_congr (hspares.sourceOf name) (hspares.slotOf name)), hkept]
    · rw [hnested] at h
      cases h
  | declared d =>
    cases d with
    | literal text =>
      cases ho
      have hnested := hw.isEvaluating_eq_false hsrc nofun
      refine ⟨hw, .refl r w, hkept, fun h => ?_⟩
      rw [hnested] at h
      cases h
    | described d => exact hw.ask_described hrun ih hsrc hkept ho

/-- A value that is kept is recalled. -/
theorem Ready.recall {k : Nat} {x : String} (hw : Ready code made r past w)
    (hsrc : r.sourceOf w name = some src) (hslotFor : r.slotFor name w = .done (some (id, s)) w)
    (hfit : r.fitting w name = some (id, s)) (hs : s.source = src) (hx : s.frozen = some x) :
    Ready code made r (.read ⟨name, k, w, some x⟩ :: past) w := by
  have hslot := slotOf_of_fitting hfit
  have hproper := hw.proper _ _ _ hslot
  have hkept : r.kept w name = some x := by rw [kept_of_fitting hfit, hx]
  have hvalue := hw.toOrderly.value_of_fitting hfit hx
  have recalls : Reading.Recalls r ⟨name, k, w, some x⟩ src x := ⟨id, s, hslotFor, hs, rfl, hvalue⟩
  -- nothing is kept for a variable that is being evaluated
  have hnested : Reading.nested r ⟨name, k, w, some x⟩ = false := by
    by_contra h
    obtain ⟨-, hnone⟩ := hw.evaluates name (by simpa [Reading.nested] using h)
    rw [hkept] at hnone
    cases hnone
  refine hw.push ⟨⟨w, ?_⟩, ?_, ?_, ?_, ?_, ?_, ?_⟩ ?_ ?_
  · rw [valueOf_eq, Act.bind_apply, hslotFor]
    exact hvalue _
  · intro h
    rw [hsrc] at h
    cases h
  · intro h
    rw [hnested] at h
    cases h
  · -- a lazy slot keeps nothing
    intro src' h _ hlazy
    rw [hsrc] at h
    cases h
    rw [← hs, ← hproper.retention] at hlazy
    rw [hproper.lazy hlazy] at hx
    cases hx
  · intro src' h _ _
    rw [hsrc] at h
    cases h
    obtain ⟨e', he', hname, hasks, hv⟩ := hw.given _ _ _ _ hslot hx
    exact .inr ⟨x, recalls, e', he', hname, hs ▸ hasks, hv⟩
  · -- an earlier value is the one that is kept
    intro src' h _ hcached e' he' u hu
    have held := hw.holds name src' h hcached e' he' u hu
    rw [hkept] at held
    cases held
    rw [hsrc] at h
    cases h
    exact recalls
  · -- after a reading without a value nothing would be kept
    intro src' h _ _ e' he' hnone
    have missed := hw.misses name e' he' hnone
    rw [hkept] at missed
    cases missed
  · intro src' u _ _ hu
    rw [← hu]
    exact hkept
  · intro _ h
    cases h

/-- A reading in which the source is asked is justified, if nothing is kept when it has answered. -/
theorem Ready.justified_of_asks (hw : Ready code made r past w)
    (gives : ∃ w', r.valueOf (.around code e.level) e.name e.before = .done e.value w')
    (hsrc : r.sourceOf e.before e.name = some src) (hsrc' : r.sourceOf w e.name = some src)
    (hkept : r.kept w e.name = none) (hasks : e.Asks code r src)
    (hcut : e.nested r = true → e.value = none) : e.Justified code r past := by
  refine ⟨gives, ?_, hcut, ?_, ?_, ?_, ?_⟩
  · intro h
    rw [hsrc] at h
    cases h
  · intro src' h _ _
    rw [hsrc] at h
    cases h
    exact hasks
  · intro src' h _ _
    rw [hsrc] at h
    cases h
    exact .inl hasks
  · intro src' h _ hcached e' he' u hu
    rw [hsrc, ← hsrc'] at h
    have held := hw.holds e.name src' h hcached e' he' u hu
    rw [hkept] at held
    cases held
  · intro src' h _ _ _ _ _
    rw [hsrc] at h
    cases h
    exact hasks

/-- What a source answered is recorded, and is kept if it is to be kept. -/
theorem Ready.answer (hw : Ready code made r past w) (he : e.Justified code r past)
    (hasks : e.Asks code r src) (hfit : r.fitting w e.name = some (id, s)) (hs : s.source = src)
    (hfrozen : s.frozen = none) (heval : w.isEvaluating r e.name = e.nested r) {t : Slot}
    (ht : t.retention = s.retention) (hv : t.retain id e.value w = .done e.value w') :
    Ready code made r (.read e :: past) w' ∧ w.Settles r w' := by
  have hslot := slotOf_of_fitting hfit
  have hid := get?_of_fitting hfit
  have hsrc := hw.toOrderly.source_of_fitting hfit
  have hproper := hw.proper _ _ _ hslot
  obtain ⟨-, ⟨rfl, hnone⟩ | ⟨x, hx, hcached, rfl⟩⟩ := Slot.retain_eq_done hid hfrozen hv
  · refine ⟨hw.push he ?_ fun _ _ => ?_, .refl r _⟩
    · intro src' u h hcached hu
      rw [hsrc] at h
      cases h
      rw [ht, hproper.retention] at hnone
      rw [hnone hcached] at hu
      cases hu
    · rw [kept_of_fitting hfit, hfrozen]
  · refine ⟨hw.keep hfit (ht ▸ hcached) hfrozen ?_ he (hs ▸ hasks) hx, .keepIn hw.toOrderly hslot x⟩
    rw [heval]
    by_contra h
    have := he.cut (by simpa using h)
    rw [hx] at this
    cases this

/-- Reading a variable for which nothing is kept asks the source, and records what it answers. -/
theorem Ready.read_asked {k : Nat} (hcode : ∀ k, (code k).Spares r)
    (ih : PreservedAt code made r k) (hw : Ready code made r past w)
    (hsrc : r.sourceOf w name = some src)
    (hslotFor : r.slotFor name w = .done (some (id, s)) (r.slotted w name src))
    (hfit : r.fitting (r.slotted w name src) name = some (id, s)) (hs : s.source = src)
    (hfrozen : s.frozen = none) {v : Option String}
    (gives : ∃ w', r.valueOf (.around code k) name w = .done v w')
    (hv : s.value id (r.ask (.around code k) name src) (r.slotted w name src) = .done v w') :
    Ready code made r
        (.read ⟨name, k, w, v⟩ :: r.recordOpened (.around code k) (r.record code k)
          (r.opens (r.slotted w name src) name src) past) w' ∧
      w.Settles r w' := by
  have hslotted := hw.slotted hsrc
  have hsettles := World.Settles.slotted hw.toOrderly hsrc
  have hid := get?_of_fitting hfit
  have hvalue compute : s.value id compute (r.slotted w name src) =
      (compute >>= s.retain id) (r.slotted w name src) :=
    Slot.value_eq_of_not_frozen (by rw [hid]; exact hfrozen) s compute
  obtain ⟨o, w₂, ho, hv⟩ := Act.bind_eq_done.1 ((hvalue _).symm.trans hv)
  have hkept : r.kept (r.slotted w name src) name = none := by rw [kept_of_fitting hfit, hfrozen]
  obtain ⟨hw₂, hsettles₂, hkept₂, hcut⟩ :=
    hslotted.ask hcode ih ((hsettles.sourceOf name).trans hsrc) hkept ho
  -- the source may have been asked in depth, but the slot is still the one that is used
  obtain ⟨t, hfit₂, ht⟩ := hsettles₂.fitting _ _ _ hfit
  have htfrozen : t.frozen = none := by rw [← kept_of_fitting hfit₂, hkept₂]
  have hretention : s.retention = t.retention := by
    rw [(hslotted.proper _ _ _ (slotOf_of_fitting hfit)).retention,
      (hw₂.proper _ _ _ (slotOf_of_fitting hfit₂)).retention, ht]
  obtain ⟨rfl, -⟩ := Slot.retain_eq_done (get?_of_fitting hfit₂) htfrozen hv
  have hsettled := hsettles.trans hsettles₂
  have hasks : Reading.Asks code r ⟨name, k, w, v⟩ src :=
    ⟨id, s, _, w₂, hslotFor, hs, hvalue, ho⟩
  have hjust := hw₂.justified_of_asks gives hsrc ((hsettled.sourceOf name).trans hsrc) hkept₂ hasks
    fun h => hcut ((hsettles.isEvaluating name).trans h)
  obtain ⟨hw', hsettles'⟩ := hw₂.answer hjust hasks hfit₂ (ht.trans hs) htfrozen
    (hsettled.isEvaluating name) hretention hv
  exact ⟨hw', hsettled.trans hsettles'⟩

/-- Reading a variable, and recording it, preserves the invariant. -/
theorem Ready.read {k : Nat} (hcode : ∀ k, (code k).Spares r) (ih : PreservedAt code made r k)
    (hw : Ready code made r past w) {v : Option String}
    (hv : r.valueOf (.around code k) name w = .done v w') :
    Ready code made r (r.record code (k + 1) name w past) w' ∧ w.Settles r w' := by
  have gives : ∃ w', r.valueOf (.around code k) name w = .done v w' := ⟨w', hv⟩
  rw [record, hv]
  dsimp only
  rw [valueOf_eq] at hv
  obtain ⟨used, w₁, hused, hv⟩ := Act.bind_eq_done.1 hv
  cases hsrc : r.sourceOf w name with
  | none =>
    rw [slotFor_eq, hsrc] at hused
    cases hused
    cases hv
    have hkept : r.kept w name = none := kept_of_sourceOf_eq_none hsrc
    rw [opened_of_sourceOf_eq_none hsrc]
    refine ⟨hw.push ?_ ?_ fun _ _ => hkept, .refl r w⟩
    · refine ⟨gives, fun _ => rfl, fun _ => rfl, ?_, ?_, ?_, ?_⟩ <;> intro src h <;>
        simp [hsrc] at h
    · intro src x h
      simp [hsrc] at h
  | some src =>
    obtain ⟨id, s, hslotFor, hfit, hs, hfrozen, hsame⟩ := hw.toOrderly.slotFor hsrc
    rw [hslotFor] at hused
    cases hused
    cases hx : s.frozen with
    | some x =>
      rw [hx] at hfrozen
      -- a slot that keeps a value was there before
      rw [hsame (by simp [hx])] at hslotFor hfit hv
      rw [opened_of_kept hfrozen.symm]
      cases (hw.toOrderly.value_of_fitting hfit hx _).symm.trans hv
      exact ⟨hw.recall hsrc hslotFor hfit hs hx, .refl r w⟩
    | none =>
      rw [hx] at hfrozen
      rw [opened_of_not_kept hsrc hfrozen.symm]
      subst hs
      exact hw.read_asked hcode ih hsrc hslotFor hfit rfl hx gives hv

/-- Readings preserve the invariant at every level. -/
theorem preservedAt (hcode : ∀ k, (code k).Spares r) (made : List Provider) (k : Nat) :
    PreservedAt code made r k := by
  induction k with
  | zero =>
    intro past w name v w' _ hv
    cases hv
  | succ k ih =>
    intro past w name v w' hw hv
    exact hw.read hcode ih hv

end LateBinding.Resolver
