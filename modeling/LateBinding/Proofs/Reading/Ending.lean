import LateBinding.Proofs.Reading.Asking
import LateBinding.Proofs.Reading.Tidy

/-!
# Readings come to an end

While a description is evaluated its variable is not evaluated again, so evaluations nest no deeper
than there are variables with descriptions (`Resolver.pending`).  If bodies return and do not call
the resolver, then so does reading a variable, and what was under way before it is restored
(`Resolver.endsAt`).  The readings that are nested in a reading are tidy as well
(`Resolver.Tidy.of_comesToRead`).
-/

namespace LateBinding.Resolver

variable {code : Nat → Code} {r : Resolver} {w w' : World} {name : String} {src : SlotSource}
  {d : Mapping.Descriptor} {id : Identity} {s : Slot}

/-! ### What is left to be evaluated -/

/-- The variables with descriptions that are not being evaluated. -/
def pending (r : Resolver) (w : World) : List String :=
  r.described.filter fun name => !w.isEvaluating r name

theorem pending_congr (h : w'.evaluating = w.evaluating) : r.pending w' = r.pending w :=
  List.filter_congr fun name _ => by rw [isEvaluating_congr h]

theorem length_pending_le (r : Resolver) (w : World) :
    (r.pending w).length ≤ r.described.length :=
  List.length_filter_le _ _

theorem mem_pending (hd : r.document.declarations.get? name = some (.described d))
    (idle : w.isEvaluating r name = false) : name ∈ r.pending w :=
  List.mem_filter.2 ⟨mem_described hd, by rw [idle]; rfl⟩

/-- Entering the evaluation of a variable leaves fewer. -/
theorem length_pending_enter (hname : name ∈ r.pending w) :
    (r.pending (w.enter r name)).length < (r.pending w).length := by
  -- what is evaluated already stays so, and one more name joins it
  have split : r.pending (w.enter r name) = (r.pending w).filter fun n => !decide (n = name) := by
    unfold pending
    rw [List.filter_filter]
    refine List.filter_congr fun n _ => ?_
    simp [World.isEvaluating, World.enter]
  rw [split, List.length_filter_lt_length_iff_exists]
  exact ⟨name, hname, by simp⟩

/-! ### Readings that return -/

/-- Readings at a level return where fewer variables are left to be evaluated, and restore what was
under way. -/
def EndsAt (code : Nat → Code) (r : Resolver) (k : Nat) : Prop :=
  ∀ w name, r.Tidy w → (r.pending w).length < k →
    ((Host.around code k).valueOf r name).Ends w fun _ w' => r.Restores w w'

/-- Looking names up one after the other returns if each lookup does. -/
theorem Tidy.ends_lookups {α : Type} {k : Nat} (ih : EndsAt code r k) (x : Lookups α)
    (hw : r.Tidy w) (hk : (r.pending w).length < k) :
    (x.run ((Host.around code k).valueOf r)).Ends w fun _ w' => r.Restores w w' := by
  induction x generalizing w with
  | done a => exact ⟨a, w, rfl, hw.restores_self⟩
  | ask name next ihx =>
    refine (ih w name hw hk).bind fun v w₁ hw₁ => ?_
    exact (ihx v hw₁.tidy (by rwa [pending_congr hw₁.evaluating])).mono fun _ _ => hw₁.trans

theorem Tidy.ends_substitute {k : Nat} (ih : EndsAt code r k) (hw : r.Tidy w)
    (hk : (r.pending w).length < k) (template : String) :
    (r.substitute (.around code k) template).Ends w fun _ w' => r.Restores w w' := by
  rw [← Lookups.run_substitute]
  exact hw.ends_lookups ih _ hk

/-- Evaluating a description returns if resolving its template does. -/
theorem Tidy.ends_evaluate {h : Host} (hcode : Code.Spares r h.run) (hret : Code.Returns h.run)
    (hw : r.Tidy w)
    (ht : ∀ t ∈ d.template?, (r.substitute h t).Ends w fun _ w' => r.Restores w w') :
    (r.evaluate h d).Ends w fun _ w' => r.Restores w w' := by
  obtain ⟨o, w', ho⟩ := returns_evaluate hret (w := w) (d := d) fun t h => by
    obtain ⟨u, w₁, hu, -⟩ := ht t h
    exact ⟨u, w₁, hu⟩
  refine ⟨o, w', ho, ?_⟩
  obtain ⟨w₁, hopened, hspares⟩ := spares_of_evaluate hcode ho
  have restores : r.Restores w w₁ := by
    cases htemplate : d.template? with
    | none =>
      rw [htemplate] at hopened
      cases hopened
      exact hw.restores_self
    | some t =>
      rw [htemplate] at hopened
      obtain ⟨u, hu⟩ := hopened
      obtain ⟨u', w₂, hu', restores⟩ := ht t htemplate
      cases hu.symm.trans hu'
      exact restores
  exact restores.trans (restores.tidy.of_spares hspares)

/-- Asking for a description returns, if what it may nest in it does. -/
theorem Tidy.ends_described {k : Nat} (hcode : ∀ k, (code k).Spares r)
    (hret : ∀ k, (code k).Returns) (ih : EndsAt code r k) (hw : r.Tidy w)
    (hk : (r.pending w).length ≤ k) (idle : w.isEvaluating r name = false)
    (waits : r.Waits w name) (hd : r.document.declarations.get? name = some (.described d)) :
    (r.guarded name (r.evaluate (.around code k) d)).Ends w fun _ w' => r.Restores w w' ∧
      (w'.stateOf r).slots.get? name = (w.stateOf r).slots.get? name := by
  -- one variable fewer is left for what is nested
  have fewer := length_pending_enter (mem_pending hd idle)
  have entered := hw.enter idle waits
  obtain ⟨o, w₁, ho, restores⟩ := entered.ends_evaluate (d := d)
    (h := .around code k) (by rw [Host.run_around]; exact hcode k)
    (by rw [Host.run_around]; exact hret k)
    fun t _ => entered.ends_substitute ih (Nat.lt_of_lt_of_le fewer hk) t
  exact ⟨o, w₁.leave, (guarded_eq_done _ idle).2 ⟨w₁, ho, rfl⟩, restores.leave,
    restores.slots name (isEvaluating_enter.2 (.inl rfl))⟩

/-! ### Slots that are used -/

/-- When the variable is read, this slot is used, in the world `w₁`, and its value is to be
computed. -/
structure Uses (r : Resolver) (name : String) (w : World) (id : Identity) (s : Slot) (w₁ : World) :
    Prop where
  slot : r.slotFor name w = .done (some (id, s)) w₁
  computes : ∀ compute, s.value id compute w₁ = (compute >>= s.retain id) w₁

theorem Uses.valueOf_eq {w₁ : World} (u : r.Uses name w id s w₁) (h : Host) :
    r.valueOf h name w = (r.ask h name s.source >>= s.retain id) w₁ := by
  rw [Resolver.valueOf_eq, Act.bind_apply, u.slot]
  exact u.computes _

/-- Reading a variable computes the value of its slot, or gives a value at once, or none if there is
nothing to ask. -/
theorem valueOf_cases (r : Resolver) (name : String) (w : World) :
    (r.sourceOf w name = none ∧ ∀ h, r.valueOf h name w = .done none w) ∨
      ∃ src, r.sourceOf w name = some src ∧
        ((∃ v, ∀ h, r.valueOf h name w = .done (some v) (r.slotted w name src)) ∨
          ∃ id s, r.Uses name w id s (r.slotted w name src)) := by
  cases hsrc : r.sourceOf w name with
  | none =>
    refine .inl ⟨rfl, fun h => ?_⟩
    rw [Resolver.valueOf_eq, Act.bind_apply, slotFor_eq, hsrc]
    rfl
  | some src =>
    refine .inr ⟨src, rfl, ?_⟩
    obtain ⟨id, s, hslot⟩ := r.exists_slotFor hsrc
    rcases s.value_cases id (r.slotted w name src) with ⟨v, kept⟩ | ⟨computes, -⟩
    · refine .inl ⟨v, fun h => ?_⟩
      rw [Resolver.valueOf_eq, Act.bind_apply, hslot]
      exact kept _
    · exact .inr ⟨id, s, hslot, computes⟩

/-- What is to be computed for a slot that is to keep it is not kept there. -/
theorem Uses.unkept {w₁ : World} (u : r.Uses name w id s w₁) (hc : s.retention = .cached) :
    s.frozen = none := by
  have hs := (World.slotOf_eq_some_iff.1 (slotOf_of_slotFor u.slot)).2
  rcases s.value_cases id w₁ with ⟨v, kept⟩ | ⟨-, unkept⟩
  · cases (u.computes .blocked).symm.trans (kept .blocked)
  · have none_kept := unkept hc
    rwa [hs, Option.bind_some] at none_kept

namespace Tidy

variable {w₁ : World}

/-- The slot of a variable that is being evaluated is bound to its description. -/
theorem source_of_isEvaluating (hw : r.Tidy w) (hslot : w.slotOf r name = some (id, s))
    (h : w.isEvaluating r name = true) : ∃ d, s.source = .declared (.described d) := by
  obtain ⟨d, id', s', hsrc, hslot', hdeclared, -⟩ := hw.waits name h
  cases hslot.symm.trans hslot'
  cases hs : s.source with
  | registered p =>
    rw [Slot.isDeclared, hs] at hdeclared
    cases hdeclared
  | declared e =>
    cases (hw.declared name id s e hslot hs).symm.trans (declared_of_sourceOf hsrc)
    exact ⟨d, rfl⟩

theorem restores_of_slotFor (hw : r.Tidy w) (h : r.slotFor name w = .done (some (id, s)) w₁) :
    r.Restores w w₁ := by
  obtain ⟨src, hsrc, rfl, -⟩ := fits_of_slotFor h
  exact hw.slotted hsrc

/-- A slot that is used for the description of a variable waits for the value. -/
theorem waits_of_uses (hw : r.Tidy w) (u : r.Uses name w id s w₁)
    (hs : s.source = .declared (.described d)) :
    r.document.declarations.get? name = some (.described d) ∧ r.Waits w₁ name := by
  have entered := slotOf_of_slotFor u.slot
  have declared := (hw.restores_of_slotFor u.slot).tidy.declared name id s _ entered hs
  obtain ⟨src, hsrc, rfl, hfits⟩ := fits_of_slotFor u.slot
  refine ⟨declared, d, id, s, ?_, entered, by rw [Slot.isDeclared, hs], u.unkept⟩
  rw [sourceOf_congr (r.registry_slotted w name src) name, hsrc]
  cases src with
  | registered p =>
    rw [Slot.fits, Slot.isBoundTo, hs] at hfits
    cases hfits
  | declared e =>
    cases (declared_of_sourceOf hsrc).symm.trans declared
    rfl

/-- Asking the source of a slot that is used returns, if what it may nest in it does; the variable
keeps its slot. -/
theorem ends_ask {k : Nat} (hcode : ∀ k, (code k).Spares r) (hret : ∀ k, (code k).Returns)
    (ih : EndsAt code r k) (hw : r.Tidy w) (hk : (r.pending w).length ≤ k)
    (u : r.Uses name w id s w₁) (idle : w₁.isEvaluating r name = false) :
    (r.ask (.around code k) name s.source).Ends w₁ fun _ w' => r.Restores w₁ w' ∧
      (w'.stateOf r).slots.get? name = (w₁.stateOf r).slots.get? name := by
  have slotted := hw.restores_of_slotFor u.slot
  cases hs : s.source with
  | registered p =>
    have hrun : Code.Spares r (Host.around code k).run := by
      rw [Host.run_around]
      exact hcode k
    refine .of_returns (returns_get (by rw [Host.run_around]; exact hret k) p) fun o w' h => ?_
    have hspares : w₁.Spares r w' :=
      (keeps_get (.free fun _ => True) (runs_spares hrun w₁) p (.refl r w₁) h).1
    exact ⟨slotted.tidy.of_spares hspares, by rw [hspares.slotIds]⟩
  | declared e =>
    cases e with
    | literal text => exact ⟨some text, w₁, rfl, slotted.tidy.restores_self, rfl⟩
    | described d =>
      obtain ⟨declared, waits⟩ := hw.waits_of_uses u hs
      exact slotted.tidy.ends_described hcode hret ih
        (by rw [pending_congr slotted.evaluating]; exact hk) idle waits declared

/-- Reading a variable returns, if what it may nest in it does. -/
theorem ends_valueOf {k : Nat} (hcode : ∀ k, (code k).Spares r) (hret : ∀ k, (code k).Returns)
    (ih : EndsAt code r k) (hw : r.Tidy w) (hk : (r.pending w).length ≤ k) (name : String) :
    (r.valueOf (.around code k) name).Ends w fun _ w' => r.Restores w w' := by
  rcases r.valueOf_cases name w with ⟨-, h⟩ | ⟨src, hsrc, ⟨v, h⟩ | ⟨id, s, u⟩⟩
  · exact ⟨none, w, h _, hw.restores_self⟩
  · exact ⟨some v, _, h _, hw.slotted hsrc⟩
  have slotted := hw.slotted hsrc
  have entered := slotOf_of_slotFor u.slot
  cases heval : (r.slotted w name src).isEvaluating r name with
  | true =>
    -- the reading is cut
    obtain ⟨d, hs⟩ := slotted.tidy.source_of_isEvaluating entered heval
    have cut : r.ask (.around code k) name s.source (r.slotted w name src) =
        .done none (r.slotted w name src) := by
      rw [hs]
      exact guarded_eq_of_evaluating _ heval
    refine ⟨none, r.slotted w name src, ?_, slotted⟩
    rw [u.valueOf_eq, Act.bind_apply, cut]
    rfl
  | false =>
    have asked := hw.ends_ask hcode hret ih hk u heval
    have retained := asked.bind (f := s.retain id)
      (R := fun _ w' => r.Restores (r.slotted w name src) w') fun o w₁ hw₁ => by
        obtain ⟨restores, same⟩ := hw₁
        have hid := (World.slotOf_eq_some_iff.1 entered).1
        exact (restores.tidy.retain (same.trans hid)
          ((isEvaluating_congr restores.evaluating).trans heval) s o).mono fun _ _ => restores.trans
    obtain ⟨v, w', hv, restores⟩ := retained
    exact ⟨v, w', by rw [u.valueOf_eq, hv], slotted.trans restores⟩

end Tidy

/-- Reading a variable returns and restores what was under way, if bodies return and do not call the
resolver, and evaluations may nest as deep as there are variables left to be evaluated. -/
theorem endsAt (hcode : ∀ k, (code k).Spares r) (hret : ∀ k, (code k).Returns) (k : Nat) :
    EndsAt code r k := by
  induction k with
  | zero =>
    intro w name _ hk
    exact absurd hk (Nat.not_lt_zero _)
  | succ k ih =>
    intro w name hw hk
    exact hw.ends_valueOf hcode hret ih (Nat.le_of_lt_succ hk) name

end LateBinding.Resolver
