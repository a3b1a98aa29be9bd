import LateBinding.Proofs.Evaluation.Names
import LateBinding.Proofs.Reading.History

/-!
# Evaluating a description

Evaluating a description resolves the template of the class that it names, if it names one, and
does nothing else to the resolver as long as bodies spare it (`Resolver.spares_of_evaluate`).  It
returns if resolving this template does, as long as bodies return (`Resolver.returns_evaluate`).
-/

namespace LateBinding.Resolver

variable {r : Resolver} {w w' : World} {h : Host}

/-- The class of a template is looked up under what the template resolves to. -/
theorem describedClass_eq (h : Host) (r : Resolver) (template : String) :
    r.describedClass h template = r.substitute h template >>= r.classNamed := by
  have found : (r.resolveClass h template none).run = r.substitute h template >>= fun u =>
      r.classNamed u >>= fun o => (classFound template u o).run :=
    (Attempt.run_liftM_bind_eq _ _).trans
      (congrArg (r.substitute h template >>= ·) (funext fun _ => Attempt.run_liftM_bind_eq _ _))
  rw [describedClass, found]
  simp only [bind_assoc]
  congr 1
  funext u
  -- that nothing is found is a failure, which is caught
  conv_rhs => rw [← bind_pure (r.classNamed u)]
  congr 1
  funext o
  cases o <;> rfl

/-! ### What is spared -/

/-- Resolving a template, if there is one, leads from one world to the other. -/
def Substitutes (r : Resolver) (h : Host) (w : World) : Option String → World → Prop
  | some t, w₁ => ∃ u, r.substitute h t w = .done u w₁
  | none, w₁ => w₁ = w

/-- That a resolver has been spared since some world is stable. -/
theorem stable_spares (r : Resolver) (w : World) :
    Stable (.free fun _ => True) (fun w' => w.Spares r w') :=
  .of_spares r fun _ _ h hw => hw.trans h

section Asking

variable (hcode : Code.Spares r h.run)

include hcode

theorem runs_spares (w : World) : h.Runs (.free fun _ => True) (fun w' => w.Spares r w') :=
  fun body receiver args _ _ _ _ _ hw hx =>
    ⟨hw.trans (hcode body receiver args _ _ _ hx), fun _ _ => trivial⟩

omit hcode in
theorem spares_of_describedClass {t : String} {o : Option (TypeEntry Value)}
    (hx : r.describedClass h t w = .done o w') :
    ∃ w₁, (∃ u, r.substitute h t w = .done u w₁) ∧ w₁.Spares r w' := by
  rw [describedClass_eq] at hx
  obtain ⟨u, w₁, hu, hx⟩ := Act.bind_eq_done.1 hx
  exact ⟨w₁, ⟨u, hu⟩, (r.keeps_classNamed (stable_spares r w₁).noting u (.refl r w₁) hx).1⟩

omit hcode in
theorem spares_of_asked_class {f : TypeEntry Value → Act (Option String)} {t : String}
    {o : Option String}
    (hf : ∀ c (w : World), Act.Leads (fun w' => w.Spares r w' ∧ w'.Caches c)
      (fun w' => w.Spares r w') (fun _ => True) (f c))
    (hx : (do
      match ← r.describedClass h t with
      | some c => f c
      | none => return none : Act (Option String)) w = .done o w') :
    ∃ w₁, (∃ u, r.substitute h t w = .done u w₁) ∧ w₁.Spares r w' := by
  obtain ⟨found, w₂, hfound, hx⟩ := Act.bind_eq_done.1 hx
  obtain ⟨w₁, hu, hw₂⟩ := spares_of_describedClass hfound
  refine ⟨w₁, hu, hw₂.trans ?_⟩
  cases found with
  | none =>
    cases hx
    exact .refl r _
  | some c => exact (hf c w₂ ⟨.refl r w₂, caches_of_describedClass hfound⟩ hx).1

/-- Evaluating a description resolves a template, if it has one, and does nothing else to the
resolver. -/
theorem spares_of_evaluate {d : Mapping.Descriptor} {o : Option String}
    (hx : r.evaluate h d w = .done o w') :
    ∃ w₁, r.Substitutes h w d.template? w₁ ∧ w₁.Spares r w' := by
  have hbasic := Contract.Basic.free fun _ => True
  unfold evaluate at hx
  unfold Mapping.Descriptor.template?
  cases hkind : d.kind with
  | value =>
    rw [hkind] at hx
    cases hx
    exact ⟨w, rfl, .refl r w⟩
  | registered =>
    rw [hkind] at hx
    refine ⟨w, rfl, ?_⟩
    cases hv : d.value with
    | none =>
      rw [hv] at hx
      cases hx
      exact .refl r w
    | some name =>
      rw [hv] at hx
      obtain ⟨found, w₁, hfound, hx⟩ := Act.bind_eq_done.1 hx
      obtain ⟨hw₁, -⟩ :=
        r.keeps_registered (I := fun w' => w.Spares r w') name (.refl r w) hfound
      cases found with
      | none =>
        cases hx
        exact hw₁
      | some p => exact (keeps_get hbasic (runs_spares hcode w) p hw₁ hx).1
  | static =>
    rw [hkind] at hx
    cases hp : d.provider with
    | none =>
      rw [hp] at hx
      cases hx
      exact ⟨w, by cases d.value <;> rfl, .refl r w⟩
    | some t =>
      cases hv : d.value with
      | none =>
        rw [hp, hv] at hx
        cases hx
        exact ⟨w, rfl, .refl r w⟩
      | some m =>
        rw [hp, hv] at hx
        refine spares_of_asked_class (fun c w => ?_) hx
        rintro w₁ v w₂ ⟨hw₁, -⟩ hv
        exact keeps_staticText (stable_spares r w) hbasic (runs_spares hcode w) c _ hw₁ hv
  | provider =>
    rw [hkind] at hx
    cases hp : d.provider with
    | none =>
      rw [hp] at hx
      cases hx
      exact ⟨w, rfl, .refl r w⟩
    | some t =>
      rw [hp] at hx
      exact spares_of_asked_class (fun c w =>
        leads_providerText (stable_spares r w) hbasic (runs_spares hcode w) trivial) hx

end Asking

/-! ### What returns -/

theorem returns_describedClass {t : String}
    (ht : ∃ u w₁, r.substitute h t w = .done u w₁) :
    ∃ o w', r.describedClass h t w = .done o w' := by
  obtain ⟨u, w₁, hu⟩ := ht
  obtain ⟨o, w', ho⟩ := r.returns_classNamed u w₁
  rw [describedClass_eq]
  exact ⟨o, w', Act.bind_eq_done.2 ⟨u, w₁, hu, ho⟩⟩

section Evaluate

variable (hh : Code.Returns h.run)

include hh

theorem returns_get (p : Provider) : (p.get h).Returns := by
  unfold Provider.get
  split
  · exact .pure _
  · exact Act.Returns.bind (hh _ _ _) fun _ => .pure _

theorem returns_staticText (e : TypeEntry Value) (d : LateBinding.Descriptor) :
    (staticText h e d).Returns := by
  refine (e.returns_method d).bind fun o => ?_
  split
  · split
    · exact Act.Returns.bind (MethodHandle.returns_invoke hh _ _ _) fun _ => .pure _
    · exact .pure _
  · exact .pure _

theorem returns_providerText (e : TypeEntry Value) : (providerText h e).Returns := by
  refine (e.returns_constructor []).bind fun o => ?_
  split
  · exact .pure _
  refine (e.returns_method _).bind fun o' => ?_
  split
  · exact .pure _
  · refine Act.Returns.bind ?_ fun _ => .pure _
    exact Attempt.Returns.bind (Class.returns_construct hh _ _ _) fun _ =>
      MethodHandle.returns_invoke hh _ _ _

omit hh in
theorem returns_of_asked_class {f : TypeEntry Value → Act (Option String)} {t : String}
    (hf : ∀ c, (f c).Returns) (ht : ∃ u w₁, r.substitute h t w = .done u w₁) :
    ∃ o w', (do
      match ← r.describedClass h t with
      | some c => f c
      | none => return none : Act (Option String)) w = .done o w' := by
  obtain ⟨found, w₁, hfound⟩ := returns_describedClass ht
  cases found with
  | none => exact ⟨none, w₁, Act.bind_eq_done.2 ⟨none, w₁, hfound, rfl⟩⟩
  | some c =>
    obtain ⟨o, w₂, ho⟩ := hf c w₁
    exact ⟨o, w₂, Act.bind_eq_done.2 ⟨some c, w₁, hfound, ho⟩⟩

/-- Evaluating a description returns if resolving its template does. -/
theorem returns_evaluate {d : Mapping.Descriptor}
    (ht : ∀ t ∈ d.template?, ∃ u w₁, r.substitute h t w = .done u w₁) :
    ∃ o w', r.evaluate h d w = .done o w' := by
  unfold Mapping.Descriptor.template? at ht
  unfold evaluate
  cases hkind : d.kind with
  | value => exact ⟨d.value, w, rfl⟩
  | registered =>
    cases d.value with
    | none => exact ⟨none, w, rfl⟩
    | some name =>
      refine Act.Returns.bind (r.returns_state.bind fun _ => .pure _) (fun o => ?_) w
      cases o with
      | none => exact .pure _
      | some p => exact returns_get hh p
  | static =>
    rw [hkind] at ht
    cases hp : d.provider with
    | none => exact ⟨none, w, rfl⟩
    | some t =>
      cases hv : d.value with
      | none => exact ⟨none, w, rfl⟩
      | some m =>
        exact returns_of_asked_class (fun c => returns_staticText hh c _)
          (ht t (by simp [hp, hv]))
  | provider =>
    rw [hkind] at ht
    cases hp : d.provider with
    | none => exact ⟨none, w, rfl⟩
    | some t => exact returns_of_asked_class (returns_providerText hh) (ht t hp)

end Evaluate

end LateBinding.Resolver
