import LateBinding.Proofs.Effects

/-!
# Receivers of forwarded calls

A call of an adapter that is forwarded (`Adapter.forwarding`) invokes a method of the adapted type
on the target.  The method's handle checks its receiver, if the receiver is null or an object, and
then picks the method that is run.

* `Adapter.forwarded_runs_on_instances` : **an instance method runs on instances of the class that
  declares it only**, and on any other target the call fails and runs nothing, if the target is
  null or an object;
* `method_runs_on_number` : a target of another kind is not checked, so that an instance
  method may run on a number.
-/

namespace LateBinding

/-! ### Which method is picked -/

theorem ClassDecl.signature_of_method? {c : ClassDecl Value} {d : Descriptor} {m : MethodDecl}
    (h : c.method? d = some m) : d = ⟨m.name, m.params⟩ := by
  have := List.find?_some h
  simp only [decide_eq_true_eq] at this
  rw [this.1, this.2]

/-- The method is the one that its class declares with its signature. -/
def MethodDecl.DeclaredBy (m : MethodDecl) (c : ClassDecl Value) : Prop :=
  c.method? ⟨m.name, m.params⟩ = some m

theorem MethodDecl.declaredBy_of_method? {c : ClassDecl Value} {d : Descriptor} {m : MethodDecl}
    (h : c.method? d = some m) : m.DeclaredBy c := by
  obtain rfl := ClassDecl.signature_of_method? h
  exact h

/-- A method that is found is declared by the class that it is found on. -/
theorem TypeEntry.declares_method (e : TypeEntry Value) (d : Descriptor) :
    Act.Keeps World.Sensible (fun o => ∀ k ∈ o, k.decl.DeclaredBy k.declaring) (e.method d) := by
  intro w o w' hw h
  refine ⟨(e.keeps_method World.Sensible.stable.noting d hw h).1, ?_⟩
  rintro k rfl
  rw [method_eq] at h
  split at h
  · rename_i known hknown
    cases h
    exact MethodDecl.declaredBy_of_method? ((hw.memoOf e).methods d k hknown)
  · split at h
    · rename_i f hf
      cases h
      exact MethodDecl.declaredBy_of_method? (Class.method?_of_findMethod hf)
    · cases h

/-- The override that a call runs is declared by a class that the object is an instance of. -/
theorem Class.declares_of_findOverride {c : Class Value} {d : Descriptor} {m : MethodDecl}
    (h : c.findOverride d = some m) :
    m.isStatic = false ∧ ∃ k : ClassDecl Value, m.DeclaredBy k ∧
      c.isSubclassOf k.name = true := by
  unfold findOverride at h
  have fits := List.find?_some h
  obtain ⟨k, hk, hm⟩ := List.mem_filterMap.1 (List.mem_of_find?_eq_some h)
  simp only [Bool.and_eq_true, Bool.not_eq_true', decide_eq_true_eq] at fits
  refine ⟨fits.1.1, k, MethodDecl.declaredBy_of_method? hm, ?_⟩
  exact List.any_eq_true.2 ⟨k, hk, beq_self_eq_true _⟩

/-- The value is an instance of a class of this name, or of one that extends it. -/
def Value.IsInstance (v : Value) (name : String) : Prop :=
  ∃ o, v = .object o ∧ o.cls.isSubclassOf name = true

theorem Value.eq_object_of_object? {v : Value} {o : Object} (h : v.object? = some o) :
    v = .object o := by
  cases v with
  | object o' =>
    cases h
    rfl
  | _ => cases h

/-- On an instance of its class, a handle picks a method that a class of the instance declares. -/
theorem MethodHandle.pick_of_isInstance {m : MethodHandle} {v : Value}
    (declared : m.decl.DeclaredBy m.declaring) (instanced : m.decl.isStatic = false)
    (hv : v.IsInstance m.declaring.name) :
    ∃ (e : MethodDecl) (c : ClassDecl Value), m.pick v = .ok (e, v) ∧ e.DeclaredBy c ∧
      e.isStatic = false ∧ v.IsInstance c.name := by
  obtain ⟨o, rfl, ho⟩ := hv
  have picked : m.pick (.object o) = .ok (if m.decl.visibility = .priv then m.decl
      else (o.cls.findOverride ⟨m.decl.name, m.decl.params⟩).getD m.decl, .object o) := by
    simp only [pick, instanced, requireInstance, ho]
    rfl
  -- the method of the handle itself is picked if it is private or not overridden
  have itself (h : m.pick (.object o) = .ok (m.decl, .object o)) :
      ∃ (e : MethodDecl) (c : ClassDecl Value), m.pick (.object o) = .ok (e, .object o) ∧
        e.DeclaredBy c ∧ e.isStatic = false ∧ (Value.object o).IsInstance c.name :=
    ⟨m.decl, m.declaring, h, declared, instanced, o, rfl, ho⟩
  split at picked
  · exact itself picked
  cases hover : o.cls.findOverride ⟨m.decl.name, m.decl.params⟩ with
  | none =>
    rw [hover] at picked
    exact itself picked
  | some e =>
    rw [hover] at picked
    obtain ⟨nonstatic, c, hc, hsub⟩ := Class.declares_of_findOverride hover
    exact ⟨e, c, picked, hc, nonstatic, o, rfl, hsub⟩

/-- On null and on other objects, a handle picks no method. -/
theorem MethodHandle.pick_of_not_isInstance {m : MethodHandle} {v : Value}
    (instanced : m.decl.isStatic = false) (kind : v = .null ∨ ∃ o, v = .object o)
    (hv : ¬ v.IsInstance m.declaring.name) :
    ∃ e : Exception, m.pick v = .error e ∧ (e.kind = "NullPointer" ∨ e.kind = "TypeMismatch") := by
  obtain rfl | ⟨o, rfl⟩ := kind
  · refine ⟨.nullPointer (m.declaring.name ++ "." ++ m.decl.name ++ " invoked without a receiver"),
      ?_, .inl rfl⟩
    simp only [pick, instanced]
    rfl
  · have other : o.cls.isSubclassOf m.declaring.name = false := by
      rw [← Bool.not_eq_true]
      exact fun h => hv ⟨o, rfl, h⟩
    refine ⟨.typeMismatch m.declaring.name o.cls.name, ?_, .inr rfl⟩
    simp only [pick, instanced, requireInstance, other]
    rfl

/-! ### Forwarded calls -/

namespace Adapter

variable {h : Host} {a : Adapter} {q : Member} {args : List Value} {w w' : World}

/-- The method of the adapted type that a call is forwarded to, if it is, and the declared type of
the result. -/
def forwarding (h : Host) (a : Adapter) (q : Member) (args : List Value) :
    Attempt BindingError (Option (MethodHandle × String)) := do
  let m ← a.find q args
  match m.marker? .field, m.marker? .rename with
  | some _, _ => return none
  | none, rename =>
    if m.decl.hasBody && rename.isNone then return none
    else return some (← a.realMethod h m.decl rename, m.decl.returns)

/-- What a forwarded call comes to. -/
theorem arrange_of_forwarding {real : MethodHandle} {returns : String}
    (hf : (a.forwarding h q args).run w = .done (.ok (some (real, returns))) w') :
    (a.arrange h q args).run w =
      .done (.ok (.run (real.runOn a.target (args.map Value.unwrap)) (some returns))) w' := by
  obtain ⟨m, w₁, hm, hf⟩ | ⟨_, -, hf⟩ := Attempt.run_bind_eq_done.1 hf
  · refine Attempt.run_bind_eq_done.2 (.inl ⟨m, w₁, hm, ?_⟩)
    split at hf
    · cases hf
    rename_i hfield
    split at hf
    · cases hf
    rename_i hforward
    obtain ⟨real', w₂, hreal, hf⟩ | ⟨_, -, hf⟩ := Attempt.run_bind_eq_done.1 hf
    · cases hf
      rw [prepare_of_forward hfield hforward]
      exact Attempt.run_bind_eq_done.2 (.inl ⟨real, w', hreal, rfl⟩)
    · cases hf
  · cases hf

/-- The method of the adapted type that is found is declared by the class that it is found on. -/
theorem declares_realMethod (m : Nat) (a : Adapter) (d : MethodDecl) (rename : Option Marker) :
    Attempt.Keeps World.Sensible (fun k => k.decl.DeclaredBy k.declaring)
      (a.realMethod (Host.level m) d rename) := by
  have keeps := Host.keeps_sensible m
  refine .bind (Resolver.keeps_adaptTypes World.Sensible.stable.noting keeps.reads trivial _ _)
    fun params _ => .bind (.liftM (keeps.renames _ _ _ trivial)) fun name _ =>
      .bind (.liftM (TypeEntry.declares_method _ _)) fun o ho => ?_
  split
  · exact .pure (ho _ rfl)
  · exact .throw

/-- The method that a call is forwarded to is declared by the class that it was found on. -/
theorem declares_forwarding (m : Nat) (a : Adapter) (q : Member) (args : List Value) :
    Attempt.Keeps World.Sensible (fun o => ∀ x ∈ o, x.1.decl.DeclaredBy x.1.declaring)
      (a.forwarding (Host.level m) q args) := by
  refine .bind (keeps_find World.Sensible.stable.noting q args) fun k _ => ?_
  split
  · exact .pure nofun
  split
  · exact .pure nofun
  refine .bind (declares_realMethod m a _ _) fun real hreal => .pure ?_
  rintro _ ⟨⟩
  exact hreal

/-- **An instance method runs on instances only.**  A call that is forwarded to a method that is not
static runs, if its target is an instance of the class that declares that method, a method of a
class that the target is an instance of, on the target.  On null and on other objects the call fails
with an exception, and no body is run. -/
theorem forwarded_runs_on_instances {n : Nat} {k : Session.Names}
    (hw : Session.Reached (fun _ => true) (Host.level n) k w) {m : Nat} {real : MethodHandle}
    {returns : String}
    (hf : (a.forwarding (Host.level m) q args).run w = .done (.ok (some (real, returns))) w')
    (instanced : real.decl.isStatic = false)
    (kind : a.target = .null ∨ ∃ o, a.target = .object o) :
    (a.target.IsInstance real.declaring.name →
      ∃ (e : MethodDecl) (c : ClassDecl Value), e.DeclaredBy c ∧ e.isStatic = false ∧
        a.target.IsInstance c.name ∧
        (a.request (Host.level m) q args).run w = (do
          let v ← Attempt.ofTarget (e.call (Host.level m) a.target (args.map Value.unwrap))
          a.wrapResult (Host.level m) returns v).run w') ∧
    (¬ a.target.IsInstance real.declaring.name →
      (∃ e : Exception, (e.kind = "NullPointer" ∨ e.kind = "TypeMismatch") ∧
        (a.request (Host.level m) q args).run w = .done (.error (.thrown e)) w') ∧
      HandsOnly (fun _ => false) (Host.level m).valueOf (fun h => a.request h q args) w) := by
  have declared := (declares_forwarding m a q args hw.sensible hf).2 _ rfl _ rfl
  have arranged := arrange_of_forwarding hf
  constructor
  · intro ht
    obtain ⟨e, c, hpick, hdeclared, nonstatic, hc⟩ := real.pick_of_isInstance declared instanced ht
    refine ⟨e, c, hdeclared, nonstatic, hc, ?_⟩
    have ran : real.runOn a.target (args.map Value.unwrap) =
        e.runOn a.target (args.map Value.unwrap) := by
      rw [MethodHandle.runOn, hpick]
      rfl
    rw [request_of_arrange arranged, ran, MethodDecl.call_eq]
    rfl
  · intro ht
    obtain ⟨e, hpick, hkind⟩ := MethodHandle.pick_of_not_isInstance instanced kind ht
    have ran : real.runOn a.target (args.map Value.unwrap) = .error e := by
      rw [MethodHandle.runOn, hpick]
      rfl
    rw [ran] at arranged
    have failed : (a.request (Host.level m) q args).run w = .done (.error (.thrown e)) w' := by
      rw [request_of_arrange arranged, carryOut, Attempt.ofTarget_error_bind]
      rfl
    refine ⟨⟨e, hkind, failed⟩, (harmless_of_idle failed fun job w₁ hjob => ?_).handsOnly _⟩
    cases arranged.symm.trans hjob
    exact .fails e returns

end Adapter

/-! ### A number as a receiver -/

namespace Fives

open Session

/-- A method that tells the name of the type of its receiver. -/
def kind (body : Option Expr) : MethodDecl := ⟨"kind", [], "str", .pub, false, [], body⟩

/-- The interface of boxes is bound to a box, and to a number. -/
def requests : List Request := [
  .scope "app" "app" none,
  .define "raw" ⟨"pkg.Box", .concrete, none, [kind (some (.typeName .this))], [], [], []⟩
    (some "app"),
  .define "box" ⟨"app.Box", .interface, none, [kind none], [], [], [.adapts "pkg.Box"]⟩
    (some "app"),
  .resolver "r" ∅ "app",
  .newInstance "box" "r" "app.Box" [] [] none,
  .wrap "five" "r" "app.Box" (.literal (.int 5)) none]

/-- What is found out when the method is called. -/
structure Story where
  /-- The names of the client. -/
  names : Names
  /-- The world before. -/
  before : World
  /-- The adapter. -/
  adapter : Adapter
  /-- The method that the call is forwarded to. -/
  real : MethodHandle
  /-- The declared type of the result. -/
  returns : String
  /-- The answer. -/
  answer : Value

/-- The method is called on the adapter in a register. -/
def story (register : String) : Option Story := do
  let (k, w) ← played 3 requests
  let a ← adapterIn w register
  let forwarded ← ((a.forwarding (Host.level 3) (.named "kind") []).run w).result
  let (real, returns) ← forwarded
  let v ← ((a.request (Host.level 3) (.named "kind") []).run w).result
  return ⟨k, w, a, real, returns, v⟩

/-- The story takes place. -/
structure Story.Passes (t : Story) (register : String) : Prop where
  reached : Reached (fun _ => true) (Host.level 3) t.names t.before
  held : t.before.registers.get? register = some t.adapter.toValue
  forwarded : ∃ w, (t.adapter.forwarding (Host.level 3) (.named "kind") []).run t.before =
    .done (.ok (some (t.real, t.returns))) w
  answered : ∃ w, (t.adapter.request (Host.level 3) (.named "kind") []).run t.before =
    .done (.ok t.answer) w

theorem passes_of_story {register : String} {t : Story} (h : story register = some t) :
    t.Passes register := by
  simp only [story, Option.bind_eq_bind, Option.bind_eq_some_iff, Option.pure_def,
    Option.some.injEq] at h
  obtain ⟨⟨k, w⟩, hplayed, a, ha, _, hf, ⟨real, returns⟩, rfl, u, hu, rfl⟩ := h
  exact ⟨reached_of_played hplayed, get?_of_adapterIn ha, Outcome.exists_of_result hf,
    Outcome.exists_of_result hu⟩

/-- What is seen: whether the method is static, whether a concrete class declares it, whether the
target is an instance of that class, if it is an object, the declared type of the result, and the
answer. -/
def Story.seen (t : Story) : Bool × Bool × Option Bool × String × Option String :=
  (t.real.decl.isStatic, t.real.declaring.kind = .concrete,
    t.adapter.target.object?.map fun o => o.cls.isSubclassOf t.real.declaring.name,
    t.returns, t.answer.str?)

end Fives

open Fives Session in
/-- The method runs on a box. -/
theorem method_runs_on_box : ∃ (k : Names) (w w' : World) (a : Adapter) (real : MethodHandle)
    (e : MethodDecl) (c : ClassDecl Value), Reached (fun _ => true) (Host.level 3) k w ∧
      w.registers.get? "box" = some a.toValue ∧
      (a.forwarding (Host.level 3) (.named "kind") []).run w = .done (.ok (some (real, "str"))) w' ∧
      e.DeclaredBy c ∧ e.isStatic = false ∧ a.target.IsInstance c.name ∧
      (a.request (Host.level 3) (.named "kind") []).run w = (do
        let v ← Attempt.ofTarget (e.call (Host.level 3) a.target [])
        a.wrapResult (Host.level 3) "str" v).run w' ∧
      ((a.request (Host.level 3) (.named "kind") []).run w).result.bind Value.str? =
        some "pkg.Box" := by
  have told : (story "box").map Story.seen =
      some (false, true, some true, "str", some "pkg.Box") := by decide +kernel
  obtain ⟨t, ht, hseen⟩ := Option.map_eq_some_iff.1 told
  simp only [Story.seen, Prod.mk.injEq, Option.map_eq_some_iff] at hseen
  obtain ⟨instanced, -, ⟨o, ho, hsub⟩, hreturns, hanswer⟩ := hseen
  have passes := passes_of_story ht
  obtain ⟨w', hf⟩ := passes.forwarded
  obtain ⟨w₂, hrun⟩ := passes.answered
  have htarget := Value.eq_object_of_object? ho
  rw [hreturns] at hf
  obtain ⟨e, c, hdeclared, nonstatic, hc, hcall⟩ :=
    (Adapter.forwarded_runs_on_instances passes.reached hf instanced (.inr ⟨o, htarget⟩)).1
      ⟨o, htarget, hsub⟩
  exact ⟨t.names, t.before, w', t.adapter, t.real, e, c, passes.reached, passes.held, hf,
    hdeclared, nonstatic, hc, hcall, by rw [hrun]; exact hanswer⟩

open Fives Session in
/-- A method that is not static runs on a number. -/
theorem method_runs_on_number :
    ¬ ∀ (n : Nat) (k : Names) (w : World), Reached (fun _ => true) (Host.level n) k w →
      ∀ (register : String) (a : Adapter) (q : Adapter.Member) (args : List Value)
        (real : MethodHandle) (returns : String) (w' : World),
        w.registers.get? register = some a.toValue →
        (a.forwarding (Host.level n) q args).run w = .done (.ok (some (real, returns))) w' →
        real.decl.isStatic = false → real.declaring.kind = .concrete →
          a.target.IsInstance real.declaring.name ∨
            HandsOnly (fun _ => false) (Host.level n).valueOf
              (fun h => a.request h q args) w := by
  intro claim
  have told : (story "five").map Story.seen = some (false, true, none, "str", some "int") := by
    decide +kernel
  -- without arguments that may be handed on there is no answer
  have refused : (story "five").bind (fun t => ((t.adapter.request ⟨Code.only (fun _ => false)
      (Host.level 3).run, (Host.level 3).valueOf⟩ (.named "kind") []).run t.before).result.map
        fun _ => ()) = none := by
    decide +kernel
  obtain ⟨t, ht, hseen⟩ := Option.map_eq_some_iff.1 told
  simp only [Story.seen, Prod.mk.injEq, decide_eq_true_eq] at hseen
  obtain ⟨instanced, concrete, notObject, -, -⟩ := hseen
  have passes := passes_of_story ht
  obtain ⟨w', hf⟩ := passes.forwarded
  obtain ⟨w₂, hrun⟩ := passes.answered
  obtain ⟨o, htarget, -⟩ | only := claim 3 t.names t.before passes.reached "five" t.adapter
    (.named "kind") [] t.real t.returns w' passes.held hf instanced concrete
  · rw [htarget] at notObject
    cases notObject
  · rw [ht, Option.bind_some] at refused
    have same : (t.adapter.request ⟨Code.only (fun _ => false) (Host.level 3).run,
        (Host.level 3).valueOf⟩ (.named "kind") []).run t.before = .done (.ok t.answer) w₂ :=
      (only (Host.level 3).run).trans hrun
    rw [same] at refused
    cases refused

end LateBinding
