import LateBinding.Proofs.Accessors
import LateBinding.Proofs.Overriding

/-!
# Numbers of arguments

Nothing compares the arguments of a call with the parameters of its descriptor at first
(`Adapter.invoke`).  A method does so when it is called, before its body is run
(`MethodHandle.runOn_of_wrong_arity`), and the method that a call ends at has as many parameters as
the descriptor: overrides have the signature of what they override (`MethodHandle.params_of_pick`),
and each parameter type stands for one type (`Resolver.keeps_number_of_types`).

* `Adapter.invoke_respects_arity` : **a call with another number of arguments than parameters
  fails**, and is harmless, unless it means a field accessor and has at most one argument.
* `Adapter.reader_writes` : an accessor goes by the number of arguments alone, so that one without
  parameters writes its field.
-/

namespace LateBinding

/-! ### Methods that are run -/

/-- An override has the signature that is called. -/
theorem Class.signature_of_findOverride {c : Class Value} {d : Descriptor} {m : MethodDecl}
    (h : c.findOverride d = some m) : d = ⟨m.name, m.params⟩ := by
  obtain ⟨_, _, _, -, hm, -⟩ := findOverride_eq_some_iff.1 h
  exact ClassDecl.signature_of_method? hm

namespace MethodHandle

variable {m : MethodHandle} {receiver : Value} {args : List Value}

/-- Whatever the receiver, a handle picks a method with its own parameters. -/
theorem params_of_pick {d : MethodDecl} {v : Value} (h : m.pick receiver = .ok (d, v)) :
    d.params = m.decl.params := by
  unfold pick at h
  split at h
  · cases h
    rfl
  cases receiver with
  | null => cases h
  | object o =>
    dsimp only at h
    cases hreq : requireInstance m.declaring o with
    | error e =>
      rw [hreq] at h
      cases h
    | ok _ =>
      rw [hreq] at h
      cases h
      split
      · rfl
      cases hover : o.cls.findOverride ⟨m.decl.name, m.decl.params⟩ with
      | none => rfl
      | some e => exact (Descriptor.mk.inj (Class.signature_of_findOverride hover)).2.symm
  | _ =>
    cases h
    rfl

/-- A handle runs nothing on another number of arguments than it has parameters. -/
theorem runOn_of_wrong_arity (receiver : Value) (arity : args.length ≠ m.decl.params.length) :
    ∃ e, m.runOn receiver args = .error e := by
  unfold runOn
  cases hpick : m.pick receiver with
  | error e => exact ⟨e, rfl⟩
  | ok p =>
    obtain ⟨d, v⟩ := p
    have wrong : args.length ≠ d.params.length := params_of_pick hpick ▸ arity
    refine ⟨.wrongArity d.name d.params.length args.length, ?_⟩
    change d.runOn v args = _
    rw [MethodDecl.runOn, if_pos wrong]

end MethodHandle

/-! ### Methods that are found -/

/-- A method that is found for a signature has that signature. -/
theorem TypeEntry.keeps_signature (e : TypeEntry Value) (d : Descriptor) :
    Act.Keeps World.Sensible (fun o => ∀ k ∈ o, d = ⟨k.decl.name, k.decl.params⟩) (e.method d) := by
  intro w o w' hw h
  refine ⟨(e.keeps_method World.Sensible.stable.noting d hw h).1, ?_⟩
  rintro k rfl
  rw [method_eq] at h
  split at h
  · rename_i known hknown
    cases h
    exact ClassDecl.signature_of_method? ((hw.memoOf e).methods d k hknown)
  · split at h
    · rename_i f hf
      cases h
      exact ClassDecl.signature_of_method? (Class.method?_of_findMethod hf)
    · cases h

/-- Types stand for as many types. -/
theorem Resolver.keeps_number_of_types {C : Contract} {I : World → Prop} {h : Host} {r : Resolver}
    (hI : Noting C I) (hh : h.Reads C I) (hr : C.resolver r) (scope : Scope) (types : List String) :
    Attempt.Keeps I (fun ts => ts.length = types.length) (r.adaptTypes h scope types) := by
  induction types with
  | nil => exact .pure rfl
  | cons type types ih =>
    exact .bind (keeps_adaptType hI hh hr scope type) fun _ _ => .bind ih fun ts hts =>
      .pure (congrArg Nat.succ hts)

namespace Adapter

variable {m : Nat} {a : Adapter} {args : List Value} {w w' : World}

/-- The method that is called has the parameters of the descriptor. -/
theorem keeps_arity_find (a : Adapter) (d : Descriptor) (args : List Value) :
    Attempt.Keeps World.Sensible (fun k => k.decl.params.length = d.arity)
      (a.find (.signed d) args) := by
  refine .bind (.liftM (a.binding.interface.keeps_signature d)) fun o ho => ?_
  split
  · rename_i k hk
    refine .pure ?_
    rw [ho k (Option.filter_eq_some_iff.1 hk).1]
    rfl
  · exact .throw

/-- The method that a call is forwarded to has as many parameters as the logical one. -/
theorem keeps_arity_realMethod (m : Nat) (a : Adapter) (k : MethodDecl) (rename : Option Marker) :
    Attempt.Keeps World.Sensible (fun real => real.decl.params.length = k.params.length)
      (a.realMethod (Host.level m) k rename) := by
  have keeps := Host.keeps_sensible m
  refine .bind (Resolver.keeps_number_of_types World.Sensible.stable.noting keeps.reads trivial _ _)
    fun params hparams => .bind (.liftM (keeps.renames _ _ _ trivial)) fun name _ =>
      .bind (.liftM (TypeEntry.keeps_signature _ _)) fun o ho => ?_
  split
  · rename_i real
    have := (Descriptor.mk.inj (ho real rfl)).2
    exact .pure (this ▸ hparams)
  · exact .throw

/-- For another number of arguments nothing is prepared but a failure, unless there is a field to be
read or written. -/
theorem keeps_failing_prepare (m : Nat) {k : MethodHandle}
    (arity : args.length ≠ k.decl.params.length)
    (accessor : (k.marker? .field).isSome = true → 2 ≤ args.length) :
    Attempt.Keeps World.Sensible (fun job => ∃ e returns, job = .run (.error e) returns)
      (a.prepare (Host.level m) k args) := by
  have keeps := Host.keeps_sensible m
  unfold prepare
  split
  · rename_i marker _ hmarker
    have many := accessor (by rw [hmarker]; rfl)
    refine .bind (.liftM (keeps_markedField .free keeps.reads trivial World.Sensible.stable.noting _
      _)) fun o _ => ?_
    split
    · exact .bind (.liftM (keeps_missingField .free keeps.reads trivial _ _)) fun _ _ => .throw
    · refine .except fun job hjob => ?_
      match args, many with
      | _ :: _ :: _, _ => cases hjob
  · split
    · obtain ⟨e, he⟩ := k.runOn_of_wrong_arity a.toValue arity
      exact .pure ⟨e, none, by rw [he]⟩
    · refine .bind (keeps_arity_realMethod m a _ _) fun real hreal => .pure ?_
      have wrong : (args.map Value.unwrap).length ≠ real.decl.params.length := by
        rw [List.length_map, hreal]
        exact arity
      obtain ⟨e, he⟩ := real.runOn_of_wrong_arity a.target wrong
      exact ⟨e, _, by rw [he]⟩

/-- A call with another number of arguments comes to a failure, unless it means an accessor. -/
theorem failing_of_arrange (hw : w.Sensible) {d : Descriptor} (arity : args.length ≠ d.arity)
    (accessor : ∀ k marker w₀, a.Finds (.signed d) args k marker w w₀ → 2 ≤ args.length)
    {job : Job} (hjob : (a.arrange (Host.level m) (.signed d) args).run w = .done (.ok job) w') :
    ∃ e returns, job = .run (.error e) returns := by
  obtain ⟨k, w₀, hk, hjob⟩ | ⟨_, -, hjob⟩ := Attempt.run_bind_eq_done.1 hjob
  · obtain ⟨hw₀, hparams⟩ := keeps_arity_find a d args hw hk
    have wrong : args.length ≠ k.decl.params.length := by
      rw [hparams k rfl]
      exact arity
    refine (keeps_failing_prepare m wrong (fun hmarker => ?_) hw₀ hjob).2 job rfl
    obtain ⟨marker, hmarker⟩ := Option.isSome_iff_exists.1 hmarker
    exact accessor k marker w₀ ⟨hk, hmarker⟩
  · cases hjob

/-- **A call respects the number of parameters.**  A call of a signature with another number of
arguments than the signature has parameters fails when it has been arranged, and a call that has
failed so is harmless.  This is so if the call does not mean a field accessor, or has more than one
argument. -/
theorem invoke_respects_arity {n : Nat} {k : Session.Names}
    (hw : Session.Reached (fun _ => true) (Host.level n) k w) (m : Nat) {d : Descriptor}
    (arity : args.length ≠ d.arity)
    (accessor : ∀ k marker w₀, a.Finds (.signed d) args k marker w w₀ → 2 ≤ args.length) :
    (∀ y w', (a.arrange (Host.level m) (.signed d) args).run w = .done y w' →
      ∃ err, (a.invoke (Host.level m) d args).run w = .done (.error err) w') ∧
    ∀ x w', (a.invoke (Host.level m) d args).run w = .done x w' →
      (∃ err, x = .error err) ∧
        Harmless (Host.level m) (fun h => (a.invoke h d args).run) w x w' := by
  have invoked (w : World) : (a.invoke (Host.level m) d args).run w =
      (a.arrange (Host.level m) (.signed d) args >>= a.carryOut (Host.level m)).run w := by
    rw [← request_eq]
    rfl
  -- nothing is left to be done after a call was arranged
  have fails (y : Except BindingError Job) (w' : World)
      (hy : (a.arrange (Host.level m) (.signed d) args).run w = .done y w') :
      ∃ err, (a.invoke (Host.level m) d args).run w = .done (.error err) w' := by
    rw [invoked]
    cases y with
    | error err => exact ⟨err, Attempt.run_bind_eq_done.2 (.inr ⟨err, hy, rfl⟩)⟩
    | ok job =>
      obtain ⟨e, returns, rfl⟩ := failing_of_arrange hw.sensible arity accessor hy
      refine ⟨.thrown e, Attempt.run_bind_eq_done.2 (.inl ⟨_, w', hy, ?_⟩)⟩
      rw [carryOut, Attempt.ofTarget_error_bind]
      rfl
  refine ⟨fails, fun x w' hx => ?_⟩
  have returned := hx
  rw [invoked, ExceptT.run_bind] at returned
  obtain ⟨y, w₁, hy, -⟩ := Act.bind_eq_done.1 returned
  obtain ⟨err, herr⟩ := fails y w₁ hy
  cases hx.symm.trans herr
  have idle (job : Job) (w₂ : World)
      (hjob : (a.arrange (Host.level m) (.signed d) args).run w = .done (.ok job) w₂) :
      a.Idle job := by
    obtain ⟨e, returns, rfl⟩ := failing_of_arrange hw.sensible arity accessor hjob
    exact .fails e returns
  have harmless : Harmless (Host.level m) (fun h => (a.request h (.signed d) args).run) w
      (.error err) w' := harmless_of_idle hx idle
  exact ⟨⟨err, rfl⟩, harmless⟩

end Adapter

/-! ### A box that grows -/

namespace Growing

open Session

/-- A box with a size that a method sets, and that an accessor without parameters reads. -/
def requests : List Request := [
  .scope "app" "app" none,
  .define "raw" ⟨"pkg.Box", .concrete, none,
    [⟨"grow", ["int"], "any", .pub, false, [], some (.set .this "size" (.arg 0))⟩],
    [⟨"size", "int", .pub, false, .literal (.int 0)⟩], [], []⟩ (some "app"),
  .define "box" ⟨"app.Box", .interface, none,
    [⟨"grow", ["int"], "any", .pub, false, [], none⟩,
      ⟨"size", [], "int", .pub, false, [.field none], none⟩], [], [], [.adapts "pkg.Box"]⟩
    (some "app"),
  .resolver "r" ∅ "app",
  .newInstance "a" "r" "app.Box" [] [] none]

/-- What is found out when a method of the box is called. -/
structure Story where
  /-- The names of the client. -/
  names : Names
  /-- The world before. -/
  before : World
  /-- The adapter. -/
  adapter : Adapter
  /-- The answer. -/
  answer : Except BindingError Value
  /-- The world after. -/
  after : World

/-- The error that the call fails with. -/
def Story.error (t : Story) : Option String :=
  match t.answer with
  | .ok _ => none
  | .error e => some e.text

/-- A method of the box is called. -/
def story (d : Descriptor) (args : List Value) : Option Story := do
  let (k, w) ← played 3 requests
  let a ← adapterIn w "a"
  let (x, w') ← ((a.invoke (Host.level 3) d args).run w).seen Prod.mk
  return ⟨k, w, a, x, w'⟩

/-- The story takes place. -/
structure Story.Passes (t : Story) (d : Descriptor) (args : List Value) : Prop where
  reached : Reached (fun _ => true) (Host.level 3) t.names t.before
  held : t.before.registers.get? "a" = some t.adapter.toValue
  invoked : (t.adapter.invoke (Host.level 3) d args).run t.before = .done t.answer t.after

theorem passes_of_story {d : Descriptor} {args : List Value} {t : Story}
    (h : story d args = some t) : t.Passes d args := by
  simp only [story, Option.bind_eq_bind, Option.bind_eq_some_iff, Option.pure_def,
    Option.some.injEq] at h
  obtain ⟨⟨k, w⟩, hplayed, a, ha, ⟨x, w'⟩, hx, rfl⟩ := h
  obtain ⟨_, _, hx, hsame⟩ := Outcome.exists_of_seen hx
  cases hsame
  exact ⟨reached_of_played hplayed, get?_of_adapterIn ha, hx⟩

/-- The method that changes the size. -/
abbrev grow : Descriptor := ⟨"grow", ["int"]⟩

/-- The method that reads the size. -/
abbrev size : Descriptor := ⟨"size", []⟩

end Growing

namespace Adapter

open Growing Session in
/-- A box does not grow by nothing.  The call asks for no variable, so no field changes. -/
theorem grow_takes_one_argument : ∃ (k : Names) (w w' : World) (a : Adapter) (err : BindingError),
    Reached (fun _ => true) (Host.level 3) k w ∧ w.registers.get? "a" = some a.toValue ∧
      (a.invoke (Host.level 3) grow []).run w = .done (.error err) w' ∧
      err.text = "IllegalArgument: grow expects 1 argument(s), got 0" ∧
      Harmless (Host.level 3) (fun h => (a.invoke h grow []).run) w (.error err) w' ∧
      ∀ c, w'.cell? c = w.cell? c := by
  have told : (story grow []).map (fun t => (t.error,
      ((t.adapter.find (.signed grow) []).run t.before).result.map (fun k =>
        (k.marker? .field).isSome),
      ((t.adapter.invoke ((Host.level 3).without fun _ _ _ => true) grow []).run
        t.before).failure.isSome)) =
          some (some "IllegalArgument: grow expects 1 argument(s), got 0", some false, true) := by
    decide +kernel
  obtain ⟨t, ht, hseen⟩ := Option.map_eq_some_iff.1 told
  simp only [Prod.mk.injEq] at hseen
  obtain ⟨htext, hplain, silent⟩ := hseen
  have passes := passes_of_story ht
  have forwarded : ∀ k marker w₀, t.adapter.Finds (.signed grow) [] k marker t.before w₀ →
      2 ≤ ([] : List Value).length := by
    intro k marker w₀ finds
    rw [finds.found] at hplain
    have plain : (k.marker? .field).isSome = false := Option.some.inj hplain
    rw [finds.marked] at plain
    cases plain
  obtain ⟨⟨err, herr⟩, harmless⟩ :=
    (invoke_respects_arity passes.reached 3 (by decide) forwarded).2 t.answer t.after passes.invoked
  have invoked := passes.invoked
  rw [herr] at invoked
  rw [Story.error, herr] at htext
  rw [herr] at harmless
  have same := harmless.cell?_eq fun deep => by
    rw [deep] at silent
    cases silent
  exact ⟨t.names, t.before, t.after, t.adapter, err, passes.reached, passes.held, invoked,
    Option.some.inj htext, harmless, same⟩

open Growing Session in
/-- An accessor without parameters succeeds with an argument. -/
theorem reader_writes :
    ¬ ∀ (n : Nat) (k : Names) (w : World), Reached (fun _ => true) (Host.level n) k w →
      ∀ (register : String) (a : Adapter) (d : Descriptor) (args : List Value)
        (x : Except BindingError Value) (w' : World), w.registers.get? register = some a.toValue →
        (a.binding.interface.cls.findMethod d).isSome = true → args.length ≠ d.arity →
        (a.invoke (Host.level n) d args).run w = .done x w' →
          (∃ err, x = .error err) ∧
            Harmless (Host.level n) (fun h => (a.invoke h d args).run) w x w' := by
  intro claim
  have told : (story size [.int 7]).map (fun t => (t.answer.toOption.bind Value.int?,
      (t.adapter.binding.interface.cls.findMethod size).isSome)) = some (some 7, true) := by
    decide +kernel
  obtain ⟨t, ht, hseen⟩ := Option.map_eq_some_iff.1 told
  simp only [Prod.mk.injEq] at hseen
  obtain ⟨hanswer, declared⟩ := hseen
  have passes := passes_of_story ht
  obtain ⟨⟨err, herr⟩, -⟩ := claim 3 t.names t.before passes.reached "a" t.adapter size [.int 7]
    t.answer t.after passes.held declared (by decide) passes.invoked
  rw [herr] at hanswer
  cases hanswer

end Adapter

end LateBinding
