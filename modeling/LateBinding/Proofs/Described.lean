import LateBinding.Proofs.Arity
import LateBinding.Proofs.Template.Clean
import LateBinding.Proofs.Underway

/-!
# Described variables

A description names a member: a static method of a class, or the `get` of a new instance of a
provider class.  What this member comes to is said step by step (`Resolver.Yields`): the class is
resolved, the member is looked up on it, and it is run without arguments.

* `Resolver.described_variable_yields` : **a variable whose description is to be evaluated has the
  text that its member comes to**, provided that a static method is described without parameters;
  whatever else its member comes to, it has no value, and its token is replaced by its bare name.
* `Resolver.static_method_with_parameters` : a method that is described with parameters has its
  arguments counted although it is run without any, so that it never gives a value.
-/

namespace LateBinding

/-! ### Tokens without a value -/

namespace Template

theorem scan_of_forall_ne {s : List Char} (h : '@' ∉ s) : scan s = ⟨s, []⟩ := by
  induction s with
  | nil => exact scan_nil
  | cons c s ih =>
    rw [List.mem_cons, not_or] at h
    rw [scan_char (Ne.symm h.1), ih h.2]

/-- A token between plain texts is the only one. -/
theorem scan_between {before name after : List Char} (hb : '@' ∉ before) (hn : name ≠ [])
    (hw : ∀ c ∈ name, isWordChar c = true) (ha : '@' ∉ after) :
    scan (before ++ ('@' :: name ++ '@' :: after)) = ⟨before, [(name, after)]⟩ := by
  induction before with
  | nil => rw [List.nil_append, scan_token hn hw, scan_of_forall_ne ha]
  | cons c before ih =>
    rw [List.mem_cons, not_or] at hb
    rw [List.cons_append, scan_char (Ne.symm hb.1), ih hb.2]

end Template

namespace Resolver

/-- The token of a variable without a value is replaced by its bare name. -/
theorem substitute_of_valueless {h : Host} {r : Resolver} {name : String} {w w' : World}
    (hn : name.toList ≠ []) (hw : ∀ c ∈ name.toList, isWordChar c = true)
    (hv : h.valueOf r name w = .done none w') {before after : String} (hb : '@' ∉ before.toList)
    (ha : '@' ∉ after.toList) :
    r.substitute h (before ++ "@" ++ name ++ "@" ++ after) w =
      .done (before ++ name ++ after) w' := by
  have scanned : Template.scan (before ++ "@" ++ name ++ "@" ++ after).toList =
      ⟨before.toList, [(name.toList, after.toList)]⟩ := by
    rw [← Template.scan_between hb hn hw ha]
    simp [String.toList_append]
  have tokens : Template.hasTokens (before ++ "@" ++ name ++ "@" ++ after) = true := by
    rw [Template.hasTokens, scanned]
    rfl
  have pass : r.pass h (before ++ "@" ++ name ++ "@" ++ after) w =
      .done (before ++ name ++ after) w' := by
    rw [Resolver.pass, Template.substituteOnce, scanned]
    simp only [Template.fill, String.ofList_toList, Act.bind_apply, hv, Act.pure_apply,
      Option.getD_none, String.append_empty, String.append_assoc]
  have plain : Template.hasTokens (before ++ name ++ after) = false := by
    refine Template.hasTokens_eq_false_iff.2 (Template.names_eq_nil_of_forall_ne fun c hc => ?_)
    simp only [String.toList_append, List.mem_append] at hc
    rcases hc with (hc | hc) | hc
    · rintro rfl
      exact hb hc
    · exact Template.ne_at_of_isWordChar (hw c hc)
    · rintro rfl
      exact ha hc
  rw [substitute, Template.maxPasses, substituteUpTo, if_pos tokens, Act.bind_apply, pass]
  dsimp only
  rw [substituteUpTo, if_neg (by rw [plain]; exact Bool.false_ne_true)]
  rfl

end Resolver

/-! ### What a description names -/

theorem textResult_eq_some_iff {x : Except Exception Value} {s : String} :
    textResult x = some s ↔ x = .ok (.str s) := by
  constructor
  · intro h
    unfold textResult at h
    split at h
    · cases h
      rfl
    · cases h
  · rintro rfl
    rfl

namespace Resolver

/-- The template of a description denotes this class, in the default scope. -/
def Denotes (h : Host) (r : Resolver) (d : Mapping.Descriptor) (e : TypeEntry Value)
    (w w' : World) : Prop :=
  ∃ template, d.provider = some template ∧
    (r.resolveClass h template none).run w = .done (.ok e) w'

/-- What the member that a description names comes to when it is run without arguments; nothing if
there is no such member. -/
inductive Yields (h : Host) (r : Resolver) (d : Mapping.Descriptor) :
    Option (Except Exception Value) → World → World → Prop
  /-- The description lacks the name of its class or of its method. -/
  | incomplete {w : World} (lacks : d.provider = none ∨ d.kind = .static ∧ d.value = none) :
    Yields h r d none w w
  /-- There is no such class. -/
  | classless {template : String} {err : BindingError} {w w₁ : World}
    (provider : d.provider = some template)
    (missing : (r.resolveClass h template none).run w = .done (.error err) w₁) :
    Yields h r d none w w₁
  /-- The class has no such method, or one that is not static or has no body. -/
  | unfit {method : String} {e : TypeEntry Value} {o : Option MethodHandle} {w w₁ w₂ : World}
    (kind : d.kind = .static) (denotes : r.Denotes h d e w w₁) (value : d.value = some method)
    (lookup : e.method ⟨method, d.params⟩ w₁ = .done o w₂)
    (unfit : ∀ k ∈ o, k.decl.isStatic = false ∨ k.decl.body = none) :
    Yields h r d none w w₂
  /-- The body of the static method is run without arguments. -/
  | static {method : String} {e : TypeEntry Value} {k : MethodHandle} {body : Expr}
    {x : Except Exception Value} {w w₁ w₂ w₃ : World} (kind : d.kind = .static)
    (denotes : r.Denotes h d e w w₁) (value : d.value = some method)
    (lookup : e.method ⟨method, d.params⟩ w₁ = .done (some k) w₂)
    (fits : k.decl.isStatic = true) (implemented : k.decl.body = some body)
    (run : (h.run body .null []).run w₂ = .done x w₃) : Yields h r d (some x) w w₃
  /-- The class has no constructor without parameters. -/
  | constructorless {e : TypeEntry Value} {w w₁ w₂ : World} (kind : d.kind = .provider)
    (denotes : r.Denotes h d e w w₁) (missing : e.constructor [] w₁ = .done none w₂) :
    Yields h r d none w w₂
  /-- The class has no method that gives the value. -/
  | silent {e : TypeEntry Value} {k : ConstructorHandle} {w w₁ w₂ w₃ : World}
    (kind : d.kind = .provider) (denotes : r.Denotes h d e w w₁)
    (constructor : e.constructor [] w₁ = .done (some k) w₂)
    (missing : e.method ⟨"get", []⟩ w₂ = .done none w₃) : Yields h r d none w w₃
  /-- No instance can be made. -/
  | unmade {e : TypeEntry Value} {k : ConstructorHandle} {get : MethodHandle} {err : Exception}
    {w w₁ w₂ w₃ w₄ : World} (kind : d.kind = .provider) (denotes : r.Denotes h d e w w₁)
    (constructor : e.constructor [] w₁ = .done (some k) w₂)
    (method : e.method ⟨"get", []⟩ w₂ = .done (some get) w₃)
    (fails : (k.construct h []).run w₃ = .done (.error err) w₄) :
    Yields h r d (some (.error err)) w w₄
  /-- A new instance is asked. -/
  | provider {e : TypeEntry Value} {k : ConstructorHandle} {get : MethodHandle} {o : Object}
    {x : Except Exception Value} {w w₁ w₂ w₃ w₄ w₅ : World} (kind : d.kind = .provider)
    (denotes : r.Denotes h d e w w₁) (constructor : e.constructor [] w₁ = .done (some k) w₂)
    (method : e.method ⟨"get", []⟩ w₂ = .done (some get) w₃)
    (made : (k.construct h []).run w₃ = .done (.ok o) w₄)
    (asked : (get.invoke h (.object o) []).run w₄ = .done x w₅) : Yields h r d (some x) w w₅

/-! ### Evaluation, link by link -/

section Links

variable {h : Host} {r : Resolver} {d : Mapping.Descriptor} {e : TypeEntry Value}
  {w w₁ w' : World} {s : String}

/-- The class of a description, as it is looked up. -/
theorem describedClass_eq_done {template : String} {o : Option (TypeEntry Value)} :
    r.describedClass h template w = .done o w' ↔
      ∃ x, (r.resolveClass h template none).run w = .done x w' ∧ x.toOption = o := by
  constructor
  · intro ho
    obtain ⟨x, w₁, hx, ho⟩ := Act.bind_eq_done.1 ho
    cases x <;> cases ho <;> exact ⟨_, hx, rfl⟩
  · rintro ⟨x, hx, rfl⟩
    refine Act.bind_eq_done.2 ⟨x, w', hx, ?_⟩
    cases x <;> rfl

/-- A static description is evaluated by looking its class up and going on with the method. -/
theorem evaluate_static (kind : d.kind = .static) {template method : String}
    (provider : d.provider = some template) (value : d.value = some method) :
    r.evaluate h d = (do
      match ← r.describedClass h template with
      | some e => staticText h e ⟨method, d.params⟩
      | none => return none) := by
  obtain ⟨_, _, _, _, _⟩ := d
  dsimp only at kind provider value
  subst kind provider value
  rfl

/-- A provider description is evaluated by looking its class up and going on with an instance. -/
theorem evaluate_provider (kind : d.kind = .provider) {template : String}
    (provider : d.provider = some template) :
    r.evaluate h d = (do
      match ← r.describedClass h template with
      | some e => providerText h e
      | none => return none) := by
  obtain ⟨_, _, _, _, _⟩ := d
  dsimp only at kind provider
  subst kind provider
  rfl

theorem evaluate_of_incomplete (kind : d.kind = .static ∨ d.kind = .provider)
    (lacks : d.provider = none ∨ d.kind = .static ∧ d.value = none) :
    r.evaluate h d = return none := by
  rcases lacks with lacks | ⟨hstatic, lacks⟩
  · rcases kind with kind | kind <;> simp only [evaluate, kind, lacks]
  · simp only [evaluate, hstatic, lacks]
    cases d.provider <;> rfl

/-- A static method has its arguments counted before its body is run. -/
theorem invoke_of_static {k : MethodHandle} (hk : k.decl.isStatic = true) :
    k.invoke h .null [] =
      if k.decl.params = [] then
        match k.decl.body with
        | some body => h.run body .null []
        | none => throw (.abstractMember (k.decl.name ++ " has no implementation"))
      else throw (.wrongArity k.decl.name k.decl.params.length 0) := by
  rw [MethodHandle.invoke, if_pos hk, MethodDecl.call]
  cases k.decl.params <;> rfl

/-- What a static method gives that was run. -/
theorem staticText_of_run {m : Descriptor} {k : MethodHandle} {x : Except Exception Value}
    (lookup : e.method m w = .done (some k) w₁) (fits : k.decl.isStatic = true)
    (run : (k.invoke h .null []).run w₁ = .done x w') :
    staticText h e m w = .done (textResult x) w' := by
  refine Act.bind_eq_done.2 ⟨some k, w₁, lookup, ?_⟩
  dsimp only
  rw [if_pos fits]
  exact Act.bind_eq_done.2 ⟨x, w', run, rfl⟩

/-- What there is no static method for, or none with a body, gives no text. -/
theorem staticText_of_unfit {m : Descriptor} {o : Option MethodHandle}
    (lookup : e.method m w = .done o w₁)
    (unfit : ∀ k ∈ o, k.decl.isStatic = false ∨ k.decl.body = none) :
    staticText h e m w = .done none w₁ := by
  cases o with
  | none => exact Act.bind_eq_done.2 ⟨none, w₁, lookup, rfl⟩
  | some k =>
    cases fits : k.decl.isStatic with
    | false =>
      refine Act.bind_eq_done.2 ⟨some k, w₁, lookup, ?_⟩
      dsimp only
      rw [if_neg (by simp [fits])]
      rfl
    | true =>
      have bodiless : k.decl.body = none := (unfit k rfl).resolve_left (by simp [fits])
      obtain ⟨err, herr⟩ : ∃ err, k.invoke h .null [] = throw err := by
        rw [invoke_of_static fits, bodiless]
        split <;> exact ⟨_, rfl⟩
      exact staticText_of_run (x := .error err) lookup fits (by rw [herr]; rfl)

/-- A text of a static method comes of running it. -/
theorem run_of_staticText {m : Descriptor} (hs : staticText h e m w = .done (some s) w') :
    ∃ k w₁, e.method m w = .done (some k) w₁ ∧ k.decl.isStatic = true ∧
      (k.invoke h .null []).run w₁ = .done (.ok (.str s)) w' := by
  obtain ⟨o, w₁, lookup, hs⟩ := Act.bind_eq_done.1 hs
  cases o with
  | none => cases hs
  | some k =>
    dsimp only at hs
    split at hs
    · rename_i fits
      obtain ⟨x, w₂, run, hs⟩ := Act.bind_eq_done.1 hs
      simp only [Act.pure_apply, Outcome.done.injEq] at hs
      obtain ⟨htext, rfl⟩ := hs
      rw [textResult_eq_some_iff.1 htext] at run
      exact ⟨k, w₁, lookup, fits, run⟩
    · cases hs

/-- What a new instance of a provider class gives, as far as one can be made. -/
theorem providerText_of_run {k : ConstructorHandle} {get : MethodHandle}
    {x : Except Exception Value} {w₂ : World} (constructor : e.constructor [] w = .done (some k) w₁)
    (method : e.method providerMethod w₁ = .done (some get) w₂)
    (run : (k.construct h [] >>= fun o => get.invoke h (.object o) [] : Attempt _ _).run w₂ =
      .done x w') : providerText h e w = .done (textResult x) w' := by
  refine Act.bind_eq_done.2 ⟨some k, w₁, constructor, ?_⟩
  refine Act.bind_eq_done.2 ⟨some get, w₂, method, ?_⟩
  exact Act.bind_eq_done.2 ⟨x, w', run, rfl⟩

/-- A text of a provider class comes of asking a new instance. -/
theorem run_of_providerText (hs : providerText h e w = .done (some s) w') :
    ∃ k get w₁ w₂ o w₃, e.constructor [] w = .done (some k) w₁ ∧
      e.method providerMethod w₁ = .done (some get) w₂ ∧
      (k.construct h []).run w₂ = .done (.ok o) w₃ ∧
      (get.invoke h (.object o) []).run w₃ = .done (.ok (.str s)) w' := by
  obtain ⟨k, w₁, constructor, hs⟩ := Act.bind_eq_done.1 hs
  cases k with
  | none => cases hs
  | some k =>
    obtain ⟨get, w₂, method, hs⟩ := Act.bind_eq_done.1 hs
    cases get with
    | none => cases hs
    | some get =>
      obtain ⟨x, w₃, run, hs⟩ := Act.bind_eq_done.1 hs
      simp only [Act.pure_apply, Outcome.done.injEq] at hs
      obtain ⟨htext, rfl⟩ := hs
      rw [textResult_eq_some_iff.1 htext] at run
      obtain ⟨o, w₄, made, asked⟩ | ⟨err, -, fails⟩ := Attempt.run_bind_eq_done.1 run
      · exact ⟨k, get, w₁, w₂, o, w₄, constructor, method, made, asked⟩
      · cases fails

end Links

/-! ### Evaluation -/

section Evaluation

variable {r : Resolver} {d : Mapping.Descriptor} {e : TypeEntry Value} {w w₁ w' : World}
  {s : String} {m : Nat}

/-- The method that a static description finds has the parameters of the description. -/
theorem params_of_lookup (hw : w.Sensible) (denotes : r.Denotes (Host.level m) d e w w₁)
    {method : String} {k : MethodHandle} {w₂ : World}
    (lookup : e.method ⟨method, d.params⟩ w₁ = .done (some k) w₂) : k.decl.params = d.params := by
  obtain ⟨template, -, hcls⟩ := denotes
  have keeps := Host.keeps_sensible m
  have hw₁ := (keeps_resolveClass (C := .free fun _ => True) trivial keeps.reads
    World.Sensible.stable.noting template none hw hcls).1
  have signature := (e.keeps_signature ⟨method, d.params⟩ hw₁ lookup).2 k rfl
  exact (Descriptor.mk.inj signature).2.symm

/-- Where the class is denoted, evaluation goes on with it. -/
theorem evaluate_of_denotes {h : Host} (denotes : r.Denotes h d e w w₁) :
    (d.kind = .provider → r.evaluate h d w = providerText h e w₁) ∧
    ∀ method, d.kind = .static → d.value = some method →
      r.evaluate h d w = staticText h e ⟨method, d.params⟩ w₁ := by
  obtain ⟨template, provider, hcls⟩ := denotes
  have found : r.describedClass h template w = .done (some e) w₁ :=
    describedClass_eq_done.2 ⟨_, hcls, rfl⟩
  refine ⟨fun kind => ?_, fun method kind value => ?_⟩
  · rw [evaluate_provider kind provider, Act.bind_apply, found]
  · rw [evaluate_static kind provider value, Act.bind_apply, found]

/-- Whatever the member of a description comes to, evaluation gives the text that it is, if it is
one; but a static method with parameters is not run. -/
theorem evaluate_of_yields (hw : w.Sensible) (kind : d.kind = .static ∨ d.kind = .provider)
    {y : Option (Except Exception Value)} (hy : r.Yields (Host.level m) d y w w₁)
    (plain : d.kind = .static → d.params = [] ∨ y.bind textResult = none) :
    ∃ w₂, r.evaluate (Host.level m) d w = .done (y.bind textResult) w₂ := by
  cases hy with
  | incomplete lacks =>
    rw [evaluate_of_incomplete kind lacks]
    exact ⟨w, rfl⟩
  | @classless template err _ _ provider missing =>
    have none_found : r.describedClass (Host.level m) template w = .done none w₁ :=
      describedClass_eq_done.2 ⟨_, missing, rfl⟩
    rcases kind with kind | kind
    · cases value : d.value with
      | none =>
        rw [evaluate_of_incomplete (.inl kind) (.inr ⟨kind, value⟩)]
        exact ⟨w, rfl⟩
      | some method =>
        rw [evaluate_static kind provider value, Act.bind_apply, none_found]
        exact ⟨w₁, rfl⟩
    · rw [evaluate_provider kind provider, Act.bind_apply, none_found]
      exact ⟨w₁, rfl⟩
  | unfit kind denotes value lookup unfit =>
    rw [(evaluate_of_denotes denotes).2 _ kind value]
    exact ⟨_, staticText_of_unfit lookup unfit⟩
  | @static method e k body x _ w₁ w₂ _ kind denotes value lookup fits implemented run =>
    rw [(evaluate_of_denotes denotes).2 method kind value]
    by_cases params : d.params = []
    · have runs : k.invoke (Host.level m) .null [] = (Host.level m).run body .null [] := by
        rw [invoke_of_static fits, if_pos ((params_of_lookup hw denotes lookup).trans params),
          implemented]
      exact ⟨_, staticText_of_run lookup fits (by rw [runs]; exact run)⟩
    · -- the arguments do not match, which gives no text
      have counted : k.invoke (Host.level m) .null [] =
          throw (.wrongArity k.decl.name k.decl.params.length 0) := by
        rw [invoke_of_static fits, if_neg]
        rw [params_of_lookup hw denotes lookup]
        exact params
      rw [(plain kind).resolve_left params]
      exact ⟨_, staticText_of_run (x := .error _) lookup fits (by rw [counted]; rfl)⟩
  | constructorless kind denotes missing =>
    rw [(evaluate_of_denotes denotes).1 kind]
    exact ⟨_, Act.bind_eq_done.2 ⟨none, _, missing, rfl⟩⟩
  | silent kind denotes constructor missing =>
    rw [(evaluate_of_denotes denotes).1 kind]
    exact ⟨_, Act.bind_eq_done.2 ⟨some _, _, constructor,
      Act.bind_eq_done.2 ⟨none, _, missing, rfl⟩⟩⟩
  | unmade kind denotes constructor method fails =>
    rw [(evaluate_of_denotes denotes).1 kind]
    exact ⟨_, providerText_of_run constructor method
      (Attempt.run_bind_eq_done.2 (.inr ⟨_, fails, rfl⟩))⟩
  | provider kind denotes constructor method made asked =>
    rw [(evaluate_of_denotes denotes).1 kind]
    exact ⟨_, providerText_of_run constructor method
      (Attempt.run_bind_eq_done.2 (.inl ⟨_, _, made, asked⟩))⟩

/-- A text that evaluation gives is what the member of the description comes to. -/
theorem yields_of_evaluate (hw : w.Sensible) (kind : d.kind = .static ∨ d.kind = .provider)
    (hs : r.evaluate (Host.level m) d w = .done (some s) w') :
    r.Yields (Host.level m) d (some (.ok (.str s))) w w' ∧ (d.kind = .static → d.params = []) := by
  obtain ⟨template, provider⟩ : ∃ template, d.provider = some template := by
    cases provider : d.provider with
    | none =>
      rw [evaluate_of_incomplete kind (.inl provider)] at hs
      cases hs
    | some template => exact ⟨template, rfl⟩
  rcases kind with kind | kind
  · obtain ⟨method, value⟩ : ∃ method, d.value = some method := by
      cases value : d.value with
      | none =>
        rw [evaluate_of_incomplete (.inl kind) (.inr ⟨kind, value⟩)] at hs
        cases hs
      | some method => exact ⟨method, rfl⟩
    rw [evaluate_static kind provider value] at hs
    obtain ⟨o, w₁, ho, hs⟩ := Act.bind_eq_done.1 hs
    obtain ⟨x, hcls, rfl⟩ := describedClass_eq_done.1 ho
    cases x with
    | error => cases hs
    | ok e =>
      have denotes : r.Denotes (Host.level m) d e w w₁ := ⟨template, provider, hcls⟩
      obtain ⟨k, w₂, lookup, fits, run⟩ := run_of_staticText hs
      rw [invoke_of_static fits] at run
      split at run
      · rename_i params
        split at run
        · rename_i body implemented
          exact ⟨.static kind denotes value lookup fits implemented run, fun _ =>
            (params_of_lookup hw denotes lookup).symm.trans params⟩
        · cases run
      · cases run
  · rw [evaluate_provider kind provider] at hs
    obtain ⟨o, w₁, ho, hs⟩ := Act.bind_eq_done.1 hs
    obtain ⟨x, hcls, rfl⟩ := describedClass_eq_done.1 ho
    cases x with
    | error => cases hs
    | ok e =>
      obtain ⟨k, get, w₂, w₃, o, w₄, constructor, method, made, asked⟩ := run_of_providerText hs
      refine ⟨.provider kind ⟨template, provider, hcls⟩ constructor method made asked, fun h => ?_⟩
      rw [kind] at h
      cases h

end Evaluation

end Resolver

/-! ### Worlds in which variables are read -/

/-- What holds of a world whenever a variable is read in it, by a client or by a body. -/
structure World.Regular (R : List Resolver) (P : List Provider) (w : World) : Prop where
  sound : w.Sound R P
  sensible : w.Sensible
  apart : w.SlotsApart

/-- Evaluation leads from a regular world only to regular ones. -/
theorem World.Regular.keeps_level (R : List Resolver) (P : List Provider) (m : Nat) :
    (Host.level m).Keeps (.within (· ∈ R)) (World.Regular R P) where
  runs body receiver args hr ha _ _ _ hw h :=
    have sound := (World.Sound.keeps_level R P m).runs body receiver args hr ha hw.sound h
    ⟨⟨sound.1,
      ((Host.keeps_sensible m).runs _ _ _ trivial (fun _ _ => trivial) hw.sensible h).1,
      (World.SlotsApart.keeps_level m |>.runs _ _ _ trivial (fun _ _ => trivial) hw.apart h).1⟩,
      sound.2⟩
  reads r name hr _ _ _ hw h :=
    ⟨⟨((World.Sound.keeps_level R P m).reads r name hr hw.sound h).1,
      ((Host.keeps_sensible m).reads r name trivial hw.sensible h).1,
      ((World.SlotsApart.keeps_level m).reads r name trivial hw.apart h).1⟩, trivial⟩
  renames r owner logical hr _ _ _ hw h :=
    ⟨⟨((World.Sound.keeps_level R P m).renames r owner logical hr hw.sound h).1,
      ((Host.keeps_sensible m).renames r owner logical trivial hw.sensible h).1,
      ((World.SlotsApart.keeps_level m).renames r owner logical trivial hw.apart h).1⟩, trivial⟩

/-- The worlds that a session reaches are regular. -/
theorem Session.Reached.regular {proxied : Value → Bool} {n : Nat} {k : Names} {w : World}
    (hw : Reached proxied (Host.level n) k w) : ∃ R P, w.Regular R P ∧
      ∀ label r, k.resolvers.get? label = some r → r ∈ R := by
  obtain ⟨R, P, founded⟩ := hw.founded
  exact ⟨R, P, ⟨founded.sound, hw.sensible, hw.slotsApart⟩, founded.admitted.resolvers⟩

namespace Resolver

/-! ### Values -/

/-- **A described variable has the text that its member comes to.**  Whenever the description of a
variable is to be evaluated, and its member comes to a text when it is run without arguments, this
text is the value; a static method must be described without parameters for this.  Whatever else the
member comes to, the variable has no value, and in particular it has none if there is no such
member.  Then its token is replaced by its bare name. -/
theorem described_variable_yields {R : List Resolver} {P : List Provider} {r : Resolver}
    {name : String} {d : Mapping.Descriptor} {w : World} (regular : w.Regular R P) (hr : r ∈ R)
    (kind : d.kind = .static ∨ d.kind = .provider) (awaits : r.Awaits name d w) (m : Nat) :
    (∀ s w₁, r.Yields (Host.level m) d (some (.ok (.str s))) (r.begun name d w) w₁ →
      (d.kind = .static → d.params = []) →
      ∃ w', r.valueOf (Host.level m) name w = .done (some s) w') ∧
    (∀ y w₁, r.Yields (Host.level m) d y (r.begun name d w) w₁ →
      (∀ s, y ≠ some (.ok (.str s))) → ∃ w', r.valueOf (Host.level m) name w = .done none w') ∧
    (∀ s w', r.valueOf (Host.level m) name w = .done (some s) w' →
      (d.kind = .static → d.params = []) ∧
        ∃ w₁, r.Yields (Host.level m) d (some (.ok (.str s))) (r.begun name d w) w₁) ∧
    ∀ before after w', '@' ∉ before.toList → '@' ∉ after.toList → name.toList ≠ [] →
      (∀ c ∈ name.toList, isWordChar c = true) →
      r.valueOf (Host.level m) name w = .done none w' →
      r.substitute (Host.level (m + 1)) (before ++ "@" ++ name ++ "@" ++ after) w =
        .done (before ++ name ++ after) w' := by
  have gives := valueOf_gives_iff regular.sound regular.apart hr awaits m
  have sensible : (r.begun name d w).Sensible := by
    unfold begun slotted
    split <;> exact regular.sensible
  refine ⟨fun s w₁ hy plain => ?_, fun y w₁ hy other => ?_, fun s w' hs => ?_,
    fun before after w' hb ha hn hword hv => ?_⟩
  · exact (gives (some s)).2 (evaluate_of_yields sensible kind hy fun h => .inl (plain h))
  · have textless : y.bind textResult = none := by
      cases y with
      | none => rfl
      | some x =>
        refine Option.eq_none_iff_forall_ne_some.2 fun s hs => ?_
        exact other s (congrArg some (textResult_eq_some_iff.1 hs))
    have evaluated := evaluate_of_yields sensible kind hy fun _ => .inr textless
    rw [textless] at evaluated
    exact (gives none).2 evaluated
  · obtain ⟨w₁, hs⟩ := (gives (some s)).1 ⟨w', hs⟩
    obtain ⟨yields, plain⟩ := yields_of_evaluate sensible kind hs
    exact ⟨plain, w₁, yields⟩
  · exact substitute_of_valueless hn hword hv hb ha

end Resolver

/-! ### A static method -/

namespace Describing

open Session Resolver

/-- The variable `v` is what a static method gives. -/
def naming (params : List String) : Mapping.Descriptor :=
  ⟨.static, .cached, some "pkg.Names", some "name", params⟩

/-- The method has these parameters, and gives a text. -/
def requests (params : List String) : List Request := [
  .scope "app" "app" none,
  .define "c" ⟨"pkg.Names", .concrete, none,
    [⟨"name", params, "str", .pub, true, [], some (.literal (.str "s"))⟩], [], [], []⟩ (some "app"),
  .resolver "r" (Mapping.Document.empty.declare "v" (.described (naming params))) "app"]

/-- What is found out when the method is run, and when the variable is read. -/
structure Story where
  /-- The names of the client. -/
  names : Names
  /-- The world before. -/
  before : World
  /-- The resolver. -/
  resolver : Resolver
  /-- The method. -/
  method : MethodHandle
  /-- What its body comes to. -/
  outcome : Except Exception Value
  /-- The value of the variable. -/
  value : Option String

/-- The method is run, and the variable is read. -/
def story (params : List String) : Option Story := do
  let (k, w) ← played 3 (requests params)
  let r ← k.resolvers.get? "r"
  let (x, w₁) ← ((r.resolveClass (Host.level 3) "pkg.Names" none).run
    (r.begun "v" (naming params) w)).seen Prod.mk
  let e ← x.toOption
  let (o, w₂) ← (e.method ⟨"name", params⟩ w₁).seen Prod.mk
  let m ← o
  let body ← m.decl.body
  let y ← (((Host.level 3).run body .null []).run w₂).seen fun y _ => y
  let v ← (r.valueOf (Host.level 3) "v" w).seen fun v _ => v
  return ⟨k, w, r, m, y, v⟩

/-- The variable is about to be evaluated, its method comes to this, and it is read. -/
structure Story.Passes (t : Story) (params : List String) : Prop where
  reached : Reached (fun _ => true) (Host.level 3) t.names t.before
  held : t.names.resolvers.get? "r" = some t.resolver
  yields : t.method.decl.isStatic = true → ∃ w₁, t.resolver.Yields (Host.level 3) (naming params)
    (some t.outcome) (t.resolver.begun "v" (naming params) t.before) w₁
  valued : ∃ w', t.resolver.valueOf (Host.level 3) "v" t.before = .done t.value w'

theorem passes_of_story {params : List String} {t : Story} (h : story params = some t) :
    t.Passes params := by
  simp only [story, Option.bind_eq_bind, Option.bind_eq_some_iff, Option.pure_def,
    Option.some.injEq] at h
  obtain ⟨⟨k, w⟩, hplayed, r, held, ⟨x, w₁⟩, hcls, e, he, ⟨o, w₂⟩, ho, m, hm, body, implemented, y,
    hy, v, hv, rfl⟩ := h
  obtain ⟨_, _, hcls, hsame⟩ := Outcome.exists_of_seen hcls
  cases hsame
  obtain ⟨_, _, ho, hsame⟩ := Outcome.exists_of_seen ho
  cases hsame
  obtain ⟨_, w₃, run, rfl⟩ := Outcome.exists_of_seen hy
  obtain ⟨_, w', value, rfl⟩ := Outcome.exists_of_seen hv
  cases x with
  | error => cases he
  | ok =>
    cases he
    cases hm
    exact ⟨reached_of_played hplayed, held,
      fun fits => ⟨w₃, .static rfl ⟨_, rfl, hcls⟩ rfl ho fits implemented run⟩, w', value⟩

/-- Whether the variable is about to be evaluated in the story. -/
def Story.ready (t : Story) (params : List String) : Bool :=
  decide (t.resolver.document.declarations.get? "v" = some (.described (naming params))) &&
    ((t.before.stateOf t.resolver).registry.get? "v").isNone &&
    (t.before.slotOf t.resolver "v").isNone && !t.before.isEvaluating t.resolver "v"

theorem awaits_of_ready {t : Story} {params : List String} (h : t.ready params = true) :
    t.resolver.Awaits "v" (naming params) t.before := by
  simp only [Story.ready, Bool.and_eq_true, decide_eq_true_eq, Option.isNone_iff_eq_none,
    Bool.not_eq_true'] at h
  obtain ⟨⟨⟨declared, free⟩, slotless⟩, idle⟩ := h
  refine ⟨sourceOf_of_declared declared free, fun id s hs => ?_, idle⟩
  rw [slotless] at hs
  cases hs

end Describing

namespace Resolver

open Describing Session in
/-- A static method without parameters gives its text. -/
theorem static_method_gives_text : ∃ (k : Names) (w w₁ w' : World) (r : Resolver),
    Reached (fun _ => true) (Host.level 3) k w ∧ k.resolvers.get? "r" = some r ∧
      r.Awaits "v" (naming []) w ∧
      r.Yields (Host.level 3) (naming []) (some (.ok (.str "s"))) (r.begun "v" (naming []) w) w₁ ∧
      r.valueOf (Host.level 3) "v" w = .done (some "s") w' := by
  have told : (story []).map (fun t => (t.ready [], t.method.decl.isStatic,
      textResult t.outcome)) = some (true, true, some "s") := by decide +kernel
  obtain ⟨t, ht, hseen⟩ := Option.map_eq_some_iff.1 told
  simp only [Prod.mk.injEq] at hseen
  obtain ⟨ready, fits, htext⟩ := hseen
  have passes := passes_of_story ht
  obtain ⟨w₁, yields⟩ := passes.yields fits
  rw [textResult_eq_some_iff.1 htext] at yields
  obtain ⟨R, P, regular, made⟩ := passes.reached.regular
  obtain ⟨gives, -⟩ := described_variable_yields regular (made "r" _ passes.held) (.inl rfl)
    (awaits_of_ready ready) 3
  obtain ⟨w', value⟩ := gives "s" w₁ yields fun _ => rfl
  exact ⟨t.names, t.before, w₁, w', t.resolver, passes.reached, passes.held, awaits_of_ready ready,
    yields, value⟩

open Describing Session in
/-- A static method that is described with parameters gives no value, whatever its body comes to
without arguments. -/
theorem static_method_with_parameters :
    ¬ ∀ (n : Nat) (k : Names) (w : World), Reached (fun _ => true) (Host.level n) k w →
      ∀ (label : String) (r : Resolver) (name : String) (d : Mapping.Descriptor),
        k.resolvers.get? label = some r → d.kind = .static ∨ d.kind = .provider →
        r.Awaits name d w → ∀ s w₁,
          r.Yields (Host.level n) d (some (.ok (.str s))) (r.begun name d w) w₁ →
            ∃ w', r.valueOf (Host.level n) name w = .done (some s) w' := by
  intro claim
  have told : (story ["int"]).map (fun t => (t.ready ["int"], t.method.decl.isStatic,
      textResult t.outcome, t.value)) = some (true, true, some "s", none) := by decide +kernel
  obtain ⟨t, ht, hseen⟩ := Option.map_eq_some_iff.1 told
  simp only [Prod.mk.injEq] at hseen
  obtain ⟨ready, fits, htext, valueless⟩ := hseen
  have passes := passes_of_story ht
  obtain ⟨w₁, yields⟩ := passes.yields fits
  rw [textResult_eq_some_iff.1 htext] at yields
  obtain ⟨w', value⟩ := claim 3 t.names t.before passes.reached "r" t.resolver "v" (naming ["int"])
    passes.held (.inl rfl) (awaits_of_ready ready) "s" w₁ yields
  obtain ⟨w'', valued⟩ := passes.valued
  rw [value, valueless] at valued
  cases valued

end Resolver

end LateBinding
