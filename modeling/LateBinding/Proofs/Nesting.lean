import LateBinding.Machine
import LateBinding.Proofs.Session
import LateBinding.Proofs.Stages

/-!
# Failures arrive through any nesting

A client calls adapters and makes instances, and so do the bodies that are run for it, to any depth
(`Deed`).  Doing a deed comes to running a body (`Deed.start`), evaluating a body comes to doing
another deed (`Expr.ComesTo`), and so on (`Deed.Nests`).  A body does not catch what the deeds that
it comes to fail with (`Expr.ComesTo.fails`), so what the innermost deed fails with is what the
outermost one fails with.

* `Deed.failures_arrive` : **the exception of the innermost body arrives as it is**, at any depth,
  **and an error of binding arrives as one exception** with the text of the error.
-/

namespace LateBinding

/-! ### Deeds -/

/-- What a client or a body does through adapters and constructors. -/
inductive Deed
  /-- Call an adapter. -/
  | call (a : Adapter) (q : Adapter.Member) (args : List Value)
  /-- Make a new instance. -/
  | make (r : Resolver) (interface : String) (params : List String) (args : List Value)
    (scope : Option Scope)
  /-- Construct an object. -/
  | construct (c : Class Value) (k : ConstructorDecl) (args : List Value)

namespace Deed

/-- Do it. -/
def perform (h : Host) : Deed → Attempt BindingError Value
  | call a q args => a.request h q args
  | make r interface params args scope => do
    return (← r.newInstance h interface params args scope).toValue
  | construct c k args => do return .object (← Attempt.ofTarget (c.construct h k args))

/-- Begin to do it, up to where a body is to be run, if one is. -/
def start (h : Host) : Deed → Attempt BindingError (Option Run)
  | call a q args => do
    match ← a.arrange h q args with
    | .run (.ok u) _ => return some u
    | _ => return none
  | make r interface params args scope => do
    let p ← r.plan h interface params scope
    let o ← Attempt.ofTarget (p.ctor.cls.start p.ctor.decl (args.map Value.unwrap))
    return some ⟨p.ctor.decl.init, .object o, args.map Value.unwrap⟩
  | construct c k args => do
    let o ← Attempt.ofTarget (c.start k args)
    return some ⟨k.init, .object o, args⟩

variable {h : Host} {u : Run} {w w₁ w₂ : World} {e : Exception}

theorem construct_of_start {c : Class Value} {k : ConstructorDecl} {args : List Value} {o : Object}
    (ho : (c.start k args).run w = .done (.ok o) w₁)
    (hu : (Run.perform h ⟨k.init, .object o, args⟩).run w₁ = .done (.error e) w₂) :
    (c.construct h k args).run w = .done (.error e) w₂ := by
  rw [Class.construct_eq]
  exact Attempt.run_bind_eq_done.2 (.inl ⟨o, w₁, ho,
    Attempt.run_bind_eq_done.2 (.inr ⟨e, hu, rfl⟩)⟩)

/-- What the body that is run fails with is what the deed fails with. -/
theorem perform_of_start {d : Deed} (hs : (d.start h).run w = .done (.ok (some u)) w₁)
    (hu : (u.perform h).run w₁ = .done (.error e) w₂) :
    (d.perform h).run w = .done (.error (.thrown e)) w₂ := by
  cases d with
  | call a q args =>
    obtain ⟨job, w', hjob, hs⟩ | ⟨_, -, hs⟩ := Attempt.run_bind_eq_done.1 hs
    · split at hs
      · cases hs
        rw [perform, Adapter.request_of_arrange hjob]
        refine Attempt.run_bind_eq_done.2 (.inr ⟨_, ?_, rfl⟩)
        refine Attempt.run_adapt_eq_error.2 ⟨e, ?_, rfl⟩
        exact Attempt.run_except_bind_eq_done.2 (.inl ⟨u, rfl, hu⟩)
      · cases hs
    · cases hs
  | make r interface params args scope =>
    obtain ⟨p, w', hp, hs⟩ | ⟨_, -, hs⟩ := Attempt.run_bind_eq_done.1 hs
    · obtain ⟨o, w'', ho, hs⟩ | ⟨_, -, hs⟩ := Attempt.run_bind_eq_done.1 hs
      · cases hs
        have constructed := construct_of_start (Attempt.run_ofTarget_eq_done.1 ho) hu
        refine Attempt.run_bind_eq_done.2 (.inr ⟨_, ?_, rfl⟩)
        rw [Resolver.newInstance_eq]
        refine Attempt.run_bind_eq_done.2 (.inl ⟨p, w', hp, ?_⟩)
        refine Attempt.run_bind_eq_done.2 (.inr ⟨_, ?_, rfl⟩)
        exact Attempt.run_adapt_eq_error.2 ⟨e, constructed, rfl⟩
      · cases hs
    · cases hs
  | construct c k args =>
    obtain ⟨o, w', ho, hs⟩ | ⟨_, -, hs⟩ := Attempt.run_bind_eq_done.1 hs
    · cases hs
      have constructed := construct_of_start (Attempt.run_ofTarget_eq_done.1 ho) hu
      refine Attempt.run_bind_eq_done.2 (.inr ⟨_, ?_, rfl⟩)
      exact Attempt.run_adapt_eq_error.2 ⟨e, constructed, rfl⟩
    · cases hs

end Deed

/-! ### Evaluation -/

namespace Expr

/-- The parts of an expression that are evaluated in any case, in the order of their evaluation. -/
def operands : Expr → List Expr
  | literal _ | register _ | this | arg _ | fail _ _ => []
  | get e _ | decimal e | typeName e | store _ e | unwrap e => [e]
  | set e _ x => [e, x]
  | add a b | equal a b => [a, b]
  | choose c _ _ => [c]
  | concat es | sequence es | spawn _ es => es
  | call e _ es => e :: es

/-- Whether the values of the operands have to be texts, which is seen before the next operand is
evaluated. -/
def wantsTexts : Expr → Bool
  | concat _ => true
  | _ => false

/-- Evaluating an expression comes to doing a deed: all that is evaluated before has succeeded. -/
inductive ComesTo (h : Host) (receiver : Value) (args : List Value) :
    Expr → World → Deed → World → Prop
  /-- An adapter is called. -/
  | call {e : Expr} {name : String} {es : List Expr} {id : Identity} {b : Binding Value}
    {target : Value} {vs : List Value} {w w₁ w₂ : World}
    (on : (e.eval h receiver args).run w = .done (.ok (.proxy id (.adapter b) target)) w₁)
    (given : (evalAll h receiver args es).run w₁ = .done (.ok vs) w₂) :
    ComesTo h receiver args (.call e name es) w (.call ⟨id, b, target⟩ (.named name) vs) w₂
  /-- Another object of the class of the receiver is constructed. -/
  | spawn {params : List String} {es : List Expr} {o : Object} {k : ConstructorDecl}
    {vs : List Value} {w w₁ : World}
    (given : (evalAll h receiver args es).run w = .done (.ok vs) w₁)
    (like : receiver = .object o) (ctor : o.cls.decl.constructor? params = some k) :
    ComesTo h receiver args (.spawn params es) w (.construct o.cls k vs) w₁
  /-- An operand comes to it. -/
  | operand {e x : Expr} {before after : List Expr} {vs : List Value} {d : Deed}
    {w w₁ w₂ : World} (parts : e.operands = before ++ x :: after)
    (passed : (evalAll h receiver args before).run w = .done (.ok vs) w₁)
    (texts : e.wantsTexts = true → ∀ v ∈ vs, v.str?.isSome = true)
    (there : ComesTo h receiver args x w₁ d w₂) : ComesTo h receiver args e w d w₂
  /-- The condition is true, and the first alternative comes to it. -/
  | first {c x y : Expr} {d : Deed} {w w₁ w₂ : World}
    (chosen : (c.eval h receiver args).run w = .done (.ok (.bool true)) w₁)
    (there : ComesTo h receiver args x w₁ d w₂) :
    ComesTo h receiver args (.choose c x y) w d w₂
  /-- The condition is not true, and the second alternative comes to it. -/
  | second {c x y : Expr} {v : Value} {d : Deed} {w w₁ w₂ : World}
    (chosen : (c.eval h receiver args).run w = .done (.ok v) w₁) (other : v ≠ .bool true)
    (there : ComesTo h receiver args y w₁ d w₂) :
    ComesTo h receiver args (.choose c x y) w d w₂

section Strict

variable {h : Host} {receiver : Value} {args : List Value}

theorem evalAll_cons_bind {α : Type} (x : Expr) (xs : List Expr)
    (k : List Value → Attempt Exception α) :
    evalAll h receiver args (x :: xs) >>= k =
      x.eval h receiver args >>= fun v => evalAll h receiver args xs >>= fun vs => k (v :: vs) := by
  simp only [evalAll, bind_assoc, pure_bind]

theorem bind_eq_evalAll (x : Expr) (f : Value → Attempt Exception Value) :
    ∃ k, x.eval h receiver args >>= f = evalAll h receiver args [x] >>= k := by
  refine ⟨fun vs => f (vs.headD .null), ?_⟩
  rw [evalAll_cons_bind]
  rfl

theorem bind_bind_eq_evalAll (x y : Expr) (f : Value → Value → Attempt Exception Value) :
    ∃ k, (x.eval h receiver args >>= fun v => y.eval h receiver args >>= f v) =
      evalAll h receiver args [x, y] >>= k := by
  refine ⟨fun vs => f (vs.headD .null) (vs.tail.headD .null), ?_⟩
  rw [evalAll_cons_bind]
  congr 1
  funext v
  rw [evalAll_cons_bind]
  rfl

theorem evalLast_eq (es : List Expr) (last : Value) :
    evalLast h receiver args last es =
      evalAll h receiver args es >>= fun vs => return vs.getLastD last := by
  induction es generalizing last with
  | nil => rfl
  | cons e es ih =>
    rw [evalAll_cons_bind, evalLast]
    congr 1
    funext v
    rw [ih v]
    congr 1
    funext vs
    cases vs <;> rfl

/-- All operands are evaluated first, from left to right. -/
theorem eval_eq_bind_evalAll (h : Host) (receiver : Value) (args : List Value) (e : Expr)
    (texts : e.wantsTexts = false) :
    ∃ k : List Value → Attempt Exception Value,
      e.eval h receiver args = evalAll h receiver args e.operands >>= k := by
  cases e with
  | literal l => exact ⟨fun _ => return l.toValue, rfl⟩
  | register name => exact ⟨fun _ => Act.register name, rfl⟩
  | this => exact ⟨fun _ => return receiver, rfl⟩
  | arg i => exact ⟨fun _ => return args[i]?.getD .null, rfl⟩
  | fail kind message => exact ⟨fun _ => throw ⟨kind, message⟩, rfl⟩
  | get e _ | decimal e | typeName e | choose e _ _ | store _ e | unwrap e =>
    exact bind_eq_evalAll e _
  | set e _ x => exact bind_bind_eq_evalAll e x _
  | add a b | equal a b => exact bind_bind_eq_evalAll a b _
  | concat es => cases texts
  | sequence es => exact ⟨_, evalLast_eq es .null⟩
  | spawn params es => exact ⟨_, rfl⟩
  | call e name es =>
    refine ⟨fun vs => callOn h (vs.headD .null) name vs.tail, ?_⟩
    rw [operands, evalAll_cons_bind]
    rfl

variable {w w₁ w₂ : World} {x : Expr} {before after : List Expr} {vs : List Value} {e : Exception}

theorem evalAll_cons_eq_ok {y : Expr} {ys : List Expr}
    (h' : (evalAll h receiver args (y :: ys)).run w = .done (.ok vs) w₁) :
    ∃ v us w', (y.eval h receiver args).run w = .done (.ok v) w' ∧
      (evalAll h receiver args ys).run w' = .done (.ok us) w₁ ∧ vs = v :: us := by
  obtain ⟨v, w', hv, h'⟩ | ⟨_, -, h'⟩ := Attempt.run_bind_eq_done.1 h'
  · obtain ⟨us, w'', hus, h'⟩ | ⟨_, -, h'⟩ := Attempt.run_bind_eq_done.1 h'
    · cases h'
      exact ⟨v, us, w', hv, hus, rfl⟩
    · cases h'
  · cases h'

/-- The first operand that fails makes the evaluation fail. -/
theorem evalAll_fails (passed : (evalAll h receiver args before).run w = .done (.ok vs) w₁)
    (fails : (x.eval h receiver args).run w₁ = .done (.error e) w₂) :
    (evalAll h receiver args (before ++ x :: after)).run w = .done (.error e) w₂ := by
  induction before generalizing w vs with
  | nil =>
    cases passed
    exact Attempt.run_bind_eq_done.2 (.inr ⟨e, fails, rfl⟩)
  | cons y ys ih =>
    obtain ⟨v, us, w', hv, hus, -⟩ := evalAll_cons_eq_ok passed
    exact Attempt.run_bind_eq_done.2 (.inl ⟨v, w', hv,
      Attempt.run_bind_eq_done.2 (.inr ⟨e, ih hus, rfl⟩)⟩)

theorem evalTexts_fails (passed : (evalAll h receiver args before).run w = .done (.ok vs) w₁)
    (texts : ∀ v ∈ vs, v.str?.isSome = true)
    (fails : (x.eval h receiver args).run w₁ = .done (.error e) w₂) :
    (evalTexts h receiver args (before ++ x :: after)).run w = .done (.error e) w₂ := by
  induction before generalizing w vs with
  | nil =>
    cases passed
    exact Attempt.run_bind_eq_done.2 (.inr ⟨e, fails, rfl⟩)
  | cons y ys ih =>
    obtain ⟨v, us, w', hv, hus, rfl⟩ := evalAll_cons_eq_ok passed
    obtain ⟨s, hs⟩ := Option.isSome_iff_exists.1 (texts v List.mem_cons_self)
    have text : v.expectStr = .ok s := by
      rw [Value.expectStr, Value.demand, hs]
    refine Attempt.run_bind_eq_done.2 (.inl ⟨v, w', hv, ?_⟩)
    refine Attempt.run_except_bind_eq_done.2 (.inl ⟨s, text, ?_⟩)
    exact Attempt.run_bind_eq_done.2 (.inr ⟨e, ih hus fun u hu =>
      texts u (List.mem_cons_of_mem v hu), rfl⟩)

/-- An operand that fails makes the expression fail. -/
theorem eval_fails {y : Expr} (parts : y.operands = before ++ x :: after)
    (passed : (evalAll h receiver args before).run w = .done (.ok vs) w₁)
    (texts : y.wantsTexts = true → ∀ v ∈ vs, v.str?.isSome = true)
    (fails : (x.eval h receiver args).run w₁ = .done (.error e) w₂) :
    (y.eval h receiver args).run w = .done (.error e) w₂ := by
  cases hy : y.wantsTexts with
  | false =>
    obtain ⟨k, hk⟩ := eval_eq_bind_evalAll h receiver args y hy
    rw [hk, parts]
    exact Attempt.run_bind_eq_done.2 (.inr ⟨e, evalAll_fails passed fails, rfl⟩)
  | true =>
    cases y with
    | concat es =>
      obtain rfl : es = before ++ x :: after := parts
      exact Attempt.run_bind_eq_done.2 (.inr ⟨e, evalTexts_fails passed (texts hy) fails, rfl⟩)
    | _ => cases hy

end Strict

/-- **A body does not catch** what the deed that it comes to fails with: it fails with the same
exception, and with one that has the text of an error of binding. -/
theorem ComesTo.fails {h : Host} {receiver : Value} {args : List Value} {e : Expr} {d : Deed}
    {err : BindingError} {w w₁ w₂ : World} (hd : ComesTo h receiver args e w d w₁)
    (fails : (d.perform h).run w₁ = .done (.error err) w₂) :
    (e.eval h receiver args).run w = .done (.error err.toException) w₂ := by
  induction hd with
  | call on given =>
    refine Attempt.run_bind_eq_done.2 (.inl ⟨_, _, on, ?_⟩)
    refine Attempt.run_bind_eq_done.2 (.inl ⟨_, _, given, ?_⟩)
    exact Attempt.run_adapt_eq_error.2 ⟨err, fails, rfl⟩
  | spawn given like ctor =>
    obtain ⟨_, _, -, fails⟩ | ⟨_, fails, herr⟩ := Attempt.run_bind_eq_done.1 fails
    · cases fails
    cases herr
    obtain ⟨ex, hex, rfl⟩ := Attempt.run_adapt_eq_error.1 fails
    refine Attempt.run_bind_eq_done.2 (.inl ⟨_, _, given, ?_⟩)
    rw [like, spawnLike]
    refine Attempt.run_except_bind_eq_done.2 (.inl ⟨_, rfl, ?_⟩)
    rw [ctor]
    exact Attempt.run_bind_eq_done.2 (.inr ⟨ex, hex, rfl⟩)
  | operand parts passed texts _ ih => exact eval_fails parts passed texts (ih fails)
  | first chosen _ ih =>
    exact Attempt.run_bind_eq_done.2 (.inl ⟨_, _, chosen, ih fails⟩)
  | second chosen other _ ih =>
    refine Attempt.run_bind_eq_done.2 (.inl ⟨_, _, chosen, ?_⟩)
    split
    · exact absurd rfl other
    · exact ih fails

end Expr

/-! ### Nesting -/

/-- Doing a deed, with so many levels of evaluation left, comes through so many bodies, each of
which is run by one deed and comes to the next, to doing another deed with the levels that are left
then. -/
inductive Deed.Nests : Nat → Deed → World → Nat → Nat → Deed → World → Prop
  /-- No body is run. -/
  | here (n : Nat) (d : Deed) (w : World) : Nests n d w 0 n d w
  /-- A body is run, and comes to a deed. -/
  | inside {n n' depth : Nat} {d d₁ d' : Deed} {u : Run} {w w₁ w₂ w' : World}
    (runs : (d.start (Host.level (n + 1))).run w = .done (.ok (some u)) w₁)
    (comes : u.body.ComesTo (Host.level n) u.receiver u.args w₁ d₁ w₂)
    (rest : Nests n d₁ w₂ depth n' d' w') : Nests (n + 1) d w (depth + 1) n' d' w'

namespace Deed

variable {n n' depth : Nat} {d d' : Deed} {w w' w₂ : World}

/-- What the innermost deed fails with arrives, as an exception if any body was run. -/
theorem Nests.fails {err : BindingError} (hd : Nests n d w depth n' d' w')
    (fails : (d'.perform (Host.level n')).run w' = .done (.error err) w₂) :
    (d.perform (Host.level n)).run w =
      .done (.error (if depth = 0 then err else .thrown err.toException)) w₂ := by
  induction hd with
  | here => exact fails
  | @inside n n' depth d d₁ d' u w w₁ w₃ w' runs comes rest ih =>
    have caught := comes.fails (ih fails)
    have ran : (u.perform (Host.level (n + 1))).run w₁ = .done (.error err.toException) w₂ := by
      -- the exception of an error stays as it is at further levels
      split at caught <;> exact caught
    exact perform_of_start runs ran

/-- **Failures arrive through any nesting.**  If the body that the innermost deed runs fails with an
exception, the outermost deed fails with that exception.  If a deed that some body comes to fails
with an error of binding, the outermost deed fails with one exception, which has the text of that
error. -/
theorem failures_arrive (hd : Nests n d w depth n' d' w') :
    (∀ u e w₁, (d'.start (Host.level n')).run w' = .done (.ok (some u)) w₁ →
      (u.perform (Host.level n')).run w₁ = .done (.error e) w₂ →
        (d.perform (Host.level n)).run w = .done (.error (.thrown e)) w₂) ∧
    ∀ err, 0 < depth → (∀ e, err ≠ .thrown e) →
      (d'.perform (Host.level n')).run w' = .done (.error err) w₂ →
        (d.perform (Host.level n)).run w =
          .done (.error (.thrown ⟨"NoSuchMember", err.text⟩)) w₂ := by
  constructor
  · intro u e w₁ runs raises
    rw [hd.fails (perform_of_start runs raises)]
    split <;> rfl
  · intro err inner binding fails
    rw [hd.fails fails, if_neg (Nat.ne_of_gt inner)]
    cases err with
    | thrown e => exact absurd rfl (binding e)
    | _ => rfl

end Deed

/-! ### Bodies that do nothing but call -/

/-- The deed that a call comes to. -/
def Expr.called? (h : Host) (receiver : Value) (args : List Value) (w : World) :
    Expr → Option (Deed × World)
  | .call e name es =>
    match (e.eval h receiver args).run w with
    | .done (.ok (.proxy id (.adapter b) target)) w₁ =>
      match (evalAll h receiver args es).run w₁ with
      | .done (.ok vs) w₂ => some (.call ⟨id, b, target⟩ (.named name) vs, w₂)
      | _ => none
    | _ => none
  | _ => none

theorem Expr.comesTo_of_called? {h : Host} {receiver : Value} {args : List Value} {e : Expr}
    {w w' : World} {d : Deed} (hd : e.called? h receiver args w = some (d, w')) :
    e.ComesTo h receiver args w d w' := by
  unfold called? at hd
  split at hd
  · split at hd
    · rename_i on
      split at hd
      · rename_i given
        cases hd
        exact .call on given
      · cases hd
    · cases hd
  · cases hd

/-- Follow calls to a depth. -/
def Deed.follow : Nat → Nat → Deed → World → Option (Nat × Deed × World)
  | n, 0, d, w => some (n, d, w)
  | 0, _ + 1, _, _ => none
  | n + 1, depth + 1, d, w =>
    match (d.start (Host.level (n + 1))).run w with
    | .done (.ok (some u)) w₁ =>
      (u.body.called? (Host.level n) u.receiver u.args w₁).bind fun x => follow n depth x.1 x.2
    | _ => none

theorem Deed.nests_of_follow {n n' depth : Nat} {d d' : Deed} {w w' : World}
    (hd : follow n depth d w = some (n', d', w')) : Nests n d w depth n' d' w' := by
  induction depth generalizing n d w with
  | zero =>
    unfold follow at hd
    cases hd
    exact .here _ _ _
  | succ depth ih =>
    cases n with
    | zero => cases hd
    | succ n =>
      unfold follow at hd
      split at hd
      · rename_i runs
        obtain ⟨⟨d₁, w₂⟩, comes, rest⟩ := Option.bind_eq_some_iff.1 hd
        exact .inside runs (Expr.comesTo_of_called? comes) (ih rest)
      · cases hd

/-! ### A nest -/

namespace Relays

open Session

/-- A method without parameters. -/
def method (name : String) (body : Option Expr) : MethodDecl :=
  ⟨name, [], "any", .pub, false, [], body⟩

/-- Constructors of one class call the adapter of a second one, whose methods call the adapter of a
third one, which has a default method.  Two resolvers are used. -/
def requests : List Request := [
  .scope "app" "app" none,
  .define "raw a" ⟨"pkg.A", .concrete, none, [], [],
    [⟨[], .pub, .call (.register "b") "go" []⟩, ⟨["int"], .pub, .call (.register "b") "lose" []⟩],
    []⟩ (some "app"),
  .define "raw b" ⟨"pkg.B", .concrete, none,
    [method "go" (some (.call (.register "c") "knock" [])),
      method "lose" (some (.call (.register "c") "lost" []))], [], [], []⟩ (some "app"),
  .define "raw c" ⟨"pkg.C", .concrete, none, [method "boom" (some (.fail "Custom" "boom"))],
    [], [], []⟩ (some "app"),
  .define "a" ⟨"app.A", .interface, none, [], [], [], [.adapts "pkg.A"]⟩ (some "app"),
  .define "b" ⟨"app.B", .interface, none, [method "go" none, method "lose" none], [], [],
    [.adapts "pkg.B"]⟩ (some "app"),
  .define "c" ⟨"app.C", .interface, none,
    [method "boom" none, method "knock" (some (.call .this "boom" []))], [], [],
    [.adapts "pkg.C"]⟩ (some "app"),
  .resolver "r" ∅ "app",
  .resolver "s" ∅ "app",
  .newInstance "c" "s" "app.C" [] [] none,
  .newInstance "b" "r" "app.B" [] [] none]

/-- A new instance, made by the constructor of these parameters. -/
def deed (r : Resolver) (params : List String) (args : List Value) : Deed :=
  .make r "app.A" params args none

/-- What is found out when the construction is followed to a depth. -/
structure Story where
  /-- The names of the client. -/
  names : Names
  /-- The world before. -/
  before : World
  /-- The resolver. -/
  resolver : Resolver
  /-- The levels that are left at the innermost deed. -/
  level : Nat
  /-- The innermost deed. -/
  inner : Deed
  /-- The world in which that is done. -/
  world : World

/-- The construction is followed to a depth. -/
def story (depth : Nat) (params : List String) (args : List Value) : Option Story := do
  let (k, w) ← played 5 requests
  let r ← k.resolvers.get? "r"
  let (n, d, w') ← (deed r params args).follow 5 depth w
  return ⟨k, w, r, n, d, w'⟩

/-- What happened in a story. -/
theorem story_eq_some {depth : Nat} {params : List String} {args : List Value} {t : Story}
    (h : story depth params args = some t) :
    played 5 requests = some (t.names, t.before) ∧
      t.names.resolvers.get? "r" = some t.resolver ∧
      (deed t.resolver params args).Nests 5 t.before depth t.level t.inner t.world := by
  simp only [story, Option.bind_eq_bind, Option.bind_eq_some_iff, Option.pure_def,
    Option.some.injEq] at h
  obtain ⟨⟨k, w⟩, hplayed, r, hr, ⟨n, d, w'⟩, hd, rfl⟩ := h
  exact ⟨hplayed, hr, Deed.nests_of_follow hd⟩

/-- What the body that the innermost deed runs fails with. -/
def Story.raised (t : Story) : Option Exception :=
  match (t.inner.start (Host.level t.level)).run t.world with
  | .done (.ok (some u)) w => ((u.perform (Host.level t.level)).run w).failure
  | _ => none

theorem exists_of_raised {t : Story} {e : Exception} (h : t.raised = some e) :
    ∃ u w₁ w₂, (t.inner.start (Host.level t.level)).run t.world = .done (.ok (some u)) w₁ ∧
      (u.perform (Host.level t.level)).run w₁ = .done (.error e) w₂ := by
  unfold Story.raised at h
  split at h
  · rename_i u w₁ runs
    obtain ⟨w₂, raises⟩ := Outcome.exists_of_failure h
    exact ⟨u, w₁, w₂, runs, raises⟩
  · cases h

/-- The text of the error of binding that the innermost deed fails with. -/
def Story.refused (t : Story) : Option String :=
  ((t.inner.perform (Host.level t.level)).run t.world).failure.bind fun err =>
    if err.isResolutionFailure then some err.text else none

theorem exists_of_refused {t : Story} {s : String} (h : t.refused = some s) :
    ∃ err w, (∀ e, err ≠ .thrown e) ∧ err.text = s ∧
      (t.inner.perform (Host.level t.level)).run t.world = .done (.error err) w := by
  obtain ⟨err, fails, h⟩ := Option.bind_eq_some_iff.1 h
  obtain ⟨w, fails⟩ := Outcome.exists_of_failure fails
  split at h
  · rename_i resolution
    refine ⟨err, w, ?_, Option.some.inj h, fails⟩
    rintro e rfl
    cases resolution
  · cases h

end Relays

open Relays Session in
/-- An exception arrives through a constructor, a method and a default method, and the failure of a
lookup through a constructor and a method. -/
theorem boom_arrives : ∃ (k : Names) (r : Resolver) (w w₁ w₂ : World) (n₁ n₂ : Nat) (d₁ d₂ : Deed)
    (w₁' w₂' : World), Reached (fun _ => true) (Host.level 5) k w ∧
      k.resolvers.get? "r" = some r ∧
      (deed r [] []).Nests 5 w 3 n₁ d₁ w₁ ∧ (deed r ["int"] [.int 1]).Nests 5 w 2 n₂ d₂ w₂ ∧
      ((deed r [] []).perform (Host.level 5)).run w =
        .done (.error (.thrown ⟨"Custom", "boom"⟩)) w₁' ∧
      ((deed r ["int"] [.int 1]).perform (Host.level 5)).run w =
        .done (.error (.thrown ⟨"NoSuchMember",
          "interface app.C has no member lost taking 0 argument(s)"⟩)) w₂' := by
  obtain ⟨t, ht, boom⟩ := Option.bind_eq_some_iff.1 (show
    (story 3 [] []).bind Story.raised = some ⟨"Custom", "boom"⟩ by decide +kernel)
  obtain ⟨t', ht', lost⟩ := Option.bind_eq_some_iff.1 (show
    (story 2 ["int"] [.int 1]).bind Story.refused =
      some "interface app.C has no member lost taking 0 argument(s)" by decide +kernel)
  obtain ⟨hplayed, hr, nests⟩ := story_eq_some ht
  obtain ⟨hplayed', hr', nests'⟩ := story_eq_some ht'
  obtain ⟨u, w₁, w₂, runs, raises⟩ := exists_of_raised boom
  obtain ⟨err, w₃, binding, text, fails⟩ := exists_of_refused lost
  -- both begin in the same world and with the same resolver
  obtain ⟨hnames, hbefore⟩ := Prod.mk.inj (Option.some.inj (hplayed.symm.trans hplayed'))
  have hresolver : t.resolver = t'.resolver := by
    rw [← hnames] at hr'
    exact Option.some.inj (hr.symm.trans hr')
  rw [← hbefore, ← hresolver] at nests'
  refine ⟨t.names, t.resolver, t.before, t.world, t'.world, t.level, t'.level, t.inner, t'.inner,
    w₂, w₃, reached_of_played hplayed, hr, nests, nests',
    (Deed.failures_arrive nests).1 u _ w₁ runs raises, ?_⟩
  rw [← text]
  exact (Deed.failures_arrive nests').2 err (by decide) binding fails

end LateBinding
