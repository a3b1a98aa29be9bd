import LateBinding.Proofs.Evaluation.Names
import LateBinding.Proofs.Handing

/-!
# Stages of calls and constructions

A logical call goes through stages.  The logical method is found (`Adapter.find`), what is to be
done is prepared (`Adapter.prepare`), which may be to run a body, to read a field or to write one
(`Adapter.Job`), and then the job is carried out (`Adapter.carryOut`).  Likewise a new instance is
planned (`Resolver.plan`), constructed and bound.

To find, to prepare and to plan is to look things up and to ask for variables, so bodies are run by
the later stages only: on a receiver that the method's handle picks (`MethodHandle.pick`), or on an
object that has just been made (`Class.start`).
-/

namespace LateBinding

/-! ### Bodies that are run -/

/-- A body with the receiver and the arguments that it is run on. -/
structure Run where
  /-- The body. -/
  body : Expr
  /-- What the body sees as its receiver. -/
  receiver : Value
  /-- What the body sees as its arguments. -/
  args : List Value

/-- Run a body. -/
def Run.perform (h : Host) (u : Run) : Attempt Exception Value := h.run u.body u.receiver u.args

/-- What is run when a method is called on a receiver. -/
def MethodDecl.runOn (m : MethodDecl) (receiver : Value) (args : List Value) :
    Except Exception Run :=
  if args.length ≠ m.params.length then
    .error (.wrongArity m.name m.params.length args.length)
  else
    match m.body with
    | some body => .ok ⟨body, receiver, args⟩
    | none => .error (.abstractMember (m.name ++ " has no implementation"))

theorem MethodDecl.call_eq (h : Host) (m : MethodDecl) (receiver : Value) (args : List Value) :
    m.call h receiver args = liftM (m.runOn receiver args) >>= Run.perform h := by
  unfold call runOn
  split
  · rfl
  · cases m.body <;> rfl

theorem MethodDecl.runOn_eq_ok {m : MethodDecl} {receiver : Value} {args : List Value} {u : Run}
    (h : m.runOn receiver args = .ok u) :
    m.body = some u.body ∧ u.receiver = receiver ∧ u.args = args := by
  unfold runOn at h
  split at h
  · cases h
  split at h
  · rename_i body hbody
    cases h
    exact ⟨hbody, rfl, rfl⟩
  · cases h

namespace MethodHandle

/-- The method that a handle picks for a receiver, with the receiver that the method is given. -/
def pick (m : MethodHandle) (receiver : Value) : Except Exception (MethodDecl × Value) :=
  if m.decl.isStatic then .ok (m.decl, .null)
  else
    match receiver with
    | .null => .error (.nullPointer (m.declaring.name ++ "." ++ m.decl.name ++
        " invoked without a receiver"))
    | .object o => do
      requireInstance m.declaring o
      return (if m.decl.visibility = .priv then m.decl
        else (o.cls.findOverride ⟨m.decl.name, m.decl.params⟩).getD m.decl, receiver)
    | _ => .ok (m.decl, receiver)

/-- What is run when a handle is invoked on a receiver. -/
def runOn (m : MethodHandle) (receiver : Value) (args : List Value) : Except Exception Run := do
  let (d, v) ← m.pick receiver
  d.runOn v args

variable {m : MethodHandle} {receiver : Value} {args : List Value}

theorem receiver_of_pick {d : MethodDecl} {v : Value} (h : m.pick receiver = .ok (d, v)) :
    v = .null ∨ v = receiver := by
  unfold pick at h
  split at h
  · cases h
    exact .inl rfl
  cases receiver with
  | null => cases h
  | object o =>
    dsimp only at h
    cases hreq : requireInstance m.declaring o with
    | error e =>
      rw [hreq] at h
      cases h
    | ok _ =>
      rw [hreq] at h
      cases h
      exact .inr rfl
  | _ =>
    cases h
    exact .inr rfl

theorem runOn_eq_ok {u : Run} (h : m.runOn receiver args = .ok u) :
    ∃ d, m.pick receiver = .ok (d, u.receiver) ∧ d.body = some u.body ∧ u.args = args := by
  unfold runOn at h
  cases hpick : m.pick receiver with
  | error e =>
    rw [hpick] at h
    cases h
  | ok p =>
    rw [hpick] at h
    obtain ⟨hbody, hreceiver, hargs⟩ := MethodDecl.runOn_eq_ok h
    exact ⟨p.1, hreceiver ▸ rfl, hbody, hargs⟩

theorem invoke_eq (h : Host) (m : MethodHandle) (receiver : Value) (args : List Value) :
    m.invoke h receiver args = liftM (m.runOn receiver args) >>= Run.perform h := by
  unfold invoke runOn pick
  split
  · exact m.decl.call_eq h _ _
  · cases receiver with
    | null => rfl
    | object o =>
      dsimp only
      cases hreq : requireInstance m.declaring o with
      | error e => rfl
      | ok _ => exact MethodDecl.call_eq h _ _ _
    | _ => exact m.decl.call_eq h _ _

end MethodHandle

/-- Make the object that a constructor is to be run on. -/
def Class.start (c : Class Value) (k : ConstructorDecl) (args : List Value) :
    Attempt Exception Object := do
  if c.isInterface then
    throw (.illegalArgument ("cannot instantiate interface " ++ c.name))
  if args.length ≠ k.params.length then
    throw (.wrongArity ("constructor of " ++ c.name) k.params.length args.length)
  Object.alloc c

theorem Class.construct_eq (h : Host) (c : Class Value) (k : ConstructorDecl)
    (args : List Value) :
    c.construct h k args = (do
      let o ← c.start k args
      let _ ← Run.perform h ⟨k.init, .object o, args⟩
      return o) := by
  unfold construct start
  dsimp only
  split
  · rfl
  split
  · rfl
  rfl

/-- What comes after a failure of a target is not done. -/
theorem Attempt.ofTarget_error_bind {α β γ : Type} (e : Exception)
    (f : α → Attempt Exception β) (g : β → Attempt BindingError γ) :
    (liftM (Except.error e : Except Exception α) >>= f : Attempt Exception β).ofTarget >>= g =
      throw (.thrown e) := rfl

namespace Adapter

/-! ### Calls -/

/-- A member as a call names it. -/
inductive Member
  /-- By its name alone. -/
  | named (name : String)
  /-- By its signature. -/
  | signed (d : Descriptor)

/-- What is to be done for a call. -/
inductive Job
  /-- Run a body, if there is one to run, and bind the result if a type is given. -/
  | run (u : Except Exception Run) (returns : Option String)
  /-- Read a field, and bind its value. -/
  | get (f : FieldHandle) (returns : String)
  /-- Write a field. -/
  | set (f : FieldHandle) (v : Value)

variable (h : Host) (a : Adapter)

/-- The logical method that a call means. -/
def find : Member → List Value → Attempt BindingError MethodHandle
  | .named name, args => a.select name args
  | .signed d, _ => do
    match (← a.binding.interface.method d).filter fun m => !m.decl.isStatic with
    | some m => return m
    | none => throw (.unknownMember a.interfaceName d.name d.arity)

/-- Call a logical method. -/
def request : Member → List Value → Attempt BindingError Value
  | .named name, args => a.call h name args
  | .signed d, args => a.invoke h d args

/-- The method of the adapted type that a logical method maps to. -/
def realMethod (m : MethodDecl) (rename : Option Marker) : Attempt BindingError MethodHandle := do
  let r := a.binding.resolver
  let params ← r.adaptTypes h a.binding.scope m.params
  let logical := (rename.bind Marker.template?).getD m.name
  r.resolveMethod h a.binding.adapted a.binding.interface logical params

/-- The access to a marked field that a call asks for. -/
def access (m : MethodDecl) (f : FieldHandle) : List Value → Except BindingError Job
  | [] => .ok (.get f m.returns)
  | [v] => .ok (.set f v)
  | args => .error (.thrown (.illegalArgument ("field accessor " ++ m.name ++
      " takes at most one argument, got " ++ toString args.length)))

/-- Prepare what is to be done for a call of a logical method. -/
def prepare (m : MethodHandle) (args : List Value) : Attempt BindingError Job :=
  match m.marker? .field, m.marker? .rename with
  | some marker, _ => do
    match ← a.markedField h m.decl marker with
    | none => throw (← a.missingField h m.decl marker)
    | some f => access m.decl f args
  | none, rename =>
    if m.decl.hasBody && rename.isNone then return .run (m.runOn a.toValue args) none
    else do
      let real ← a.realMethod h m.decl rename
      return .run (real.runOn a.target (args.map Value.unwrap)) (some m.decl.returns)

variable {h a} in
/-- A method without a field marker, and without a body or with a rename, is forwarded. -/
theorem prepare_of_forward {m : MethodHandle} {args : List Value}
    (field : m.marker? .field = none)
    (forward : ¬ (m.decl.hasBody && (m.marker? .rename).isNone) = true) :
    a.prepare h m args = (do
      let real ← a.realMethod h m.decl (m.marker? .rename)
      return .run (real.runOn a.target (args.map Value.unwrap)) (some m.decl.returns)) := by
  simp only [prepare, field, if_neg forward]

/-- Bind a result if a type is given for it. -/
def wrapIfTyped (result : Value) : Option String → Attempt BindingError Value
  | none => return result
  | some type => a.wrapResult h type result

/-- Carry out what was prepared. -/
def carryOut : Job → Attempt BindingError Value
  | .run u returns => do
    let result ← Attempt.ofTarget (liftM u >>= Run.perform h)
    a.wrapIfTyped h result returns
  | .get f type => do a.wrapResult h type (← Attempt.ofTarget (f.get a.target))
  | .set f v => do
    Attempt.ofTarget (f.set a.target v.unwrap)
    return v

/-- Find the logical method that a call means, and prepare what is to be done. -/
def arrange (q : Member) (args : List Value) : Attempt BindingError Job := do
  a.prepare h (← a.find q args) args

theorem forward_eq (m : MethodDecl) (rename : Option Marker) (args : List Value) :
    a.forward h m rename args = (do
      let real ← a.realMethod h m rename
      let result ← Attempt.ofTarget (real.invoke h a.target (args.map Value.unwrap))
      a.wrapResult h m.returns result) := by
  simp only [forward, realMethod, bind_assoc]

theorem accessField_eq (m : MethodDecl) (marker : Marker) (args : List Value) :
    a.accessField h m marker args = (do
      match ← a.markedField h m marker with
      | none => throw (← a.missingField h m marker)
      | some f => a.carryOut h (← access m f args)) := by
  unfold accessField
  congr 1
  funext o
  cases o with
  | none => rfl
  | some f =>
    match args with
    | [] => rfl
    | [_] => rfl
    | _ :: _ :: _ => rfl

theorem dispatch_eq (m : MethodHandle) (args : List Value) :
    a.dispatch h m args = a.prepare h m args >>= a.carryOut h := by
  unfold dispatch prepare
  cases m.marker? .field with
  | some marker =>
    dsimp only
    rw [accessField_eq, bind_assoc]
    congr 1
    funext o
    cases o with
    | none =>
      dsimp only
      rw [bind_assoc]
      rfl
    | some f => rfl
  | none =>
    dsimp only
    split
    · rw [pure_bind, carryOut, MethodHandle.invoke_eq]
      simp only [wrapIfTyped, bind_pure]
    · simp only [forward_eq, bind_assoc, pure_bind, carryOut, wrapIfTyped,
        MethodHandle.invoke_eq]

/-- A call is arranged, and then carried out. -/
theorem request_eq (q : Member) (args : List Value) :
    a.request h q args = a.arrange h q args >>= a.carryOut h := by
  cases q with
  | named name => simp only [request, call, arrange, find, dispatch_eq, bind_assoc]
  | signed d =>
    simp only [request, invoke, arrange, find, dispatch_eq, bind_assoc]
    congr 1
    funext o
    cases o.filter fun m => !m.decl.isStatic with
    | some m => simp only [pure_bind]
    | none => rfl

variable {h a} in
/-- What has been arranged is carried out. -/
theorem request_of_arrange {q : Member} {args : List Value} {job : Job} {w w' : World}
    (harranged : (a.arrange h q args).run w = .done (.ok job) w') :
    (a.request h q args).run w = (a.carryOut h job).run w' := by
  rw [request_eq, ExceptT.run_bind, Act.bind_apply, harranged]

end Adapter

/-! ### New instances -/

/-- What is known of a new instance before it is constructed. -/
structure InstancePlan where
  /-- The interface. -/
  interface : TypeEntry Value
  /-- The scope that the adapted type is looked up in. -/
  scope : Scope
  /-- The name of the adapted type. -/
  name : String
  /-- The adapted type. -/
  adapted : TypeEntry Value
  /-- The types that the parameter types stand for. -/
  params : List String
  /-- The constructor. -/
  ctor : ConstructorHandle

namespace Resolver

variable (h : Host) (r : Resolver)

/-- Plan the construction of an adapted type. -/
def planOf (interface : TypeEntry Value) (scope : Scope) (name : String)
    (adapted : TypeEntry Value) (params : List String) : Attempt BindingError InstancePlan := do
  let params ← r.adaptTypes h scope params
  match ← adapted.constructor params with
  | none => throw (.constructorNotFound adapted.cls.name params interface.cls.name)
  | some k => return ⟨interface, scope, name, adapted, params, k⟩

/-- Plan a new instance. -/
def plan (interface : String) (params : List String) (scope : Option Scope) :
    Attempt BindingError InstancePlan := do
  let e ← r.resolveClass h interface scope
  let template ← e.adaptsTemplate
  let scope := scope.getD r.defaultScope
  let name ← r.substitute h template
  let adapted ← classFound template name (← r.classNamedIn name scope)
  r.planOf h e scope name adapted params

variable {h r}

theorem planOf_eq_ok {interface : TypeEntry Value} {scope : Scope} {name : String}
    {adapted : TypeEntry Value} {params : List String} {p : InstancePlan} {w w' : World}
    (hx : (r.planOf h interface scope name adapted params).run w = .done (.ok p) w') :
    ∃ params' w₁ k, (r.adaptTypes h scope params).run w = .done (.ok params') w₁ ∧
      adapted.constructor params' w₁ = .done (some k) w' ∧
      p = ⟨interface, scope, name, adapted, params', k⟩ := by
  obtain ⟨params', w₁, hparams, hx⟩ | ⟨_, -, hx⟩ := Attempt.run_bind_eq_done.1 hx
  · rw [Attempt.run_liftM_bind_eq] at hx
    obtain ⟨o, w₂, ho, hx⟩ := Act.bind_eq_done.1 hx
    cases o with
    | none => cases hx
    | some k =>
      cases hx
      exact ⟨params', w₁, k, hparams, ho, rfl⟩
  · cases hx

/-- How a plan is made. -/
theorem plan_eq_ok {interface : String} {params : List String} {scope : Option Scope}
    {p : InstancePlan} {w w' : World}
    (hx : (r.plan h interface params scope).run w = .done (.ok p) w') :
    ∃ e template name adapted w₁ w₂ w₃ w₄,
      (r.resolveClass h interface scope).run w = .done (.ok e) w₁ ∧
      e.adaptsTemplate.run w₁ = .done (.ok template) w₂ ∧
      r.substitute h template w₂ = .done name w₃ ∧
      r.classNamedIn name (scope.getD r.defaultScope) w₃ = .done (some adapted) w₄ ∧
      (r.planOf h e (scope.getD r.defaultScope) name adapted params).run w₄ = .done (.ok p) w' := by
  obtain ⟨e, w₁, he, hx⟩ | ⟨_, -, hx⟩ := Attempt.run_bind_eq_done.1 hx
  · obtain ⟨template, w₂, htemplate, hx⟩ | ⟨_, -, hx⟩ := Attempt.run_bind_eq_done.1 hx
    · rw [Attempt.run_liftM_bind_eq] at hx
      obtain ⟨name, w₃, hname, hx⟩ := Act.bind_eq_done.1 hx
      rw [Attempt.run_liftM_bind_eq] at hx
      obtain ⟨o, w₄, ho, hx⟩ := Act.bind_eq_done.1 hx
      cases o with
      | none => cases hx
      | some adapted =>
        exact ⟨e, template, name, adapted, w₁, w₂, w₃, w₄, he, htemplate, hname, ho, hx⟩
    · cases hx
  · cases hx

variable (h r)

/-- The class of a template in a scope is that of its resolved name. -/
theorem resolveClass_some_eq (template : String) (scope : Scope) :
    r.resolveClass h template (some scope) = (do
      let name ← r.substitute h template
      classFound template name (← r.classNamedIn name scope)) := rfl

theorem newInstance_eq (interface : String) (params : List String) (args : List Value)
    (scope : Option Scope) :
    r.newInstance h interface params args scope = (do
      let p ← r.plan h interface params scope
      let o ← Attempt.ofTarget (p.ctor.construct h (args.map Value.unwrap))
      Adapter.bind h r p.interface (.object o) (some p.scope)) := by
  unfold newInstance plan
  dsimp only
  rw [bind_assoc]
  congr 1
  funext e
  rw [bind_assoc]
  congr 1
  funext template
  rw [resolveClass_some_eq]
  simp only [planOf, bind_assoc]
  congr 1
  funext name
  congr 1
  funext found
  congr 1
  funext adapted
  congr 1
  funext params
  congr 1
  funext o
  cases o with
  | none => rfl
  | some k => rw [pure_bind]

variable {h r}

/-- How the construction of a new instance ends: it is not planned, its constructor fails, or the
new object is bound. -/
theorem newInstance_cases {interface : String} {params : List String} {args : List Value}
    {scope : Option Scope} {x : Except BindingError Adapter} {w w' : World}
    (hx : (r.newInstance h interface params args scope).run w = .done x w') :
    (∃ e, (r.plan h interface params scope).run w = .done (.error e) w' ∧ x = .error e) ∨
    ∃ p w₁, (r.plan h interface params scope).run w = .done (.ok p) w₁ ∧
      ((∃ e, (p.ctor.construct h (args.map Value.unwrap)).run w₁ = .done (.error e) w' ∧
          x = .error (.thrown e)) ∨
        ∃ o w₂, (p.ctor.construct h (args.map Value.unwrap)).run w₁ = .done (.ok o) w₂ ∧
          (Adapter.bind h r p.interface (.object o) (some p.scope)).run w₂ = .done x w') := by
  rw [newInstance_eq] at hx
  obtain ⟨p, w₁, hp, hx⟩ | ⟨e, he, rfl⟩ := Attempt.run_bind_eq_done.1 hx
  · refine .inr ⟨p, w₁, hp, ?_⟩
    obtain ⟨o, w₂, ho, hx⟩ | ⟨e, he, rfl⟩ := Attempt.run_bind_eq_done.1 hx
    · exact .inr ⟨o, w₂, Attempt.run_adapt_eq_done.1 ho, hx⟩
    · obtain ⟨e', he', rfl⟩ := Attempt.run_adapt_eq_error.1 he
      exact .inl ⟨e', he', rfl⟩
  · exact .inl ⟨e, he, rfl⟩

end Resolver

end LateBinding
