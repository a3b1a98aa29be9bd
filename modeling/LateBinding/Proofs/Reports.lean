import LateBinding.Proofs.Growth
import LateBinding.Proofs.Session
import LateBinding.Proofs.Stages

/-!
# Reports of missing members

A call or a construction may fail because a method, a field or a constructor is missing, and then
reports the name that was looked for (`BindingError.reportsMember`).  The report is truthful if a
lookup under that name, in the world in which it is raised, finds nothing (`BindingError.Missing`).

* `Resolver.missing_of_newInstance` : constructors are reported truthfully, and methods too;
* `Adapter.missing_of_request` : the name of a field is substituted once more to be reported, so
  that a field is reported truthfully if its template comes to the same name again
  (`Adapter.KeepsFieldName`);
* `BindingError.reports_are_truthful` : **reports of missing members are truthful**, provided that
  fields keep their names;
* `BindingError.found_field_is_reported` : a variable that changes makes a field be reported that is
  there.
-/

namespace LateBinding

/-! ### What an attempt fails with -/

namespace Attempt

variable {ε α β : Type} {P : ε → Prop}

/-- The attempt fails only with errors that satisfy `P`. -/
def FailsOnly (P : ε → Prop) (x : Attempt ε α) : Prop :=
  ∀ ⦃w e w'⦄, x.run w = .done (.error e) w' → P e

namespace FailsOnly

theorem pure (a : α) : FailsOnly P (Pure.pure a : Attempt ε α) := by
  intro w e w' h
  cases h

theorem throw {e : ε} (h : P e) : FailsOnly P (throw e : Attempt ε α) := by
  intro w e' w' he
  cases he
  exact h

theorem liftM (x : Act α) : FailsOnly P (liftM x : Attempt ε α) := by
  intro w e w' h
  obtain ⟨_, he, -⟩ := run_liftM_eq_done.1 h
  cases he

theorem bind {x : Attempt ε α} {f : α → Attempt ε β} (hx : FailsOnly P x)
    (hf : ∀ a, FailsOnly P (f a)) : FailsOnly P (x >>= f) := by
  intro w e w' h
  obtain ⟨a, w₁, -, h⟩ | ⟨e, h, heq⟩ := run_bind_eq_done.1 h
  · exact hf a h
  · cases heq
    exact hx h

/-- What comes after a failure is not done. -/
theorem throw_bind {e : ε} (h : P e) (f : α → Attempt ε β) :
    FailsOnly P (MonadExcept.throw e >>= f) :=
  fun _ _ _ he => by
    cases he
    exact h

theorem ofTarget {P : BindingError → Prop} (h : ∀ e, P (.thrown e)) (x : Attempt Exception α) :
    FailsOnly P x.ofTarget := by
  intro w e w' he
  obtain ⟨e', -, rfl⟩ := run_adapt_eq_error.1 he
  exact h e'

theorem except {x : Except ε α} (h : ∀ e, x = .error e → P e) :
    FailsOnly P (MonadLift.monadLift x : Attempt ε α) := by
  intro w e w' he
  cases x with
  | ok a => cases he
  | error e' =>
    cases he
    exact h e rfl

end FailsOnly

end Attempt

/-! ### Reports -/

namespace BindingError

/-- Whether the error reports a member of a class as missing. -/
def reportsMember : BindingError → Bool
  | memberNotFound .. | fieldNotFound .. | constructorNotFound .. => true
  | _ => false

/-- Whether the error reports a field as missing. -/
def reportsField : BindingError → Bool
  | fieldNotFound .. => true
  | _ => false

/-- The member that an error reports is missing: the class that is reported is the one of the entry,
and a lookup of the name and the parameter types that are reported finds nothing on it. -/
inductive Missing (e : TypeEntry Value) (w : World) : BindingError → Prop
  /-- A method. -/
  | method {logical real : String} {params : List String} {interface : String}
    (h : e.method ⟨real, params⟩ w = .done none w) :
    Missing e w (.memberNotFound logical real params e.cls.name interface)
  /-- A field. -/
  | field {logical real interface : String} (h : e.field real w = .done none w) :
    Missing e w (.fieldNotFound logical real e.cls.name interface)
  /-- A constructor. -/
  | constructor {params : List String} {interface : String}
    (h : e.constructor params w = .done none w) :
    Missing e w (.constructorNotFound e.cls.name params interface)

/-- The error does not report a member. -/
def Other (err : BindingError) : Prop := err.reportsMember = false

end BindingError

open BindingError (Other)

/-! ### Other errors -/

section Other

variable (h : Host)

namespace Resolver

variable (r : Resolver)

theorem other_of_resolveClass (template : String) (scope : Option Scope) :
    Attempt.FailsOnly Other (r.resolveClass h template scope) := by
  refine .bind (.liftM _) fun resolved => ?_
  have found (o : Option (TypeEntry Value)) :
      Attempt.FailsOnly Other (classFound template resolved o) := by
    cases o with
    | some e => exact .pure e
    | none => exact .throw rfl
  cases scope with
  | some s => exact .bind (.liftM _) found
  | none => exact .bind (.liftM _) found

theorem other_of_adaptType (scope : Scope) (type : String) :
    Attempt.FailsOnly Other (r.adaptType h scope type) := by
  unfold adaptType
  split
  · exact .pure _
  refine .bind (.liftM _) fun o => ?_
  split
  · exact .pure _
  split
  · exact .pure _
  refine .bind (.liftM _) fun o => ?_
  split
  · exact .bind (r.other_of_resolveClass h _ _) fun _ => .pure _
  · exact .pure _

theorem other_of_adaptTypes (scope : Scope) (types : List String) :
    Attempt.FailsOnly Other (r.adaptTypes h scope types) := by
  induction types with
  | nil => exact .pure _
  | cons type types ih =>
    exact .bind (r.other_of_adaptType h scope type) fun _ => .bind ih fun _ => .pure _

end Resolver

theorem TypeEntry.other_of_adaptsTemplate (e : TypeEntry Value) :
    Attempt.FailsOnly Other e.adaptsTemplate := by
  unfold adaptsTemplate
  dsimp only
  split
  · refine Attempt.FailsOnly.throw_bind (P := Other) ?_ _
    rfl
  refine .bind (.liftM _) fun o => ?_
  split
  · exact .pure _
  · exact .throw rfl

namespace Adapter

theorem other_of_bind (r : Resolver) (interface : TypeEntry Value) (target : Value)
    (scope : Option Scope) : Attempt.FailsOnly Other (bind h r interface target scope) :=
  .bind interface.other_of_adaptsTemplate fun _ => .bind (r.other_of_resolveClass h _ _) fun _ =>
    .bind (.liftM _) fun _ => .pure _

variable (a : Adapter)

theorem other_of_wrapResult (type : String) (result : Value) :
    Attempt.FailsOnly Other (a.wrapResult h type result) := by
  unfold wrapResult
  dsimp only
  split
  · exact .pure _
  refine .bind (.liftM _) fun o => ?_
  split
  · exact .pure _
  refine .bind (.liftM _) fun adapts => ?_
  split
  · exact .pure _
  · exact .bind (other_of_bind h _ _ _ _) fun _ => .pure _

theorem other_of_access (m : MethodDecl) (f : FieldHandle) (args : List Value) :
    Attempt.FailsOnly Other (MonadLift.monadLift (access m f args)) := by
  refine .except fun e he => ?_
  unfold access at he
  split at he
  · cases he
  · cases he
  · cases he
    rfl

/-- What is carried out fails with other errors. -/
theorem other_of_carryOut (job : Job) : Attempt.FailsOnly Other (a.carryOut h job) := by
  cases job with
  | run u returns =>
    refine .bind (.ofTarget (fun _ => rfl) _) fun v => ?_
    cases returns with
    | none => exact .pure _
    | some type => exact a.other_of_wrapResult h type v
  | get f type => exact .bind (.ofTarget (fun _ => rfl) _) fun _ => a.other_of_wrapResult h type _
  | set f v => exact .bind (.ofTarget (fun _ => rfl) _) fun _ => .pure _

theorem other_of_find (q : Member) (args : List Value) :
    Attempt.FailsOnly Other (a.find q args) := by
  cases q with
  | named name =>
    refine .bind (.except fun e he => ?_) fun chosen => .bind (.liftM _) fun o => ?_
    · unfold choose at he
      split at he
      · cases he
        rfl
      · cases he
      · split at he
        · cases he
        · cases he
          rfl
    · split
      · exact .pure _
      · exact .throw rfl
  | signed d =>
    refine .bind (.liftM _) fun o => ?_
    split
    · exact .pure _
    · exact .throw rfl

end Adapter

end Other

/-! ### Lookups that are made again -/

namespace TypeEntry

variable {e : TypeEntry Value} {w w' : World}

theorem method_again {d : Descriptor} {o : Option MethodHandle} (h : e.method d w = .done o w') :
    e.method d w' = .done o w' := by
  rw [method_eq] at h
  split at h
  · rename_i known hknown
    cases h
    rw [method_eq, hknown]
  · split at h
    · cases h
      rw [method_eq, World.memoOf_remembering, Table.get?_insert_self]
    · cases h
      rw [method_eq, World.memoOf_remembering, Table.get?_insert_self]

theorem constructor_again {params : List String} {o : Option ConstructorHandle}
    (h : e.constructor params w = .done o w') : e.constructor params w' = .done o w' := by
  rw [constructor_eq] at h
  split at h
  · rename_i known hknown
    cases h
    rw [constructor_eq, hknown]
  · cases h
    rw [constructor_eq, World.memoOf_remembering, Table.get?_insert_self]

/-- What a lookup of a field found is remembered. -/
theorem known_of_field {name : String} {o : Option FieldHandle} (h : e.field name w = .done o w') :
    (w'.memoOf e).fields.get? name = some o := by
  rw [field_eq] at h
  split at h
  · rename_i known hknown
    cases h
    exact hknown
  · cases h
    rw [World.memoOf_remembering, Table.get?_insert_self]

/-- What is remembered of a field is found, and nothing else happens. -/
theorem field_of_known {name : String} {o : Option FieldHandle}
    (h : (w.memoOf e).fields.get? name = some o) : e.field name w = .done o w := by
  rw [field_eq, h]

/-- Evaluating variables does not make an entry forget a field. -/
theorem keeps_known_field (m : Nat) (e : TypeEntry Value) (name : String)
    (o : Option FieldHandle) : (Host.level m).Keeps (.free fun _ => True)
      fun w => (w.memoOf e).fields.get? name = some o :=
  Host.keeps_level_of_indifferent
    ⟨fun w _ => .free _ w, fun _ _ h _ hw => h.field_stays hw⟩
    ⟨fun _ _ hw => hw, fun _ _ hw => hw, fun _ _ _ _ hw => hw⟩ .free m

end TypeEntry

/-! ### Calls -/

namespace Resolver

variable {h : Host} {r : Resolver} {target interface : TypeEntry Value} {w w' : World}

/-- A method that is reported was looked up right before. -/
theorem missing_of_resolveMethod {logical : String} {params : List String} {err : BindingError}
    (hx : (r.resolveMethod h target interface logical params).run w = .done (.error err) w') :
    err.Missing target w' := by
  unfold resolveMethod at hx
  rw [Attempt.run_liftM_bind_eq] at hx
  obtain ⟨real, w₁, -, hx⟩ := Act.bind_eq_done.1 hx
  rw [Attempt.run_liftM_bind_eq] at hx
  obtain ⟨o, w₂, ho, hx⟩ := Act.bind_eq_done.1 hx
  cases o with
  | some k => cases hx
  | none =>
    cases hx
    exact .method (TypeEntry.method_again ho)

end Resolver

namespace Adapter

/-- The name of the field that a field marker on a method names. -/
def fieldName (h : Host) (a : Adapter) (m : MethodDecl) (marker : Marker) : Act String :=
  match marker.template? with
  | some template => a.binding.resolver.substitute h template
  | none => pure m.name

/-- The names that the template of an accessor comes to when its field is looked up, and when it is
substituted again after that. -/
def fieldNames (h : Host) (a : Adapter) (q : Member) (args : List Value) :
    Attempt BindingError (Option (String × String)) := do
  let m ← a.find q args
  match m.marker? .field with
  | none => return none
  | some marker =>
    let tried ← a.fieldName h m.decl marker
    let _ ← a.binding.adapted.field tried
    return some (tried, ← a.fieldName h m.decl marker)

/-- If a call means an accessor, its template comes to the same name again. -/
def KeepsFieldName (h : Host) (a : Adapter) (q : Member) (args : List Value) (w : World) : Prop :=
  ∀ tried again w', (a.fieldNames h q args).run w = .done (.ok (some (tried, again))) w' →
    again = tried

variable {h : Host} {a : Adapter} {q : Member} {args : List Value} {w w' : World}
  {err : BindingError}

theorem markedField_eq (m : MethodDecl) (marker : Marker) :
    a.markedField h m marker = a.fieldName h m marker >>= a.binding.adapted.field := by
  unfold markedField fieldName
  cases marker.template? with
  | some template => rfl
  | none => rfl

theorem missingField_eq (m : MethodDecl) (marker : Marker) :
    a.missingField h m marker = (do
      return .fieldNotFound m.name (← a.fieldName h m marker) a.binding.adapted.cls.name
        a.interfaceName) := by
  unfold missingField fieldName
  cases marker.template? with
  | some template => rfl
  | none => rfl

theorem keeps_fieldName {C : Contract} {I : World → Prop} (hC : C.Closed) (hh : h.Reads C I)
    (ha : C.value a.toValue) (m : MethodDecl) (marker : Marker) :
    Act.Keeps I (fun _ => True) (a.fieldName h m marker) := by
  unfold fieldName
  split
  · exact Resolver.keeps_substitute (hC.resolver _ _ _ ha) hh _
  · exact .pure trivial

/-- A method that a call reports as missing is. -/
theorem missing_of_realMethod {m : MethodDecl} {rename : Option Marker}
    (hx : (a.realMethod h m rename).run w = .done (.error err) w')
    (reports : err.reportsMember = true) : err.Missing a.binding.adapted w' := by
  obtain ⟨params, w₁, -, hx⟩ | ⟨_, hx, heq⟩ := Attempt.run_bind_eq_done.1 hx
  · exact Resolver.missing_of_resolveMethod hx
  · cases heq
    cases (Resolver.other_of_adaptTypes h _ _ _ hx).symm.trans reports

/-- A field that a call reports as missing is, if its template comes to the same name again. -/
theorem missing_of_accessor (m : Nat) {k : MethodDecl} {marker : Marker} {tried again : String}
    {w₀ w₁ w₂ : World} (htried : a.fieldName (Host.level m) k marker w₀ = .done tried w₁)
    (hnone : a.binding.adapted.field tried w₁ = .done none w₂)
    (hagain : a.fieldName (Host.level m) k marker w₂ = .done again w') (same : again = tried)
    (logical interface : String) :
    BindingError.Missing a.binding.adapted w'
      (.fieldNotFound logical again a.binding.adapted.cls.name interface) := by
  subst same
  have keeps := TypeEntry.keeps_known_field m a.binding.adapted again none
  have known := (keeps_fieldName .free keeps.reads trivial k marker
    (TypeEntry.known_of_field hnone) hagain).1
  exact .field (TypeEntry.field_of_known known)

/-- A member that a call reports as missing is, if it is no field or its template comes to the same
name again. -/
theorem missing_of_request {m : Nat}
    (hx : (a.request (Host.level m) q args).run w = .done (.error err) w')
    (reports : err.reportsMember = true)
    (steady : err.reportsField = true → a.KeepsFieldName (Host.level m) q args w) :
    err.Missing a.binding.adapted w' := by
  -- other stages fail with other errors
  have absurd_of (h : Other err) : err.Missing a.binding.adapted w' := by
    cases h.symm.trans reports
  rw [request_eq] at hx
  obtain ⟨job, w₁, -, hx⟩ | ⟨_, hx, heq⟩ := Attempt.run_bind_eq_done.1 hx
  · exact absurd_of (a.other_of_carryOut _ job hx)
  cases heq
  obtain ⟨k, w₀, hfind, hx⟩ | ⟨_, hx, heq⟩ := Attempt.run_bind_eq_done.1 hx
  swap
  · cases heq
    exact absurd_of (a.other_of_find q args hx)
  unfold prepare at hx
  cases hmarker : k.marker? .field with
  | some marker =>
    rw [hmarker] at hx
    dsimp only at hx
    rw [Attempt.run_liftM_bind_eq, markedField_eq] at hx
    obtain ⟨o, w₂, ho, hx⟩ := Act.bind_eq_done.1 hx
    obtain ⟨tried, w₁, htried, ho⟩ := Act.bind_eq_done.1 ho
    cases o with
    | some f =>
      exact absurd_of (other_of_access k.decl f args hx)
    | none =>
      dsimp only at hx
      rw [Attempt.run_liftM_bind_eq, missingField_eq] at hx
      obtain ⟨_, w₃, hreport, hx⟩ := Act.bind_eq_done.1 hx
      obtain ⟨again, w₄, hagain, hreport⟩ := Act.bind_eq_done.1 hreport
      cases hreport
      cases hx
      have names : (a.fieldNames (Host.level m) q args).run w =
          .done (.ok (some (tried, again))) w' := by
        refine Attempt.run_bind_eq_done.2 (.inl ⟨k, w₀, hfind, ?_⟩)
        rw [hmarker]
        dsimp only
        rw [Attempt.run_liftM_bind htried, Attempt.run_liftM_bind ho,
          Attempt.run_liftM_bind hagain]
        rfl
      exact missing_of_accessor m htried ho hagain (steady rfl tried again w' names) _ _
  | none =>
    rw [hmarker] at hx
    dsimp only at hx
    split at hx
    · cases hx
    obtain ⟨real, w₁, -, hx⟩ | ⟨_, hx, heq⟩ := Attempt.run_bind_eq_done.1 hx
    · cases hx
    · cases heq
      exact missing_of_realMethod hx reports

end Adapter

/-! ### New instances -/

namespace Resolver

variable {h : Host} {r : Resolver} {interface : String} {params : List String}
  {scope : Option Scope} {err : BindingError} {w w' : World}

/-- The type that an interface adapts. -/
def adaptedOf (h : Host) (r : Resolver) (interface : String) (scope : Option Scope) :
    Attempt BindingError (TypeEntry Value) := do
  let e ← r.resolveClass h interface scope
  let template ← e.adaptsTemplate
  r.resolveClass h template (some (scope.getD r.defaultScope))

/-- A constructor that is reported was looked up right before. -/
theorem missing_of_planOf {e adapted : TypeEntry Value} {s : Scope} {name : String}
    (hx : (r.planOf h e s name adapted params).run w = .done (.error err) w')
    (reports : err.reportsMember = true) : err.Missing adapted w' := by
  obtain ⟨params', w₁, -, hx⟩ | ⟨_, hx, heq⟩ := Attempt.run_bind_eq_done.1 hx
  · rw [Attempt.run_liftM_bind_eq] at hx
    obtain ⟨o, w₂, ho, hx⟩ := Act.bind_eq_done.1 hx
    cases o with
    | some k => cases hx
    | none =>
      cases hx
      exact .constructor (TypeEntry.constructor_again ho)
  · cases heq
    cases (r.other_of_adaptTypes h _ _ hx).symm.trans reports

/-- A constructor that is reported as missing is, on the type that the interface adapts. -/
theorem missing_of_newInstance {args : List Value}
    (hx : (r.newInstance h interface params args scope).run w = .done (.error err) w')
    (reports : err.reportsMember = true) :
    ∃ adapted w₁, (r.adaptedOf h interface scope).run w = .done (.ok adapted) w₁ ∧
      err.Missing adapted w' := by
  obtain ⟨_, hx, heq⟩ | ⟨p, w₁, -, ⟨e, -, heq⟩ | ⟨o, w₂, -, hx⟩⟩ := newInstance_cases hx
  · cases heq
    obtain ⟨e, w₁, he, hx⟩ | ⟨_, hx, heq⟩ := Attempt.run_bind_eq_done.1 hx
    swap
    · cases heq
      cases (r.other_of_resolveClass h _ _ hx).symm.trans reports
    obtain ⟨template, w₂, htemplate, hx⟩ | ⟨_, hx, heq⟩ := Attempt.run_bind_eq_done.1 hx
    swap
    · cases heq
      cases (e.other_of_adaptsTemplate hx).symm.trans reports
    rw [Attempt.run_liftM_bind_eq] at hx
    obtain ⟨name, w₃, hname, hx⟩ := Act.bind_eq_done.1 hx
    rw [Attempt.run_liftM_bind_eq] at hx
    obtain ⟨o, w₄, ho, hx⟩ := Act.bind_eq_done.1 hx
    cases o with
    | none =>
      cases hx
      cases reports
    | some adapted =>
      refine ⟨adapted, w₄, ?_, missing_of_planOf hx reports⟩
      refine Attempt.run_bind_eq_done.2 (.inl ⟨e, w₁, he, ?_⟩)
      refine Attempt.run_bind_eq_done.2 (.inl ⟨template, w₂, htemplate, ?_⟩)
      rw [resolveClass_some_eq, Attempt.run_liftM_bind hname, Attempt.run_liftM_bind ho]
      rfl
  · cases heq
    cases reports
  · cases (Adapter.other_of_bind h _ _ _ _ hx).symm.trans reports

end Resolver

namespace BindingError

/-- **Reports of missing members are truthful.**  If a call fails with an error that reports a
member as missing, then a lookup of the name and the parameter types that are reported finds nothing
on the adapted class in the world in which the call fails; for a field, provided that its template
comes to the same name when it is substituted again for the report.  If a construction fails with
such an error, then a lookup of what is reported finds nothing on the class that the interface
adapts. -/
theorem reports_are_truthful {err : BindingError} (reports : err.reportsMember = true) (m : Nat)
    {w w' : World} :
    (∀ (a : Adapter) (q : Adapter.Member) (args : List Value),
      (a.request (Host.level m) q args).run w = .done (.error err) w' →
      (err.reportsField = true → a.KeepsFieldName (Host.level m) q args w) →
        err.Missing a.binding.adapted w') ∧
    ∀ (r : Resolver) (interface : String) (params : List String) (args : List Value)
      (scope : Option Scope),
      (r.newInstance (Host.level m) interface params args scope).run w = .done (.error err) w' →
        ∃ adapted w₁, (r.adaptedOf (Host.level m) interface scope).run w = .done (.ok adapted) w₁ ∧
          err.Missing adapted w' :=
  ⟨fun _ _ _ hx steady => Adapter.missing_of_request hx reports steady,
    fun _ _ _ _ _ hx => Resolver.missing_of_newInstance hx reports⟩

end BindingError

/-! ### A field whose name changes -/

namespace Drifting

open Session

/-- The variable comes to `a` when it is asked for first, and to another name after that. -/
def drifting (later : String) : Expr :=
  .choose (.register "asked") (.literal (.str later))
    (.sequence [.store "asked" (.literal (.bool true)), .literal (.str "a")])

/-- A box has the field `b` only, and an accessor for the field that the variable names. -/
def requests (later : String) : List Request := [
  .scope "app" "app" none,
  .define "raw" ⟨"pkg.Box", .concrete, none, [], [⟨"b", "int", .pub, false, .literal (.int 3)⟩], [],
    []⟩ (some "app"),
  .define "box" ⟨"app.Box", .interface, none,
    [⟨"get", [], "int", .pub, false, [.field (some "@v@")], none⟩], [], [], [.adapts "pkg.Box"]⟩
    (some "app"),
  .resolver "r" ∅ "app",
  .provider "p" .lazy (.computed (drifting later) none),
  .register "r" "v" "p",
  .newInstance "a" "r" "app.Box" [] [] none]

/-- What is found out when the accessor is called and fails. -/
structure Story where
  /-- The names of the client. -/
  names : Names
  /-- The world before. -/
  before : World
  /-- The adapter. -/
  adapter : Adapter
  /-- The error. -/
  error : BindingError
  /-- The world after. -/
  after : World

/-- The accessor is called and fails. -/
def story (later : String) : Option Story := do
  let (k, w) ← played 3 (requests later)
  let a ← adapterIn w "a"
  let (x, w') ← ((a.request (Host.level 3) (.named "get") []).run w).seen Prod.mk
  match x with
  | .ok _ => none
  | .error e => return ⟨k, w, a, e, w'⟩

/-- The story takes place. -/
structure Story.Passes (t : Story) : Prop where
  reached : Reached (fun _ => true) (Host.level 3) t.names t.before
  held : t.before.registers.get? "a" = some t.adapter.toValue
  fails : (t.adapter.request (Host.level 3) (.named "get") []).run t.before =
    .done (.error t.error) t.after

theorem passes_of_story {later : String} {t : Story} (h : story later = some t) : t.Passes := by
  simp only [story, Option.bind_eq_bind, Option.bind_eq_some_iff, Option.pure_def] at h
  obtain ⟨⟨k, w⟩, hplayed, a, ha, ⟨x, w'⟩, hx, h⟩ := h
  obtain ⟨_, _, hx, hsame⟩ := Outcome.exists_of_seen hx
  cases hsame
  cases x with
  | ok => cases h
  | error e =>
    cases h
    exact ⟨reached_of_played hplayed, get?_of_adapterIn ha, hx⟩

/-- The name of the field that an error reports. -/
def field? : BindingError → Option String
  | .fieldNotFound _ real _ _ => some real
  | _ => none

theorem reports_of_field? {err : BindingError} {name : String} (h : field? err = some name) :
    err.reportsMember = true := by
  cases err with
  | fieldNotFound => rfl
  | _ => cases h

end Drifting

namespace BindingError

open Drifting Session in
/-- A field that keeps its name is reported, and is missing. -/
theorem missing_field_is_reported : ∃ (k : Names) (w w' : World) (a : Adapter) (err : BindingError),
    Reached (fun _ => true) (Host.level 3) k w ∧ w.registers.get? "a" = some a.toValue ∧
      (a.request (Host.level 3) (.named "get") []).run w = .done (.error err) w' ∧
      field? err = some "a" ∧ err.Missing a.binding.adapted w' := by
  have told : (story "a").map (fun t => (field? t.error,
      ((t.adapter.fieldNames (Host.level 3) (.named "get") []).run t.before).result)) =
        some (some "a", some (some ("a", "a"))) := by
    decide +kernel
  obtain ⟨t, ht, hseen⟩ := Option.map_eq_some_iff.1 told
  simp only [Prod.mk.injEq] at hseen
  obtain ⟨hfield, hnames⟩ := hseen
  have passes := passes_of_story ht
  have steady : t.adapter.KeepsFieldName (Host.level 3) (.named "get") [] t.before := by
    intro tried again w' h
    rw [h] at hnames
    cases hnames
    rfl
  exact ⟨t.names, t.before, t.after, t.adapter, t.error, passes.reached, passes.held, passes.fails,
    hfield, (reports_are_truthful (reports_of_field? hfield) 3).1 t.adapter _ _ passes.fails
      fun _ => steady⟩

open Drifting Session in
/-- A field that has another name by the time when it is reported may be there. -/
theorem found_field_is_reported :
    ¬ ∀ (n : Nat) (k : Names) (w : World), Reached (fun _ => true) (Host.level n) k w →
      ∀ (register : String) (a : Adapter) (q : Adapter.Member) (args : List Value)
        (err : BindingError) (w' : World), w.registers.get? register = some a.toValue →
        (a.request (Host.level n) q args).run w = .done (.error err) w' →
          err.reportsMember = true → err.Missing a.binding.adapted w' := by
  intro claim
  have told : (story "b").map (fun t => (field? t.error,
      (t.adapter.binding.adapted.field "b" t.after).seen fun o _ => o.isSome)) =
        some (some "b", some true) := by
    decide +kernel
  obtain ⟨t, ht, hseen⟩ := Option.map_eq_some_iff.1 told
  simp only [Prod.mk.injEq] at hseen
  obtain ⟨hfield, hfound⟩ := hseen
  have passes := passes_of_story ht
  have missing := claim 3 t.names t.before passes.reached "a" t.adapter _ _ t.error t.after
    passes.held passes.fails (reports_of_field? hfield)
  generalize t.error = err at missing hfield
  cases missing with
  | field h =>
    cases hfield
    rw [h] at hfound
    cases hfound
  | method => cases hfield
  | constructor => cases hfield

end BindingError

end LateBinding
