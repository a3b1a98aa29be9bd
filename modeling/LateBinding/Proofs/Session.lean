import LateBinding.Proofs.Evaluation.Machine

/-!
# Sessions

A client holds scopes, classes, resolvers and providers by their names (`Names`), and values in
the registers of the world.  It makes requests (`Request`), one after the other
(`Session.run`): it makes scopes, classes and resolvers, evaluates expressions of its own,
resolves names, looks members up and uses them directly, and makes adapters and calls them.

A client may make proxies of its own, over values that satisfy a condition `proxied`; a world is
*reached* if some run of requests from the empty world ends in it (`Session.Reached`).

An invariant that holds in the empty world, that no change breaks, and that does not look at the
books of the resolvers holds in every reached world (`Session.Reached.invariant`).
-/

namespace LateBinding

namespace Session

/-! ### Requests -/

/-- What a client has names for, besides the registers. -/
structure Names where
  /-- The scopes it made. -/
  scopes : Table String Scope
  /-- The classes it made. -/
  classes : Table String (Class Value)
  /-- The resolvers it made. -/
  resolvers : Table String Resolver
  /-- The providers it made. -/
  providers : Table String Provider

instance : EmptyCollection Names := ⟨⟨∅, ∅, ∅, ∅⟩⟩

/-- A class as a client asks for it, with the name of its parent, and with expressions for the
values that its fields start with. -/
structure Plan where
  /-- The qualified name. -/
  name : String
  /-- Whether the class can have instances. -/
  kind : ClassKind
  /-- The name of the class it extends. -/
  parent : Option String
  /-- The methods. -/
  methods : List MethodDecl
  /-- The fields. -/
  fields : List (FieldDecl Expr)
  /-- The constructors. -/
  constructors : List ConstructorDecl
  /-- The markers. -/
  markers : List Marker

/-- What a client asks for.  Values that it gives are those of expressions. -/
inductive Request
  /-- Make a scope. -/
  | scope (label name : String) (parent : Option String)
  /-- Make a class, and define it in a scope if one is given. -/
  | define (label : String) (plan : Plan) (scope : Option String)
  /-- Make a resolver. -/
  | resolver (label : String) (document : Mapping.Document) (scope : String)
  /-- Make a provider. -/
  | provider (label : String) (retention : Retention) (source : ProviderSource)
  /-- Register a provider. -/
  | register (resolver name provider : String)
  /-- Take a provider away. -/
  | unregister (resolver name : String)
  /-- Ask for a variable. -/
  | valueOf (resolver name : String)
  /-- Resolve a template. -/
  | resolve (resolver template : String)
  /-- Resolve the name of a member. -/
  | resolveMember (resolver owner logical : String)
  /-- Find the class that a template denotes. -/
  | resolveClass (resolver template : String) (scope : Option String)
  /-- Find the method that a logical method maps to. -/
  | resolveMethod (resolver target interface logical : String) (params : List String)
  /-- Find the field that a template denotes. -/
  | resolveField (resolver cls template : String)
  /-- Find a class by name. -/
  | classNamed (resolver name : String) (scope : Option String)
  /-- Look a marker of a class up. -/
  | marker (resolver cls : String) (kind : MarkerKind)
  /-- Evaluate an expression. -/
  | evaluate (into : String) (e : Expr)
  /-- Write a static field. -/
  | staticSet (cls name : String) (value : Expr)
  /-- Make an object without running a constructor. -/
  | alloc (into cls : String)
  /-- Construct an object. -/
  | construct (into resolver cls : String) (params : List String) (args : List Expr)
  /-- Call a method directly. -/
  | invokeMethod (into resolver cls : String) (method : Descriptor) (receiver : Expr)
    (args : List Expr)
  /-- Read a field directly. -/
  | fieldGet (into resolver cls name : String) (receiver : Expr)
  /-- Write a field directly. -/
  | fieldSet (resolver cls name : String) (receiver value : Expr)
  /-- Make a proxy over a value. -/
  | foreign (into interface : String) (target : Expr)
  /-- Wrap a value in an adapter. -/
  | wrap (into resolver interface : String) (target : Expr) (scope : Option String)
  /-- Construct an object and wrap it in an adapter. -/
  | newInstance (into resolver interface : String) (params : List String) (args : List Expr)
    (scope : Option String)
  /-- Call a method of an adapter by name. -/
  | call (into : String) (on : Expr) (name : String) (args : List Expr)
  /-- Call a method of an adapter by its signature. -/
  | invoke (into : String) (on : Expr) (method : Descriptor) (args : List Expr)

/-- Whether the request registers a provider or takes one away. -/
def Request.registers : Request → Bool
  | .register _ _ _ | .unregister _ _ => true
  | _ => false

/-- Whether the request makes a resolver or a provider. -/
def Request.makes : Request → Bool
  | .resolver _ _ _ | .provider _ _ _ => true
  | _ => false

/-- The failure of a request that does not make sense. -/
def senseless (what : String) : BindingError := .thrown (.plain what)

/-- What is known under a name. -/
def named {α : Type} (t : Table String α) (label : String) : Except BindingError α :=
  match t.get? label with
  | some a => .ok a
  | none => .error (senseless "no such name")

/-- What is known under a name, if one is given. -/
def namedIfAny {α : Type} (t : Table String α) : Option String → Except BindingError (Option α)
  | none => .ok none
  | some label => (named t label).map some

/-- What was looked up, unless it is missing. -/
def found {α : Type} : Option α → Except BindingError α
  | some a => .ok a
  | none => .error (senseless "no such member")

/-- The value that a client gives. -/
def value (h : Host) (e : Expr) : Attempt BindingError Value :=
  Attempt.ofTarget (h.run e .null [])

/-- The values that a client gives. -/
def values (h : Host) : List Expr → Attempt BindingError (List Value)
  | [] => return []
  | e :: es => return (← value h e) :: (← values h es)

/-- The adapter that a client uses. -/
def adapterOf (h : Host) (e : Expr) : Attempt BindingError Adapter := do
  found (← value h e).adapter?

/-- The fields of a class with the values that a client gives them. -/
def fields (h : Host) : List (FieldDecl Expr) → Attempt BindingError (List (FieldDecl Value))
  | [] => return []
  | f :: fs => do
    let initial ← value h f.initial
    return { f with initial } :: (← fields h fs)

/-- Keep a value in a register. -/
def keep (into : String) (v : Value) : Attempt BindingError Unit := Act.setRegister into v

/-- Carry out a request.  What it makes is known under its label from then on. -/
def perform (proxied : Value → Bool) (h : Host) (k : Names) : Request → Attempt BindingError Names
  | .scope label name parent => do
    let parent ← namedIfAny k.scopes parent
    let s ← Act.newScope name parent
    return { k with scopes := k.scopes.insert label s }
  | .define label plan scope => do
    let parent ← namedIfAny k.classes plan.parent
    let fs ← fields h plan.fields
    let scope ← namedIfAny k.scopes scope
    let asked : ClassPlan Value :=
      { name := plan.name, kind := plan.kind, parent, methods := plan.methods, fields := fs,
        constructors := plan.constructors, markers := plan.markers }
    let c ← match scope with
      | some s => Act.define asked s
      | none => Act.newClass asked none
    return { k with classes := k.classes.insert label c }
  | .resolver label document scope => do
    let s ← named k.scopes scope
    let r ← Act.newResolver document s
    return { k with resolvers := k.resolvers.insert label r }
  | .provider label retention source => do
    let p ← Act.newProvider (some label) retention source
    return { k with providers := k.providers.insert label p }
  | .register resolver name provider => do
    let r ← named k.resolvers resolver
    let p ← named k.providers provider
    let _ ← r.register name p
    return k
  | .unregister resolver name => do
    let r ← named k.resolvers resolver
    let _ ← r.unregister name
    return k
  | .valueOf resolver name => do
    let r ← named k.resolvers resolver
    let _ ← h.valueOf r name
    return k
  | .resolve resolver template => do
    let r ← named k.resolvers resolver
    let _ ← r.substitute h template
    return k
  | .resolveMember resolver owner logical => do
    let r ← named k.resolvers resolver
    let _ ← r.resolveMember h owner logical
    return k
  | .resolveClass resolver template scope => do
    let r ← named k.resolvers resolver
    let scope ← namedIfAny k.scopes scope
    let _ ← r.resolveClass h template scope
    return k
  | .resolveMethod resolver target interface logical params => do
    let r ← named k.resolvers resolver
    let target ← named k.classes target
    let interface ← named k.classes interface
    let target ← r.entry target
    let interface ← r.entry interface
    let _ ← r.resolveMethod h target interface logical params
    return k
  | .resolveField resolver cls template => do
    let r ← named k.resolvers resolver
    let c ← named k.classes cls
    let e ← r.entry c
    let _ ← r.resolveField h e template
    return k
  | .classNamed resolver name scope => do
    let r ← named k.resolvers resolver
    let scope ← namedIfAny k.scopes scope
    match scope with
    | some s => let _ ← r.classNamedIn name s
    | none => let _ ← r.classNamed name
    return k
  | .marker resolver cls kind => do
    let r ← named k.resolvers resolver
    let c ← named k.classes cls
    let e ← r.entry c
    let _ ← e.marker kind
    return k
  | .evaluate into e => do
    let v ← value h e
    keep into v
    return k
  | .staticSet cls name e => do
    let c ← named k.classes cls
    let v ← value h e
    let _ ← c.decl.staticSet name v
    return k
  | .alloc into cls => do
    let c ← named k.classes cls
    let o ← Object.alloc c
    keep into (.object o)
    return k
  | .construct into resolver cls params args => do
    let r ← named k.resolvers resolver
    let c ← named k.classes cls
    let vs ← values h args
    let e ← r.entry c
    let found ← found (← e.constructor params)
    let o ← Attempt.ofTarget (found.construct h vs)
    keep into (.object o)
    return k
  | .invokeMethod into resolver cls method receiver args => do
    let r ← named k.resolvers resolver
    let c ← named k.classes cls
    let v ← value h receiver
    let vs ← values h args
    let e ← r.entry c
    let m ← found (← e.method method)
    let result ← Attempt.ofTarget (m.invoke h v vs)
    keep into result
    return k
  | .fieldGet into resolver cls name receiver => do
    let r ← named k.resolvers resolver
    let c ← named k.classes cls
    let v ← value h receiver
    let e ← r.entry c
    let f ← found (← e.field name)
    let result ← Attempt.ofTarget (FieldHandle.get f v)
    keep into result
    return k
  | .fieldSet resolver cls name receiver new => do
    let r ← named k.resolvers resolver
    let c ← named k.classes cls
    let v ← value h receiver
    let u ← value h new
    let e ← r.entry c
    let f ← found (← e.field name)
    Attempt.ofTarget (FieldHandle.set f v u)
    return k
  | .foreign into interface target => do
    let v ← value h target
    if !proxied v then throw (senseless "no proxy over this value")
    let id ← Act.fresh
    keep into (.proxy id (.foreign interface) v)
    return k
  | .wrap into resolver interface target scope => do
    let r ← named k.resolvers resolver
    let scope ← namedIfAny k.scopes scope
    let v ← value h target
    let a ← r.wrap h interface v scope
    keep into a.toValue
    return k
  | .newInstance into resolver interface params args scope => do
    let r ← named k.resolvers resolver
    let scope ← namedIfAny k.scopes scope
    let vs ← values h args
    let a ← r.newInstance h interface params vs scope
    keep into a.toValue
    return k
  | .call into on name args => do
    let a ← adapterOf h on
    let vs ← values h args
    let v ← a.call h name vs
    keep into v
    return k
  | .invoke into on method args => do
    let a ← adapterOf h on
    let vs ← values h args
    let v ← a.invoke h method vs
    keep into v
    return k

/-- Carry out requests one after the other.  A request that fails leaves the names as they
are. -/
def run (proxied : Value → Bool) (h : Host) : List Request → Names → Act Names
  | [], k => return k
  | q :: qs, k => do
    match ← (perform proxied h k q).run with
    | .ok k' => run proxied h qs k'
    | .error _ => run proxied h qs k

/-- Some run of requests leads from the empty world to these names and this world. -/
def Reached (proxied : Value → Bool) (h : Host) (k : Names) (w : World) : Prop :=
  ∃ qs, run proxied h qs ∅ World.empty = .done k w

/-! ### What sessions keep -/

variable {C : Contract} {I : World → Prop} {h : Host}

/-- The names stand for what the contract admits. -/
structure Names.Admitted (C : Contract) (k : Names) : Prop where
  classes : ∀ l c, k.classes.get? l = some c → C.cls c
  resolvers : ∀ l r, k.resolvers.get? l = some r → C.resolver r

theorem Names.Admitted.empty : (∅ : Names).Admitted C where
  classes _ _ h := by cases h
  resolvers _ _ h := by cases h

theorem Names.Admitted.mono {C' : Contract} (hc : ∀ c, C.cls c → C'.cls c)
    (hr : ∀ r, C.resolver r → C'.resolver r) {k : Names} (hk : k.Admitted C) : k.Admitted C' where
  classes l c h := hc c (hk.classes l c h)
  resolvers l r h := hr r (hk.resolvers l r h)

theorem get?_of_named {α : Type} {t : Table String α} {label : String} {a : α}
    (h : named t label = .ok a) : t.get? label = some a := by
  unfold named at h
  split at h
  · cases h
    assumption
  · cases h

theorem get?_of_namedIfAny {α : Type} {t : Table String α} {label : Option String} {a : α}
    (h : namedIfAny t label = .ok (some a)) : ∃ l, t.get? l = some a := by
  cases label with
  | none => cases h
  | some l =>
    simp only [namedIfAny] at h
    cases hn : named t l with
    | error e =>
      rw [hn] at h
      cases h
    | ok b =>
      rw [hn] at h
      cases h
      exact ⟨l, get?_of_named hn⟩

theorem eq_some_of_found {α : Type} {o : Option α} {a : α} (h : found o = .ok a) : o = some a := by
  cases o with
  | none => cases h
  | some b =>
    cases h
    rfl

section Requests

variable (hI : Stable C I) (hC : C.Closed) (hh : h.Keeps C I)

include hC hh in
theorem keeps_value (e : Expr) : Attempt.Keeps I C.value (value h e) :=
  .ofTarget (hh.runs e .null [] hC.null (by simp))

include hC hh in
theorem keeps_values (es : List Expr) :
    Attempt.Keeps I (fun vs => ∀ v ∈ vs, C.value v) (values h es) := by
  induction es with
  | nil => exact .pure (by simp)
  | cons e es ih =>
    refine .bind (keeps_value hC hh e) fun v hv => .bind ih fun vs hvs => .pure ?_
    intro u hu
    rcases List.mem_cons.1 hu with rfl | hu
    · exact hv
    · exact hvs u hu

include hC hh in
theorem keeps_adapterOf (e : Expr) :
    Attempt.Keeps I (fun a => C.value a.toValue) (adapterOf h e) := by
  refine .bind (keeps_value hC hh e) fun v hv => .except fun a ha => ?_
  have := eq_some_of_found ha
  cases v with
  | proxy id face target =>
    cases face with
    | foreign n => cases this
    | adapter b =>
      cases this
      exact hv
  | _ => cases this

include hC hh in
theorem keeps_fields (fs : List (FieldDecl Expr)) :
    Attempt.Keeps I (fun fs => ∀ f ∈ fs, C.value f.initial) (fields h fs) := by
  induction fs with
  | nil => exact .pure (by simp)
  | cons f fs ih =>
    refine .bind (keeps_value hC hh f.initial) fun v hv => .bind ih fun fs hfs => .pure ?_
    intro g hg
    rcases List.mem_cons.1 hg with rfl | hg
    · exact hv
    · exact hfs g hg

include hI in
theorem keeps_keep (into : String) {v : Value} (hv : C.value v) :
    Attempt.Keeps I (fun _ => True) (keep into v) :=
  .liftM (Act.keeps_setRegister hI into hv)

include hI in
theorem keeps_newScope (name : String) (parent : Option Scope) :
    Act.Keeps I (fun _ => True) (Act.newScope name parent) :=
  (Act.Keeps.fresh_of hI.noting).bind fun _ _ => .pure trivial

include hI in
theorem keeps_newProvider (label : Option String) (retention : Retention)
    (source : ProviderSource) :
    Act.Keeps I (fun _ => True) (Act.newProvider label retention source) :=
  (Act.Keeps.fresh_of hI.noting).bind fun _ _ => .pure trivial

include hI in
theorem keeps_newResolver (document : Mapping.Document) (scope : Scope) :
    Attempt.Keeps I (fun _ => True) (Act.newResolver document scope) := by
  unfold Act.newResolver
  split
  · exact .throw
  · exact .bind (.liftM (.fresh_of hI.noting)) fun _ _ => .pure trivial

include hI in
theorem keeps_newClass {plan : ClassPlan Value} (scope : Option Scope)
    (hplan : ∀ i, C.cls (Class.ofPlan i scope plan)) :
    Act.Keeps I C.cls (Act.newClass plan scope) :=
  (Act.Keeps.fresh_of hI.noting).bind fun i _ =>
    (Act.Keeps.change hI fun _ _ => .seed (hplan i)).bind fun _ _ => .pure (hplan i)

include hI in
theorem keeps_define {plan : ClassPlan Value} (scope : Scope)
    (hplan : ∀ i, C.cls (Class.ofPlan i (some scope) plan)) :
    Act.Keeps I C.cls (Act.define plan scope) :=
  (keeps_newClass hI _ hplan).bind fun _ hc =>
    (Act.Keeps.change hI fun _ _ => .define scope.id hc).bind fun _ _ => .pure hc

/-- Names that a request adds to stand for what the contract admits, and the resolvers and
providers that are known stay the same. -/
structure Names.Extends (C : Contract) (k k' : Names) : Prop where
  admitted : k'.Admitted C
  resolvers : k'.resolvers = k.resolvers
  providers : k'.providers = k.providers

/-- Using what there is keeps an invariant that no change breaks and that what evaluation nests
through keeps. -/
theorem keeps_use (hI : Stable C I) (hC : C.Closed) (hh : h.Keeps C I) (hg : h.Grows C)
    {proxied : Value → Bool}
    (hproxied : ∀ i n v, C.value v → proxied v = true → C.value (.proxy i (.foreign n) v))
    {k : Names} (hk : k.Admitted C) (q : Request) (registers : q.registers = false)
    (makes : q.makes = false) :
    Attempt.Keeps I (k.Extends C) (perform proxied h k q) := by
  have same : k.Extends C k := ⟨hk, rfl, rfl⟩
  have scopeOf (label : Option String) :
      Attempt.Keeps I (fun _ => True)
        (liftM (namedIfAny k.scopes label) : Attempt BindingError _) :=
    .except fun _ _ => trivial
  have classOf (label : String) :
      Attempt.Keeps I C.cls (liftM (named k.classes label) : Attempt BindingError _) :=
    .except fun c hc => hk.classes _ c (get?_of_named hc)
  have resolverOf (label : String) :
      Attempt.Keeps I C.resolver (liftM (named k.resolvers label) : Attempt BindingError _) :=
    .except fun r hr => hk.resolvers _ r (get?_of_named hr)
  have caches_of_entry {r : Resolver} {c : Class Value} {e : TypeEntry Value} {w w' : World}
      (he : (liftM (r.entry c) : Attempt BindingError _).run w = .done (.ok e) w') :
      w'.Caches e := by
    obtain ⟨_, hok, he⟩ := Attempt.run_liftM_eq_done.1 he
    cases hok
    exact ⟨r, (r.held_of_entry he).1⟩
  have entryOf (r : Resolver) {c : Class Value} (hc : C.cls c) :
      Attempt.Keeps I (fun e => C.cls e.cls) (liftM (r.entry c) : Attempt BindingError _) :=
    .liftM (r.keeps_entry hI.noting hc)
  cases q with
  | scope label name parent =>
    exact .bind (scopeOf parent) fun p _ => .bind (.liftM (keeps_newScope hI name p)) fun s _ =>
      .pure ⟨⟨hk.classes, hk.resolvers⟩, rfl, rfl⟩
  | define label plan scope =>
    have parentOf : Attempt.Keeps I (fun p => ∀ c ∈ p, C.cls c)
        (liftM (namedIfAny k.classes plan.parent) : Attempt BindingError _) :=
      .except fun p hp c hc => by
        cases hc
        obtain ⟨l, hl⟩ := get?_of_namedIfAny hp
        exact hk.classes l c hl
    refine .bind parentOf fun parent hparent => .bind (keeps_fields hC hh plan.fields) fun fs hfs =>
      .bind (scopeOf scope) fun s _ => ?_
    have rest (c : Class Value) (hc : C.cls c) : Attempt.Keeps I (k.Extends C)
        (return { k with classes := k.classes.insert label c } : Attempt BindingError Names) :=
      .pure ⟨⟨Table.forall_insert hk.classes hc, hk.resolvers⟩, rfl, rfl⟩
    dsimp only
    split
    · exact .bind (.liftM (keeps_define hI _ fun i => hC.planned i _ _ hparent hfs)) rest
    · exact .bind (.liftM (keeps_newClass hI _ fun i => hC.planned i _ _ hparent hfs)) rest
  | resolver | provider => cases makes
  | register | unregister => cases registers
  | valueOf resolver name =>
    exact .bind (resolverOf resolver) fun r hr =>
      .bind (.liftM (hh.reads r name hr)) fun _ _ => .pure same
  | resolve resolver template =>
    exact .bind (resolverOf resolver) fun r hr =>
      .bind (.liftM (Resolver.keeps_substitute hr hh.reads template)) fun _ _ => .pure same
  | resolveMember resolver owner logical =>
    exact .bind (resolverOf resolver) fun r hr =>
      .bind (.liftM (hh.renames r owner logical hr)) fun _ _ => .pure same
  | resolveClass resolver template scope =>
    exact .bind (resolverOf resolver) fun r hr => .bind (scopeOf scope) fun s _ =>
      .bind (Resolver.keeps_resolveClass hr hh.reads hI.noting template s) fun _ _ => .pure same
  | resolveMethod resolver target interface logical params =>
    exact .bind (resolverOf resolver) fun r hr => .bind (classOf target) fun t ht =>
      .bind (classOf interface) fun i hi => .bind (entryOf r ht) fun t _ =>
        .bind (entryOf r hi) fun i _ =>
          .bind (Resolver.keeps_resolveMethod hr hI.noting hh.renames t i logical params)
            fun _ _ => .pure same
  | resolveField resolver cls template =>
    exact .bind (resolverOf resolver) fun r hr => .bind (classOf cls) fun c hc =>
      .bind (entryOf r hc) fun e _ =>
        .bind (.liftM (Resolver.keeps_resolveField hr hh.reads hI.noting e template)) fun _ _ =>
          .pure same
  | classNamed resolver name scope =>
    refine .bind (resolverOf resolver) fun r hr => .bind (scopeOf scope) fun s _ => ?_
    split
    · exact .bind (.liftM (r.keeps_classNamedIn hI.noting name _)) fun _ _ => .pure same
    · exact .bind (.liftM (r.keeps_classNamed hI.noting name)) fun _ _ => .pure same
  | marker resolver cls kind =>
    exact .bind (resolverOf resolver) fun r hr => .bind (classOf cls) fun c hc =>
      (entryOf r hc).bind_bringing (fun _ _ _ => caches_of_entry) fun e _ =>
        .bind (.liftM (e.keeps_marker hI.noting kind)) (fun _ hw => hw.1) fun _ _ =>
          (Attempt.Keeps.pure same).leads fun _ hw => hw.1
  | evaluate into e =>
    exact .bind (keeps_value hC hh e) fun v hv => .bind (keeps_keep hI into hv) fun _ _ =>
      .pure same
  | staticSet cls name e =>
    exact .bind (classOf cls) fun c _ => .bind (keeps_value hC hh e) fun v hv =>
      .bind (.liftM (c.decl.keeps_staticSet hI name hv)) fun _ _ => .pure same
  | alloc into cls =>
    refine .bind (classOf cls) fun c hc => .bind (.liftM (Object.keeps_alloc hI hc)) fun o ho =>
      .bind (keeps_keep hI into ?_) fun _ _ => .pure same
    rw [hC.object, ho]
    exact hc
  | construct into resolver cls params args =>
    refine .bind (resolverOf resolver) fun r _ => .bind (classOf cls) fun c hc =>
      .bind (keeps_values hC hh args) fun vs hvs => (entryOf r hc).bind_bringing
        (fun _ _ _ => caches_of_entry) fun e he =>
          .bind (.liftM (e.leads_constructor hI.noting he params)) (fun _ hw => hw) fun o ho => ?_
    refine Attempt.Keeps.bind (.except fun f hf => ho f (eq_some_of_found hf)) fun f hf =>
      .bind (.ofTarget (Class.keeps_construct hh.runs hI hC.toBasic hf _ hvs)) fun o ho =>
        .bind (keeps_keep hI into ?_) fun _ _ => .pure same
    rw [hC.object, ho]
    exact hf
  | invokeMethod into resolver cls method receiver args =>
    exact .bind (resolverOf resolver) fun r _ => .bind (classOf cls) fun c hc =>
      .bind (keeps_value hC hh receiver) fun v hv => .bind (keeps_values hC hh args) fun vs hvs =>
        .bind (entryOf r hc) fun e _ => .bind (.liftM (e.keeps_method hI.noting method)) fun o _ =>
          .bind (.except fun _ _ => trivial) fun m _ =>
            .bind (.ofTarget (m.keeps_invoke hh.runs hC.toBasic hv hvs)) fun u hu =>
              .bind (keeps_keep hI into hu) fun _ _ => .pure same
  | fieldGet into resolver cls name receiver =>
    exact .bind (resolverOf resolver) fun r _ => .bind (classOf cls) fun c hc =>
      .bind (keeps_value hC hh receiver) fun v hv => .bind (entryOf r hc) fun e _ =>
        .bind (.liftM (e.keeps_field hI.noting name)) fun o _ => .bind (.except fun _ _ => trivial)
          fun f _ => .bind (.ofTarget (FieldHandle.keeps_get hI.noting hC.toBasic f v)) fun u hu =>
            .bind (keeps_keep hI into hu) fun _ _ => .pure same
  | fieldSet resolver cls name receiver new =>
    exact .bind (resolverOf resolver) fun r _ => .bind (classOf cls) fun c hc =>
      .bind (keeps_value hC hh receiver) fun v hv => .bind (keeps_value hC hh new) fun u hu =>
        .bind (entryOf r hc) fun e _ => .bind (.liftM (e.keeps_field hI.noting name)) fun o _ =>
          .bind (.except fun _ _ => trivial) fun f _ =>
            .bind (.ofTarget (FieldHandle.keeps_set hI f v hu)) fun _ _ => .pure same
  | foreign into interface target =>
    refine .bind (keeps_value hC hh target) fun v hv => ?_
    dsimp only
    split
    · exact .throw_bind
    · rename_i hv'
      have fits : proxied v = true := by simpa using hv'
      exact .bind (.liftM (.fresh_of hI.noting)) fun i _ =>
        .bind (keeps_keep hI into (hproxied i interface v hv fits)) fun _ _ => .pure same
  | wrap into resolver interface target scope =>
    exact .bind (resolverOf resolver) fun r hr => .bind (scopeOf scope) fun s _ =>
      .bind (keeps_value hC hh target) fun v hv =>
        .bind (Resolver.keeps_wrap hI hC hh hr interface hv s) fun a ha =>
          .bind (keeps_keep hI into ha) fun _ _ => .pure same
  | newInstance into resolver interface params args scope =>
    exact .bind (resolverOf resolver) fun r hr => .bind (scopeOf scope) fun s _ =>
      .bind (keeps_values hC hh args) fun vs hvs =>
        .bind (Resolver.keeps_newInstance hI hC hh hr hg interface params hvs s) fun a ha =>
          .bind (keeps_keep hI into ha) fun _ _ => .pure same
  | call into on name args =>
    exact .bind (keeps_adapterOf hC hh on) fun a ha => .bind (keeps_values hC hh args)
      fun vs hvs => .bind (Adapter.keeps_request hI hC hh ha (.named name) hvs) fun v hv =>
        .bind (keeps_keep hI into hv) fun _ _ => .pure same
  | invoke into on method args =>
    exact .bind (keeps_adapterOf hC hh on) fun a ha => .bind (keeps_values hC hh args)
      fun vs hvs => .bind (Adapter.keeps_request hI hC hh ha (.signed method) hvs) fun v hv =>
        .bind (keeps_keep hI into hv) fun _ _ => .pure same

/-- Carrying out a request keeps an invariant that no change breaks and that does not look at
the books of the resolvers. -/
theorem keeps_perform (hI : Stable C I) (hC : C.Closed) (hh : h.Keeps C I) (hg : h.Grows C)
    (hJ : Indifferent I) (hres : ∀ r, C.resolver r) {proxied : Value → Bool}
    (hproxied : ∀ i n v, C.value v → proxied v = true → C.value (.proxy i (.foreign n) v))
    {k : Names} (hk : k.Admitted C) (q : Request) :
    Attempt.Keeps I (Names.Admitted C) (perform proxied h k q) := by
  cases q with
  | resolver label document scope =>
    exact .bind (.except fun _ _ => trivial) fun s _ =>
      .bind (keeps_newResolver hI document s) fun r _ =>
        .pure ⟨hk.classes, fun _ r _ => hres r⟩
  | provider label retention source =>
    exact .bind (.liftM (keeps_newProvider hI _ retention source)) fun p _ =>
      .pure ⟨hk.classes, hk.resolvers⟩
  | register resolver name provider =>
    exact .bind (.except fun _ _ => trivial) fun r _ => .bind (.except fun _ _ => trivial) fun p _ =>
      .bind (.liftM (Resolver.keeps_register hJ name p)) fun _ _ => .pure hk
  | unregister resolver name =>
    exact .bind (.except fun _ _ => trivial) fun r _ =>
      .bind (.liftM (Resolver.keeps_unregister hJ name)) fun _ _ => .pure hk
  | _ => exact (keeps_use hI hC hh hg hproxied hk _ rfl rfl).mono fun _ hk' => hk'.admitted

theorem keeps_run (hI : Stable C I) (hC : C.Closed) (hh : h.Keeps C I) (hg : h.Grows C)
    (hJ : Indifferent I) (hres : ∀ r, C.resolver r) {proxied : Value → Bool}
    (hproxied : ∀ i n v, C.value v → proxied v = true → C.value (.proxy i (.foreign n) v))
    (qs : List Request) {k : Names} (hk : k.Admitted C) :
    Act.Keeps I (Names.Admitted C) (run proxied h qs k) := by
  induction qs generalizing k with
  | nil => exact .pure hk
  | cons q qs ih =>
    refine .bind (keeps_perform hI hC hh hg hJ hres hproxied hk q) fun x hx => ?_
    cases x with
    | ok k' => exact ih (hx k' rfl)
    -- after a failure the client holds what it held before
    | error e => exact ih hk

/-- What holds in the empty world and is kept by all that a client can ask for holds in every
world that is reached. -/
theorem Reached.invariant (hI : Stable C I) (hC : C.Closed) (hh : h.Keeps C I) (hg : h.Grows C)
    (hJ : Indifferent I) (hres : ∀ r, C.resolver r) {proxied : Value → Bool}
    (hproxied : ∀ i n v, C.value v → proxied v = true → C.value (.proxy i (.foreign n) v))
    (start : I World.empty) {k : Names} {w : World} (hw : Reached proxied h k w) :
    I w ∧ k.Admitted C := by
  obtain ⟨qs, hqs⟩ := hw
  exact keeps_run hI hC hh hg hJ hres hproxied qs .empty start hqs

end Requests

/-- What holds in the empty world, is broken by no change and does not look at the books of the
resolvers holds in every world that is reached. -/
theorem Reached.holds (hI : Stable (.free fun _ => True) I) (hJ : Indifferent I)
    (start : I World.empty) {proxied : Value → Bool} {n : Nat} {k : Names} {w : World}
    (hw : Reached proxied (Host.level n) k w) : I w :=
  (hw.invariant hI .free (Host.keeps_level_of_indifferent hI hJ .free n) (Host.grows_level .free n)
    hJ (fun _ => trivial) (fun _ _ _ _ _ => trivial) start).1

end Session

/-! ### Worlds on the way -/

/-- The world arises from the empty one by changes, with any books.  So do the worlds that a session
reaches, and those on the way there, in which the calls are carried out that requests lead to. -/
inductive World.Arises : World → Prop
  /-- The empty world. -/
  | empty : Arises .empty
  /-- A change. -/
  | change {w w' : World} (hw : w.Arises) (h : World.Change (.free fun _ => True) w w')
    (held : w.MarksHeld w') : Arises w'
  /-- Other slots. -/
  | slots {w : World} (hw : w.Arises) (s : Store Slot) : Arises { w with slots := s }
  /-- Other variables are being evaluated. -/
  | evaluating {w : World} (hw : w.Arises) (l : List (Identity × String)) :
    Arises { w with evaluating := l }
  /-- A resolver has other renames and providers. -/
  | state {w : World} (hw : w.Arises) (r : Resolver) {s : ResolverState}
    (hs : s.types = (w.stateOf r).types) :
    Arises { w with resolvers := w.resolvers.insert r.id s }

namespace World.Arises

theorem stable : Stable (.free fun _ => True) World.Arises where
  respects w _ := .free _ w
  change _ _ h held hw := hw.change h held

theorem indifferent : Indifferent World.Arises where
  slots _ s hw := hw.slots s
  evaluating _ l hw := hw.evaluating l
  state _ r _ hs hw := hw.state r hs

/-- What holds in the empty world, is broken by no change and does not look at the books of the
resolvers holds in every world that arises. -/
theorem holds {I : World → Prop} (hI : Stable (.free fun _ => True) I) (hJ : Indifferent I)
    (start : I World.empty) {w : World} (hw : w.Arises) : I w := by
  induction hw with
  | empty => exact start
  | change _ h held ih => exact hI.change _ _ h held ih
  | slots _ s ih => exact hJ.slots _ s ih
  | evaluating _ l ih => exact hJ.evaluating _ l ih
  | state _ r hs ih => exact hJ.state _ r _ hs ih

end World.Arises

namespace Session

/-- What a session reaches arises. -/
theorem Reached.arises {proxied : Value → Bool} {n : Nat} {k : Names} {w : World}
    (hw : Reached proxied (Host.level n) k w) : w.Arises :=
  hw.holds World.Arises.stable World.Arises.indifferent .empty

/-! ### Sessions that are carried out -/

/-- What requests lead to. -/
def played (n : Nat) (qs : List Request) : Option (Names × World) :=
  (run (fun _ => true) (Host.level n) qs ∅ World.empty).seen Prod.mk

theorem reached_of_played {n : Nat} {qs : List Request} {k : Names} {w : World}
    (h : played n qs = some (k, w)) : Reached (fun _ => true) (Host.level n) k w := by
  obtain ⟨_, _, hrun, hsame⟩ := Outcome.exists_of_seen h
  cases hsame
  exact ⟨qs, hrun⟩

/-- The adapter that a client holds in a register. -/
def adapterIn (w : World) (register : String) : Option Adapter :=
  (w.registers.get? register).bind Value.adapter?

theorem get?_of_adapterIn {w : World} {register : String} {a : Adapter}
    (h : adapterIn w register = some a) : w.registers.get? register = some a.toValue := by
  obtain ⟨v, hv, ha⟩ := Option.bind_eq_some_iff.1 h
  rw [hv, Value.eq_toValue_of_adapter? ha]

end Session

end LateBinding
