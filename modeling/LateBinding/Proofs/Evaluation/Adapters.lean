import LateBinding.Proofs.Growth
import LateBinding.Proofs.Stages

/-!
# What adapters keep

Making an adapter and calling through one keep every stable invariant that running bodies,
asking for variables and resolving members keep, and give only what the contract admits
(`Adapter.leads_bind`, `Adapter.keeps_request`, `Resolver.keeps_wrap`,
`Resolver.keeps_newInstance`).  Binding, arranging a call and planning a new instance run no body,
and keep even an invariant that only notes do not break (`Adapter.keeps_arrange`,
`Resolver.keeps_planFrom`).
-/

namespace LateBinding

variable {C : Contract} {I : World → Prop} {h : Host}

theorem Value.eq_toValue_of_adapter? {v : Value} {a : Adapter} (h : v.adapter? = some a) :
    v = a.toValue := by
  cases v with
  | proxy id face target =>
    cases face with
    | foreign n => cases h
    | adapter b =>
      cases h
      rfl
  | _ => cases h

theorem Attempt.Keeps.ofTarget {α : Type} {P : α → Prop} {x : Attempt Exception α}
    (hx : Attempt.Keeps I P x) : Attempt.Keeps I P x.ofTarget :=
  .adapt hx

theorem Attempt.run_ofTarget_eq_done {α : Type} {x : Attempt Exception α} {w w' : World} {a : α} :
    x.ofTarget.run w = .done (.ok a) w' ↔ x.run w = .done (.ok a) w' :=
  run_adapt_eq_done

/-- What evaluation nests through keeps the invariant. -/
structure Host.Keeps (C : Contract) (I : World → Prop) (h : Host) : Prop where
  runs : h.Runs C I
  reads : h.Reads C I
  renames : h.Renames C I

theorem Indifferent.types_eq {w : World} {r : Resolver} {s : ResolverState}
    (hs : s.types = (w.stateOf r).types) (r' : Resolver) :
    ((w.withState r s).stateOf r').types = (w.stateOf r').types :=
  w.apply_stateOf_withState ResolverState.types hs r'

/-- Whether a cache holds an entry does not depend on the books. -/
theorem Indifferent.caches (hJ : Indifferent I) (e : TypeEntry Value) :
    Indifferent fun w => I w ∧ w.Caches e where
  slots w s hw := ⟨hJ.slots w s hw.1, hw.2⟩
  evaluating w l hw := ⟨hJ.evaluating w l hw.1, hw.2⟩
  state w r s hs hw :=
    ⟨hJ.state w r s hs hw.1, hw.2.grow fun r' => Indifferent.types_eq hs r' ▸ .refl _⟩

/-- Nor does what is known. -/
theorem Indifferent.cachedIn (w₀ : World) : Indifferent w₀.CachedIn where
  slots _ _ hw := ⟨hw.types, hw.markers⟩
  evaluating _ _ hw := ⟨hw.types, hw.markers⟩
  state _ _ _ hs hw :=
    ⟨fun r' => (Indifferent.types_eq hs r').symm ▸ hw.types r', hw.markers⟩

/-- Evaluation takes no entry out of a cache. -/
def Host.Grows (C : Contract) (h : Host) : Prop :=
  ∀ e, h.Keeps C fun w => w.Respects C ∧ w.Caches e

theorem Host.Reads.caches (hh : h.Reads C I) (hg : h.Grows C) (hI : Noting C I)
    (e : TypeEntry Value) : h.Reads C fun w => I w ∧ w.Caches e := by
  intro r name hr w o w' ⟨hw, held⟩ ho
  exact ⟨⟨(hh r name hr hw ho).1, ((hg e).reads r name hr ⟨hI.respects w hw, held⟩ ho).1.2⟩,
    trivial⟩

theorem Host.Runs.caches (hh : h.Runs C I) (hg : h.Grows C) (hI : Noting C I)
    (e : TypeEntry Value) : h.Runs C fun w => I w ∧ w.Caches e := by
  intro body receiver args hr ha w x w' ⟨hw, held⟩ hx
  obtain ⟨hw', hv⟩ := hh body receiver args hr ha hw hx
  exact ⟨⟨hw', ((hg e).runs body receiver args hr ha ⟨hI.respects w hw, held⟩ hx).1.2⟩, hv⟩

section Making

variable (hI : Noting C I)

include hI

namespace TypeEntry

variable (e : TypeEntry Value)

/-- The marker is looked up on an entry that a cache holds. -/
theorem keeps_adaptsTemplate :
    Attempt.Keeps (fun w => I w ∧ w.Caches e) (fun _ => True) e.adaptsTemplate := by
  unfold adaptsTemplate
  dsimp only
  split
  · exact .throw_bind
  · refine .bind (.liftM (e.keeps_marker hI _)) fun _ _ => ?_
    split
    · exact .pure trivial
    · exact .throw

theorem keeps_adaptsType :
    Act.Keeps (fun w => I w ∧ w.Caches e) (fun _ => True) e.adaptsType := by
  unfold adaptsType
  split
  · exact (e.keeps_marker hI _).bind fun _ _ => .pure trivial
  · exact .pure trivial

end TypeEntry

variable (hh : h.Reads C I) {r : Resolver} (hr : C.resolver r)

include hh hr

/-- The interface is one that a cache holds. -/
theorem Adapter.leads_bind (hC : C.Closed) {e : TypeEntry Value} (he : C.cls e.cls) {target : Value}
    (ht : C.value target) (scope : Option Scope) :
    Attempt.Leads (fun w => I w ∧ w.Caches e) I (fun a => C.value a.toValue)
      (Adapter.bind h r e target scope) := by
  refine Attempt.Leads.bind (e.keeps_adaptsTemplate hI) (fun _ hw => hw.1) fun _ _ =>
    Attempt.Keeps.leads (.bind (Resolver.keeps_resolveClass hr hh hI _ _) fun _ ha =>
      .bind (.liftM (.fresh_of hI)) fun _ _ => .pure ?_) fun _ hw => hw.1
  exact hC.adapter _ _ _ hr he ha ht

namespace Resolver

omit hh hr in
/-- What comes after a type is looked up may rely on the cache that holds its entry. -/
theorem keeps_typeNamed_bind {α : Type} {P : α → Prop} {name : String} {scope : Scope}
    {f : Option (TypeEntry Value) → Attempt BindingError α} (hnone : Attempt.Keeps I P (f none))
    (hsome : ∀ e, C.cls e.cls → Attempt.Leads (fun w => I w ∧ w.Caches e) I P (f (some e))) :
    Attempt.Keeps I P (liftM (r.typeNamed name scope) >>= f) := by
  refine (Attempt.Keeps.liftM (r.keeps_typeNamed hI name scope)).bind_bringing
    (R := fun o w => ∀ e ∈ o, w.Caches e) ?_ fun o ho => ?_
  · rintro w o w' hx e rfl
    obtain ⟨_, hok, hx⟩ := Attempt.run_liftM_eq_done.1 hx
    cases hok
    exact r.caches_of_typeNamed hx
  · cases o with
    | none => exact hnone.leads fun _ hw => hw.1
    | some e => exact fun w x w' hw hx => hsome e (ho e rfl) ⟨hw.1, hw.2 e rfl⟩ hx

theorem keeps_adaptType (scope : Scope) (type : String) :
    Attempt.Keeps I (fun _ => True) (r.adaptType h scope type) := by
  unfold adaptType
  split
  · exact .pure trivial
  refine keeps_typeNamed_bind hI (.pure trivial) fun e _ => ?_
  dsimp only
  split
  · exact (Attempt.Keeps.pure trivial).leads fun _ hw => hw.1
  refine Attempt.Leads.bind (.liftM (e.keeps_marker hI _)) (fun _ hw => hw.1) fun m _ => ?_
  have rest (template : String) : Attempt.Keeps I (fun _ => True) (do
      return (← r.resolveClass h template (some scope)).cls.name : Attempt BindingError String) :=
    .bind (keeps_resolveClass hr hh hI _ _) fun _ _ => .pure trivial
  split
  · exact (rest _).leads fun _ hw => hw.1
  · exact (Attempt.Keeps.pure trivial).leads fun _ hw => hw.1

theorem keeps_adaptTypes (scope : Scope) (types : List String) :
    Attempt.Keeps I (fun _ => True) (r.adaptTypes h scope types) := by
  induction types with
  | nil => exact .pure trivial
  | cons type types ih =>
    exact .bind (keeps_adaptType hI hh hr scope type) fun _ _ => .bind ih fun _ _ => .pure trivial

end Resolver

end Making

/-! ### Calls -/

namespace Adapter

variable {a : Adapter}

theorem keeps_find (hI : Noting C I) (q : Member) (args : List Value) :
    Attempt.Keeps I (fun _ => True) (a.find q args) := by
  cases q with
  | named name =>
    refine .bind (.except fun _ _ => trivial) fun chosen _ =>
      .bind (.liftM (TypeEntry.keeps_method _ hI _)) fun o _ => ?_
    split
    · exact .pure trivial
    · exact .throw
  | signed d =>
    refine .bind (.liftM (TypeEntry.keeps_method _ hI d)) fun o _ => ?_
    split
    · exact .pure trivial
    · exact .throw

section Names

variable (hC : C.Closed) (hreads : h.Reads C I) (ha : C.value a.toValue)

include hC hreads ha

theorem keeps_wrapResult (hI : Noting C I) (type : String) {result : Value}
    (hv : C.value result) : Attempt.Keeps I C.value (a.wrapResult h type result) := by
  have hr : C.resolver a.binding.resolver := hC.resolver _ _ _ ha
  unfold wrapResult
  dsimp only
  split
  · exact .pure hv
  refine Resolver.keeps_typeNamed_bind hI (.pure hv) fun e he => ?_
  refine Attempt.Leads.bind (.liftM (e.keeps_adaptsType hI)) (fun _ hw => hw.1) fun _ _ => ?_
  split
  · exact (Attempt.Keeps.pure hv).leads fun _ hw => hw.1
  · exact Attempt.Leads.bind (leads_bind hI hreads hr hC he hv none) (fun _ hw => hw)
      fun _ hb => Attempt.Keeps.pure hb

theorem keeps_markedField (hI : Noting C I) (m : MethodDecl) (marker : Marker) :
    Act.Keeps I (fun _ => True) (a.markedField h m marker) := by
  have hr : C.resolver a.binding.resolver := hC.resolver _ _ _ ha
  unfold markedField
  split
  · exact Resolver.keeps_resolveField hr hreads hI _ _
  · exact TypeEntry.keeps_field _ hI _

theorem keeps_missingField (m : MethodDecl) (marker : Marker) :
    Act.Keeps I (fun _ => True) (a.missingField h m marker) := by
  have hr : C.resolver a.binding.resolver := hC.resolver _ _ _ ha
  unfold missingField
  dsimp only
  split
  · exact (Resolver.keeps_substitute hr hreads _).bind fun _ _ => .pure trivial
  · simp only [pure_bind]
    exact .pure trivial

end Names

/-- What is to be done uses only what the contract admits. -/
def Job.Admitted (C : Contract) : Job → Prop
  | .run u _ => ∀ r, u = .ok r → C.value r.receiver ∧ ∀ v ∈ r.args, C.value v
  | .get _ _ => True
  | .set _ v => C.value v

theorem Job.admitted_runOn (hC : C.Basic) (m : MethodHandle) {receiver : Value} {args : List Value}
    (hr : C.value receiver) (hargs : ∀ v ∈ args, C.value v) (returns : Option String) :
    Job.Admitted C (.run (m.runOn receiver args) returns) := by
  intro u hu
  obtain ⟨d, hpick, -, rfl⟩ := MethodHandle.runOn_eq_ok hu
  refine ⟨?_, hargs⟩
  rcases MethodHandle.receiver_of_pick hpick with hnull | hsame
  · exact hnull ▸ hC.null
  · exact hsame ▸ hr

theorem unwrapped_admitted (hC : C.Closed) {args : List Value} (hargs : ∀ v ∈ args, C.value v) :
    ∀ v ∈ args.map Value.unwrap, C.value v := by
  intro v hv
  obtain ⟨u, hu, rfl⟩ := List.mem_map.1 hv
  exact hC.unwrap (hargs u hu)

section Stages

variable (hI : Noting C I) (hC : C.Closed) (hreads : h.Reads C I) (hrenames : h.Renames C I)
  (ha : C.value a.toValue)

include hI hC hreads hrenames ha

theorem keeps_realMethod (m : MethodDecl) (rename : Option Marker) :
    Attempt.Keeps I (fun _ => True) (a.realMethod h m rename) := by
  have hr : C.resolver a.binding.resolver := hC.resolver _ _ _ ha
  exact .bind (Resolver.keeps_adaptTypes hI hreads hr _ _) fun params _ =>
    Resolver.keeps_resolveMethod hr hI hrenames _ _ _ _

/-- Preparing a call keeps what no note breaks. -/
theorem keeps_prepare (m : MethodHandle) {args : List Value} (hargs : ∀ v ∈ args, C.value v) :
    Attempt.Keeps I (Job.Admitted C) (a.prepare h m args) := by
  unfold prepare
  split
  · refine .bind (.liftM (keeps_markedField hC hreads ha hI m.decl _)) fun o _ => ?_
    split
    · exact .bind (.liftM (keeps_missingField hC hreads ha m.decl _)) fun _ _ => .throw
    · refine .except fun job hjob => ?_
      unfold access at hjob
      split at hjob
      · cases hjob
        trivial
      · cases hjob
        exact hargs _ (List.mem_singleton_self _)
      · cases hjob
  · split
    · exact .pure (Job.admitted_runOn hC.toBasic m ha hargs none)
    · exact .bind (keeps_realMethod hI hC hreads hrenames ha _ _) fun real _ =>
        .pure (Job.admitted_runOn hC.toBasic real (hC.target _ _ _ ha)
          (unwrapped_admitted hC hargs) _)

/-- Arranging a call keeps what no note breaks. -/
theorem keeps_arrange (q : Member) {args : List Value} (hargs : ∀ v ∈ args, C.value v) :
    Attempt.Keeps I (Job.Admitted C) (a.arrange h q args) :=
  .bind (keeps_find hI q args) fun m _ => keeps_prepare hI hC hreads hrenames ha m hargs

end Stages

variable (hI : Stable C I) (hC : C.Closed) (hh : h.Keeps C I) (ha : C.value a.toValue)

include hI hC hh ha

/-- Carrying out what was prepared keeps the invariant. -/
theorem keeps_carryOut {job : Job} (hjob : job.Admitted C) :
    Attempt.Keeps I C.value (a.carryOut h job) := by
  cases job with
  | run u returns =>
    have performed : Attempt.Keeps I C.value (liftM u >>= Run.perform h) :=
      .bind (.except hjob) fun r hr => hh.runs r.body _ _ hr.1 hr.2
    refine .bind (.ofTarget performed) fun v hv => ?_
    cases returns with
    | none => exact .pure hv
    | some type => exact keeps_wrapResult hC hh.reads ha hI.noting type hv
  | get f returns =>
    exact .bind (.ofTarget (FieldHandle.keeps_get hI.noting hC.toBasic f _)) fun _ hv =>
      keeps_wrapResult hC hh.reads ha hI.noting _ hv
  | set f v =>
    exact .bind (.ofTarget (FieldHandle.keeps_set hI f _ (hC.unwrap hjob))) fun _ _ => .pure hjob

/-- A call keeps the invariant. -/
theorem keeps_request (q : Member) {args : List Value} (hargs : ∀ v ∈ args, C.value v) :
    Attempt.Keeps I C.value (a.request h q args) := by
  rw [request_eq]
  exact .bind (keeps_arrange hI.noting hC hh.reads hh.renames ha q hargs) fun _ hjob =>
    keeps_carryOut hI hC hh ha hjob

end Adapter

/-! ### Making adapters -/

namespace Resolver

variable (hI : Stable C I) (hC : C.Closed) (hh : h.Keeps C I) {r : Resolver}
  (hr : C.resolver r)

include hI hC hh hr

theorem keeps_wrap (interface : String) {target : Value} (ht : C.value target)
    (scope : Option Scope) :
    Attempt.Keeps I (fun a => C.value a.toValue) (r.wrap h interface target scope) :=
  (keeps_resolveClass hr hh.reads hI.noting _ _).bind_bringing
    (fun _ _ _ hx => caches_of_resolveClass hx) fun _ he =>
      Adapter.leads_bind hI.noting hh.reads hr hC he ht scope

omit hI hC hh in
/-- The adapted type is still in the cache when its constructor is looked up. -/
theorem leads_planOf (hI : Noting C I) (hreads : h.Reads C I) (hg : h.Grows C)
    {e adapted : TypeEntry Value} (hadapted : C.cls adapted.cls) (scope : Scope) (name : String)
    (params : List String) :
    Attempt.Leads (fun w => I w ∧ w.Caches adapted) I
      (fun p => p.interface = e ∧ C.cls p.ctor.cls) (r.planOf h e scope name adapted params) := by
  have adapting : Attempt.Keeps (fun w => I w ∧ w.Caches adapted) (fun _ => True)
      (r.adaptTypes h scope params) :=
    keeps_adaptTypes (hI.caches adapted) (hreads.caches hg hI adapted) hr scope params
  refine Attempt.Leads.bind adapting (fun _ hw => hw.1) fun params _ =>
    .bind (.liftM (adapted.leads_constructor hI hadapted params)) (fun _ hw => hw) fun o ho => ?_
  change Attempt.Keeps I _ _
  split
  · exact .throw
  · rename_i k
    exact .pure ⟨rfl, ho k rfl⟩

/-- Plan a new instance of the type that an interface adapts. -/
def planFrom (h : Host) (r : Resolver) (e : TypeEntry Value) (params : List String)
    (scope : Scope) : Attempt BindingError InstancePlan := do
  let template ← e.adaptsTemplate
  let name ← r.substitute h template
  let adapted ← classFound template name (← r.classNamedIn name scope)
  r.planOf h e scope name adapted params

omit hI hC hh in
/-- The interface is one that a cache holds, and holds on. -/
theorem keeps_planFrom (hI : Noting C I) (hreads : h.Reads C I) (hg : h.Grows C)
    (e : TypeEntry Value) (params : List String) (scope : Scope) :
    Attempt.Keeps (fun w => I w ∧ w.Caches e) (fun p => p.interface = e ∧ C.cls p.ctor.cls)
      (planFrom h r e params scope) := by
  have hIe := hI.caches e
  have hreadse := hreads.caches hg hI e
  refine .bind (e.keeps_adaptsTemplate hI) fun template _ =>
    .bind (.liftM (keeps_substitute hr hreadse template)) fun name _ =>
      (Attempt.Keeps.liftM (r.keeps_classNamedIn hIe name _)).bind_bringing
        (R := fun o w => ∀ e ∈ o, w.Caches e) ?_ fun o ho => ?_
  · rintro w o w' hx e rfl
    obtain ⟨_, hok, hx⟩ := Attempt.run_liftM_eq_done.1 hx
    cases hok
    exact ⟨r, .of_known (r.known_of_classNamedIn hx)⟩
  cases o with
  | none =>
    rintro w x w' ⟨hw, -⟩ hx
    cases hx
    exact ⟨hw, nofun⟩
  | some adapted =>
    rintro w x w' ⟨hw, held⟩ hx
    exact leads_planOf hr hIe hreadse hg (ho adapted rfl) _ name params ⟨hw, held _ rfl⟩ hx

theorem keeps_newInstance (hg : h.Grows C) (interface : String) (params : List String)
    {args : List Value} (hargs : ∀ v ∈ args, C.value v) (scope : Option Scope) :
    Attempt.Keeps I (fun a => C.value a.toValue)
      (r.newInstance h interface params args scope) := by
  have planned : r.plan h interface params scope = r.resolveClass h interface scope >>=
      fun e => planFrom h r e params (scope.getD r.defaultScope) := rfl
  rw [newInstance_eq, planned, bind_assoc]
  refine (keeps_resolveClass hr hh.reads hI.noting _ _).bind_bringing
    (fun _ _ _ hx => caches_of_resolveClass hx) fun e he => ?_
  refine Attempt.Leads.bind (keeps_planFrom hr hI.noting hh.reads hg e params _)
    (fun _ hw => hw.1) fun p ⟨hinterface, hctor⟩ => ?_
  -- the interface is still in the cache when the constructor has run
  have constructing := Class.keeps_construct (hh.runs.caches hg hI.noting e) (hI.caches e)
    hC.toBasic hctor p.ctor.decl (Adapter.unwrapped_admitted hC hargs)
  refine Attempt.Leads.bind (Attempt.Keeps.ofTarget constructing) (fun _ hw => hw.1)
    fun o hcls => ?_
  rw [hinterface]
  refine Adapter.leads_bind hI.noting hh.reads hr hC he ?_ _
  rw [hC.object, hcls]
  exact hctor

end Resolver

end LateBinding
