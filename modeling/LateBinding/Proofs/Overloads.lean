import Mathlib.Data.List.Nodup
import LateBinding.Proofs.Members
import LateBinding.Proofs.Session

/-!
# Choosing among overloads

A call by name looks for the methods of this name and number of parameters that the interface and
its ancestors declare, picks the parameter types of one of them (`Adapter.pick`), and looks the
signature up on the interface.  A call by signature looks it up at once.

An interface *offers* the methods that a lookup of their signature finds (`Adapter.offers`); the
parameter lists of those that are not static, each once and in the order of their declaration,
are `Adapter.offered`.  The *declared* ones (`Adapter.declared`) may be more, and in another
order: a private method of an ancestor is not found, and one that is found may stand in the
place of another.

* `Adapter.call_eq_invoke` : **a call by name is the call of the signature that it picks**, unless
  a lookup of that signature finds a static method;
* `Adapter.call_eq_pick` : **a call by name depends on the offered signatures only**, if they are
  those that are declared, and if a signature that is the only one is declared once or is
  conformed to;
* `Adapter.offered_eq_declared` : the offered signatures are those that are declared if no method
  of this name is private or static.

What this does **not** say: the declarations that are counted need not be those that are offered.
A call by name does run a static method that hides the one that it picked
(`Adapter.static_method_is_called`), and it rejects arguments for the only signature because that
is declared twice (`Adapter.redeclared_method_rejects`).
-/

namespace LateBinding

/-! ### Lists without repetitions -/

section Lists

variable {α β : Type} [BEq α] [LawfulBEq α]

theorem eraseDups_concat (l : List α) (a : α) :
    (l ++ [a]).eraseDups = l.eraseDups ++ if a ∈ l then [] else [a] := by
  rw [List.eraseDups_append]
  by_cases h : a ∈ l
  · simp [List.removeAll, h]
  · simp [List.removeAll, h, List.eraseDups_cons]

theorem nodup_eraseDups (l : List α) : l.eraseDups.Nodup := by
  induction l using List.reverseRecOn with
  | nil => simp
  | append_singleton l a ih =>
    rw [eraseDups_concat]
    by_cases h : a ∈ l
    · simpa [h] using ih
    · simpa [h, List.nodup_append, ih] using fun b hb (hab : b = a) => h (hab ▸ hb)

/-- The first element that satisfies a condition stays when repetitions are dropped. -/
theorem find?_eraseDups (q : α → Bool) (l : List α) : l.eraseDups.find? q = l.find? q := by
  induction l using List.reverseRecOn with
  | nil => rfl
  | append_singleton l a ih =>
    rw [eraseDups_concat, List.find?_append, List.find?_append, ih]
    by_cases h : a ∈ l
    · cases hl : l.find? q with
      | some b => rfl
      | none =>
        -- the element that is dropped is among those that do not satisfy the condition
        have hq : ¬ q a = true := List.find?_eq_none.1 hl a h
        simp [h, hq]
    · simp [h]

/-- Elements that are not the first of their kind may be left out before repetitions are
dropped. -/
theorem eraseDups_flatMap_filter (g : β → List α) (keep : β → α → Bool) (l : List β)
    (hkeep : ∀ pre b post, l = pre ++ b :: post → ∀ a ∈ g b, keep b a = true ∨ a ∈ pre.flatMap g) :
    (l.flatMap fun b => (g b).filter (keep b)).eraseDups = (l.flatMap g).eraseDups := by
  induction l using List.reverseRecOn with
  | nil => rfl
  | append_singleton l b ih =>
    have ih := ih fun pre c post h a ha => hkeep pre c (post ++ [b]) (by simp [h]) a ha
    have same (a : α) : a ∈ (l.flatMap fun b => (g b).filter (keep b)) ↔ a ∈ l.flatMap g := by
      rw [← List.mem_eraseDups, ih, List.mem_eraseDups]
    have new : ((g b).filter (keep b)).removeAll (l.flatMap fun b => (g b).filter (keep b)) =
        (g b).removeAll (l.flatMap g) := by
      simp only [List.removeAll, List.filter_filter]
      refine List.filter_congr fun a ha => ?_
      have := hkeep l b [] (by simp) a ha
      by_cases hmem : a ∈ l.flatMap g
      · simp [(same a).2 hmem, hmem]
      · have hnew : a ∉ l.flatMap fun b => (g b).filter (keep b) := fun h => hmem ((same a).1 h)
        simp [hnew, hmem, this.resolve_right hmem]
    simp only [List.flatMap_append, List.flatMap_singleton, List.eraseDups_append, ih, new]

end Lists

namespace Adapter

variable (a : Adapter)

/-! ### Calls by name -/

/-- The method that is looked up takes as many parameters as there are arguments. -/
theorem arity_of_choose {name : String} {args : List Value} {m : MethodDecl}
    (hm : a.choose name args = .ok m) : m.params.length = args.length := by
  have cand : m ∈ a.candidates name args.length := by
    unfold choose at hm
    split at hm
    · cases hm
    · rename_i only h
      cases hm
      simp [h]
    · split at hm
      · rename_i h
        cases hm
        exact List.mem_of_find?_eq_some h
      · cases hm
  simp only [candidates, List.mem_filter, Bool.and_eq_true, decide_eq_true_eq] at cand
  exact cand.2.1.2

/-- The signature of the method that is chosen is looked up on the interface. -/
theorem select_of_choose {name : String} {args : List Value} {m : MethodDecl}
    (hm : a.choose name args = .ok m) :
    a.select name args = liftM (a.binding.interface.method ⟨name, m.params⟩) >>= fun found =>
      match found with
      | some k => pure k
      | none => throw (.unknownMember a.interfaceName name args.length) := by
  rw [select, hm]
  rfl

/-- A call by name fails as the choice does, before anything is looked up. -/
theorem call_of_choose_error (h : Host) {name : String} {args : List Value} {e : BindingError}
    (he : a.choose name args = .error e) (w : World) :
    (a.call h name args).run w = .done (.error e) w := by
  have failed : (a.select name args).run w = .done (.error e) w := by
    rw [select, he]
    rfl
  rw [call, ExceptT.run_bind, Act.bind_apply, failed]
  rfl

/-- A call by name and the call of the signature that it picks look the same method up.  They go on
alike if it is not static; if it is, the call by name runs it and the call by signature does not
know it. -/
theorem call_and_invoke_of_choose (h : Host) {name : String} {args : List Value} {m : MethodDecl}
    (hm : a.choose name args = .ok m) (w : World) :
    ∃ o w', o.map MethodHandle.found = a.binding.interface.finds w ⟨name, m.params⟩ ∧
      (a.call h name args).run w = (match o with
        | some k => (a.dispatch h k args).run w'
        | none => .done (.error (.unknownMember a.interfaceName name args.length)) w') ∧
      (a.invoke h ⟨name, m.params⟩ args).run w =
        (match o.filter fun k => !k.decl.isStatic with
        | some k => (a.dispatch h k args).run w'
        | none => .done (.error (.unknownMember a.interfaceName name args.length)) w') := by
  obtain ⟨o, w', ho, hfound⟩ := a.binding.interface.method_eq_done ⟨name, m.params⟩ w
  refine ⟨o, w', hfound, ?_, ?_⟩
  · rw [call, ExceptT.run_bind, Act.bind_apply, a.select_of_choose hm, Attempt.run_liftM_bind ho]
    cases o <;> rfl
  · rw [invoke, Attempt.run_liftM_bind ho]
    cases hk : o.filter fun k => !k.decl.isStatic with
    | some k => rfl
    | none =>
      have arity : Descriptor.arity ⟨name, m.params⟩ = args.length := a.arity_of_choose hm
      rw [← arity]
      rfl

end Adapter

/-! ### The signatures that are declared and those that are offered -/

/-- The parameter lists of the methods of this name and number of parameters that the class declares
and that are not static. -/
def ClassDecl.overloads (k : ClassDecl Value) (name : String) (arity : Nat) :
    List (List String) :=
  (k.methods.filter fun m => m.name = name && m.params.length = arity && !m.isStatic).map
    MethodDecl.params

namespace Adapter

variable (a : Adapter)

/-- The parameter lists that the interface and its ancestors declare, each once, nearest first. -/
def declared (name : String) (arity : Nat) : List (List String) :=
  (a.binding.interface.cls.lineage.flatMap fun k => k.overloads name arity).eraseDups

/-- A lookup of the signature on the interface finds what this class declares, and that is not
static. -/
def offers (w : World) (k : ClassDecl Value) (d : Descriptor) : Bool :=
  (a.binding.interface.finds w d).any fun f => f.declaring.id = k.id && !f.decl.isStatic

/-- The parameter lists that the interface offers, each once, nearest first. -/
def offered (w : World) (name : String) (arity : Nat) : List (List String) :=
  (a.binding.interface.cls.lineage.flatMap fun k =>
    (k.overloads name arity).filter fun p => a.offers w k ⟨name, p⟩).eraseDups

/-- Pick a parameter list: the only one, whatever the arguments, or else the first that they
conform to. -/
def pick (name : String) (args : List Value) :
    List (List String) → Except BindingError (List String)
  | [] => .error (.unknownMember a.interfaceName name args.length)
  | [only] => .ok only
  | many =>
    match many.find? fun p => accepts p args with
    | some p => .ok p
    | none => .error (.noMatchingOverload a.interfaceName name (args.map Value.typeName))

theorem candidates_map_params (name : String) (arity : Nat) :
    (a.candidates name arity).map MethodDecl.params =
      a.binding.interface.cls.lineage.flatMap fun k => k.overloads name arity := by
  simp only [candidates, List.filter_flatMap, List.map_flatMap, ClassDecl.overloads]

/-- A call by name picks among the parameter lists of the candidates, repetitions included. -/
theorem choose_map_params (name : String) (args : List Value) :
    (a.choose name args).map MethodDecl.params =
      a.pick name args ((a.candidates name args.length).map MethodDecl.params) := by
  unfold choose
  match a.candidates name args.length with
  | [] => rfl
  | [_] => rfl
  | m :: n :: rest =>
    have found : ((m :: n :: rest).map MethodDecl.params).find? (fun p => accepts p args) =
        ((m :: n :: rest).find? fun m => accepts m.params args).map MethodDecl.params :=
      List.find?_map ..
    simp only [List.map_cons] at found
    simp only [List.map_cons, pick, found]
    cases (m :: n :: rest).find? fun m => accepts m.params args <;> rfl

theorem mem_of_pick {name : String} {args : List Value} {l : List (List String)}
    {p : List String} (hp : a.pick name args l = .ok p) : p ∈ l := by
  match l with
  | [] => cases hp
  | [_] =>
    cases hp
    exact List.mem_singleton_self p
  | q :: r :: rest =>
    simp only [pick] at hp
    split at hp
    · rename_i h
      cases hp
      exact List.mem_of_find?_eq_some h
    · cases hp

/-- Repetitions matter only where they turn the only parameter list into several. -/
theorem pick_eraseDups (name : String) (args : List Value) (l : List (List String))
    (hl : ∀ p, l.eraseDups = [p] → l.length = 1 ∨ accepts p args = true) :
    a.pick name args l.eraseDups = a.pick name args l := by
  match l with
  | [] => rfl
  | [_] => rfl
  | p :: q :: rest =>
    have found := find?_eraseDups (fun p => accepts p args) (p :: q :: rest)
    rw [List.eraseDups_cons] at hl found ⊢
    cases htail : (List.filter (fun r => !r == p) (q :: rest)).eraseDups with
    | nil =>
      rw [htail] at hl
      have conforms : accepts p args = true := by
        rcases hl p rfl with h | h
        · simp at h
        · exact h
      simp [pick, conforms]
    | cons r more =>
      rw [htail] at found
      simp only [pick, found]

/-- A call by name picks among the declared parameter lists, each once, if one that is the only one
is declared once or conformed to. -/
theorem choose_eq_pick {name : String} {args : List Value}
    (honly : ∀ p, a.declared name args.length = [p] →
      (a.candidates name args.length).length = 1 ∨ accepts p args = true) :
    (a.choose name args).map MethodDecl.params =
      a.pick name args (a.declared name args.length) := by
  rw [choose_map_params, declared, ← candidates_map_params, pick_eraseDups]
  intro p hp
  rw [List.length_map]
  refine honly p ?_
  rw [declared, ← candidates_map_params, hp]

theorem exists_of_mem_offered {w : World} {name : String} {arity : Nat} {p : List String}
    (hp : p ∈ a.offered w name arity) :
    ∃ f, a.binding.interface.finds w ⟨name, p⟩ = some f ∧ f.decl.isStatic = false := by
  simp only [offered, List.mem_eraseDups, List.mem_flatMap, List.mem_filter, offers,
    Option.any_eq_true, Bool.and_eq_true, Bool.not_eq_true'] at hp
  obtain ⟨-, -, -, f, hf, -, hstatic⟩ := hp
  exact ⟨f, hf, hstatic⟩

/-- The nearest class that declares the signature is where a search finds it, if what it declares
first is public. -/
theorem findMethod_eq_of_nearest {c : Class Value} {d : Descriptor}
    {pre post : List (ClassDecl Value)} {k : ClassDecl Value} {m : MethodDecl}
    (hlin : c.lineage = pre ++ k :: post) (hpre : ∀ k' ∈ pre, k'.method? d = none)
    (hm : k.method? d = some m) (hpub : m.visibility = .pub) :
    c.findMethod d = some ⟨k, m, false⟩ := by
  have none_before : (pre.findSome? fun k' => (k'.method? d).bind fun m =>
      if m.visibility = .pub then some (⟨k', m, false⟩ : Found Value MethodDecl) else none) = none :=
    List.findSome?_eq_none_iff.2 fun k' hk' => by rw [hpre k' hk']; rfl
  simp [Class.findMethod, Class.search, hlin, List.findSome?_append, none_before, hm, hpub]

/-- If no method of this name is private or static, and the entry of the interface remembers nothing
but what a search finds, then all declared signatures are offered. -/
theorem offered_eq_declared {w : World} {name : String} {arity : Nat}
    (truthful : ∀ d, a.binding.interface.finds w d = a.binding.interface.cls.findMethod d)
    (visible : ∀ k ∈ a.binding.interface.cls.lineage, ∀ m ∈ k.methods, m.name = name →
      m.params.length = arity → m.visibility = .pub ∧ m.isStatic = false) :
    a.offered w name arity = a.declared name arity := by
  refine eraseDups_flatMap_filter _ _ _ fun pre k post hlin p hp => ?_
  simp only [ClassDecl.overloads, List.mem_map, List.mem_filter, Bool.and_eq_true,
    decide_eq_true_eq] at hp
  obtain ⟨m, ⟨hmem, ⟨hname, harity⟩, -⟩, rfl⟩ := hp
  have declares {k' : ClassDecl Value} {m' : MethodDecl} (hk' : k' ∈ pre ++ k :: post)
      (hm' : k'.method? ⟨name, m.params⟩ = some m') : m'.visibility = .pub ∧
        m'.isStatic = false ∧ m.params ∈ k'.overloads name arity := by
    have sig : m'.name = name ∧ m'.params = m.params := by
      simpa [ClassDecl.method?] using List.find?_some hm'
    have mem : m' ∈ k'.methods := List.mem_of_find?_eq_some hm'
    obtain ⟨hpub, hstatic⟩ := visible k' (hlin ▸ hk') m' mem sig.1 (sig.2 ▸ harity)
    refine ⟨hpub, hstatic, List.mem_map.2 ⟨m', List.mem_filter.2 ⟨mem, ?_⟩, sig.2⟩⟩
    simp [sig, harity, hstatic]
  by_cases hpre : ∀ k' ∈ pre, k'.method? ⟨name, m.params⟩ = none
  · left
    -- the class that declares `m` is the nearest one to declare the signature
    obtain ⟨m', hm'⟩ : ∃ m', k.method? ⟨name, m.params⟩ = some m' := by
      refine Option.isSome_iff_exists.1 (List.find?_isSome.2 ⟨m, hmem, ?_⟩)
      simp [hname]
    obtain ⟨hpub, hstatic, -⟩ := declares (by simp) hm'
    have hfind := truthful ⟨name, m.params⟩
    rw [findMethod_eq_of_nearest hlin hpre hm' hpub] at hfind
    simp [offers, hfind, hstatic]
  · right
    push Not at hpre
    obtain ⟨k', hk', hne⟩ := hpre
    obtain ⟨m', hm'⟩ := Option.ne_none_iff_exists'.1 hne
    exact List.mem_flatMap.2 ⟨k', hk', (declares (by simp [hk']) hm').2.2⟩

theorem pick_eq_of_two_le (name : String) (args : List Value) {l : List (List String)}
    (hl : 2 ≤ l.length) : a.pick name args l =
      match l.find? fun p => accepts p args with
      | some p => .ok p
      | none => .error (.noMatchingOverload a.interfaceName name (args.map Value.typeName)) := by
  match l with
  | [] => simp at hl
  | [_] => simp at hl
  | _ :: _ :: _ => rfl

/-- In whatever order parameter lists are given, one of them is picked or none, and the same one if
the arguments conform to no two of them. -/
theorem pick_congr (a a' : Adapter) (name : String) (args : List Value)
    {l l' : List (List String)} (perm : l'.Perm l) :
    (a'.pick name args l').isOk = (a.pick name args l).isOk ∧
      ((∀ p ∈ l, ∀ q ∈ l, accepts p args = true → accepts q args = true → p = q) →
        (a'.pick name args l').toOption = (a.pick name args l).toOption) := by
  have hlen := perm.length_eq
  match l with
  | [] =>
    obtain rfl := perm.eq_nil
    exact ⟨rfl, fun _ => rfl⟩
  | [p] =>
    obtain rfl := List.perm_singleton.1 perm
    exact ⟨rfl, fun _ => rfl⟩
  | p :: q :: rest =>
    have two : 2 ≤ (p :: q :: rest).length := by simp
    rw [a.pick_eq_of_two_le name args two, a'.pick_eq_of_two_le name args (hlen ▸ two)]
    cases hfound : (p :: q :: rest).find? fun p => accepts p args with
    | none =>
      have hnone : (l'.find? fun p => accepts p args) = none := by
        rw [List.find?_eq_none] at hfound ⊢
        exact fun r hr => hfound r (perm.mem_iff.1 hr)
      rw [hnone]
      exact ⟨rfl, fun _ => rfl⟩
    | some r =>
      have hr : accepts r args = true := List.find?_some (p := fun p => accepts p args) hfound
      have mem := List.mem_of_find?_eq_some hfound
      obtain ⟨r', hfound'⟩ : ∃ r', (l'.find? fun p => accepts p args) = some r' :=
        Option.isSome_iff_exists.1 (List.find?_isSome.2 ⟨r, perm.mem_iff.2 mem, hr⟩)
      rw [hfound']
      refine ⟨rfl, fun hone => ?_⟩
      have hr' : accepts r' args = true := List.find?_some (p := fun p => accepts p args) hfound'
      have mem' := perm.mem_iff.1 (List.mem_of_find?_eq_some hfound')
      rw [hone r' mem' r mem hr' hr]

theorem mem_declared {name : String} {arity : Nat} {p : List String} :
    p ∈ a.declared name arity ↔
      ∃ k ∈ a.binding.interface.cls.lineage, p ∈ k.overloads name arity := by
  rw [declared, List.mem_eraseDups, List.mem_flatMap]

/-- Declaring offered signatures again in an interface that extends this one leaves those that are
declared the same, up to their order. -/
theorem declared_perm_of_redeclared {a a' : Adapter} {name : String} {arity : Nat}
    (hextends : a'.binding.interface.cls.inherited = a.binding.interface.cls.lineage)
    (hagain : ∀ p ∈ a'.binding.interface.cls.decl.overloads name arity, p ∈ a.declared name arity) :
    (a'.declared name arity).Perm (a.declared name arity) := by
  refine (List.perm_ext_iff_of_nodup (nodup_eraseDups _) (nodup_eraseDups _)).2 fun p => ?_
  have split : p ∈ a'.declared name arity ↔
      p ∈ a'.binding.interface.cls.decl.overloads name arity ∨ p ∈ a.declared name arity := by
    rw [mem_declared, mem_declared, Class.lineage, hextends]
    simp
  exact split.trans (or_iff_right_of_imp (hagain p))

end Adapter

/-! ### Interfaces that declare a signature twice -/

namespace Shapes

open Session

/-- A method that is told the name of the type of its argument, which is to be an integer. -/
def kind (body : Option Expr) : MethodDecl := ⟨"kind", ["int"], "str", .pub, false, [], body⟩

/-- A method without parameters. -/
def go (isStatic : Bool) (body : Option Expr) : MethodDecl :=
  ⟨"go", [], "str", .pub, isStatic, [], body⟩

/-- An interface declares two methods; another one that extends it declares one of them again and
hides the other by a static method.  A client makes an adapter for each. -/
def requests : List Request := [
  .scope "app" "app" none,
  .define "raw"
    ⟨"pkg.Shape", .concrete, none, [kind (some (.typeName (.arg 0)))], [], [], []⟩ (some "app"),
  .define "base"
    ⟨"app.Base", .interface, none, [kind none, go false none], [], [], [.adapts "pkg.Shape"]⟩
    (some "app"),
  .define "shape"
    ⟨"app.Shape", .interface, some "base", [kind none, go true (some (.literal (.str "went")))], [],
      [], [.adapts "pkg.Shape"]⟩ (some "app"),
  .resolver "r" ∅ "app",
  .newInstance "base" "r" "app.Base" [] [] none,
  .newInstance "shape" "r" "app.Shape" [] [] none]

/-- The world in which the session ends. -/
def world : World :=
  match run (fun _ => true) (Host.level 3) requests ∅ World.empty with
  | .done _ w => w
  | _ => World.empty

theorem reached : ∃ k, Reached (fun _ => true) (Host.level 3) k world := by
  have returns : ((run (fun _ => true) (Host.level 3) requests ∅ World.empty).seen
      fun _ _ => ()) = some () := by decide +kernel
  obtain ⟨k, w, hw, -⟩ := Outcome.exists_of_seen returns
  have same : world = w := by rw [world, hw]
  exact ⟨k, requests, by rw [same, hw]⟩

/-- The adapter in a register. -/
def adapter (register : String) : Option Adapter :=
  (world.registers.get? register).bind Value.adapter?

theorem get?_of_adapter {register : String} {a : Adapter} (ha : adapter register = some a) :
    world.registers.get? register = some a.toValue :=
  get?_of_adapterIn ha

/-- How a call ends: with a text, or with a failure. -/
inductive Ending
  /-- It gives this text. -/
  | text (s : String)
  /-- The interface has no such member. -/
  | unknown
  /-- No overload accepts the arguments. -/
  | refused
  deriving DecidableEq

/-- How a call ended. -/
def ending : Outcome (Except BindingError Value) → Option Ending
  | .done (.ok v) _ => v.str?.map .text
  | .done (.error (.unknownMember _ _ _)) _ => some .unknown
  | .done (.error (.noMatchingOverload _ _ _)) _ => some .refused
  | _ => none

/-- How a call of an adapter by name ends. -/
def byName (register name : String) (args : List Value) : Option Ending :=
  (adapter register).bind fun a : Adapter => ending ((a.call (Host.level 3) name args).run world)

/-- How a call of an adapter by signature ends. -/
def bySignature (register : String) (d : Descriptor) (args : List Value) : Option Ending :=
  (adapter register).bind fun a : Adapter => ending ((a.invoke (Host.level 3) d args).run world)

/-- The parameter types of the method that a call of an adapter by name chooses. -/
def chosen (register name : String) (args : List Value) : Option (List String) :=
  (adapter register).bind fun a : Adapter => (a.choose name args).toOption.map MethodDecl.params

theorem exists_of_chosen {register name : String} {args : List Value} {p : List String}
    (h : chosen register name args = some p) :
    ∃ a m, adapter register = some a ∧ a.choose name args = .ok m ∧ m.params = p := by
  obtain ⟨a, ha, h⟩ := Option.bind_eq_some_iff.1 h
  cases hm : a.choose name args with
  | error e => simp [hm, Except.toOption] at h
  | ok m => exact ⟨a, m, ha, hm, by simpa [hm, Except.toOption] using h⟩

/-- What is known of the overloads of a method of one argument of an adapter: the signatures that
are offered, those that are declared, and how often. -/
def overloadsOf (a : Adapter) (name : String) : List (List String) × List (List String) × Nat :=
  (a.offered world name 1, a.declared name 1, (a.candidates name 1).length)

/-- The adapter for an interface that extends its own and declares a method again. -/
def extended (a : Adapter) : Adapter :=
  let again : ClassDecl Value :=
    { a.binding.interface.cls.decl with id := world.next, methods := [kind none] }
  { a with binding := { a.binding with
      interface := ⟨world.next + 1, ⟨again, a.binding.interface.cls.lineage⟩⟩ } }

end Shapes

namespace Adapter

open Shapes

variable (a : Adapter)

/-! ### Calls by name and calls by signature -/

/-- **A call by name is the call of the signature that it picks**, with the same outcome in the same
world, if a lookup of this signature finds no static method. -/
theorem call_eq_invoke (h : Host) {name : String} {args : List Value} {m : MethodDecl}
    (hm : a.choose name args = .ok m) (w : World)
    (hs : ∀ f ∈ a.binding.interface.finds w ⟨name, m.params⟩, f.decl.isStatic = false) :
    (a.call h name args).run w = (a.invoke h ⟨name, m.params⟩ args).run w := by
  obtain ⟨o, w', hfound, hcall, hinvoke⟩ := a.call_and_invoke_of_choose h hm w
  rw [hcall, hinvoke]
  cases o with
  | none => rfl
  | some k =>
    have nonstatic : k.decl.isStatic = false := hs k.found (by rw [← hfound]; rfl)
    simp [Option.filter, nonstatic]

/-- The method that an interface declares again is called alike by name and by signature. -/
theorem shape_calls_agree :
    ∃ (a : Adapter) (m : MethodDecl), world.registers.get? "shape" = some a.toValue ∧
      a.choose "kind" [.int 1] = .ok m ∧ m.params = ["int"] ∧
      (a.call (Host.level 3) "kind" [.int 1]).run world =
        (a.invoke (Host.level 3) ⟨"kind", m.params⟩ [.int 1]).run world ∧
      byName "shape" "kind" [.int 1] = some (.text "int") := by
  obtain ⟨a, m, ha, hm, hparams⟩ := exists_of_chosen
    (by decide +kernel : chosen "shape" "kind" [.int 1] = some ["int"])
  have nonstatic : (adapter "shape").all (fun a : Adapter =>
      (a.binding.interface.finds world ⟨"kind", ["int"]⟩).all fun f => !f.decl.isStatic) = true := by
    decide +kernel
  rw [ha] at nonstatic
  refine ⟨a, m, get?_of_adapter ha, hm, hparams, a.call_eq_invoke (Host.level 3) hm world ?_,
    by decide +kernel⟩
  rw [hparams]
  simpa [Option.all_eq_true] using nonstatic

/-- A call by name runs a static method that hides the one that it picked, which a call by signature
does not know. -/
theorem static_method_is_called :
    ¬ ∀ (n : Nat) (k : Session.Names) (w : World),
      Session.Reached (fun _ => true) (Host.level n) k w →
        ∀ (a : Adapter) (register name : String) (args : List Value) (m : MethodDecl),
          w.registers.get? register = some a.toValue → a.choose name args = .ok m →
            (a.call (Host.level n) name args).run w =
              (a.invoke (Host.level n) ⟨name, m.params⟩ args).run w := by
  intro claim
  have called : byName "shape" "go" [] = some (.text "went") := by decide +kernel
  have unknown : bySignature "shape" ⟨"go", []⟩ [] = some .unknown := by decide +kernel
  obtain ⟨a, m, ha, hm, hparams⟩ := exists_of_chosen
    (by decide +kernel : chosen "shape" "go" [] = some [])
  obtain ⟨k, hk⟩ := reached
  have same := claim 3 k world hk a "shape" "go" [] m (get?_of_adapter ha) hm
  rw [byName, ha, Option.bind_some, same, hparams] at called
  rw [bySignature, ha, Option.bind_some, called] at unknown
  cases unknown

/-! ### Calls by name and what is offered -/

/-- **A call by name depends on the offered signatures only**, if they are those that are declared,
and if one that is the only one is declared once or conformed to: without any the member is
unknown; the only one is called whatever the arguments; of several the first that the arguments
conform to is called, and if there is none that is reported.  Declaring offered signatures again in
an interface that extends this one does not change whether one of them is picked, nor which one if
the arguments conform to no two of them. -/
theorem call_eq_pick (h : Host) (name : String) (args : List Value) (w : World)
    (hdeclared : a.offered w name args.length = a.declared name args.length)
    (honly : ∀ p, a.offered w name args.length = [p] →
      (a.candidates name args.length).length = 1 ∨ accepts p args = true) :
    ((a.call h name args).run w =
      match a.pick name args (a.offered w name args.length) with
      | .ok p => (a.invoke h ⟨name, p⟩ args).run w
      | .error e => .done (.error e) w) ∧
    ∀ a' : Adapter, a'.binding.interface.cls.inherited = a.binding.interface.cls.lineage →
      (∀ p ∈ a'.binding.interface.cls.decl.overloads name args.length,
        p ∈ a.offered w name args.length) →
      a'.offered w name args.length = a'.declared name args.length →
        (a'.pick name args (a'.offered w name args.length)).isOk =
          (a.pick name args (a.offered w name args.length)).isOk ∧
        ((∀ p ∈ a.offered w name args.length, ∀ q ∈ a.offered w name args.length,
          accepts p args = true → accepts q args = true → p = q) →
          (a'.pick name args (a'.offered w name args.length)).toOption =
            (a.pick name args (a.offered w name args.length)).toOption) := by
  constructor
  · rw [hdeclared] at honly
    have picked := a.choose_eq_pick honly
    rw [← hdeclared] at picked
    rw [← picked]
    cases hchoose : a.choose name args with
    | error e => exact a.call_of_choose_error h hchoose w
    | ok m =>
      rw [hchoose] at picked
      obtain ⟨f, hf, hstatic⟩ := a.exists_of_mem_offered (a.mem_of_pick picked.symm)
      obtain ⟨o, w', hfound, hcall, hinvoke⟩ := a.call_and_invoke_of_choose h hchoose w
      obtain ⟨k, rfl, hk⟩ := Option.map_eq_some_iff.1 (hfound.trans hf)
      have nonstatic : k.decl.isStatic = false := by
        rw [← hk] at hstatic
        exact hstatic
      have hinvoke : (a.invoke h ⟨name, m.params⟩ args).run w = (a.dispatch h k args).run w' := by
        simpa [Option.filter, nonstatic] using hinvoke
      exact hcall.trans hinvoke.symm
  · intro a' hextends hagain hdeclared'
    rw [hdeclared] at hagain ⊢
    rw [hdeclared']
    exact pick_congr a a' name args (declared_perm_of_redeclared hextends hagain)

/-- The only signature is called on the interface that declares it, even with a text; declaring it
again in an interface that extends this one does not change what is picked. -/
theorem base_calls_only :
    ∃ a : Adapter, world.registers.get? "base" = some a.toValue ∧
      (a.call (Host.level 3) "kind" [.str "x"]).run world =
        (a.invoke (Host.level 3) ⟨"kind", ["int"]⟩ [.str "x"]).run world ∧
      byName "base" "kind" [.str "x"] = some (.text "str") ∧
      ((extended a).pick "kind" [.str "x"] ((extended a).offered world "kind" 1)).toOption =
        some ["int"] := by
  have overloads : (adapter "base").map (fun a : Adapter =>
      (overloadsOf a "kind", overloadsOf (extended a) "kind")) =
        some (([["int"]], [["int"]], 1), ([["int"]], [["int"]], 2)) := by decide +kernel
  obtain ⟨a, ha, heq⟩ := Option.map_eq_some_iff.1 overloads
  simp only [overloadsOf, Prod.mk.injEq] at heq
  obtain ⟨⟨hoffered, hdeclared, honce⟩, hoffered', hdeclared', -⟩ := heq
  obtain ⟨hcall, hagain⟩ := a.call_eq_pick (Host.level 3) "kind" [.str "x"] world
    (hoffered.trans hdeclared.symm) fun _ _ => .inl honce
  simp only [List.length_singleton, hoffered, pick] at hcall hagain
  refine ⟨a, get?_of_adapter ha, hcall, by decide +kernel, ?_⟩
  have redeclares : ∀ p ∈ (extended a).binding.interface.cls.decl.overloads "kind" 1,
      p ∈ [["int"]] := by
    simp [extended, ClassDecl.overloads, kind]
  exact (hagain (extended a) rfl redeclares (hoffered'.trans hdeclared'.symm)).2 (by simp)

/-- A call by name rejects arguments for the only signature because that is declared twice. -/
theorem redeclared_method_rejects :
    ¬ ∀ (n : Nat) (k : Session.Names) (w : World),
      Session.Reached (fun _ => true) (Host.level n) k w →
        ∀ (a : Adapter) (register name : String) (args : List Value),
          w.registers.get? register = some a.toValue →
            (a.call (Host.level n) name args).run w =
              match a.pick name args (a.offered w name args.length) with
              | .ok p => (a.invoke (Host.level n) ⟨name, p⟩ args).run w
              | .error e => .done (.error e) w := by
  intro claim
  have refused : byName "shape" "kind" [.str "x"] = some .refused := by decide +kernel
  have accepted : bySignature "shape" ⟨"kind", ["int"]⟩ [.str "x"] = some (.text "str") := by
    decide +kernel
  have overloads : (adapter "shape").map (fun a : Adapter => overloadsOf a "kind") =
      some ([["int"]], [["int"]], 2) := by decide +kernel
  obtain ⟨a, ha, heq⟩ := Option.map_eq_some_iff.1 overloads
  have hoffered : a.offered world "kind" 1 = [["int"]] := congrArg Prod.fst heq
  obtain ⟨k, hk⟩ := reached
  have same := claim 3 k world hk a "shape" "kind" [.str "x"] (get?_of_adapter ha)
  simp only [List.length_singleton, hoffered, pick] at same
  rw [byName, ha, Option.bind_some, same] at refused
  rw [bySignature, ha, Option.bind_some, refused] at accepted
  cases accepted

end Adapter

end LateBinding
