import LateBinding.Proofs.Handing
import LateBinding.Proofs.Session

/-!
# Adapters as arguments

A call that leaves the logical side hands on the targets of its arguments.  One layer is taken
off, so an argument that is a proxy over an adapter (`Value.CoversAdapter`) arrives as an
adapter, and every other one does not.

Adapters never cover adapters by themselves, because making an adapter takes one layer off its
target too.  A client can put a proxy of its own over an adapter, though; a value is *clear* if
nothing in it comes from such a proxy (`Value.Clear`), and clear values make clear values only
(`Contract.clear_closed`).

* `Adapter.handsOnly_forward_iff`, `Resolver.handsOnly_newInstance_iff` : a call hands on no
  adapter exactly if no argument covers one, or if it comes to hand on nothing;
* **`adapter_arrives_iff_covered`** : these, the same for what is written to fields, and that
  sessions without proxies over adapters hold clear values only;
* **`proxy_over_adapter_hands_adapter`** : a session in which a method is handed an adapter.
-/

namespace LateBinding

/-! ### Proxies over adapters -/

namespace Value

/-- Whether the value is an adapter. -/
def isAdapter (v : Value) : Bool := v.adapter?.isSome

/-- The value is a proxy whose own target is an adapter. -/
def CoversAdapter (v : Value) : Prop :=
  ∃ id face target, v = .proxy id face target ∧ target.isAdapter = true

theorem isAdapter_unwrap_iff {v : Value} : v.unwrap.isAdapter = true ↔ v.CoversAdapter := by
  constructor
  · intro h
    cases v with
    | proxy id face target => exact ⟨id, face, target, rfl, h⟩
    | _ => cases h
  · rintro ⟨id, face, target, rfl, h⟩
    exact h

end Value

/-- Whether there is no adapter among arguments. -/
def noAdapter (args : List Value) : Bool := args.all fun v => !v.isAdapter

theorem noAdapter_map_unwrap_iff {args : List Value} :
    noAdapter (args.map Value.unwrap) = true ↔ ∀ v ∈ args, ¬ v.CoversAdapter := by
  simp only [noAdapter, List.all_map, List.all_eq_true, Function.comp_apply, Bool.not_eq_true']
  refine forall_congr' fun v => imp_congr_right fun _ => ?_
  rw [← Value.isAdapter_unwrap_iff, Bool.not_eq_true]

/-- A forwarded call hands on no adapter exactly if no argument covers one, or if it does not
come to call the target. -/
theorem Adapter.handsOnly_forward_iff (a : Adapter) (m : MethodDecl) (rename : Option Marker)
    (args : List Value) (valueOf : Resolver → String → Act (Option String)) (w : World) :
    HandsOnly noAdapter valueOf (fun h => a.forward h m rename args) w ↔
      (∀ v ∈ args, ¬ v.CoversAdapter) ∨
        HandsOnly (fun _ => false) valueOf (fun h => a.forward h m rename args) w := by
  rw [(a.hands_forward m rename args valueOf).handsOnly_iff, noAdapter_map_unwrap_iff]

/-- The construction of a new instance hands on no adapter exactly if no argument covers one, or
if it does not come to run the constructor. -/
theorem Resolver.handsOnly_newInstance_iff (r : Resolver) (interface : String)
    (params : List String) (args : List Value) (scope : Option Scope)
    (valueOf : Resolver → String → Act (Option String)) (w : World) :
    HandsOnly noAdapter valueOf (fun h => r.newInstance h interface params args scope) w ↔
      (∀ v ∈ args, ¬ v.CoversAdapter) ∨
        HandsOnly (fun _ => false) valueOf
          (fun h => r.newInstance h interface params args scope) w := by
  rw [(r.hands_newInstance interface params args scope valueOf).handsOnly_iff,
    noAdapter_map_unwrap_iff]

/-! ### Fields -/

/-- The value is stored in a field of an object or of a class. -/
def World.Holds (w : World) (v : Value) : Prop :=
  (∃ (o : Object) (name : String), (w.fieldsOf o).get? name = some v) ∨
    ∃ (c : ClassDecl Value) (name : String), (w.staticsOf c).get? name = some v

section Fields

variable {w w' : World} {u v : Value}

theorem Object.holds_of_set {o : Object} {name : String} {previous : Option Value}
    (h : o.set name v w = .done previous w') (hu : w'.Holds u) : w.Holds u ∨ u = v := by
  cases h
  rcases hu with ⟨o', name', hu⟩ | hu
  · rw [World.fieldsOf, Store.get?_insert] at hu
    split at hu
    · rw [Option.getD_some, Table.get?_insert] at hu
      split at hu
      · cases hu
        exact .inr rfl
      · exact .inl (.inl ⟨o, name', hu⟩)
    · exact .inl (.inl ⟨o', name', hu⟩)
  · exact .inl (.inr hu)

theorem ClassDecl.holds_of_staticSet {c : ClassDecl Value} {name : String}
    {previous : Option Value} (h : c.staticSet name v w = .done previous w') (hu : w'.Holds u) :
    w.Holds u ∨ u = v := by
  cases h
  rcases hu with hu | ⟨c', name', hu⟩
  · exact .inl (.inl hu)
  · rw [World.staticsOf, Store.get?_insert] at hu
    split at hu
    · rw [Option.getD_some, Table.get?_insert] at hu
      split at hu
      · cases hu
        exact .inr rfl
      · exact .inl (.inr ⟨c, name', hu⟩)
    · exact .inl (.inr ⟨c', name', hu⟩)

theorem Object.holds_of_alloc {c : Class Value} {o : Object}
    (h : Object.alloc c w = .done o w') (hu : w'.Holds u) :
    w.Holds u ∨ ∃ name, (name, u) ∈ c.seeds := by
  cases h
  rcases hu with ⟨o', name', hu⟩ | hu
  · rw [World.fieldsOf, Store.get?_insert] at hu
    split at hu
    · exact .inr ⟨name', Table.mem_of_get?_ofList hu⟩
    · exact .inl (.inl ⟨o', name', hu⟩)
  · exact .inl (.inr hu)

/-- Writing a field stores the value that is written and no other. -/
theorem FieldHandle.keeps_holds (w : World) (f : FieldHandle) (target v : Value) :
    Attempt.Keeps (fun w₁ => ∀ u, w₁.Holds u → w.Holds u ∨ u = v) (fun _ => True)
      (f.set target v) := by
  unfold FieldHandle.set
  split
  · refine .bind (P := fun _ => True) (.liftM ?_) fun _ _ => .pure trivial
    intro w₁ _ w₂ hw₁ h
    exact ⟨fun u hu => (ClassDecl.holds_of_staticSet h hu).elim (hw₁ u) .inr, trivial⟩
  · refine .bind (P := fun _ => True) (.except fun _ _ => trivial) fun o _ =>
      .bind (P := fun _ => True) (.liftM ?_) fun _ _ => .pure trivial
    intro w₁ _ w₂ hw₁ h
    exact ⟨fun u hu => (Object.holds_of_set h hu).elim (hw₁ u) .inr, trivial⟩

theorem Object.holds_self_of_set {o : Object} {name : String} {previous : Option Value}
    (h : o.set name v w = .done previous w') : w'.Holds v := by
  cases h
  exact .inl ⟨o, name, by simp [World.fieldsOf]⟩

theorem ClassDecl.holds_self_of_staticSet {c : ClassDecl Value} {name : String}
    {previous : Option Value} (h : c.staticSet name v w = .done previous w') : w'.Holds v := by
  cases h
  exact .inr ⟨c, name, by simp [World.staticsOf]⟩

theorem FieldHandle.holds_self_of_set {f : FieldHandle} {target : Value}
    (h : (f.set target v).run w = .done (.ok ()) w') : w'.Holds v := by
  unfold FieldHandle.set at h
  split at h
  · obtain ⟨_, w₁, h, hr⟩ | ⟨e, -, h⟩ := Attempt.run_bind_eq_done.1 h
    · cases hr
      obtain ⟨_, -, h⟩ := Attempt.run_liftM_eq_done.1 h
      exact ClassDecl.holds_self_of_staticSet h
    · cases h
  · obtain ⟨o, w₁, -, h⟩ | ⟨e, -, h⟩ := Attempt.run_bind_eq_done.1 h
    · obtain ⟨_, w₂, h, hr⟩ | ⟨e, -, h⟩ := Attempt.run_bind_eq_done.1 h
      · cases hr
        obtain ⟨_, -, h⟩ := Attempt.run_liftM_eq_done.1 h
        exact Object.holds_self_of_set h
      · cases h
    · cases h

/-- Write access to a marked field stores the target of the argument and nothing else, and if it
succeeds it does store it. -/
theorem Adapter.holds_of_accessField {h : Host} {a : Adapter} {m : MethodDecl} {marker : Marker}
    {f : FieldHandle} {w₁ : World} {x : Except BindingError Value}
    (hf : a.markedField h m marker w = .done (some f) w₁)
    (hx : (a.accessField h m marker [v]).run w = .done x w') :
    (∀ u, w'.Holds u → w₁.Holds u ∨ u = v.unwrap) ∧ ∀ y, x = .ok y → w'.Holds v.unwrap := by
  unfold accessField at hx
  rw [Attempt.run_liftM_bind hf] at hx
  have keeps : Attempt.Keeps (fun w₂ => ∀ u, w₂.Holds u → w₁.Holds u ∨ u = v.unwrap)
      (fun _ => True) (do
        Attempt.ofTarget (f.set a.target v.unwrap)
        return v : Attempt BindingError Value) :=
    .bind (.adapt (FieldHandle.keeps_holds w₁ f a.target v.unwrap)) fun _ _ => .pure trivial
  refine ⟨(keeps (fun _ hu => .inl hu) hx).1, ?_⟩
  rintro y rfl
  obtain ⟨_, w₂, hset, hr⟩ | ⟨e, -, he⟩ := Attempt.run_bind_eq_done.1 hx
  · cases hr
    exact FieldHandle.holds_self_of_set (Attempt.run_ofTarget_eq_done.1 hset)
  · cases he

end Fields

/-! ### Clear values -/

mutual

/-- No proxy in the value, at any depth, covers an adapter. -/
inductive Value.Clear : Value → Prop
  /-- A value without parts. -/
  | plain {v : Value} (hp : v.isProxy = false) (ho : v.object? = none) : Value.Clear v
  /-- An object of a clear class. -/
  | object {o : Object} (h : Class.Clear o.cls) : Value.Clear (.object o)
  /-- A proxy of a client over a clear value that is no adapter. -/
  | foreign {id : Identity} {interface : String} {target : Value} (h : Value.Clear target)
    (ha : target.isAdapter = false) : Value.Clear (.proxy id (.foreign interface) target)
  /-- An adapter between clear classes over a clear value that is no adapter. -/
  | adapter {id : Identity} {b : Binding Value} {target : Value}
    (hi : Class.Clear b.interface.cls) (hb : Class.Clear b.adapted.cls)
    (h : Value.Clear target) (ha : target.isAdapter = false) :
    Value.Clear (.proxy id (.adapter b) target)

/-- The fields of the class and of those it inherits from start with clear values. -/
inductive Class.Clear : Class Value → Prop
  | mk {c : Class Value} (h : ∀ d ∈ c.lineage, ∀ f ∈ d.fields, Value.Clear f.initial) :
    Class.Clear c

end

theorem Value.Clear.not_coversAdapter {v : Value} (h : v.Clear) : ¬ v.CoversAdapter := by
  rintro ⟨id, face, target, rfl, ha⟩
  cases h with
  | plain hp => cases hp
  | foreign _ hn => simp [ha] at hn
  | adapter _ _ _ hn => simp [ha] at hn

theorem Value.Clear.isAdapter_unwrap {v : Value} (h : v.Clear) : v.unwrap.isAdapter = false := by
  rw [← Bool.not_eq_true, isAdapter_unwrap_iff]
  exact h.not_coversAdapter

/-- The contract that admits clear values and classes, and all resolvers. -/
def Contract.clear : Contract := ⟨Value.Clear, Class.Clear, fun _ => True⟩

theorem Contract.clear_closed : Contract.clear.Closed where
  plain _ hp ho := .plain hp ho
  object o := by
    constructor
    · intro h
      cases h with
      | plain _ ho => cases ho
      | object h => exact h
    · exact .object
  seeds c hc := by
    obtain ⟨hc⟩ := hc
    exact Class.Starts.seeds hc
  staticSeeds c hc := by
    obtain ⟨hc⟩ := hc
    exact Class.Starts.staticSeeds hc
  target i f t h := by
    cases h with
    | plain hp => cases hp
    | foreign h => exact h
    | adapter _ _ h => exact h
  resolver _ _ _ _ := trivial
  interface i b t h := by
    cases h with
    | plain hp => cases hp
    | adapter h => exact h
  adapted i b t h := by
    cases h with
    | plain hp => cases hp
    | adapter _ h => exact h
  adapter i b v _ hi hb hv := by
    -- the target of an adapter is what is left when a layer is taken off
    have ht : v.unwrap.Clear := by
      cases hv with
      | plain hp ho =>
        cases v with
        | proxy => cases hp
        | _ => exact .plain hp ho
      | object h => exact .object h
      | foreign h => exact h
      | adapter _ _ h => exact h
    exact .adapter hi hb ht hv.isAdapter_unwrap
  planned i s plan hparent hfields := by
    refine .mk (Class.Starts.ofPlan (fun p hp => ?_) hfields i s)
    obtain ⟨h⟩ := hparent p hp
    exact h

/-! ### Sessions -/

/-- A session in which no proxy is put over an adapter holds clear values only. -/
theorem Session.Reached.clear {n : Nat} {k : Names} {w : World}
    (hw : Reached (fun v => !v.isAdapter) (Host.level n) k w) : w.Respects .clear :=
  (hw.invariant (.of_respects Contract.clear_closed.toBasic) Contract.clear_closed
    (Host.keeps_level_of_indifferent (.of_respects Contract.clear_closed.toBasic) .of_respects
      Contract.clear_closed n) (Host.grows_level Contract.clear_closed n)
    .of_respects (fun _ => trivial)
    (fun _ _ _ hv ha => .foreign hv (by simpa using ha)) .empty).1

/-- Whatever is evaluated, at any depth, makes clear values of clear ones. -/
theorem Host.clear_of_run {n : Nat} {body : Expr} {receiver : Value} {args : List Value}
    {w w' : World} {x : Except Exception Value} (hw : w.Respects .clear) (hr : receiver.Clear)
    (ha : ∀ v ∈ args, v.Clear) (h : ((level n).run body receiver args).run w = .done x w') :
    w'.Respects .clear ∧ ∀ v, x = .ok v → v.Clear :=
  (keeps_level_of_indifferent (.of_respects Contract.clear_closed.toBasic) .of_respects
    Contract.clear_closed n).runs body receiver args hr ha hw h

/-! ### When adapters arrive -/

/-- **An adapter arrives only if an argument covers one.**  A forwarded call and the construction
of a new instance hand on no adapter exactly if no argument covers one, or if they hand on
nothing.  Write access to a marked field stores an adapter exactly if its argument covers one,
and a new object holds what its class declares.  In a session without proxies over adapters all
that is stored is clear, and so is all that is made of clear values at any depth of evaluation;
clear values do not cover adapters. -/
theorem adapter_arrives_iff_covered (valueOf : Resolver → String → Act (Option String))
    (args : List Value) (w : World) :
    (∀ (a : Adapter) (m : MethodDecl) (rename : Option Marker),
      HandsOnly noAdapter valueOf (fun h => a.forward h m rename args) w ↔
        (∀ v ∈ args, ¬ v.CoversAdapter) ∨
          HandsOnly (fun _ => false) valueOf (fun h => a.forward h m rename args) w) ∧
    (∀ (r : Resolver) (interface : String) (params : List String) (scope : Option Scope),
      HandsOnly noAdapter valueOf (fun h => r.newInstance h interface params args scope) w ↔
        (∀ v ∈ args, ¬ v.CoversAdapter) ∨
          HandsOnly (fun _ => false) valueOf
            (fun h => r.newInstance h interface params args scope) w) ∧
    (∀ (h : Host) (a : Adapter) (m : MethodDecl) (marker : Marker) (f : FieldHandle) (v : Value)
        (w₁ w' : World) (x : Except BindingError Value),
      a.markedField h m marker w = .done (some f) w₁ →
      (a.accessField h m marker [v]).run w = .done x w' →
        (∀ u, w'.Holds u → w₁.Holds u ∨ u = v.unwrap) ∧
        (∀ y, x = .ok y → w'.Holds v.unwrap) ∧
        (v.unwrap.isAdapter = true ↔ v.CoversAdapter)) ∧
    (∀ (c : Class Value) (o : Object) (w' : World), Object.alloc c w = .done o w' →
      ∀ u, w'.Holds u → w.Holds u ∨ ∃ name, (name, u) ∈ c.seeds) ∧
    (∀ (n : Nat) (k : Session.Names),
      Session.Reached (fun v => !v.isAdapter) (Host.level n) k w →
        w.Respects .clear ∧
        ∀ (m : Nat) (body : Expr) (receiver : Value) (x : Except Exception Value) (w' : World),
          receiver.Clear → (∀ v ∈ args, v.Clear) →
          ((Host.level m).run body receiver args).run w = .done x w' →
            w'.Respects .clear ∧ ∀ v, x = .ok v → v.Clear) ∧
    ∀ v : Value, v.Clear → ¬ v.CoversAdapter := by
  refine ⟨fun a m rename => a.handsOnly_forward_iff m rename args valueOf w,
    fun r interface params scope =>
      r.handsOnly_newInstance_iff interface params args scope valueOf w,
    fun h a m marker f v w₁ w' x hf hx => ?_, fun c o w' h u hu => Object.holds_of_alloc h hu,
    fun n k hw => ⟨hw.clear, fun m body receiver x w' hr ha hx => ?_⟩,
    fun v hv => hv.not_coversAdapter⟩
  · obtain ⟨only, written⟩ := Adapter.holds_of_accessField hf hx
    exact ⟨only, written, Value.isAdapter_unwrap_iff⟩
  · exact Host.clear_of_run hw.clear hr ha hx

/-! ### A proxy over an adapter -/

namespace Peers

open Session

/-- A method that is told the name of the type of its argument. -/
def peer (body : Option Expr) : MethodDecl := ⟨"peer", ["any"], "str", .pub, false, [], body⟩

/-- A client makes an adapter over a new object, puts a proxy of its own over that adapter, and
hands both to the adapter's method. -/
def requests : List Request := [
  .scope "app" "app" none,
  .define "raw"
    ⟨"pkg.Target", .concrete, none, [peer (some (.typeName (.arg 0)))], [], [], []⟩ (some "app"),
  .define "logical"
    ⟨"app.Target", .interface, none, [peer none], [], [], [.adapts "pkg.Target"]⟩ (some "app"),
  .resolver "r" ∅ "app",
  .newInstance "adapter" "r" "app.Target" [] [] none,
  .foreign "proxy" "ext.Proxy" (.register "adapter"),
  .call "one layer" (.register "adapter") "peer" [.register "adapter"],
  .call "two layers" (.register "adapter") "peer" [.register "proxy"]]

/-- The world in which the session ends, by the values that the client may put proxies over. -/
def world (proxied : Value → Bool) : World :=
  match run proxied (Host.level 3) requests ∅ World.empty with
  | .done _ w => w
  | _ => World.empty

theorem reached (proxied : Value → Bool)
    (returns : (match run proxied (Host.level 3) requests ∅ World.empty with
      | .done _ _ => true
      | _ => false) = true) : ∃ k, Reached proxied (Host.level 3) k (world proxied) := by
  cases h : run proxied (Host.level 3) requests ∅ World.empty with
  | done k w =>
    have hw : world proxied = w := by rw [world, h]
    exact ⟨k, requests, by rw [hw, h]⟩
  | exhausted => simp [h] at returns
  | blocked => simp [h] at returns

/-- The answer of the adapter's method when it is called with the value of a register and the
code of targets is this. -/
def answer (proxied : Value → Bool) (register : String) (code : Code) : Option String := do
  let a ← ((world proxied).registers.get? "adapter").bind Value.adapter?
  let m ← a.binding.interface.cls.decl.methods.head?
  let v ← (world proxied).registers.get? register
  match (a.forward ⟨code, (Host.level 3).valueOf⟩ m none [v]).run (world proxied) with
  | .done (.ok v) _ => v.str?
  | _ => none

/-- The code that answers with the type of what it is handed. -/
def nameFirst : Code := fun _ _ args => return .str ((args.head?.map Value.typeName).getD "")

theorem exists_of_answer {proxied : Value → Bool} {register : String} {code : Code} {s : String}
    (h : answer proxied register code = some s) :
    ∃ (a : Adapter) (m : MethodDecl) (v : Value),
      ((world proxied).registers.get? "adapter").bind Value.adapter? = some a ∧
      a.binding.interface.cls.decl.methods.head? = some m ∧
      (world proxied).registers.get? register = some v := by
  simp only [answer, Option.bind_eq_bind, Option.bind_eq_some_iff] at h
  obtain ⟨a, ha, m, hm, v, hv, -⟩ := h
  exact ⟨a, m, v, Option.bind_eq_some_iff.2 ha, hm, hv⟩

theorem answer_eq_of_handsOnly {proxied : Value → Bool} {register : String} {a : Adapter}
    {m : MethodDecl} {v : Value} {P : List Value → Bool}
    (ha : ((world proxied).registers.get? "adapter").bind Value.adapter? = some a)
    (hm : a.binding.interface.cls.decl.methods.head? = some m)
    (hv : (world proxied).registers.get? register = some v)
    (hP : HandsOnly P (Host.level 3).valueOf (fun h => a.forward h m none [v]) (world proxied))
    (code : Code) : answer proxied register (code.only P) = answer proxied register code := by
  have := hP code
  simp only [answer, ha, hm, hv, Option.bind_eq_bind, Option.bind_some, ExceptT.run, this]

end Peers

open Peers in
/-- In a session without proxies over adapters, an adapter that is an argument arrives as what it
stands for. -/
theorem adapter_argument_arrives_as_target :
    ∃ (a : Adapter) (m : MethodDecl),
      (world fun v => !v.isAdapter).registers.get? "adapter" = some a.toValue ∧
      (world fun v => !v.isAdapter).Respects .clear ∧
      HandsOnly noAdapter (Host.level 3).valueOf
        (fun h => a.forward h m none [a.toValue]) (world fun v => !v.isAdapter) ∧
      ¬ HandsOnly (fun _ => false) (Host.level 3).valueOf
        (fun h => a.forward h m none [a.toValue]) (world fun v => !v.isAdapter) := by
  have told : answer (fun v => !v.isAdapter) "adapter" nameFirst = some "pkg.Target" := by
    decide +kernel
  -- the method is called: without arguments that may be handed on there is no answer
  have refused :
      answer (fun v => !v.isAdapter) "adapter" (nameFirst.only fun _ => false) = none := by
    decide +kernel
  obtain ⟨a, m, v, ha, hm, hv⟩ := exists_of_answer told
  obtain rfl : v = a.toValue := by
    rw [hv] at ha
    exact Value.eq_toValue_of_adapter? ha
  obtain ⟨k, hk⟩ := reached (fun v => !v.isAdapter) (by decide +kernel)
  obtain ⟨hforward, -, -, -, hsession, hclear⟩ :=
    adapter_arrives_iff_covered (Host.level 3).valueOf [a.toValue] (world fun v => !v.isAdapter)
  have hw := (hsession 3 k hk).1
  refine ⟨a, m, hv, hw, (hforward a m none).2 (.inl fun u hu => ?_), fun h => ?_⟩
  · rw [List.mem_singleton.1 hu]
    exact hclear _ (hw.registers _ _ hv)
  · rw [answer_eq_of_handsOnly ha hm hv h, told] at refused
    cases refused

open Peers in
/-- A method is handed an adapter when an argument is a proxy over one: not in every session do
calls that are forwarded, of an adapter and with a value that the client holds, hand on no
adapter. -/
theorem proxy_over_adapter_hands_adapter :
    ¬ ∀ (n : Nat) (k : Session.Names) (w : World),
      Session.Reached (fun _ => true) (Host.level n) k w →
        ∀ (a : Adapter) (m : MethodDecl) (v : Value) (x y : String),
          w.registers.get? x = some a.toValue →
          m ∈ a.binding.interface.cls.decl.methods →
          w.registers.get? y = some v →
            HandsOnly noAdapter (Host.level n).valueOf (fun h => a.forward h m none [v]) w := by
  intro claim
  have told : answer (fun _ => true) "proxy" nameFirst = some "app.Target" := by decide +kernel
  have refused : answer (fun _ => true) "proxy" (nameFirst.only noAdapter) = none := by
    decide +kernel
  obtain ⟨a, m, v, ha, hm, hv⟩ := exists_of_answer told
  obtain ⟨u, hu, hua⟩ := Option.bind_eq_some_iff.1 ha
  rw [Value.eq_toValue_of_adapter? hua] at hu
  obtain ⟨k, hk⟩ := reached (fun _ => true) (by decide +kernel)
  have only := claim 3 k _ hk a m v _ _ hu (List.mem_of_head? hm) hv
  rw [answer_eq_of_handsOnly ha hm hv only, told] at refused
  cases refused

end LateBinding
