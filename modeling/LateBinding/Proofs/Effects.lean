import LateBinding.Proofs.Cells
import LateBinding.Proofs.Constructed
import LateBinding.Proofs.Transcripts

/-!
# Errors come before effects

A call through an adapter and the construction of a new instance may fail with an error of binding
at many stages.  All stages but the last one ask for variables and do nothing else, so no body was
run and no field was written, except in these evaluations (`Harmless`,
`Harmless.exists_of_cell?_ne`).  The last stage binds what a body has returned, and only one thing
can go wrong then: the class that a template denotes may be missing
(`Adapter.typeNotFound_of_wrapResult`).

* `Session.Reached.errors_precede_effects` : **an error of binding is harmless**, unless it reports
  that class for the result of a method that was run, or for a new object when the template has
  come to another name in the meantime;
* `error_follows_effect` : such an error may follow an effect.
-/

namespace LateBinding

/-! ### Fields of harmless runs -/

/-- What is noted leaves all cells as they are. -/
theorem World.Noted.cell?_eq {w w' : World} (h : w.Noted w') (c : Cell) :
    w'.cell? c = w.cell? c := by
  cases c with
  | field => rw [cell?, cell?, h.objects]
  | static => rw [cell?, cell?, h.statics]

/-- What changes between two worlds changes in one of the evaluations that lead from one to the
other. -/
theorem World.Through.exists_of_cell?_ne {w w' : World} {es : List Evaluation} {c : Cell}
    (hes : w.Through es w') (changed : w'.cell? c ≠ w.cell? c) :
    ∃ e ∈ es, e.after.cell? c ≠ e.before.cell? c := by
  induction hes with
  | nil h => exact absurd (h.cell?_eq c) changed
  | @cons _ _ e _ h _ ih =>
    by_cases same : e.after.cell? c = e.before.cell? c
    · rw [← h.cell?_eq c, ← same] at changed
      obtain ⟨e', he', changed⟩ := ih changed
      exact ⟨e', List.mem_cons_of_mem _ he', changed⟩
    · exact ⟨e, List.mem_cons_self, same⟩

/-- **A harmless run changes a field only in an evaluation** that it asks for: without that
evaluation it would not come to an end. -/
theorem Harmless.exists_of_cell?_ne {α : Type} {h : Host} {x : Host → Act α} {w w' : World} {y : α}
    {c : Cell} (hx : Harmless h x w y w') (changed : w'.cell? c ≠ w.cell? c) :
    ∃ e : Evaluation, h.Evaluates e ∧ e.after.cell? c ≠ e.before.cell? c ∧
      ∀ Q, Q e.resolver e.name e.before = true → x (h.without Q) w = .exhausted := by
  obtain ⟨es, hes, ht⟩ := hx
  obtain ⟨e, he, changed⟩ := ht.through.exists_of_cell?_ne changed
  refine ⟨e, hes e he, changed, fun Q hQ => ?_⟩
  by_contra ends
  rw [ht.without hes ends e he] at hQ
  cases hQ

/-- A harmless run that comes to an end without any evaluation changes no field. -/
theorem Harmless.cell?_eq {α : Type} {h : Host} {x : Host → Act α} {w w' : World} {y : α}
    (hx : Harmless h x w y w') (silent : x (h.without fun _ _ _ => true) w ≠ .exhausted)
    (c : Cell) : w'.cell? c = w.cell? c := by
  by_contra changed
  obtain ⟨e, -, -, deep⟩ := hx.exists_of_cell?_ne changed
  exact silent (deep _ rfl)

/-- What is harmless hands nothing to bodies. -/
theorem Harmless.handsOnly {ε α : Type} {h : Host} {x : Host → Attempt ε α} {w w' : World}
    {y : Except ε α} (hx : Harmless h (fun h => (x h).run) w y w') (P : List Value → Bool) :
    HandsOnly P h.valueOf x w := by
  have same (code : Code) : x ⟨code, h.valueOf⟩ w = .done y w' := hx.eq_done rfl
  exact fun code => (same (code.only P)).trans (same code).symm

/-- An error of binding that follows what a target does is raised after the target has succeeded. -/
theorem Attempt.of_ofTarget_bind {α β : Type} {x : Attempt Exception α}
    {f : α → Attempt BindingError β} {err : BindingError} {w w' : World}
    (hx : (x.ofTarget >>= f).run w = .done (.error err) w') (binding : ∀ e, err ≠ .thrown e) :
    ∃ a w₁, x.run w = .done (.ok a) w₁ ∧ (f a).run w₁ = .done (.error err) w' := by
  obtain ⟨a, w₁, ha, hx⟩ | ⟨_, he, hx⟩ := run_bind_eq_done.1 hx
  · exact ⟨a, w₁, run_ofTarget_eq_done.1 ha, hx⟩
  · cases hx
    obtain ⟨e, -, rfl⟩ := run_adapt_eq_error.1 he
    exact absurd rfl (binding e)

/-! ### Binding results -/

theorem TypeEntry.adapts_of_adaptsType {e : TypeEntry Value} {w w' : World} (hw : w.Sensible)
    (h : e.adaptsType w = .done true w') : ∃ template, e.Adapts template w' := by
  unfold adaptsType at h
  split at h
  · rename_i hi
    obtain ⟨o, w₁, ho, h⟩ := Act.bind_eq_done.1 h
    cases o with
    | none => cases h
    | some x =>
      cases h
      have known := e.known_of_marker ho
      have kind : x.kind = .adapts := hw.kind_of_marker ho
      cases x with
      | adapts template => exact ⟨template, hi, _, known, rfl⟩
      | rename => cases kind
      | field => cases kind
  · cases h

namespace Adapter

variable {a : Adapter}

/-- All that can go wrong when a result is bound is that the class of the template is missing. -/
theorem typeNotFound_of_wrapResult {h : Host} {type : String} {v : Value} {w w' : World}
    {err : BindingError} (hw : w.Sensible)
    (hx : (a.wrapResult h type v).run w = .done (.error err) w') :
    ∃ template name, err = .typeNotFound template name := by
  unfold wrapResult at hx
  dsimp only at hx
  split at hx
  · cases hx
  rw [Attempt.run_liftM_bind_eq] at hx
  obtain ⟨o, w₁, ho, hx⟩ := Act.bind_eq_done.1 hx
  have sensible := ((Resolver.keeps_typeNamed _ World.Sensible.stable.noting _ _) hw ho).1
  cases o with
  | none => cases hx
  | some e =>
    rw [Attempt.run_liftM_bind_eq] at hx
    obtain ⟨adapts, w₂, hadapts, hx⟩ := Act.bind_eq_done.1 hx
    split at hx
    · cases hx
    rename_i hbound
    cases adapts with
    | false => exact absurd rfl hbound
    | true =>
      obtain ⟨template, he⟩ := TypeEntry.adapts_of_adaptsType sensible hadapts
      obtain ⟨b, w₃, -, hx⟩ | ⟨_, hbind, hx⟩ := Attempt.run_bind_eq_done.1 hx
      · cases hx
      · cases hx
        obtain ⟨name, -, -, -, -, -, ⟨_, _, -, hok, -⟩ | ⟨-, herr⟩⟩ := bind_of_adapts he hbind
        · cases hok
        · cases herr
          exact ⟨template, name, rfl⟩

/-! ### Calls that do nothing -/

/-- Carrying out the job runs no body and writes no field. -/
inductive Idle (a : Adapter) : Job → Prop
  /-- No body is found to be run. -/
  | fails (e : Exception) (returns : Option String) : Idle a (.run (.error e) returns)
  /-- A field is read. -/
  | reads (f : FieldHandle) (type : String) : Idle a (.get f type)
  /-- There is no field to be written. -/
  | misses {f : FieldHandle} {e : Exception} (v : Value) (h : f.cell a.target = .error e) :
    Idle a (.set f v)

theorem asking_carryOut {job : Job} (hjob : a.Idle job) :
    Attempt.Asking fun h => a.carryOut h job := by
  cases hjob with
  | fails e returns =>
    simp only [carryOut, Attempt.ofTarget_error_bind]
    exact .throw _
  | reads f type =>
    exact .bind (.noting fun w => .ofTarget (f.keeps_get (.noted w) (.free _) a.target))
      fun v => a.asking_wrapResult type v
  | misses v missing =>
    refine .bind (.noting (P := fun _ => True) fun w => .ofTarget fun w₁ y w₂ hw h => ?_)
      fun _ => .pure _
    rw [FieldHandle.run_set, missing] at h
    cases h
    refine ⟨hw, ?_⟩
    rintro _ ⟨⟩

/-- A call is harmless if what is arranged does nothing. -/
theorem harmless_of_idle {h : Host} {q : Member} {args : List Value} {w w' : World}
    {x : Except BindingError Value} (hx : (a.request h q args).run w = .done x w')
    (idle : ∀ job w₁, (a.arrange h q args).run w = .done (.ok job) w₁ → a.Idle job) :
    Harmless h (fun h => (a.request h q args).run) w x w' := by
  simp only [request_eq] at hx ⊢
  obtain ⟨job, w₁, hjob, hx⟩ | ⟨e, he, rfl⟩ := Attempt.run_bind_eq_done.1 hx
  · exact (a.asking_arrange q args hjob).bind_ok (asking_carryOut (idle job w₁ hjob) hx)
  · exact (a.asking_arrange q args he).bind_error

/-! ### Calls -/

section Calls

variable {m : Nat} {q : Member} {args : List Value} {w w' : World}

/-- What caches remember is sensible when a result is bound. -/
theorem sensible_of_perform {u : Run} {returns : Option String} {v : Value} {w₁ w₂ : World}
    (hw : w.Sensible)
    (hjob : (a.arrange (Host.level m) q args).run w = .done (.ok (.run (.ok u) returns)) w₁)
    (hv : (u.perform (Host.level m)).run w₁ = .done (.ok v) w₂) : w₂.Sensible := by
  have keeps := Host.keeps_sensible m
  have arranging : Attempt.Keeps World.Sensible _ (a.arrange (Host.level m) q args) :=
    keeps_arrange World.Sensible.stable.noting .free keeps.reads keeps.renames trivial q
      fun _ _ => trivial
  exact (keeps.runs _ _ _ trivial (fun _ _ => trivial) (arranging hw hjob).1 hv).1

/-- A call that fails with an error of binding is harmless, unless what a body returned cannot be
bound. -/
theorem harmless_of_request_error {err : BindingError} (hw : w.Sensible)
    (hx : (a.request (Host.level m) q args).run w = .done (.error err) w')
    (binding : ∀ e, err ≠ .thrown e) :
    Harmless (Host.level m) (fun h => (a.request h q args).run) w (.error err) w' ∨
      ∃ u type v template name w₁ w₂,
        (a.arrange (Host.level m) q args).run w = .done (.ok (.run (.ok u) (some type))) w₁ ∧
        (u.perform (Host.level m)).run w₁ = .done (.ok v) w₂ ∧
        (a.wrapResult (Host.level m) type v).run w₂ = .done (.error err) w' ∧
        err = .typeNotFound template name := by
  obtain ⟨job, w₁, hjob, hx'⟩ | ⟨_, harranged, -⟩ :=
    Attempt.run_bind_eq_done.1 (request_eq (Host.level m) a q args ▸ hx)
  · cases job with
    | run u returns =>
      obtain ⟨v, w₂, hv, hwrap⟩ := Attempt.of_ofTarget_bind hx' binding
      obtain ⟨u, hu, hv⟩ | ⟨_, -, hv, -⟩ := Attempt.run_except_bind_eq_done.1 hv
      · obtain rfl := hu
        cases returns with
        | none => cases hwrap
        | some type =>
          obtain ⟨template, name, herr⟩ :=
            typeNotFound_of_wrapResult (sensible_of_perform hw hjob hv) hwrap
          exact .inr ⟨u, type, v, template, name, w₁, w₂, hjob, hv, hwrap, herr⟩
      · cases hv
    | get f type =>
      refine .inl (harmless_of_idle hx fun _ _ hjob' => ?_)
      cases hjob.symm.trans hjob'
      exact .reads f type
    | set f v =>
      obtain ⟨_, _, -, hx⟩ := Attempt.of_ofTarget_bind hx' binding
      cases hx
  · refine .inl (harmless_of_idle hx fun _ _ hjob => ?_)
    cases harranged.symm.trans hjob

end Calls

end Adapter

/-! ### New instances -/

/-- A construction that fails with an error of binding is harmless, unless the template of the
interface comes to another name when the new object is bound. -/
theorem Resolver.harmless_of_newInstance_error {r : Resolver} {m : Nat} {interface : String}
    {params : List String} {args : List Value} {scope : Option Scope} {err : BindingError}
    {w w' : World} (hw : w.Accurate)
    (hx : (r.newInstance (Host.level m) interface params args scope).run w = .done (.error err) w')
    (binding : ∀ e, err ≠ .thrown e) :
    Harmless (Host.level m) (fun h => (r.newInstance h interface params args scope).run) w
        (.error err) w' ∨
      ∃ p o template name w₁ w₂ w₃,
        (r.plan (Host.level m) interface params scope).run w = .done (.ok p) w₁ ∧
        (p.ctor.construct (Host.level m) (args.map Value.unwrap)).run w₁ = .done (.ok o) w₂ ∧
        (r.adaptedName (Host.level m) p.interface).run w₂ = .done (.ok name) w₃ ∧
        name ≠ p.name ∧ err = .typeNotFound template name := by
  obtain ⟨_, hplan, herr⟩ | ⟨p, w₁, hp, ⟨e, -, herr⟩ | ⟨o, w₂, ho, hbind⟩⟩ := newInstance_cases hx
  · cases herr
    simp only [newInstance_eq]
    exact .inl (r.asking_plan interface params scope hplan).bind_error
  · cases herr
    exact absurd rfl (binding e)
  · obtain ⟨⟨template, planned⟩, -, -⟩ := planned_of_construct hw hp ho
    obtain ⟨name, w₃, hname, ⟨_, hok, -⟩ | ⟨herr, hother⟩⟩ :=
      bind_of_planned planned (fun _ _ => Host.cachedIn_of_substitute m) hbind
    · cases hok
    · cases herr
      exact .inr ⟨p, o, template, name, w₁, w₂, w₃, hp, ho, hname, hother, rfl⟩

/-! ### Errors of binding -/

/-- **Errors of binding come before effects.**  A call of an adapter or a construction that fails
with an error of binding is harmless, with two exceptions: a body has returned a result for which
the type that its interface adapts is missing; and the template of the interface of a new object has
come to the name of no type, after it had come to another name before the constructor ran. -/
theorem Session.Reached.errors_precede_effects {n : Nat} {k : Names} {w : World}
    (hw : Reached (fun _ => true) (Host.level n) k w) (m : Nat) {err : BindingError}
    (binding : ∀ e, err ≠ .thrown e) :
    (∀ (a : Adapter) (q : Adapter.Member) (args : List Value) (w' : World),
      (a.request (Host.level m) q args).run w = .done (.error err) w' →
        Harmless (Host.level m) (fun h => (a.request h q args).run) w (.error err) w' ∨
          ∃ u type v template name w₁ w₂,
            (a.arrange (Host.level m) q args).run w = .done (.ok (.run (.ok u) (some type))) w₁ ∧
            (u.perform (Host.level m)).run w₁ = .done (.ok v) w₂ ∧
            (a.wrapResult (Host.level m) type v).run w₂ = .done (.error err) w' ∧
            err = .typeNotFound template name) ∧
    ∀ (r : Resolver) (interface : String) (params : List String) (args : List Value)
      (scope : Option Scope) (w' : World),
      (r.newInstance (Host.level m) interface params args scope).run w = .done (.error err) w' →
        Harmless (Host.level m) (fun h => (r.newInstance h interface params args scope).run) w
            (.error err) w' ∨
          ∃ p o template name w₁ w₂ w₃,
            (r.plan (Host.level m) interface params scope).run w = .done (.ok p) w₁ ∧
            (p.ctor.construct (Host.level m) (args.map Value.unwrap)).run w₁ = .done (.ok o) w₂ ∧
            (r.adaptedName (Host.level m) p.interface).run w₂ = .done (.ok name) w₃ ∧
            name ≠ p.name ∧ err = .typeNotFound template name :=
  ⟨fun _ _ _ _ hx => Adapter.harmless_of_request_error hw.sensible hx binding,
    fun r _ _ _ _ _ hx => r.harmless_of_newInstance_error hw.accurate hx binding⟩

/-! ### A result that cannot be bound -/

namespace Parts

open Session

/-- A box whose method counts and returns the box, but is declared to return a part, of which the
adapted type is missing; and a method that the box lacks. -/
def requests : List Request := [
  .scope "app" "app" none,
  .define "raw" ⟨"pkg.Box", .concrete, none,
    [⟨"next", [], "any", .pub, false, [],
      some (.sequence [.set .this "n" (.literal (.int 1)), .this])⟩],
    [⟨"n", "int", .pub, false, .literal (.int 0)⟩], [], []⟩ (some "app"),
  .define "part" ⟨"app.Part", .interface, none, [], [], [], [.adapts "pkg.Part"]⟩ (some "app"),
  .define "box" ⟨"app.Box", .interface, none,
    [⟨"next", [], "app.Part", .pub, false, [], none⟩, ⟨"lost", [], "any", .pub, false, [], none⟩],
    [], [], [.adapts "pkg.Box"]⟩ (some "app"),
  .resolver "r" ∅ "app",
  .newInstance "a" "r" "app.Box" [] [] none]

/-- What is found out when a method is called and fails. -/
structure Story where
  /-- The names of the client. -/
  names : Names
  /-- The world before. -/
  before : World
  /-- The adapter. -/
  adapter : Adapter
  /-- The error. -/
  error : BindingError

/-- A method of the box is called and fails. -/
def story (method : String) : Option Story := do
  let (k, w) ← played 3 requests
  let a ← adapterIn w "a"
  let e ← ((a.request (Host.level 3) (.named method) []).run w).failure
  return ⟨k, w, a, e⟩

/-- The story takes place. -/
structure Story.Passes (t : Story) (method : String) : Prop where
  reached : Reached (fun _ => true) (Host.level 3) t.names t.before
  held : t.before.registers.get? "a" = some t.adapter.toValue
  fails : ∃ w, (t.adapter.request (Host.level 3) (.named method) []).run t.before =
    .done (.error t.error) w

theorem passes_of_story {method : String} {t : Story} (h : story method = some t) :
    t.Passes method := by
  simp only [story, Option.bind_eq_bind, Option.bind_eq_some_iff, Option.pure_def,
    Option.some.injEq] at h
  obtain ⟨⟨k, w⟩, hplayed, a, ha, e, he, rfl⟩ := h
  exact ⟨reached_of_played hplayed, get?_of_adapterIn ha, Outcome.exists_of_failure he⟩

/-- What an error reports as missing. -/
inductive Missing
  /-- A method. -/
  | method (name : String)
  /-- A type. -/
  | type (name : String)
  deriving DecidableEq

/-- What an error reports as missing. -/
def missing? : BindingError → Option Missing
  | .memberNotFound logical _ _ _ _ => some (.method logical)
  | .typeNotFound _ resolved => some (.type resolved)
  | _ => none

theorem ne_thrown_of_missing? {err : BindingError} {x : Missing} (h : missing? err = some x) :
    ∀ e, err ≠ .thrown e := by
  rintro e rfl
  cases h

end Parts

open Parts Session in
/-- A call of a method that the box lacks is harmless.  It asks for no variable, so no field
changes. -/
theorem lost_method_is_harmless : ∃ (k : Names) (w w' : World) (a : Adapter) (err : BindingError),
    Reached (fun _ => true) (Host.level 3) k w ∧ w.registers.get? "a" = some a.toValue ∧
      (a.request (Host.level 3) (.named "lost") []).run w = .done (.error err) w' ∧
      missing? err = some (.method "lost") ∧
      Harmless (Host.level 3) (fun h => (a.request h (.named "lost") []).run) w (.error err) w' ∧
      ∀ c, w'.cell? c = w.cell? c := by
  have lost : (story "lost").bind (fun t => missing? t.error) = some (.method "lost") := by
    decide +kernel
  have silent : (story "lost").map (fun t => ((t.adapter.request
      ((Host.level 3).without fun _ _ _ => true) (.named "lost") []).run t.before).failure.isSome) =
        some true := by
    decide +kernel
  obtain ⟨t, ht, hlost⟩ := Option.bind_eq_some_iff.1 lost
  have passes := passes_of_story ht
  obtain ⟨w', hfails⟩ := passes.fails
  have errors := (passes.reached.errors_precede_effects 3 (ne_thrown_of_missing? hlost)).1
  obtain harmless | ⟨_, _, _, _, _, _, _, _, _, _, htype⟩ :=
    errors t.adapter (.named "lost") [] w' hfails
  · rw [ht, Option.map_some, Option.some.injEq] at silent
    have same := harmless.cell?_eq fun deep => by
      rw [deep] at silent
      cases silent
    exact ⟨t.names, t.before, w', t.adapter, t.error, passes.reached, passes.held, hfails, hlost,
      harmless, same⟩
  · rw [htype] at hlost
    cases hlost

open Parts Session in
/-- A call may fail with an error of binding after a body was run. -/
theorem error_follows_effect :
    ¬ ∀ (n : Nat) (k : Names) (w : World), Reached (fun _ => true) (Host.level n) k w →
      ∀ (register : String) (a : Adapter) (q : Adapter.Member) (args : List Value)
        (err : BindingError) (w' : World), w.registers.get? register = some a.toValue →
        (a.request (Host.level n) q args).run w = .done (.error err) w' →
          (∀ e, err ≠ .thrown e) →
            Harmless (Host.level n) (fun h => (a.request h q args).run) w (.error err) w' := by
  intro claim
  have late : (story "next").bind (fun t => missing? t.error) = some (.type "pkg.Part") := by
    decide +kernel
  -- without arguments that may be handed on there is no answer
  have refused : (story "next").bind (fun t => ((t.adapter.request ⟨Code.only (fun _ => false)
      (Host.level 3).run, (Host.level 3).valueOf⟩ (.named "next") []).run t.before).failure.map
        fun _ => ()) = none := by
    decide +kernel
  obtain ⟨t, ht, hlate⟩ := Option.bind_eq_some_iff.1 late
  have passes := passes_of_story ht
  obtain ⟨w', hfails⟩ := passes.fails
  have harmless := claim 3 t.names t.before passes.reached "a" t.adapter (.named "next") []
    t.error w' passes.held hfails (ne_thrown_of_missing? hlate)
  rw [ht, Option.bind_some] at refused
  have same : (t.adapter.request ⟨Code.only (fun _ => false) (Host.level 3).run,
      (Host.level 3).valueOf⟩ (.named "next") []).run t.before = .done (.error t.error) w' :=
    harmless.eq_done rfl
  rw [same] at refused
  cases refused

end LateBinding
