import LateBinding.Proofs.Cells
import LateBinding.Proofs.Effects

/-!
# Field accessors

A logical method with a field marker is an accessor: called without arguments it reads the field of
the target that its marker resolves to, and called with one argument it writes it.  Resolving the
marker may evaluate variables, which may run members; besides that, a call that reads writes no
cell, and a call that writes writes one (`Adapter.Finds.run_read`,
`Adapter.Finds.run_write`).

* `Adapter.accessors_round_trip` : **what is written is read**.  A call that writes a field returns
  its argument as it is, and leaves in the field what a proxy stands for and nothing else anywhere;
  a call that reads the field after it binds just that to the type it is declared to return.  A
  call that fails is harmless.
* `box_keeps_another_box` : a field that is written with an adapter holds the target of the adapter,
  and is read as an adapter again.
-/

namespace LateBinding

namespace Adapter

variable {h : Host} {a : Adapter} {q : Member} {args : List Value} {m : MethodHandle}
  {marker : Marker} {f : FieldHandle} {w w₀ w₁ w' : World}

/-! ### The field of an accessor -/

/-- Finding the method that a call means only notes lookups. -/
theorem noted_of_find {x : Except BindingError MethodHandle}
    (hx : (a.find q args).run w = .done x w') : w.Noted w' :=
  (keeps_find (.noted w) q args (.refl w) hx).1

/-- A marker without a template resolves to the field that has the name of the method, and nothing
is evaluated. -/
theorem noted_of_plain_marker {o : Option FieldHandle} {d : MethodDecl}
    (plain : marker.template? = none) (hx : a.markedField h d marker w = .done o w') :
    w.Noted w' := by
  unfold markedField at hx
  rw [plain] at hx
  exact (TypeEntry.keeps_field _ (.noted w) _ (.refl w) hx).1

/-- A call means an accessor: the method that is found has this field marker. -/
structure Finds (a : Adapter) (q : Member) (args : List Value) (m : MethodHandle) (marker : Marker)
    (w w₀ : World) : Prop where
  found : (a.find q args).run w = .done (.ok m) w₀
  marked : m.marker? .field = some marker

/-! ### Reading and writing -/

/-- A call that means an accessor accesses its field. -/
theorem Finds.run_request (hm : a.Finds q args m marker w w₀) :
    (a.request h q args).run w = (a.accessField h m.decl marker args).run w₀ := by
  have dispatched : a.dispatch h m args = a.accessField h m.decl marker args := by
    simp only [dispatch, hm.marked]
  rw [request_eq, arrange, bind_assoc, ExceptT.run_bind, Act.bind_apply, hm.found]
  show (a.prepare h m args >>= a.carryOut h).run w₀ = _
  rw [← dispatch_eq, dispatched]

/-- What accessing a field comes to when the field was resolved. -/
theorem run_accessField (hf : a.markedField h m.decl marker w₀ = .done (some f) w₁) :
    (a.accessField h m.decl marker args).run w₀ =
      (liftM (access m.decl f args) >>= a.carryOut h : Attempt BindingError Value).run w₁ := by
  rw [accessField_eq, Attempt.run_liftM_bind hf]

/-- A call without arguments reads the field. -/
theorem Finds.run_read (hm : a.Finds q [] m marker w w₀)
    (hf : a.markedField h m.decl marker w₀ = .done (some f) w₁) {c : Cell}
    (hc : f.cell a.target = .ok c) :
    (a.request h q []).run w =
      (a.wrapResult h m.decl.returns ((w₁.cell? c).getD .null)).run w₁ := by
  have read : (Attempt.ofTarget (f.get a.target)).run w₁ =
      .done (.ok ((w₁.cell? c).getD .null)) w₁ := by
    rw [Attempt.run_ofTarget_eq_done, f.run_get, hc]
    rfl
  rw [hm.run_request, run_accessField hf]
  show (Attempt.ofTarget (f.get a.target) >>= a.wrapResult h m.decl.returns).run w₁ = _
  rw [ExceptT.run_bind, Act.bind_apply, read]

/-- A call with one argument writes what the argument stands for, and returns the argument. -/
theorem Finds.run_write {v : Value} (hm : a.Finds q [v] m marker w w₀)
    (hf : a.markedField h m.decl marker w₀ = .done (some f) w₁) :
    (a.request h q [v]).run w =
      match f.cell a.target with
      | .ok c => .done (.ok v) (w₁.write c v.unwrap)
      | .error e => .done (.error (.thrown e)) w₁ := by
  rw [hm.run_request, run_accessField hf]
  show (Attempt.ofTarget (f.set a.target v.unwrap) >>= fun _ => return v).run w₁ = _
  rw [ExceptT.run_bind, Act.bind_apply]
  cases hc : f.cell a.target with
  | ok c =>
    have written : (Attempt.ofTarget (f.set a.target v.unwrap)).run w₁ =
        .done (.ok ()) (w₁.write c v.unwrap) := by
      rw [Attempt.run_ofTarget_eq_done, f.run_set, hc]
    rw [written]
    rfl
  | error e =>
    have failed : (Attempt.ofTarget (f.set a.target v.unwrap)).run w₁ =
        .done (.error (.thrown e)) w₁ := by
      refine Attempt.run_adapt_eq_error.2 ⟨e, ?_, rfl⟩
      rw [f.run_set, hc]
    rw [failed]
    rfl

/-- A call with one argument that means an accessor is arranged to write the field that the marker
resolves to. -/
theorem Finds.set_of_arrange {v : Value} {job : Job} (hm : a.Finds q [v] m marker w w₀)
    (hjob : (a.arrange h q [v]).run w = .done (.ok job) w₁) :
    ∃ f, a.markedField h m.decl marker w₀ = .done (some f) w₁ ∧ job = .set f v := by
  rw [arrange, ExceptT.run_bind, Act.bind_apply, hm.found] at hjob
  simp only [prepare, hm.marked] at hjob
  rw [Attempt.run_liftM_bind_eq] at hjob
  obtain ⟨o, w₂, hf, hjob⟩ := Act.bind_eq_done.1 hjob
  cases o with
  | none =>
    rw [Attempt.run_liftM_bind_eq] at hjob
    obtain ⟨_, _, -, hjob⟩ := Act.bind_eq_done.1 hjob
    cases hjob
  | some f =>
    cases hjob
    exact ⟨f, hf, rfl⟩

/-- A call of an accessor with one argument writes one cell, or fails and is harmless. -/
theorem Finds.writes_one_cell {v : Value} {x : Except BindingError Value}
    (hm : a.Finds q [v] m marker w w₀) (hx : (a.request h q [v]).run w = .done x w') :
    (∃ err, x = .error err ∧ Harmless h (fun h => (a.request h q [v]).run) w x w') ∨
    ∃ f w₁ c, a.markedField h m.decl marker w₀ = .done (some f) w₁ ∧
      f.cell a.target = .ok c ∧ x = .ok v ∧ w' = w₁.write c v.unwrap := by
  obtain ⟨job, w₁, hjob, -⟩ | ⟨err, harranged, rfl⟩ :=
    Attempt.run_bind_eq_done.1 (request_eq h a q [v] ▸ hx)
  · obtain ⟨f, hf, rfl⟩ := hm.set_of_arrange hjob
    have written := hm.run_write hf
    cases hc : f.cell a.target with
    | ok c =>
      rw [hx, hc] at written
      cases written
      exact .inr ⟨f, w₁, c, hf, hc, rfl, rfl⟩
    | error e =>
      refine .inl ⟨.thrown e, ?_, harmless_of_idle hx fun _ _ hjob' => ?_⟩
      · rw [hx, hc] at written
        cases written
        rfl
      · cases hjob.symm.trans hjob'
        exact .misses v hc
  · refine .inl ⟨err, rfl, harmless_of_idle hx fun _ _ hjob => ?_⟩
    cases harranged.symm.trans hjob

/-- **What is written is read.**  Let a call with one argument mean an accessor.  If it fails, then
it is harmless; if it succeeds, then it returns its argument, the cell of the field that its marker
resolves to holds what the argument stands for, and all other cells are as they were when the marker
was resolved, which is harmless.  Let a call without arguments then mean an accessor whose marker
resolves to the same field.  Until it reads the field it is harmless, and if the field still holds
what it held, then the call binds what the argument stands for. -/
theorem accessors_round_trip {v : Value} {x : Except BindingError Value}
    (hm : a.Finds q [v] m marker w w₀) (hx : (a.request h q [v]).run w = .done x w') :
    (∀ err, x = .error err →
      Harmless h (fun h => (a.request h q [v]).run) w (.error err) w') ∧
    ∀ u, x = .ok u → u = v ∧ ∃ f w₁ c, a.markedField h m.decl marker w₀ = .done (some f) w₁ ∧
      f.cell a.target = .ok c ∧ w.Noted w₀ ∧
      Harmless h (fun h => a.markedField h m.decl marker) w₀ (some f) w₁ ∧
      w'.cell? c = some v.unwrap ∧ (∀ c', c' ≠ c → w'.cell? c' = w₁.cell? c') ∧
      ∀ q' m' marker' w₂ f' w₃, a.Finds q' [] m' marker' w' w₂ →
        a.markedField h m'.decl marker' w₂ = .done (some f') w₃ → f'.cell a.target = .ok c →
          w'.Noted w₂ ∧ Harmless h (fun h => a.markedField h m'.decl marker') w₂ (some f') w₃ ∧
          (w₃.cell? c = w₂.cell? c →
            (a.request h q' []).run w' = (a.wrapResult h m'.decl.returns v.unwrap).run w₃) := by
  obtain ⟨err, rfl, harmless⟩ | ⟨f, w₁, c, hf, hc, rfl, rfl⟩ := hm.writes_one_cell hx
  · refine ⟨?_, nofun⟩
    rintro _ ⟨⟩
    exact harmless
  refine ⟨nofun, ?_⟩
  rintro _ ⟨⟩
  refine ⟨rfl, f, w₁, c, hf, hc, noted_of_find hm.found, a.asking_markedField m.decl marker hf,
    World.cell?_write_self .., fun c' other => ?_, ?_⟩
  · rw [World.cell?_write, if_neg (Ne.symm other)]
  · intro q' m' marker' w₂ f' w₃ hm' hf' hc'
    have finding := noted_of_find hm'.found
    refine ⟨finding, a.asking_markedField m'.decl marker' hf', fun stays => ?_⟩
    rw [hm'.run_read hf' hc', stays, finding.cell?_eq, World.cell?_write_self, Option.getD_some]

end Adapter

/-! ### A box that is kept in another one -/

namespace Boxing

open Session

/-- A field that anything can be kept in; it is written with any value, and read as a box. -/
def requests : List Request := [
  .scope "app" "app" none,
  .define "raw" ⟨"pkg.Box", .concrete, none, [], [⟨"kept", "any", .pub, false, .literal .null⟩], [],
    []⟩ (some "app"),
  .define "box" ⟨"app.Box", .interface, none,
    [⟨"keep", ["any"], "any", .pub, false, [.field (some "kept")], none⟩,
      ⟨"kept", [], "app.Box", .pub, false, [.field none], none⟩], [], [], [.adapts "pkg.Box"]⟩
    (some "app"),
  .resolver "r" ∅ "app",
  .newInstance "outer" "r" "app.Box" [] [] none,
  .newInstance "inner" "r" "app.Box" [] [] none]

/-- An accessor that a call means, with the field that its marker resolves to. -/
structure Access where
  /-- The accessor. -/
  method : MethodHandle
  /-- Its marker. -/
  marker : Marker
  /-- The world in which it was found. -/
  found : World
  /-- Its field. -/
  field : FieldHandle
  /-- The world in which that was found. -/
  resolved : World

/-- Find the accessor that a call means, and its field. -/
def accessOf (a : Adapter) (q : Adapter.Member) (args : List Value) (w : World) :
    Option Access := do
  let (x, w₀) ← ((a.find q args).run w).seen Prod.mk
  let m ← x.toOption
  let marker ← m.marker? .field
  let (o, w₁) ← (a.markedField (Host.level 3) m.decl marker w₀).seen Prod.mk
  return ⟨m, marker, w₀, ← o, w₁⟩

theorem of_accessOf {a : Adapter} {q : Adapter.Member} {args : List Value} {w : World} {t : Access}
    (h : accessOf a q args w = some t) :
    a.Finds q args t.method t.marker w t.found ∧
      a.markedField (Host.level 3) t.method.decl t.marker t.found =
        .done (some t.field) t.resolved := by
  simp only [accessOf, Option.bind_eq_bind, Option.bind_eq_some_iff, Option.pure_def,
    Option.some.injEq] at h
  obtain ⟨⟨x, w₀⟩, hfind, m, hm, marker, hmarker, ⟨o, w₁⟩, hfield, f, hf, rfl⟩ := h
  obtain ⟨_, _, hfind, hsame⟩ := Outcome.exists_of_seen hfind
  obtain ⟨_, _, hfield, hsame'⟩ := Outcome.exists_of_seen hfield
  cases hsame
  cases hsame'
  cases x with
  | ok m' =>
    cases hm
    dsimp only at hf
    exact ⟨⟨hfind, hmarker⟩, hf ▸ hfield⟩
  | error => cases hm

/-- What is found out when the inner box is kept in the outer one. -/
structure Story where
  /-- The names of the client. -/
  names : Names
  /-- The world before. -/
  before : World
  /-- The box that keeps. -/
  outer : Adapter
  /-- The box that is kept. -/
  inner : Adapter
  /-- What writes the field. -/
  write : Access
  /-- The answer. -/
  answer : Except BindingError Value
  /-- The world after. -/
  after : World
  /-- What reads the field then. -/
  read : Access

/-- The inner box is kept in the outer one. -/
def story : Option Story := do
  let (k, w) ← played 3 requests
  let outer ← adapterIn w "outer"
  let inner ← adapterIn w "inner"
  let write ← accessOf outer (.named "keep") [inner.toValue] w
  let (answer, w') ←
    ((outer.request (Host.level 3) (.named "keep") [inner.toValue]).run w).seen Prod.mk
  return ⟨k, w, outer, inner, write, answer, w', ← accessOf outer (.named "kept") [] w'⟩

/-- The story takes place. -/
structure Story.Passes (t : Story) : Prop where
  reached : Reached (fun _ => true) (Host.level 3) t.names t.before
  outer : t.before.registers.get? "outer" = some t.outer.toValue
  inner : t.before.registers.get? "inner" = some t.inner.toValue
  write : accessOf t.outer (.named "keep") [t.inner.toValue] t.before = some t.write
  wrote : (t.outer.request (Host.level 3) (.named "keep") [t.inner.toValue]).run t.before =
    .done t.answer t.after
  read : accessOf t.outer (.named "kept") [] t.after = some t.read

theorem passes_of_story {t : Story} (h : story = some t) : t.Passes := by
  simp only [story, Option.bind_eq_bind, Option.bind_eq_some_iff, Option.pure_def,
    Option.some.injEq] at h
  obtain ⟨⟨k, w⟩, hplayed, outer, houter, inner, hinner, write, hwrite, ⟨x, w'⟩, hx, read, hread,
    rfl⟩ := h
  obtain ⟨_, _, hx, hsame⟩ := Outcome.exists_of_seen hx
  cases hsame
  exact ⟨reached_of_played hplayed, get?_of_adapterIn houter, get?_of_adapterIn hinner, hwrite, hx,
    hread⟩

/-- What is seen of the story. -/
structure Sight where
  /-- One cell is written and read. -/
  oneCell : Bool
  /-- Writing succeeds. -/
  writes : Bool
  /-- The field that is written is found even if no variable can be asked for. -/
  silent : Bool
  /-- The template of the accessor that reads. -/
  template : Option String
  /-- The type that it is declared to return. -/
  returns : String
  /-- It returns an adapter to that. -/
  rebound : Option Bool
  deriving DecidableEq

/-- What is seen of the story. -/
def Story.seen (t : Story) : Sight where
  oneCell :=
    (t.write.field.cell t.outer.target).toOption = (t.read.field.cell t.outer.target).toOption
  writes := t.answer.toOption.isSome
  silent := ((t.outer.markedField ((Host.level 3).without fun _ _ _ => true) t.write.method.decl
    t.write.marker t.write.found).seen Prod.mk).isSome
  template := t.read.marker.template?
  returns := t.read.method.decl.returns
  rebound := ((t.outer.request (Host.level 3) (.named "kept") []).run t.after).result.map fun v =>
    v.isProxyFor "app.Box"

end Boxing

open Boxing Session in
/-- The outer box returns the inner one when it keeps it, has the target of the inner one in its
field and all other fields as they were, and gives another adapter of that target. -/
theorem box_keeps_another_box : ∃ (k : Names) (w w' w₃ : World) (outer inner : Adapter) (c : Cell),
    Reached (fun _ => true) (Host.level 3) k w ∧
      w.registers.get? "outer" = some outer.toValue ∧
      w.registers.get? "inner" = some inner.toValue ∧
      (outer.request (Host.level 3) (.named "keep") [inner.toValue]).run w =
        .done (.ok inner.toValue) w' ∧
      w'.cell? c = some inner.target ∧ (∀ c', c' ≠ c → w'.cell? c' = w.cell? c') ∧
      (outer.request (Host.level 3) (.named "kept") []).run w' =
        (outer.wrapResult (Host.level 3) "app.Box" inner.target).run w₃ ∧
      ((outer.request (Host.level 3) (.named "kept") []).run w').result.map
        (fun v => v.isProxyFor "app.Box") = some true := by
  have told : story.map Story.seen = some ⟨true, true, true, none, "app.Box", some true⟩ := by
    decide +kernel
  obtain ⟨t, ht, hseen⟩ := Option.map_eq_some_iff.1 told
  simp only [Story.seen, Sight.mk.injEq, decide_eq_true_eq] at hseen
  obtain ⟨same, succeeded, silent, plain, hreturns, rebound⟩ := hseen
  have passes := passes_of_story ht
  obtain ⟨writes, hfield⟩ := of_accessOf passes.write
  obtain ⟨reads, hfield'⟩ := of_accessOf passes.read
  obtain ⟨-, round⟩ := Adapter.accessors_round_trip writes passes.wrote
  cases hanswer : t.answer with
  | error =>
    rw [hanswer] at succeeded
    cases succeeded
  | ok u =>
    obtain ⟨rfl, f, w₁, c, hf, hc, finding, resolving, holds, others, back⟩ := round u hanswer
    -- the field that was looked up is the one that was written
    rw [hfield] at hf
    cases hf
    have resolved := resolving.cell?_eq fun deep => by
      rw [deep] at silent
      cases silent
    have kept (c' : Cell) (other : c' ≠ c) : t.after.cell? c' = t.before.cell? c' := by
      rw [others c' other, resolved c', finding.cell?_eq]
    have hc' : t.read.field.cell t.outer.target = .ok c := by
      rw [hc] at same
      cases h : t.read.field.cell t.outer.target with
      | ok c' =>
        rw [h] at same
        cases same
        rfl
      | error =>
        rw [h] at same
        cases same
    have stays := (Adapter.noted_of_plain_marker plain hfield').cell?_eq c
    have wrote := passes.wrote
    rw [hanswer] at wrote
    have read := (back _ _ _ _ _ _ reads hfield' hc').2.2 stays
    rw [hreturns] at read
    exact ⟨t.names, t.before, t.after, t.read.resolved, t.outer, t.inner, c, passes.reached,
      passes.outer, passes.inner, wrote, holds, kept, read, rebound⟩

end LateBinding
