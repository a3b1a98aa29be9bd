import LateBinding.Proofs.Reading.Ending
import LateBinding.Proofs.Underway

/-!
# Evaluation terminates

Descriptions may refer to each other in any way: a description names a class by a template, and this
template is resolved by reading variables, whose descriptions name classes in turn.  All readings
that a reading leads to are those of `Resolver.ComesToRead`.  A reading is *cut* if the description
of the variable would have to be evaluated and nothing of this is done (`Resolver.Cut`); otherwise
the evaluation *begins* (`Resolver.Begins`).

* `Session.Reached.tidy` : what a resolver knows of names is tidy in every world that a session
  reaches, and nothing is being evaluated there;
* `Resolver.Tidy.cut_iff` : a reading is cut exactly if the variable is being evaluated;
* `Resolver.evaluation_terminates` : **if bodies return and do not call the resolver then reading
  variables and resolving templates returns, evaluations nest at most as deep as there are variables
  with descriptions, none of them is evaluated twice at once, and each call leaves the evaluations
  under way as they were**.
-/

namespace LateBinding

/-! ### Sessions -/

namespace World

/-- The list of evaluations that are under way is changed by evaluations only. -/
theorem Change.evaluating_eq {C : Contract} {w w' : World} (h : Change C w w') :
    w'.evaluating = w.evaluating := by
  cases h with
  | note h => cases h <;> rfl
  | _ => rfl

theorem stable_evaluating (l : List (Identity × String)) :
    Stable (.free fun _ => True) (fun w => w.evaluating = l) where
  respects w _ := .free _ w
  change _ _ h _ hw := h.evaluating_eq.trans hw

/-- Evaluation ends with the evaluations under way with which it began. -/
theorem keeps_evaluating (n : Nat) (l : List (Identity × String)) :
    (Host.level n).Keeps (.free fun _ => True) (fun w => w.evaluating = l) := by
  refine Host.keeps_level (I := fun l w => w.evaluating = l) stable_evaluating .free ?_ ?_ n l
  · intro h hrun hh l r name _
    -- what is asked begins another evaluation, which ends with its own list
    refine Resolver.keeps_valueOf_within (J := fun w => w.evaluating = (r.id, name) :: l) (.free _)
      (hrun l) (fun _ _ _ _ hw => hw) (fun _ _ _ _ _ _ hw => hw) (fun _ hw => ?_) (fun _ hw => ?_)
      (Resolver.keeps_evaluate (stable_evaluating _) (.free _) (hrun _) trivial (hh _))
    · exact congrArg (List.cons (r.id, name)) hw
    · exact congrArg List.tail hw
  · intro h l hh r owner logical hr
    exact Resolver.keeps_resolveMember hr hh ⟨fun _ _ _ hw => hw, fun _ _ _ _ _ _ _ hw => hw⟩ owner
      logical

end World

namespace Session.Reached

variable {proxied : Value → Bool} {n : Nat} {k : Names} {w : World}

/-- Between the requests of a session nothing is being evaluated. -/
theorem evaluating (hw : Reached proxied (Host.level n) k w) : w.evaluating = [] :=
  hw.holds_of_level (World.stable_evaluating []) (World.keeps_evaluating n []) (fun _ _ _ hw => hw)
    rfl

/-- What the resolvers of a client know of names is tidy. -/
theorem tidy (hw : Reached proxied (Host.level n) k w) {label : String} {r : Resolver}
    (held : k.resolvers.get? label = some r) : r.Tidy w where
  bound := hw.slotsApart.below r
  injective name name' id h h' := ((hw.slotsApart.owns r name' id h') r name h).2
  declared name id s d hs := by
    obtain ⟨R, P, founded⟩ := hw.founded
    exact (founded.sound.slot r (founded.admitted.resolvers _ _ held) name id s hs).declared d
  distinct := by
    rw [Resolver.underway, hw.evaluating]
    exact List.nodup_nil
  waits name h := by
    rw [World.isEvaluating, hw.evaluating] at h
    cases h

end Session.Reached

namespace Resolver

variable {code : Nat → Code} {r : Resolver} {w w' w₂ : World} {name : String}
  {d : Mapping.Descriptor}

/-! ### Readings that are cut -/

/-- Reading the variable is cut: its description would have to be evaluated, and whatever this
evaluation is, nothing of it is done, and there is no value. -/
structure Cut (r : Resolver) (name : String) (w : World) : Prop where
  refused : ∃ id s w₁ d, r.Uses name w id s w₁ ∧ s.source = .declared (.described d) ∧
    ∀ evaluation, r.guarded name evaluation w₁ = .done none w₁

/-- Reading the variable begins to evaluate its description in the world `w₂`, where it counts as
being evaluated. -/
inductive Begins (r : Resolver) (name : String) (w : World) (d : Mapping.Descriptor) : World → Prop
  | mk {id : Identity} {s : Slot} {w₁ : World} (uses : r.Uses name w id s w₁)
    (source : s.source = .declared (.described d))
    (evaluates : ∀ evaluation v w₂, r.guarded name evaluation w₁ = .done v w₂ ↔
      ∃ w₃, evaluation (w₁.enter r name) = .done v w₃ ∧ w₂ = w₃.leave) :
    Begins r name w d (w₁.enter r name)

/-- A reading that is cut has no value, at once. -/
theorem Cut.valueOf_eq (hc : r.Cut name w) : ∃ w', ∀ h, r.valueOf h name w = .done none w' := by
  obtain ⟨id, s, w₁, d, uses, hs, refused⟩ := hc.refused
  refine ⟨w₁, fun h => ?_⟩
  have asked : r.ask h name s.source w₁ = .done none w₁ := by
    rw [hs]
    exact refused _
  rw [uses.valueOf_eq, Act.bind_apply, asked]
  rfl

namespace Tidy

/-- A variable that is being evaluated has a slot whose value is to be computed. -/
theorem uses_of_isEvaluating (hw : r.Tidy w) (h : w.isEvaluating r name = true) :
    ∃ id s d, r.Uses name w id s w ∧ s.source = .declared (.described d) := by
  obtain ⟨d, id, s, hsrc, hslot, hdeclared, unkept⟩ := hw.waits name h
  obtain ⟨d', hs⟩ := hw.source_of_isEvaluating hslot h
  refine ⟨id, s, d', ⟨?_, fun compute => ?_⟩, hs⟩
  · rw [slotFor_eq, hsrc]
    dsimp only
    rw [hslot, Option.filter_some, Slot.fits, hdeclared]
    rfl
  · cases hr : s.retention with
    | lazy => rw [Slot.value_eq_of_lazy hr]
    | cached =>
      refine Slot.value_eq_of_not_frozen ?_ s compute
      rw [(World.slotOf_eq_some_iff.1 hslot).2, Option.bind_some, unkept hr]

/-- A reading is cut exactly if the variable is being evaluated. -/
theorem cut_iff (hw : r.Tidy w) : r.Cut name w ↔ w.isEvaluating r name = true := by
  constructor
  · intro hc
    obtain ⟨id, s, w₁, d, uses, -, refused⟩ := hc.refused
    rw [← isEvaluating_congr (hw.restores_of_slotFor uses.slot).evaluating]
    by_contra idle
    -- an evaluation that gives up would be refused as well
    obtain ⟨w₂, gives, -⟩ := (guarded_eq_done _ (by simpa using idle)).1 (refused Act.blocked)
    cases gives
  · intro h
    obtain ⟨id, s, d, uses, hs⟩ := hw.uses_of_isEvaluating h
    exact ⟨id, s, w, d, uses, hs, fun _ => guarded_eq_of_evaluating _ h⟩

/-- When the description of a variable begins to be evaluated, what is known of names is tidy, and
one variable fewer is left. -/
theorem begins (hw : r.Tidy w) (h : r.Begins name w d w₂) : r.Tidy w₂ ∧
    r.underway w₂ = name :: r.underway w ∧ (r.pending w₂).length < (r.pending w).length := by
  obtain ⟨uses, hs, evaluates⟩ := h
  rename_i id s w₁
  have slotted := hw.restores_of_slotFor uses.slot
  obtain ⟨declared, waits⟩ := hw.waits_of_uses uses hs
  have idle : w₁.isEvaluating r name = false := by
    by_contra evaluating
    obtain ⟨w₂, gives, -⟩ := (evaluates Act.blocked none w₁).1
      (guarded_eq_of_evaluating _ (by simpa using evaluating))
    cases gives
  refine ⟨slotted.tidy.enter idle waits, ?_, ?_⟩
  · rw [underway_enter, underway_congr slotted.evaluating]
  · rw [← pending_congr slotted.evaluating]
    exact length_pending_enter (mem_pending declared idle)

end Tidy

/-! ### Readings that are nested -/

/-- Carrying out a computation that looks names up comes to read a variable, at some level, in the
world `w'`. -/
inductive ComesToRead (code : Nat → Code) (r : Resolver) :
    {α : Type} → Nat → Lookups α → World → Nat → String → World → Prop
  /-- The variable is looked up first. -/
  | here {α : Type} {k : Nat} {name : String} {next : Option String → Lookups α} {w : World} :
    ComesToRead code r k (.ask name next) w k name w
  /-- It is read after what is looked up first. -/
  | later {α : Type} {k m : Nat} {name n : String} {next : Option String → Lookups α}
    {v : Option String} {w w₁ w' : World}
    (read : (Host.around code k).valueOf r name w = .done v w₁)
    (h : ComesToRead code r k (next v) w₁ m n w') : ComesToRead code r k (.ask name next) w m n w'
  /-- It is read when the template is resolved of what is looked up first. -/
  | nested {α : Type} {k m : Nat} {name n template : String} {next : Option String → Lookups α}
    {d : Mapping.Descriptor} {w w₁ w' : World} (begins : r.Begins name w d w₁)
    (names : d.template? = some template)
    (h : ComesToRead code r k (Lookups.substitute template) w₁ m n w') :
    ComesToRead code r (k + 1) (.ask name next) w m n w'

/-- What is read in a tidy world, with enough levels for what is left to be evaluated, comes to read
variables in tidy worlds, with enough levels. -/
theorem Tidy.of_comesToRead (hcode : ∀ k, (code k).Spares r) (hret : ∀ k, (code k).Returns)
    {α : Type} {k m : Nat} {x : Lookups α} (h : ComesToRead code r k x w m name w')
    (hw : r.Tidy w) (hk : (r.pending w).length < k) :
    r.Tidy w' ∧ (r.pending w').length < m := by
  induction h with
  | here => exact ⟨hw, hk⟩
  | later read _ ih =>
    obtain ⟨v', w₂, hv, restores⟩ := endsAt hcode hret _ _ _ hw hk
    cases read.symm.trans hv
    exact ih restores.tidy (by rwa [pending_congr restores.evaluating])
  | nested begins _ _ ih =>
    obtain ⟨tidy, -, fewer⟩ := hw.begins begins
    exact ih tidy (by omega)

/-! ### Termination -/

/-- From the world the action returns, and leaves the evaluations under way as they were. -/
def Balanced {α : Type} (r : Resolver) (x : Act α) (w : World) : Prop :=
  x.Ends w fun _ w' => r.Tidy w' ∧ w'.evaluating = w.evaluating

/-- A reading of a variable at a level, among the evaluations that are under way. -/
structure Nests (code : Nat → Code) (r : Resolver) (m : Nat) (name : String) (w : World) :
    Prop where
  /-- The reading returns, and leaves the evaluations under way as they were. -/
  balanced : r.Balanced ((Host.around code m).valueOf r name) w
  /-- No variable is being evaluated twice. -/
  distinct : (r.underway w).Nodup
  /-- Evaluations nest at most as deep as there are variables with descriptions. -/
  bounded : (r.underway w).length ≤ r.described.length
  /-- The reading is cut exactly if the variable is being evaluated. -/
  cut_iff : r.Cut name w ↔ name ∈ r.underway w
  /-- If it is cut, it has no value, whatever is to be evaluated. -/
  cut : r.Cut name w → ∃ w', ∀ h, r.valueOf h name w = .done none w'
  /-- If the evaluation begins, it is one more, and not one of those under way. -/
  begins : ∀ d w', r.Begins name w d w' → r.underway w' = name :: r.underway w ∧
    (r.underway w').Nodup ∧ (r.underway w').length ≤ r.described.length

/-- A reading in a tidy world, with enough levels for what is left to be evaluated. -/
theorem Tidy.nests (hcode : ∀ k, (code k).Spares r) (hret : ∀ k, (code k).Returns) {m : Nat}
    (hw : r.Tidy w) (hm : (r.pending w).length < m) : r.Nests code m name w where
  balanced := (endsAt hcode hret m w name hw hm).mono fun _ _ h => ⟨h.tidy, h.evaluating⟩
  distinct := hw.distinct
  bounded := hw.length_underway_le
  cut_iff := hw.cut_iff.trans mem_underway.symm
  cut := Cut.valueOf_eq
  begins d w' h := by
    obtain ⟨tidy, inner, -⟩ := hw.begins h
    exact ⟨inner, tidy.distinct, tidy.length_underway_le⟩

/-- Finding the class of a template returns if resolving the template does. -/
theorem Tidy.ends_resolveClass {k : Nat} (ih : EndsAt code r k) (hw : r.Tidy w)
    (hk : (r.pending w).length < k) (template : String) (scope : Option Scope) :
    Act.Ends (r.resolveClass (.around code k) template scope).run w
      fun _ w' => r.Restores w w' := by
  obtain ⟨name, w₁, hname, restores⟩ := hw.ends_substitute ih hk template
  have returns : ∃ x w', (r.resolveClass (.around code k) template scope).run w = .done x w' := by
    have rest : Attempt.Returns
        (liftM (r.classNamedIn name (scope.getD r.defaultScope)) >>= classFound template name) :=
      .bind (.liftM (r.returns_classNamedIn name _)) fun o => by
        cases o with
        | none => exact .throw _
        | some e => exact .pure e
    obtain ⟨x, w', hx⟩ := rest w₁
    rw [resolveClass_eq, Attempt.run_liftM_bind_eq]
    exact ⟨x, w', Act.bind_eq_done.2 ⟨name, w₁, hname, hx⟩⟩
  obtain ⟨x, w', hx⟩ := returns
  refine ⟨x, w', hx, ?_⟩
  obtain ⟨name', w₂, o, hname', ho, -⟩ := resolveClass_eq_done hx
  cases hname.symm.trans hname'
  have spares : w₁.Spares r w' :=
    (r.keeps_classNamedIn (stable_spares r w₁).noting name _ (.refl r w₁) ho).1
  exact restores.trans (restores.tidy.of_spares spares)

/-- **Evaluation terminates.**  Let bodies return and not call the resolver, and let more levels be
allowed than there are variables with descriptions.  Where what the resolver knows of names is tidy,
reading a variable, resolving a template and finding the class of a template return, with a value,
without one or with a failure, and leave the evaluations under way as they were.  All readings that
are nested in them do so as well; the evaluations under way are of different variables, and their
number is at most that of the variables with descriptions; and a reading is cut exactly if the
variable is being evaluated. -/
theorem evaluation_terminates (hcode : ∀ k, (code k).Spares r) (hret : ∀ k, (code k).Returns)
    (hw : r.Tidy w) {n : Nat} (hn : r.described.length < n) :
    (∀ name, r.Balanced ((Host.around code n).valueOf r name) w) ∧
    (∀ template, r.Balanced (r.substitute (.around code n) template) w) ∧
    (∀ template scope, r.Balanced (r.resolveClass (.around code n) template scope).run w) ∧
    ∀ (α : Type) (x : Lookups α), r.Balanced (x.run ((Host.around code n).valueOf r)) w ∧
      ∀ m name w', ComesToRead code r n x w m name w' → r.Nests code m name w' := by
  have enough : (r.pending w).length < n := Nat.lt_of_le_of_lt (r.length_pending_le w) hn
  have ends := endsAt hcode hret n
  refine ⟨fun name => (hw.nests hcode hret enough).balanced, fun template =>
    (hw.ends_substitute ends enough template).mono fun _ _ h => ⟨h.tidy, h.evaluating⟩,
    fun template scope => (hw.ends_resolveClass ends enough template scope).mono
      fun _ _ h => ⟨h.tidy, h.evaluating⟩, fun α x => ⟨(hw.ends_lookups ends x enough).mono
      fun _ _ h => ⟨h.tidy, h.evaluating⟩, fun m name w' h => ?_⟩⟩
  obtain ⟨tidy, hm⟩ := hw.of_comesToRead hcode hret h enough
  exact tidy.nests hcode hret hm

end Resolver

/-! ### A circle of descriptions -/

namespace Circular

open Session

/-- The variable is the name that a class gives, which is named by another variable. -/
def namedBy (other : String) : Mapping.Declaration :=
  .described ⟨.static, .lazy, some ("pkg.@" ++ other ++ "@"), some "name", []⟩

/-- A class with a static method that gives a text. -/
def named (name text : String) : Plan :=
  ⟨"pkg." ++ name, .concrete, none,
    [⟨"name", [], "str", .pub, true, [], some (.literal (.str text))⟩], [], [], []⟩

/-- Two variables that are described by means of each other. -/
def requests : List Request := [
  .scope "app" "app" none,
  .define "left" (named "left" "middle") (some "app"),
  .define "middle" (named "middle" "end") (some "app"),
  .resolver "r" ((Mapping.Document.empty.declare "left" (namedBy "right")).declare "right"
    (namedBy "left")) "app"]

/-- Bodies that are written values give them, and all others fail. -/
def written : Code := fun body receiver args =>
  match body with
  | .literal _ => body.eval .bottom receiver args
  | _ => throw (.plain "not a value")

theorem written_returns : written.Returns := by
  intro body receiver args
  unfold written
  split
  · exact .pure _
  · exact .throw _

theorem written_spares (r : Resolver) : written.Spares r := by
  intro body receiver args w x w' hx
  unfold written at hx
  split at hx <;> · cases hx; exact .refl r _

end Circular

namespace Resolver

open Circular Session in
/-- The variables of a circle have values: the innermost reading is cut. -/
theorem circle_comes_to_an_end : ∃ (k : Names) (w w' : World) (r : Resolver),
    Reached (fun _ => true) (Host.level 3) k w ∧ k.resolvers.get? "r" = some r ∧
      r.described = ["left", "right"] ∧
      (Host.around (fun _ => written) 3).valueOf r "left" w = .done (some "end") w' ∧
      w'.evaluating = [] := by
  have told : (do
      let s ← played 3 requests
      let r ← s.1.resolvers.get? "r"
      let v ← ((Host.around (fun _ => written) 3).valueOf r "left" s.2).seen fun v _ => v
      return (r.described, v)) = some (["left", "right"], some "end") := by decide +kernel
  simp only [Option.bind_eq_bind, Option.bind_eq_some_iff, Option.pure_def, Option.some.injEq,
    Prod.mk.injEq] at told
  obtain ⟨⟨k, w⟩, hplayed, r, held, v, seen, hdescribed, rfl⟩ := told
  have reached := reached_of_played hplayed
  obtain ⟨v', w', gives, -, balanced⟩ := (evaluation_terminates (fun _ => written_spares r)
    (fun _ => written_returns) (reached.tidy held) (n := 3) (by rw [hdescribed]; decide)).1 "left"
  rw [gives] at seen
  cases seen
  exact ⟨k, w, w', r, reached, held, hdescribed, gives, balanced.trans reached.evaluating⟩

end Resolver

end LateBinding
