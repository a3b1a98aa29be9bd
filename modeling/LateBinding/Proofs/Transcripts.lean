import LateBinding.Proofs.Evaluation.Adapters
import LateBinding.Proofs.Sparing

/-!
# What is done by asking for variables alone

Resolving names, finding members and binding types look things up and ask for variables, whose
evaluation may run anything.  Apart from these evaluations nothing happens but that lookups are
noted (`World.Noted`).

The evaluations that an action makes, one after the other, are its *transcript* (`Transcript`).
A host that gives the same values comes to the same result, whatever it does otherwise, and each
evaluation of the list is made: if it does not come to an end then neither does the action.  So
there is nothing in a transcript that is not asked for (`Transcript.without`), and all transcripts
of one run list the same evaluations (`Transcript.mem_of_mem`).

A run whose transcript lists what the host evaluates is *harmless* (`Harmless`), and an action is
*asking* if every run of it is (`Act.Asking`).  Arranging a call (`Adapter.asking_arrange`),
planning a new instance (`Resolver.asking_plan`) and binding a result (`Adapter.asking_wrapResult`)
are.
-/

namespace LateBinding

variable {α β ε : Type}

/-! ### What is noted -/

namespace World

/-- From the first world to the second lookups are noted, and identities are handed out.  No field
of an object or a class, no register, no definition, no provider and no slot changes, and no cache
of types forgets anything. -/
structure Noted (w w' : World) : Prop where
  next : w.next ≤ w'.next
  registers : w'.registers = w.registers
  objects : w'.objects = w.objects
  statics : w'.statics = w.statics
  definitions : w'.definitions = w.definitions
  slots : w'.slots = w.slots
  evaluating : w'.evaluating = w.evaluating
  registry : ∀ r : Resolver, (w'.stateOf r).registry = (w.stateOf r).registry
  slotIds : ∀ r : Resolver, (w'.stateOf r).slots = (w.stateOf r).slots
  types : ∀ r : Resolver, (w.stateOf r).types.GrowsTo (w'.stateOf r).types

namespace Noted

variable {w w' w'' : World}

theorem refl (w : World) : w.Noted w :=
  ⟨Nat.le_refl _, rfl, rfl, rfl, rfl, rfl, rfl, fun _ => rfl, fun _ => rfl, fun _ => .refl _⟩

theorem trans (h : w.Noted w') (h' : w'.Noted w'') : w.Noted w'' where
  next := Nat.le_trans h.next h'.next
  registers := h'.registers.trans h.registers
  objects := h'.objects.trans h.objects
  statics := h'.statics.trans h.statics
  definitions := h'.definitions.trans h.definitions
  slots := h'.slots.trans h.slots
  evaluating := h'.evaluating.trans h.evaluating
  registry r := (h'.registry r).trans (h.registry r)
  slotIds r := (h'.slotIds r).trans (h.slotIds r)
  types r := (h.types r).trans (h'.types r)

theorem of_note {C : Contract} (h : Note C w w') : w.Noted w' where
  next := h.next_le
  registers := by cases h <;> rfl
  objects := by cases h <;> rfl
  statics := by cases h <;> rfl
  definitions := by cases h <;> rfl
  slots := by cases h <;> rfl
  evaluating := by cases h <;> rfl
  registry r := (h.spares r).registry
  slotIds r := (h.spares r).slotIds
  types := h.types_growTo

/-- The renames of a resolver are noted, too. -/
theorem withState {r : Resolver} {s : ResolverState}
    (registry : s.registry = (w.stateOf r).registry) (slots : s.slots = (w.stateOf r).slots)
    (types : s.types = (w.stateOf r).types) : w.Noted (w.withState r s) :=
  { refl w with
    registry := w.apply_stateOf_withState ResolverState.registry registry
    slotIds := w.apply_stateOf_withState ResolverState.slots slots
    types := fun r' => w.apply_stateOf_withState ResolverState.types types r' ▸ .refl _ }

end Noted

end World

theorem Noting.noted (w : World) : Noting (.free fun _ => True) w.Noted where
  respects w' _ := .free _ w'
  note _ _ h _ hw := hw.trans (.of_note h)

/-! ### Transcripts -/

/-- An evaluation of a variable, from its beginning to its end. -/
structure Evaluation where
  /-- The resolver that is asked. -/
  resolver : Resolver
  /-- The name of the variable. -/
  name : String
  /-- The world in which the variable is asked for. -/
  before : World
  /-- The value, if there is one. -/
  value : Option String
  /-- The world in which the value is given. -/
  after : World

/-- The host evaluates the variable in this way. -/
def Host.Evaluates (h : Host) (e : Evaluation) : Prop :=
  h.valueOf e.resolver e.name e.before = .done e.value e.after

/-- What is asked for determines the evaluation. -/
theorem Host.Evaluates.eq {h : Host} {d e : Evaluation} (hd : h.Evaluates d) (he : h.Evaluates e)
    (resolver : d.resolver = e.resolver) (name : d.name = e.name) (before : d.before = e.before) :
    d = e := by
  rw [Evaluates, resolver, name, before, he, Outcome.done.injEq] at hd
  cases d
  cases e
  simp_all only

/-- The host, except that it goes too deep when these variables are asked for. -/
def Host.without (h : Host) (Q : Resolver → String → World → Bool) : Host :=
  ⟨h.run, fun r name w => if Q r name w then .exhausted else h.valueOf r name w⟩

theorem Host.without_exhausted {h : Host} {Q : Resolver → String → World → Bool} {r : Resolver}
    {name : String} {w : World} (hQ : Q r name w = true) :
    (h.without Q).valueOf r name w = .exhausted := if_pos hQ

theorem Host.without_evaluates_iff {h : Host} {Q : Resolver → String → World → Bool}
    {e : Evaluation} (hQ : Q e.resolver e.name e.before = false) :
    (h.without Q).Evaluates e ↔ h.Evaluates e := by
  simp only [Evaluates, without, hQ, Bool.false_eq_true, if_false]

/-- One world comes from another by evaluations, one after the other; before the first, between them
and after the last only lookups are noted. -/
inductive World.Through : World → List Evaluation → World → Prop
  | nil {w w' : World} (h : w.Noted w') : Through w [] w'
  | cons {w w' : World} {e : Evaluation} {es : List Evaluation} (h : w.Noted e.before)
    (rest : Through e.after es w') : Through w (e :: es) w'

namespace World.Through

variable {w w₁ w' : World} {es es' : List Evaluation}

theorem after_noted (h : w.Noted w₁) (hes : w₁.Through es w') : w.Through es w' := by
  cases hes with
  | nil h' => exact .nil (h.trans h')
  | cons h' rest => exact .cons (h.trans h') rest

theorem append (hes : w.Through es w₁) (hes' : w₁.Through es' w') : w.Through (es ++ es') w' := by
  induction hes with
  | nil h => exact hes'.after_noted h
  | cons h _ ih => exact .cons h (ih hes')

end World.Through

/-- The evaluations that an action makes from this world on, one after the other, by which it comes
to a result. -/
structure Transcript (x : Host → Act α) (w : World) (es : List Evaluation) (y : α) (w' : World) :
    Prop where
  /-- Nothing else happens but that lookups are noted. -/
  through : w.Through es w'
  /-- A host that evaluates the variables in this way comes to the result, whatever bodies do. -/
  comes : ∀ h : Host, (∀ e ∈ es, h.Evaluates e) → x h w = .done y w'
  /-- Each evaluation is made: a host that goes too deep in one of them, after it has made those
  before, goes too deep in the action. -/
  asks : ∀ (h : Host) (made rest : List Evaluation) (e : Evaluation), es = made ++ e :: rest →
    (∀ d ∈ made, h.Evaluates d) → h.valueOf e.resolver e.name e.before = .exhausted →
      x h w = .exhausted

namespace Transcript

variable {h : Host} {x : Host → Act α} {w w₁ w' : World} {es es' : List Evaluation} {y : α}

/-- What only notes lookups asks for nothing. -/
theorem noted {x : Act α} (hx : x w = .done y w') (hw : w.Noted w') :
    Transcript (fun _ => x) w [] y w' where
  through := .nil hw
  comes _ _ := hx
  asks _ made rest e hes := by simp at hes

/-- Asking for a variable is to evaluate it. -/
theorem ask (r : Resolver) (name : String) (w : World) (o : Option String) (w' : World) :
    Transcript (fun h => h.valueOf r name) w [⟨r, name, w, o, w'⟩] o w' where
  through := .cons (.refl _) (.nil (.refl _))
  comes _ hes := hes _ (List.mem_singleton_self _)
  asks _ _ _ _ hes _ deep := by
    obtain ⟨rfl, he⟩ | ⟨-, hnil⟩ := List.singleton_eq_append_iff.1 hes
    · cases he
      exact deep
    · cases hnil

/-- What comes after an action goes on with its result. -/
theorem bind {f : Host → α → Act β} {z : β} (hx : Transcript x w es y w₁)
    (hf : Transcript (fun h => f h y) w₁ es' z w') :
    Transcript (fun h => x h >>= f h) w (es ++ es') z w' where
  through := hx.through.append hf.through
  comes h hes := by
    have first := hx.comes h fun e he => hes e (List.mem_append_left _ he)
    rw [Act.bind_apply, first]
    exact hf.comes h fun e he => hes e (List.mem_append_right _ he)
  asks h made rest e hes hmade deep := by
    rw [Act.bind_apply]
    obtain ⟨made', rfl, hrest⟩ | ⟨rest', rfl, hrest⟩ := List.append_eq_append_iff.1 hes
    · rw [hx.comes h fun d hd => hmade d (List.mem_append_left _ hd)]
      exact hf.asks h made' rest e hrest (fun d hd => hmade d (List.mem_append_right _ hd)) deep
    · cases rest' with
      | nil =>
        rw [List.append_nil] at hx
        rw [hx.comes h hmade]
        exact hf.asks h [] rest e hrest.symm nofun deep
      | cons e' rest' =>
        obtain ⟨rfl, -⟩ := List.cons.inj hrest
        rw [hx.asks h made rest' e rfl hmade deep]

/-- There is nothing in a transcript that is not asked for: if the action does not ask a host for
certain variables, then they are not in the transcript. -/
theorem without (ht : Transcript x w es y w') (hes : ∀ e ∈ es, h.Evaluates e)
    {Q : Resolver → String → World → Bool} (hx : x (h.without Q) w ≠ .exhausted) :
    ∀ e ∈ es, Q e.resolver e.name e.before = false := by
  cases hfind : es.find? fun e => Q e.resolver e.name e.before with
  | none => simpa using hfind
  | some e =>
    -- the first of them is asked for after evaluations that are as before
    obtain ⟨he, made, rest, rfl, hmade⟩ := List.find?_eq_some_iff_append.1 hfind
    have before (d : Evaluation) (hd : d ∈ made) : (h.without Q).Evaluates d :=
      (Host.without_evaluates_iff (by simpa using hmade d hd)).2 (hes d (List.mem_append_left _ hd))
    exact absurd (ht.asks (h.without Q) made rest e rfl before (Host.without_exhausted he)) hx

open Classical in
/-- Two transcripts of one run list the same evaluations. -/
theorem mem_of_mem {w'' : World} {y' : α} (ht : Transcript x w es y w')
    (hes : ∀ e ∈ es, h.Evaluates e) (ht' : Transcript x w es' y' w'')
    (hes' : ∀ e ∈ es', h.Evaluates e) {e : Evaluation} (he : e ∈ es) : e ∈ es' := by
  by_contra hne
  let Q (r : Resolver) (name : String) (w : World) : Bool :=
    decide (r = e.resolver ∧ name = e.name ∧ w = e.before)
  -- what else is asked for is evaluated as before, so the second transcript leads to its end
  have evaluates (d : Evaluation) (hd : d ∈ es') : (h.without Q).Evaluates d := by
    refine (Host.without_evaluates_iff (decide_eq_false ?_)).2 (hes' d hd)
    rintro ⟨hr, hn, hw⟩
    exact hne ((hes' d hd).eq (hes e he) hr hn hw ▸ hd)
  have ends : x (h.without Q) w ≠ .exhausted := by
    rw [ht'.comes _ evaluates]
    exact nofun
  have asked := ht.without hes ends e he
  simp [Q] at asked

end Transcript

/-- The run comes to this result by asking for variables alone: no body is run and nothing is
written, except when a variable is evaluated. -/
def Harmless (h : Host) (x : Host → Act α) (w : World) (y : α) (w' : World) : Prop :=
  ∃ es, (∀ e ∈ es, h.Evaluates e) ∧ Transcript x w es y w'

namespace Harmless

variable {h h' : Host} {x : Host → Act α} {w w₁ w' : World} {y : α}

/-- The outcome does not depend on what bodies do but in evaluations. -/
theorem eq_done (hx : Harmless h x w y w') (same : h'.valueOf = h.valueOf) :
    x h' w = .done y w' := by
  obtain ⟨es, hes, ht⟩ := hx
  refine ht.comes h' fun e he => ?_
  rw [Host.Evaluates, same]
  exact hes e he

theorem bind {f : Host → α → Act β} {z : β} (hx : Harmless h x w y w₁)
    (hf : Harmless h (fun h => f h y) w₁ z w') : Harmless h (fun h => x h >>= f h) w z w' := by
  obtain ⟨es, hes, ht⟩ := hx
  obtain ⟨es', hes', ht'⟩ := hf
  exact ⟨es ++ es', List.forall_mem_append.2 ⟨hes, hes'⟩, ht.bind ht'⟩

section Attempt

variable {x : Host → Attempt ε α} {f : Host → α → Attempt ε β}

/-- What comes after an attempt goes on with its result. -/
theorem bind_ok {z : Except ε β} {a : α} (hx : Harmless h (fun h => (x h).run) w (.ok a) w₁)
    (hf : Harmless h (fun h => (f h a).run) w₁ z w') :
    Harmless h (fun h => (x h >>= f h).run) w z w' := hx.bind hf

/-- Nothing comes after an attempt that fails. -/
theorem bind_error {e : ε} (hx : Harmless h (fun h => (x h).run) w (.error e) w') :
    Harmless h (fun h => (x h >>= f h).run) w (.error e) w' :=
  hx.bind ⟨[], nofun, .noted rfl (.refl w')⟩

end Attempt

end Harmless

/-! ### Asking -/

/-- All that the action does is to ask for variables, and to note lookups. -/
def Act.Asking (x : Host → Act α) : Prop :=
  ∀ ⦃h w y w'⦄, x h w = .done y w' → Harmless h x w y w'

namespace Act.Asking

/-- What only notes lookups. -/
theorem noting {x : Act α} {P : α → Prop} (hx : ∀ w : World, Act.Keeps w.Noted P x) :
    Asking fun _ => x :=
  fun _ w _ _ h => ⟨[], nofun, .noted h (hx w (.refl w) h).1⟩

theorem pure (a : α) : Asking fun _ => (Pure.pure a : Act α) :=
  noting (P := fun _ => True) fun _ => .pure trivial

theorem ask (r : Resolver) (name : String) : Asking fun h => h.valueOf r name :=
  fun _ w o w' h => ⟨[⟨r, name, w, o, w'⟩], List.forall_mem_singleton.2 h, .ask r name w o w'⟩

theorem bind {x : Host → Act α} {f : Host → α → Act β} (hx : Asking x)
    (hf : ∀ a, Asking fun h => f h a) : Asking fun h => x h >>= f h := by
  intro h w z w' hz
  obtain ⟨a, w₁, ha, hz⟩ := Act.bind_eq_done.1 hz
  exact (hx ha).bind (hf a hz)

theorem ite {c : Prop} [Decidable c] {x y : Host → Act α} (hx : Asking x) (hy : Asking y) :
    Asking fun h => if c then x h else y h := by
  by_cases hc : c
  · simpa only [if_pos hc] using hx
  · simpa only [if_neg hc] using hy

end Act.Asking

/-- The same for an attempt. -/
def Attempt.Asking (x : Host → Attempt ε α) : Prop := Act.Asking fun h => (x h).run

namespace Attempt.Asking

theorem noting {x : Attempt ε α} {P : α → Prop} (hx : ∀ w : World, Attempt.Keeps w.Noted P x) :
    Asking fun _ => x := Act.Asking.noting hx

theorem pure (a : α) : Asking fun _ => (Pure.pure a : Attempt ε α) := Act.Asking.pure _

theorem throw (e : ε) : Asking fun _ => (throw e : Attempt ε α) := Act.Asking.pure _

theorem throw_bind (e : ε) {f : Host → α → Attempt ε β} :
    Asking fun h => (MonadExcept.throw e : Attempt ε α) >>= f h :=
  Act.Asking.pure (Except.error e)

theorem bind {x : Host → Attempt ε α} {f : Host → α → Attempt ε β} (hx : Asking x)
    (hf : ∀ a, Asking fun h => f h a) : Asking fun h => x h >>= f h := by
  refine Act.Asking.bind hx fun y => ?_
  cases y with
  | ok a => exact hf a
  | error e => exact .pure _

theorem liftM {x : Host → Act α} (hx : Act.Asking x) :
    Asking fun h => (liftM (x h) : Attempt ε α) :=
  Act.Asking.bind hx fun _ => .pure _

theorem ite {c : Prop} [Decidable c] {x y : Host → Attempt ε α} (hx : Asking x) (hy : Asking y) :
    Asking fun h => if c then x h else y h := Act.Asking.ite hx hy

theorem except (x : Except ε α) : Asking fun _ => (MonadLift.monadLift x : Attempt ε α) :=
  Act.Asking.pure x

end Attempt.Asking

/-! ### Lookups of members -/

namespace TypeEntry

variable (e : TypeEntry Value)

theorem noted_marker (kind : MarkerKind) (w : World) :
    Act.Keeps w.Noted (fun _ => True) (e.marker kind) := by
  intro w₁ o w₂ hw h
  rw [marker_eq] at h
  split at h
  · cases h
    exact ⟨hw, trivial⟩
  · rename_i hnew
    cases h
    exact ⟨hw.trans (.of_note (C := .free fun _ => True) (.memo e (.marker kind hnew))), trivial⟩

theorem noted_constructor (params : List String) (w : World) :
    Act.Keeps w.Noted (fun _ => True) (e.constructor params) := by
  intro w₁ o w₂ hw h
  rw [constructor_eq] at h
  split at h
  · cases h
    exact ⟨hw, trivial⟩
  · cases h
    exact ⟨hw.trans { World.Noted.refl _ with }, trivial⟩

end TypeEntry

/-! ### Names -/

theorem Template.asking_fill (r : Resolver) (l : List (List Char × List Char)) :
    Act.Asking fun h => fill (h.valueOf r) l := by
  induction l with
  | nil => exact .pure _
  | cons t l ih => exact .bind (.ask r _) fun _ => .bind ih fun _ => .pure _

namespace Resolver

variable (r : Resolver)

theorem asking_pass (text : String) : Act.Asking fun h => r.pass h text :=
  .bind (Template.asking_fill r _) fun _ => .pure _

theorem asking_substituteUpTo (passes : Nat) (text : String) :
    Act.Asking fun h => r.substituteUpTo h passes text := by
  induction passes generalizing text with
  | zero => exact .pure _
  | succ passes ih =>
    unfold substituteUpTo
    exact .ite (.bind (r.asking_pass text) fun _ => ih _) (.pure _)

theorem asking_substitute (template : String) : Act.Asking fun h => r.substitute h template :=
  r.asking_substituteUpTo _ template

theorem asking_classNamedIn (name : String) (scope : Scope) :
    Act.Asking fun _ => r.classNamedIn name scope :=
  .noting fun w => r.keeps_classNamedIn (.noted w) name scope

theorem asking_typeNamed (name : String) (scope : Scope) :
    Act.Asking fun _ => r.typeNamed name scope :=
  .noting fun w => r.keeps_typeNamed (.noted w) name scope

theorem asking_classFound (template name : String) (o : Option (TypeEntry Value)) :
    Attempt.Asking fun _ => classFound template name o := by
  cases o with
  | some e => exact .pure e
  | none => exact .throw _

theorem asking_resolveClass (template : String) (scope : Option Scope) :
    Attempt.Asking fun h => r.resolveClass h template scope := by
  simp only [resolveClass_eq]
  exact .bind (.liftM (r.asking_substitute template)) fun name =>
    .bind (.liftM (r.asking_classNamedIn name _)) fun o => asking_classFound template name o

theorem asking_resolveField (e : TypeEntry Value) (template : String) :
    Act.Asking fun h => r.resolveField h e template :=
  .bind (r.asking_substitute template) fun name => .noting fun w => e.keeps_field (.noted w) name

theorem asking_indexRenames (l : List (String × List Mapping.Rename)) (index : RenameIndex) :
    Act.Asking fun h => r.indexRenames h l index := by
  induction l generalizing index with
  | nil => exact .pure _
  | cons e l ih => exact .bind (r.asking_substitute e.1) fun _ => ih _

theorem asking_state : Act.Asking fun _ => r.state :=
  .noting fun _ => r.keeps_state

/-- Writing down renames. -/
theorem asking_update (f : ResolverState → ResolverState)
    (hf : ∀ s, (f s).registry = s.registry ∧ (f s).slots = s.slots ∧ (f s).types = s.types) :
    Act.Asking fun _ => r.update f := by
  refine .noting (P := fun _ => True) fun w => .update fun w' hw => hw.trans ?_
  obtain ⟨registry, slots, types⟩ := hf (w'.stateOf r)
  exact World.Noted.withState registry slots types

theorem asking_renameIndex : Act.Asking fun h => r.renameIndex h := by
  refine .bind r.asking_state fun s => ?_
  cases s.renames with
  | ready index => exact .pure _
  | underway => exact .noting (P := fun _ => True) fun _ => .blocked
  | unset =>
    exact .bind (r.asking_update _ fun _ => ⟨rfl, rfl, rfl⟩) fun _ =>
      .bind (r.asking_indexRenames _ _) fun _ =>
        .bind (r.asking_update _ fun _ => ⟨rfl, rfl, rfl⟩) fun _ => .pure _

theorem asking_renameUpTo (table : Option (Table String String)) (passes : Nat) (text : String) :
    Act.Asking fun h => r.renameUpTo h table passes text := by
  induction passes generalizing text with
  | zero =>
    unfold renameUpTo
    cases table.bind fun t => t.get? text with
    | some real => exact .pure _
    | none => exact .ite (.pure _) (.pure _)
  | succ passes ih =>
    unfold renameUpTo
    cases table.bind fun t => t.get? text with
    | some real => exact .pure _
    | none => exact .ite (.bind (r.asking_pass text) fun _ => ih _) (.pure _)

theorem asking_resolveMember (owner logical : String) :
    Act.Asking fun h => r.resolveMember h owner logical := by
  refine .bind (r.asking_substitute owner) fun owner => .bind r.asking_state fun s => ?_
  cases s.renameMemo.get? (owner, logical) with
  | some real => exact .pure _
  | none =>
    refine .bind r.asking_renameIndex fun index => .bind (r.asking_renameUpTo _ _ _) fun x => ?_
    obtain ⟨real, renamed⟩ := x
    cases renamed with
    | true => exact .bind (r.asking_update _ fun _ => ⟨rfl, rfl, rfl⟩) fun _ => .pure _
    | false => exact .pure _

theorem asking_resolveMethod (target interface : TypeEntry Value) (logical : String)
    (params : List String) :
    Attempt.Asking fun h => r.resolveMethod h target interface logical params := by
  refine .bind (.liftM (r.asking_resolveMember _ _)) fun real =>
    .bind (.liftM (.noting fun w => target.keeps_method (.noted w) ⟨real, params⟩)) fun o => ?_
  cases o with
  | some m => exact .pure _
  | none => exact .throw _

theorem asking_adaptType (scope : Scope) (type : String) :
    Attempt.Asking fun h => r.adaptType h scope type := by
  unfold adaptType
  refine .ite (.pure _) (.bind (.liftM (r.asking_typeNamed type scope)) fun o => ?_)
  cases o with
  | none => exact .pure _
  | some e =>
    refine .ite (.pure _) (.bind (.liftM (.noting (e.noted_marker _))) fun o => ?_)
    match o with
    | some (.adapts template) =>
      exact .bind (r.asking_resolveClass template _) fun _ => .pure _
    | none | some (.rename _) | some (.field _) => exact .pure _

theorem asking_adaptTypes (scope : Scope) (types : List String) :
    Attempt.Asking fun h => r.adaptTypes h scope types := by
  induction types with
  | nil => exact .pure _
  | cons type types ih =>
    exact .bind (r.asking_adaptType scope type) fun _ => .bind ih fun _ => .pure _

end Resolver

/-! ### Adapters -/

namespace TypeEntry

variable (e : TypeEntry Value)

theorem asking_adaptsTemplate : Attempt.Asking fun _ => e.adaptsTemplate := by
  unfold adaptsTemplate
  refine .ite (.throw_bind _) (.bind (.liftM (.noting (e.noted_marker _))) fun o => ?_)
  cases o.bind Marker.template? with
  | some template => exact .pure _
  | none => exact .throw _

theorem asking_adaptsType : Act.Asking fun _ => e.adaptsType := by
  unfold adaptsType
  exact .ite (.bind (.noting (e.noted_marker _)) fun _ => .pure _) (.pure _)

end TypeEntry

namespace Adapter

theorem asking_bind (r : Resolver) (e : TypeEntry Value) (target : Value)
    (scope : Option Scope) : Attempt.Asking fun h => Adapter.bind h r e target scope :=
  .bind e.asking_adaptsTemplate fun _ => .bind (r.asking_resolveClass _ _) fun _ =>
    .bind (.liftM (.noting fun w => .fresh_of (.noted w))) fun _ => .pure _

variable (a : Adapter)

/-- Binding a result. -/
theorem asking_wrapResult (type : String) (result : Value) :
    Attempt.Asking fun h => a.wrapResult h type result := by
  refine .ite (.pure _) (.bind (.liftM (a.binding.resolver.asking_typeNamed type _)) fun o => ?_)
  cases o with
  | none => exact .pure _
  | some e =>
    exact .bind (.liftM e.asking_adaptsType) fun _ =>
      .ite (.pure _) (.bind (asking_bind _ e result none) fun _ => .pure _)

theorem asking_find (q : Member) (args : List Value) : Attempt.Asking fun _ => a.find q args :=
  .noting fun w => keeps_find (.noted w) q args

theorem asking_markedField (m : MethodDecl) (marker : Marker) :
    Act.Asking fun h => a.markedField h m marker := by
  unfold markedField
  cases marker.template? with
  | some template => exact a.binding.resolver.asking_resolveField _ _
  | none => exact .noting fun w => TypeEntry.keeps_field _ (.noted w) _

theorem asking_missingField (m : MethodDecl) (marker : Marker) :
    Act.Asking fun h => a.missingField h m marker := by
  unfold missingField
  cases marker.template? with
  | some template =>
    exact .bind (a.binding.resolver.asking_substitute template) fun _ => .pure _
  | none => exact .pure _

theorem asking_realMethod (m : MethodDecl) (rename : Option Marker) :
    Attempt.Asking fun h => a.realMethod h m rename :=
  .bind (a.binding.resolver.asking_adaptTypes _ _) fun _ =>
    a.binding.resolver.asking_resolveMethod _ _ _ _

theorem asking_prepare (m : MethodHandle) (args : List Value) :
    Attempt.Asking fun h => a.prepare h m args := by
  unfold prepare
  cases m.marker? .field with
  | some marker =>
    refine .bind (.liftM (a.asking_markedField m.decl marker)) fun o => ?_
    cases o with
    | none => exact .bind (.liftM (a.asking_missingField m.decl marker)) fun _ => .throw _
    | some f => exact .except _
  | none =>
    exact .ite (.pure _) (.bind (a.asking_realMethod _ _) fun _ => .pure _)

/-- Arranging a call. -/
theorem asking_arrange (q : Member) (args : List Value) :
    Attempt.Asking fun h => a.arrange h q args :=
  .bind (a.asking_find q args) fun m => a.asking_prepare m args

end Adapter

namespace Resolver

variable (r : Resolver)

theorem asking_planOf (interface adapted : TypeEntry Value) (scope : Scope) (name : String)
    (params : List String) :
    Attempt.Asking fun h => r.planOf h interface scope name adapted params := by
  refine .bind (r.asking_adaptTypes scope params) fun params =>
    .bind (.liftM (.noting (adapted.noted_constructor params))) fun o => ?_
  cases o with
  | none => exact .throw _
  | some k => exact .pure _

/-- Planning a new instance. -/
theorem asking_plan (interface : String) (params : List String) (scope : Option Scope) :
    Attempt.Asking fun h => r.plan h interface params scope :=
  .bind (r.asking_resolveClass interface scope) fun e =>
    .bind e.asking_adaptsTemplate fun template =>
      .bind (.liftM (r.asking_substitute template)) fun name =>
        .bind (.liftM (r.asking_classNamedIn name _)) fun o =>
          .bind (asking_classFound template name o) fun _ => r.asking_planOf _ _ _ _ _

end Resolver

end LateBinding
