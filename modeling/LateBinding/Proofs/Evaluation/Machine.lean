import LateBinding.Machine
import LateBinding.Proofs.Evaluation.Adapters

/-!
# What the machine keeps

Evaluating a body keeps every stable invariant that the host keeps (`Expr.keeps_eval`).  By
induction on the level, invariants are kept by the hosts of all levels as soon as asking for a
variable and resolving a member keep them wherever the host does (`Host.keeps_level`).  This is so
for an invariant that the bookkeeping of resolvers does not break (`Host.keeps_level_of_tended`),
and so for one that does not look at the books at all (`Host.keeps_level_of_indifferent`).
-/

namespace LateBinding

variable {C : Contract} {I : World → Prop} {h : Host}

theorem Value.keeps_callProxy (hI : Stable C I) (hC : C.Closed) (hh : h.Keeps C I)
    {id : Identity} {face : Face Value} {target : Value} (hv : C.value (.proxy id face target))
    (name : String) {args : List Value} (hargs : ∀ v ∈ args, C.value v) :
    Attempt.Keeps I C.value (Value.callProxy h id face target name args) := by
  cases face with
  | foreign interface => exact .pure (hC.str _)
  | adapter b =>
    have hv : C.value (Adapter.toValue ⟨id, b, target⟩) := hv
    exact .adapt (Adapter.keeps_request hI hC hh hv (.named name) hargs)

namespace Expr

/-! Lists of expressions are evaluated from left to right. -/

section Lists

variable {receiver : Value} {args : List Value} {es : List Expr}

theorem keeps_evalAll (hes : ∀ e ∈ es, Attempt.Keeps I C.value (e.eval h receiver args)) :
    Attempt.Keeps I (fun vs => ∀ v ∈ vs, C.value v) (evalAll h receiver args es) := by
  induction es with
  | nil => exact .pure nofun
  | cons e es ih =>
    obtain ⟨he, hes⟩ := List.forall_mem_cons.1 hes
    exact .bind he fun v hv => .bind (ih hes) fun vs hvs => .pure (List.forall_mem_cons.2 ⟨hv, hvs⟩)

theorem keeps_evalLast (hes : ∀ e ∈ es, Attempt.Keeps I C.value (e.eval h receiver args))
    {last : Value} (hl : C.value last) :
    Attempt.Keeps I C.value (evalLast h receiver args last es) := by
  induction es generalizing last with
  | nil => exact .pure hl
  | cons e es ih =>
    obtain ⟨he, hes⟩ := List.forall_mem_cons.1 hes
    exact .bind he fun _ hv => ih hes hv

theorem keeps_evalTexts (hes : ∀ e ∈ es, Attempt.Keeps I C.value (e.eval h receiver args)) :
    Attempt.Keeps I (fun _ => True) (evalTexts h receiver args es) := by
  induction es with
  | nil => exact .pure trivial
  | cons e es ih =>
    obtain ⟨he, hes⟩ := List.forall_mem_cons.1 hes
    exact .bind he fun _ _ => .bind (.except fun _ _ => trivial) fun _ _ =>
      .bind (ih hes) fun _ _ => .pure trivial

end Lists

variable (hI : Stable C I) (hC : C.Closed) (hh : h.Keeps C I)

include hI hC

theorem keeps_callOn (hh : h.Keeps C I) {v : Value} (hv : C.value v) (name : String)
    {args : List Value} (hargs : ∀ v ∈ args, C.value v) :
    Attempt.Keeps I C.value (callOn h v name args) := by
  unfold callOn
  split
  · exact Value.keeps_callProxy hI hC hh hv name hargs
  · exact .throw

theorem keeps_spawnLike (hh : h.Keeps C I) {receiver : Value} (hv : C.value receiver)
    (params : List String) {args : List Value} (hargs : ∀ v ∈ args, C.value v) :
    Attempt.Keeps I C.value (spawnLike h receiver params args) := by
  have hcls : ∀ o, receiver.expectObject = .ok o → C.cls o.cls := by
    intro o ho
    cases receiver with
    | object o' =>
      cases ho
      exact (hC.object _).1 hv
    | _ => cases ho
  refine .bind (.except hcls) fun o ho => ?_
  split
  · refine .bind (Class.keeps_construct hh.runs hI hC.toBasic ho _ hargs) fun o' ho' => .pure ?_
    rw [hC.object, ho']
    exact ho
  · exact .throw

variable {receiver : Value} {args : List Value} (hr : C.value receiver)
  (ha : ∀ v ∈ args, C.value v)

include hh hr ha

/-- Evaluating an expression keeps the invariant, and gives an admitted value. -/
theorem keeps_eval (e : Expr) : Attempt.Keeps I C.value (e.eval h receiver args) := by
  cases e with
  | literal l =>
    refine .pure ?_
    cases l <;> exact hC.plain _ rfl rfl
  | register name => exact .liftM (Act.keeps_register hI.noting hC.toBasic name)
  | this => exact .pure hr
  | arg i =>
    refine .pure (hC.getD_null fun v hv => ha v ?_)
    exact List.mem_of_getElem? hv
  | get e field =>
    exact .bind (keeps_eval e) fun _ _ => .bind (.except fun _ _ => trivial) fun o _ =>
      .bind (.liftM (Object.keeps_get hI.noting o field)) fun _ hv => .pure (hC.getD_null hv)
  | set e field x =>
    exact .bind (keeps_eval e) fun _ _ => .bind (keeps_eval x) fun _ hx =>
      .bind (.except fun _ _ => trivial) fun o _ =>
        .bind (.liftM (Object.keeps_set hI o field hx)) fun _ hv => .pure (hC.getD_null hv)
  | add a b =>
    refine .bind (keeps_eval a) fun x _ => .bind (keeps_eval b) fun y _ => .except fun v hv => ?_
    unfold sum at hv
    simp only [bind, Except.bind, pure, Except.pure] at hv
    split at hv
    · cases hv
    split at hv
    · cases hv
    · cases hv
      exact hC.plain _ rfl rfl
  | concat es => exact .bind (keeps_evalTexts fun e _ => keeps_eval e) fun _ _ => .pure (hC.str _)
  | decimal e =>
    exact .bind (keeps_eval e) fun _ _ => .bind (.except fun _ _ => trivial) fun _ _ =>
      .pure (hC.str _)
  | typeName e => exact .bind (keeps_eval e) fun _ _ => .pure (hC.str _)
  | equal a b =>
    exact .bind (keeps_eval a) fun _ _ => .bind (keeps_eval b) fun _ _ =>
      .pure (hC.plain _ rfl rfl)
  | choose c a b =>
    refine .bind (keeps_eval c) fun v _ => ?_
    split
    · exact keeps_eval a
    · exact keeps_eval b
  | sequence es => exact keeps_evalLast (fun e _ => keeps_eval e) hC.null
  | store name e =>
    exact .bind (keeps_eval e) fun _ hv =>
      .bind (.liftM (Act.keeps_setRegister hI name hv)) fun _ _ => .pure hv
  | fail kind message => exact .throw
  | unwrap e => exact .bind (keeps_eval e) fun _ hv => .pure (hC.unwrap hv)
  | call e name es =>
    exact .bind (keeps_eval e) fun _ hv =>
      .bind (keeps_evalAll fun e _ => keeps_eval e) fun _ hvs => keeps_callOn hI hC hh hv name hvs
  | spawn params es =>
    exact .bind (keeps_evalAll fun e _ => keeps_eval e) fun _ hvs =>
      keeps_spawnLike hI hC hh hr params hvs

end Expr

namespace Host

/-- Invariants are kept at all levels if asking for a variable and resolving a member keep them
wherever what they nest through does. -/
theorem keeps_level {ι : Type} {I : ι → World → Prop} (hI : ∀ i, Stable C (I i)) (hC : C.Closed)
    (reads : ∀ h, (∀ i, Runs C (I i) h) → (∀ i, Reads C (I i) h) → ∀ i r name, C.resolver r →
      Act.Keeps (I i) (fun _ => True) (r.valueOf h name))
    (renames : ∀ h i, Reads C (I i) h → Renames C (I i) h) (n : Nat) (i : ι) :
    (level n).Keeps C (I i) := by
  induction n generalizing i with
  | zero =>
    -- nothing returns at the bottom
    have hreads : (level 0).Reads C (I i) := fun _ _ _ => .exhausted
    exact ⟨fun _ _ _ _ _ => .lift .exhausted, hreads, renames _ i hreads⟩
  | succ n ih =>
    have hreads : (level (n + 1)).Reads C (I i) := fun r name hr =>
      reads _ (fun i => (ih i).runs) (fun i => (ih i).reads) i r name hr
    exact ⟨fun body _ _ hr ha => Expr.keeps_eval (hI i) hC (ih i) hr ha body, hreads,
      renames _ i hreads⟩

/-- An invariant that the bookkeeping of resolvers does not break is kept at all levels. -/
theorem keeps_level_of_tended (hI : Stable C I) (hT : Tended C I) (hC : C.Closed) (n : Nat) :
    (level n).Keeps C I :=
  keeps_level (fun _ => hI) hC
    (fun _ hrun hreads _ _ name hr =>
      Resolver.keeps_valueOf hT hI hC.toBasic hr (hrun ()) (hreads ()) name)
    (fun _ _ hreads _ owner logical hr =>
      Resolver.keeps_resolveMember hr hreads hT.toRenaming owner logical) n ()

/-- An invariant that does not look at the books of the resolvers is kept at all levels. -/
theorem keeps_level_of_indifferent (hI : Stable C I) (hJ : Indifferent I) (hC : C.Closed)
    (n : Nat) : (level n).Keeps C I :=
  keeps_level_of_tended hI (hJ.tended hI.noting) hC n

/-- Evaluation takes no entry out of a cache. -/
theorem grows_level (hC : C.Closed) (n : Nat) : (level n).Grows C := fun e =>
  keeps_level_of_indifferent ((Stable.of_respects hC.toBasic).caches e)
    (Indifferent.of_respects.caches e) hC n

end Host

end LateBinding
