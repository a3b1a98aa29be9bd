import Mathlib.Logic.Relation
import LateBinding.Proofs.Session
import LateBinding.Proofs.Sparing

/-!
# Activities

What happens from some moment on is made of activities (`Resolver.Activity`): a client, whatever it
holds, carries out a request, a body is run, or something happens that has nothing to do with the
resolver that is looked at.  Bodies call adapters, adapters ask resolvers, and resolvers run bodies
again; an activity is all of that, from its beginning to its end.

An invariant that depends only on what the resolver knows of names, and that bookkeeping does not
break (`Resolver.BookInvariant`), is kept by every activity but one: registering a provider or
taking one away (`Resolver.Activity.keeps_or_registers`).
-/

namespace LateBinding

/-- The world in which other providers are registered with a resolver. -/
def World.withRegistry (w : World) (r : Resolver) (t : Table String Provider) : World :=
  w.withState r { w.stateOf r with registry := t }

theorem World.slotOf_withRegistry (w : World) (r' : Resolver) (t : Table String Provider)
    (r : Resolver) (name : String) : (w.withRegistry r' t).slotOf r name = w.slotOf r name :=
  w.slotOf_withState (s := { w.stateOf r' with registry := t }) rfl r name

/-- Requests that register a provider or take one away do nothing else. -/
theorem Session.Request.world_of_registers {q : Request} (hq : q.registers = true)
    {proxied : Value → Bool} {h : Host} {k : Names} {x : Except BindingError Names} {w w' : World}
    (hw : (Session.perform proxied h k q).run w = .done x w') :
    w' = w ∨ ∃ r t, w' = w.withRegistry r t := by
  cases q with
  | register resolver name provider =>
    rcases Attempt.run_except_bind_eq_done.1 hw with ⟨r, -, hw⟩ | ⟨e, -, -, rfl⟩
    · rcases Attempt.run_except_bind_eq_done.1 hw with ⟨p, -, hw⟩ | ⟨e, -, -, rfl⟩
      · cases hw
        exact .inr ⟨r, _, rfl⟩
      · exact .inl rfl
    · exact .inl rfl
  | unregister resolver name =>
    rcases Attempt.run_except_bind_eq_done.1 hw with ⟨r, -, hw⟩ | ⟨e, -, -, rfl⟩
    · cases hw
      exact .inr ⟨r, _, rfl⟩
    · exact .inl rfl
  | _ => cases hq

/-- What relates the world before each request to the world after it relates, step by step, the
ends of a run. -/
theorem Session.steps_of_run {proxied : Value → Bool} {h : Host} {I : World → Prop}
    {step : World → World → Prop} (qs : List Request)
    (hstep : ∀ q ∈ qs, ∀ k x w w', I w → (perform proxied h k q).run w = .done x w' →
      step w w' ∧ I w')
    {k k' : Names} {w w' : World} (hw : I w) (hrun : run proxied h qs k w = .done k' w') :
    Relation.ReflTransGen step w w' := by
  induction qs generalizing k w with
  | nil =>
    cases hrun
    exact .refl
  | cons q qs ih =>
    obtain ⟨x, w₁, hq, hrun⟩ := Act.bind_eq_done.1 hrun
    obtain ⟨first, hw₁⟩ := hstep q List.mem_cons_self k x w w₁ hw hq
    have others : ∀ q ∈ qs, ∀ k x w w', I w → (perform proxied h k q).run w = .done x w' →
        step w w' ∧ I w' := fun q hq => hstep q (List.mem_cons_of_mem _ hq)
    cases x with
    | ok k₁ => exact .head first (ih others hw₁ hrun)
    | error e => exact .head first (ih others hw₁ hrun)

/-- A request that registers nothing and takes nothing away keeps an invariant that no change breaks
and that evaluation keeps. -/
theorem Session.keeps_of_level {I : World → Prop} (hI : Stable (.free fun _ => True) I) {n : Nat}
    (level : (Host.level n).Keeps (.free fun _ => True) I) {q : Request} (hq : q.registers = false)
    {proxied : Value → Bool} {k : Names} {x : Except BindingError Names} {w w' : World}
    (hw : I w) (h : (perform proxied (Host.level n) k q).run w = .done x w') : I w' := by
  cases q with
  | register | unregister => cases hq
  | resolver label document scope =>
    have keeps : Attempt.Keeps I (fun _ => True)
        (perform proxied (Host.level n) k (.resolver label document scope)) :=
      .bind (.except (P := fun _ => True) fun _ _ => trivial) fun s _ =>
        .bind (keeps_newResolver hI document s) fun _ _ => .pure trivial
    exact (keeps hw h).1
  | provider label retention source =>
    have keeps : Attempt.Keeps I (fun _ => True)
        (perform proxied (Host.level n) k (.provider label retention source)) :=
      .bind (.liftM (keeps_newProvider hI _ retention source)) fun _ _ => .pure trivial
    exact (keeps hw h).1
  | _ =>
    have held : k.Admitted (.free fun _ => True) := ⟨fun _ _ _ => trivial, fun _ _ _ => trivial⟩
    exact (keeps_use hI .free level (Host.grows_level .free n) (fun _ _ _ _ _ => trivial) held _ rfl
      rfl hw h).1

/-- What holds in the empty world and is kept by all that a client can ask for holds in every world
that is reached. -/
theorem Session.Reached.holds_of_level {I : World → Prop} (hI : Stable (.free fun _ => True) I)
    {n : Nat} (level : (Host.level n).Keeps (.free fun _ => True) I)
    (registers : ∀ w r t, I w → I (w.withRegistry r t)) (start : I World.empty)
    {proxied : Value → Bool} {k : Names} {w : World}
    (hw : Reached proxied (Host.level n) k w) : I w := by
  obtain ⟨qs, hqs⟩ := hw
  have steps : Relation.ReflTransGen (fun w w' => I w → I w') World.empty w := by
    refine steps_of_run (I := fun _ => True) qs (fun q _ k x w w' _ hq => ⟨fun hw => ?_, trivial⟩)
      trivial hqs
    cases hreg : q.registers with
    | false => exact keeps_of_level hI level hreg hw hq
    | true =>
      rcases Request.world_of_registers hreg hq with rfl | ⟨r, t, rfl⟩
      · exact hw
      · exact registers w r t hw
  clear hqs
  induction steps with
  | refl => exact start
  | tail _ step ih => exact step ih

/-- Bookkeeping that does not break an invariant is one way to keep it. -/
theorem Session.Reached.holds_of_tended {I : World → Prop} (hI : Stable (.free fun _ => True) I)
    (hT : Tended (.free fun _ => True) I) (registers : ∀ w r t, I w → I (w.withRegistry r t))
    (start : I World.empty) {proxied : Value → Bool} {n : Nat} {k : Names} {w : World}
    (hw : Reached proxied (Host.level n) k w) : I w :=
  hw.holds_of_level hI (Host.keeps_level_of_tended hI hT .free n) registers start

namespace Resolver

/-! ### Invariants of the books -/

/-- An invariant that depends only on what a resolver knows of names, and that bookkeeping does not
break. -/
structure BookInvariant (r : Resolver) (I : World → Prop) : Prop where
  spares : ∀ w w', w.Spares r w' → I w → I w'
  tended : Tended (.free fun _ => True) I

namespace BookInvariant

variable {r r' : Resolver} {I : World → Prop} {w w' : World}

theorem stable (hI : r.BookInvariant I) : Stable (.free fun _ => True) I := .of_spares r hI.spares

/-- Evaluation keeps the invariant, at any depth. -/
theorem level (hI : r.BookInvariant I) (n : Nat) :
    (Host.level n).Keeps (.free fun _ => True) I :=
  Host.keeps_level_of_tended hI.stable hI.tended .free n

theorem valueOf (hI : r.BookInvariant I) (hw : I w) {n : Nat} {name : String} {o : Option String}
    (h : r'.valueOf (Host.level n) name w = .done o w') : I w' := by
  have level := hI.level n
  exact (keeps_valueOf hI.tended hI.stable (.free _) trivial level.runs level.reads name hw h).1

theorem substitute (hI : r.BookInvariant I) (hw : I w) {n : Nat} {template text : String}
    (h : r'.substitute (Host.level n) template w = .done text w') : I w' :=
  (keeps_substitute (C := .free fun _ => True) trivial (hI.level n).reads template hw h).1

/-- A request that registers nothing and takes nothing away keeps the invariant. -/
theorem request (hI : r.BookInvariant I) {q : Session.Request} (hq : q.registers = false)
    {proxied : Value → Bool} {n : Nat} {k : Session.Names} {x : Except BindingError Session.Names}
    (hw : I w) (h : (Session.perform proxied (Host.level n) k q).run w = .done x w') : I w' :=
  Session.keeps_of_level hI.stable (hI.level n) hq hw h

end BookInvariant

/-- Bookkeeping takes back no identity. -/
theorem bookInvariant_next (r : Resolver) (n : Identity) :
    r.BookInvariant fun w => n ≤ w.next where
  spares _ _ h hw := Nat.le_trans hw h.next
  tended := {
    bind := fun _ _ _ _ _ _ _ hw => Nat.le_succ_of_le hw
    keep := fun _ _ _ _ _ _ hw => hw
    enter := fun _ _ _ hw => hw
    leave := fun _ hw => hw
    index := fun _ _ _ hw => hw
    rename := fun _ _ _ _ _ _ _ hw => hw }

/-! ### What happens -/

/-- Something happens, from its beginning to its end. -/
inductive Activity (r : Resolver) (w w' : World) : Prop
  /-- A client carries out a request. -/
  | request {proxied : Value → Bool} {n : Nat} {k : Session.Names} {q : Session.Request}
    {x : Except BindingError Session.Names}
    (h : (Session.perform proxied (Host.level n) k q).run w = .done x w')
  /-- A body is run. -/
  | body {n : Nat} {body : Expr} {receiver : Value} {args : List Value}
    {x : Except Exception Value} (h : ((Host.level n).run body receiver args).run w = .done x w')
  /-- Something happens that has nothing to do with the resolver. -/
  | elsewhere (h : w.Spares r w')

variable {r : Resolver} {w w' : World}

/-- An activity registers providers or takes them away, and does nothing else, or it keeps every
invariant of the books. -/
theorem Activity.keeps_or_registers (h : r.Activity w w') :
    (∃ r' t, w' = w.withRegistry r' t) ∨ ∀ I, r.BookInvariant I → I w → I w' := by
  cases h with
  | @request proxied n k q x h =>
    cases hq : q.registers with
    | true =>
      rcases Session.Request.world_of_registers hq h with rfl | registered
      · exact .inr fun _ _ hw => hw
      · exact .inl registered
    | false => exact .inr fun I hI hw => hI.request hq hw h
  | @body n body receiver args x h =>
    exact .inr fun I hI hw =>
      ((hI.level n).runs body receiver args trivial (fun _ _ => trivial) hw h).1
  | elsewhere h => exact .inr fun I hI hw => hI.spares w w' h hw

/-- Identities that were handed out are not handed out again. -/
theorem Activity.next_le (h : r.Activity w w') : w.next ≤ w'.next := by
  obtain ⟨r', t, rfl⟩ | keeps := h.keeps_or_registers
  · exact Nat.le_refl _
  · exact keeps _ (r.bookInvariant_next w.next) (Nat.le_refl _)

/-- The requests of a session are activities. -/
theorem activities_of_run {proxied : Value → Bool} {n : Nat} (qs : List Session.Request)
    {k k' : Session.Names} (h : Session.run proxied (Host.level n) qs k w = .done k' w') :
    Relation.ReflTransGen r.Activity w w' :=
  Session.steps_of_run (I := fun _ => True) qs
    (fun _ _ _ _ _ _ _ h => ⟨.request h, trivial⟩) trivial h

end Resolver

end LateBinding
