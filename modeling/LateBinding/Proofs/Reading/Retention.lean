import LateBinding.Proofs.Reading.Ending
import LateBinding.Proofs.Reading.Step

/-!
# Retention over whole runs

Between calls of a client no description is being evaluated (`Resolver.Idle`), so a call preserves
the invariant of readings (`Idle.perform`) and so do calls one after the other (`Idle.course`).

* **`Resolver.readings_are_justified`** : in every run, whatever bodies answer, each reading has the
  value that its source answers then, or answered before and is to be kept.
-/

namespace LateBinding.Resolver

variable {code : Nat → Code} {r : Resolver} {w w' : World} {n : Nat} {c c' : Course}

/-- The invariant holds, and no description is being evaluated. -/
structure Idle (code : Nat → Code) (r : Resolver) (c : Course) (w : World) : Prop where
  ready : Ready code c.made r c.past w
  idle : ∀ name, w.isEvaluating r name = false

theorem Idle.of_settles (hw : Idle code r c w) (h : w.Settles r w')
    (hready : Ready code c'.made r c'.past w') : Idle code r c' w' := by
  refine ⟨hready, fun name => ?_⟩
  rw [h.isEvaluating]
  exact hw.idle name

/-- A call preserves the invariant. -/
theorem Idle.perform (hcode : ∀ k, (code k).Spares r) (hw : Idle code r c w) (q : Call r)
    (hq : q.perform code r n c w = .done c' w') : Idle code r c' w' := by
  cases q with
  | make label retention source =>
    cases hq
    exact ⟨hw.ready.congr (hw.ready.toOrderly.make rfl) (fun _ => rfl) (fun _ => rfl)
      fun _ h => .inl h, hw.idle⟩
  | register name position =>
    rw [Call.perform] at hq
    cases hp : c.made[position]? with
    | some p =>
      rw [hp] at hq
      cases hq
      have registered := Table.forall_insert hw.ready.registered (k := name)
        (List.mem_of_getElem? hp)
      refine ⟨hw.ready.change registered (fun m hm => ?_) hw.idle, hw.idle⟩
      rw [Table.get?_insert, if_neg hm]
    | none =>
      rw [hp] at hq
      cases hq
      exact hw
  | unregister name =>
    cases hq
    refine ⟨hw.ready.change (fun m q hq => ?_) (fun m hm => ?_) hw.idle, hw.idle⟩
    · rw [Table.get?_erase] at hq
      split at hq
      · cases hq
      · exact hw.ready.registered m q hq
    · rw [Table.get?_erase, if_neg hm]
  | read name =>
    obtain ⟨_, _, h, hq⟩ := Act.bind_eq_done.1 hq
    cases h
    obtain ⟨v, w₁, hv, hq⟩ := Act.bind_eq_done.1 hq
    cases hq
    obtain ⟨hready, hsettles⟩ := preservedAt hcode c.made n hw.ready hv
    exact hw.of_settles hsettles hready
  | resolve template =>
    obtain ⟨_, _, h, hq⟩ := Act.bind_eq_done.1 hq
    cases h
    obtain ⟨u, w₁, hu, hq⟩ := Act.bind_eq_done.1 hq
    cases hq
    -- a substitution looks names up one after the other
    rw [← Lookups.run_substitute] at hu
    obtain ⟨hready, hsettles⟩ := Ready.run_lookups (preservedAt hcode c.made n) _ hw.ready hu
    exact hw.of_settles hsettles hready
  | elsewhere f h =>
    cases hq
    exact hw.of_settles (.of_spares (h w)) (hw.ready.of_spares (h w))

/-- Calls preserve the invariant. -/
theorem Idle.course (hcode : ∀ k, (code k).Spares r) (hw : Idle code r c w) (qs : List (Call r))
    (hqs : r.course code n qs c w = .done c' w') : Idle code r c' w' := by
  induction qs generalizing c w with
  | nil =>
    cases hqs
    exact hw
  | cons q qs ih =>
    obtain ⟨c₁, w₁, hq, hqs⟩ := Act.bind_eq_done.1 hqs
    exact ih (hw.perform hcode q hq) hqs

/-- A call returns if bodies return and evaluations may nest deeper than there are declared
variables. -/
theorem Idle.returns (hcode : ∀ k, (code k).Spares r) (hret : ∀ k, (code k).Returns)
    (hn : r.document.declarations.size < n) (hw : Idle code r c w) (q : Call r) :
    ∃ c' w', q.perform code r n c w = .done c' w' := by
  have tidy : r.Tidy w := hw.ready.toOrderly.tidy hw.idle
  have hpending : (r.pending w).length < n :=
    Nat.lt_of_le_of_lt (Nat.le_trans (r.length_pending_le w) r.length_described_le) hn
  cases q with
  | make label retention source => exact ⟨_, _, rfl⟩
  | register name position =>
    rw [Call.perform]
    cases c.made[position]? with
    | none => exact ⟨_, _, rfl⟩
    | some p => exact ⟨_, _, rfl⟩
  | unregister name => exact ⟨_, _, rfl⟩
  | read name =>
    obtain ⟨v, w₁, hv, -⟩ := endsAt hcode hret n w name tidy hpending
    exact ⟨_, w₁, Act.bind_eq_done.2 ⟨w, w, rfl, Act.bind_eq_done.2 ⟨v, w₁, hv, rfl⟩⟩⟩
  | resolve template =>
    obtain ⟨u, w₁, hu, -⟩ := tidy.ends_substitute (endsAt hcode hret n) hpending template
    exact ⟨_, w₁, Act.bind_eq_done.2 ⟨w, w, rfl, Act.bind_eq_done.2 ⟨u, w₁, hu, rfl⟩⟩⟩
  | elsewhere f h => exact ⟨_, _, rfl⟩

theorem Idle.returns_course (hcode : ∀ k, (code k).Spares r) (hret : ∀ k, (code k).Returns)
    (hn : r.document.declarations.size < n) (hw : Idle code r c w)
    (qs : List (Call r)) : ∃ c' w', r.course code n qs c w = .done c' w' := by
  induction qs generalizing c w with
  | nil => exact ⟨c, w, rfl⟩
  | cons q qs ih =>
    obtain ⟨c₁, w₁, hq⟩ := hw.returns hcode hret hn q
    obtain ⟨c₂, w₂, hqs⟩ := ih (hw.perform hcode q hq)
    exact ⟨c₂, w₂, Act.bind_eq_done.2 ⟨c₁, w₁, hq, hqs⟩⟩

/-- In every run of calls, with a resolver that has just been made and with bodies that do not call
it back, all readings are justified by what came before, those that are nested in others included.
If bodies return and evaluations may nest deeper than there are declared variables, each run comes
to an end. -/
theorem readings_are_justified (hcode : ∀ k, (code k).Spares r)
    (hnew : w.resolvers.get? r.id = none) (hidle : ∀ name, w.isEvaluating r name = false) (n : Nat)
    (qs : List (Call r)) :
    (∀ c w', r.course code n qs ⟨[], []⟩ w = .done c w' →
      ∀ later e earlier, c.past = later ++ .read e :: earlier → e.Justified code r earlier) ∧
    ((∀ k, (code k).Returns) → r.document.declarations.size < n →
      ∃ c w', r.course code n qs ⟨[], []⟩ w = .done c w') := by
  have start : Idle code r ⟨[], []⟩ w := ⟨.new hnew hidle, hidle⟩
  constructor
  · intro c w' hqs
    exact (start.course hcode qs hqs).ready.justified
  · intro hret hn
    exact start.returns_course hcode hret hn qs

namespace Greetings

/-- A body that has nothing to say the first time. -/
def body : Expr :=
  .choose (.equal (.register "asked") (.literal .null))
    (.store "asked" (.literal (.bool true))) (.literal (.str "welcome"))

/-- All bodies are this one. -/
def welcome : Nat → Code := fun _ _ receiver args => body.eval .bottom receiver args

/-- A resolver with a greeting of its own. -/
def host : Resolver := ⟨0, Mapping.Document.empty.declare "greeting" (.literal "hello"),
  .root 1 "main"⟩

/-- A provider is registered, asked three times, and taken away. -/
def calls : List (Call host) :=
  [.make none .cached (.computed body none), .register "greeting" 0, .read "greeting",
    .resolve "@greeting@, @greeting@", .unregister "greeting", .read "greeting"]

theorem spares (k : Nat) : (welcome k).Spares host := by
  intro _ receiver args w x w' hx
  have keeps : Attempt.Keeps (fun w' => w.Spares host w') (fun _ => True)
      (body.eval .bottom receiver args) := by
    have hI := stable_spares host w
    have condition : Attempt.Keeps (fun w' => w.Spares host w') (fun _ => True)
        ((Expr.equal (.register "asked") (.literal .null)).eval .bottom receiver args) :=
      .bind (.liftM (Act.keeps_register hI.noting (.free _) "asked")) fun _ _ =>
        .bind (P := fun _ => True) (.pure trivial) fun _ _ => .pure trivial
    refine .bind condition fun v _ => ?_
    split
    · exact .bind (P := fun _ => True) (.pure trivial) fun _ _ =>
        .bind (.liftM (Act.keeps_setRegister hI "asked" trivial)) fun _ _ => .pure trivial
    · exact .pure trivial
  exact (keeps (.refl host w) hx).1

theorem returns (k : Nat) : (welcome k).Returns := by
  intro _ receiver args
  have register : (Act.register "asked").Returns := Act.Returns.world.bind fun _ => .pure _
  refine .bind (.bind (.liftM register) fun _ => .bind (.pure _) fun _ => .pure _) fun v => ?_
  split
  · exact .bind (.pure _) fun _ => .bind (.liftM (.update _)) fun _ => .pure _
  · exact .pure _

/-- What is seen of an event: the name that was changed, or the value that was read. -/
def seen : Event → Option String
  | .changed name => some name
  | .read e => e.value

/-- What is seen of a run. -/
def seenOf : Outcome Course → List (Option String)
  | .done c _ => c.past.map seen
  | _ => []

end Greetings

open Greetings in
/-- A value is kept, but not that there was none, and the declaration counts again when the
provider is taken away. -/
theorem greetings_justified : ∃ c w', host.course welcome 2 calls ⟨[], []⟩ .empty = .done c w' ∧
    c.past.map seen =
      [some "hello", some "greeting", some "welcome", some "welcome", none, some "greeting"] ∧
    ∀ later e earlier, c.past = later ++ .read e :: earlier → e.Justified welcome host earlier := by
  obtain ⟨hjust, hends⟩ :=
    readings_are_justified spares (w := .empty) rfl (fun _ => rfl) 2 calls
  obtain ⟨c, w', hrun⟩ := hends returns (by decide +kernel)
  have values : seenOf (host.course welcome 2 calls ⟨[], []⟩ .empty) =
      [some "hello", some "greeting", some "welcome", some "welcome", none, some "greeting"] := by
    decide +kernel
  rw [hrun] at values
  exact ⟨c, w', hrun, values, hjust c w' hrun⟩

end LateBinding.Resolver
