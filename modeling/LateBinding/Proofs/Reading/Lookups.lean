import LateBinding.Proofs.Action
import LateBinding.Resolver.Substitute

/-!
# Computations that look names up

A computation that does nothing but look names up, one after the other, is a tree (`Lookups`): it
is done, or it asks for a name and goes on with what it is told.  It can be carried out with any
lookup (`Lookups.run`), and along the way something can be entered in a list for each lookup
(`Lookups.record`).

Substitution is such a computation (`Lookups.run_substitute`).
-/

namespace LateBinding

/-- A computation that looks names up. -/
inductive Lookups (α : Type)
  /-- It has a result. -/
  | done (a : α)
  /-- It looks a name up and goes on. -/
  | ask (name : String) (next : Option String → Lookups α)

namespace Lookups

variable {α β ε : Type}

/-- Go on with the result of a computation. -/
def bind (f : α → Lookups β) : Lookups α → Lookups β
  | done a => f a
  | ask name next => ask name fun v => (next v).bind f

instance : Monad Lookups where
  pure := done
  bind x f := x.bind f

/-- Carry a computation out. -/
def run (lookup : String → Act (Option String)) : Lookups α → Act α
  | done a => return a
  | ask name next => do run lookup (next (← lookup name))

/-- What a list becomes when each lookup enters something in front of it. -/
def record (lookup : String → Act (Option String)) (enter : String → World → List ε → List ε) :
    Lookups α → World → List ε → List ε
  | done _, _, past => past
  | ask name next, w, past =>
    match lookup name w with
    | .done v w' => record lookup enter (next v) w' (enter name w past)
    | _ => past

theorem run_bind (lookup : String → Act (Option String)) (x : Lookups α) (f : α → Lookups β) :
    (x >>= f).run lookup = x.run lookup >>= fun a => (f a).run lookup := by
  induction x with
  | done a => rfl
  | ask name next ih =>
    change (lookup name >>= fun v => (next v >>= f).run lookup) = _
    simp only [run, bind_assoc, ih]

/-! ### Substitution -/

/-- Replace every token in one pass. -/
def pass (text : String) : Lookups String :=
  Template.substituteOnce (fun name => ask name done) text

/-- Substitute in at most this many passes. -/
def substituteUpTo : Nat → String → Lookups String
  | 0, text => return text
  | passes + 1, text =>
    if Template.hasTokens text then do substituteUpTo passes (← pass text) else return text

/-- Resolve a template. -/
def substitute (template : String) : Lookups String := substituteUpTo Template.maxPasses template

variable (lookup : String → Act (Option String))

theorem run_fill (l : List (List Char × List Char)) :
    (Template.fill (fun name => ask name done) l).run lookup = Template.fill lookup l := by
  induction l with
  | nil => rfl
  | cons t rest ih =>
    obtain ⟨name, after⟩ := t
    simp only [Template.fill, run_bind, ih]
    exact congrArg (· >>= _) (bind_pure (lookup _))

variable (h : Host) (r : Resolver)

theorem run_pass (text : String) : (pass text).run (h.valueOf r) = r.pass h text := by
  simp only [pass, Template.substituteOnce, run_bind, run_fill]
  rfl

theorem run_substituteUpTo (passes : Nat) (text : String) :
    (substituteUpTo passes text).run (h.valueOf r) = r.substituteUpTo h passes text := by
  induction passes generalizing text with
  | zero => rfl
  | succ passes ih =>
    unfold substituteUpTo Resolver.substituteUpTo
    split
    · rw [run_bind, run_pass]
      exact congrArg (r.pass h text >>= ·) (funext fun text' => ih text')
    · rfl

/-- Substitution looks names up and does nothing else. -/
theorem run_substitute (template : String) :
    (substitute template).run (h.valueOf r) = r.substitute h template :=
  run_substituteUpTo h r _ template

end Lookups

/-- A text without tokens is what it resolves to. -/
theorem Resolver.substitute_of_not_hasTokens (h : Host) (r : Resolver) {text : String}
    (plain : Template.hasTokens text = false) (w : World) :
    r.substitute h text w = .done text w := by
  rw [substitute, Template.maxPasses, substituteUpTo, if_neg (by rw [plain]; exact nofun)]
  rfl

end LateBinding
