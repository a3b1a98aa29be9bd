import LateBinding.Adapter.Factory
import LateBinding.Proofs.Action

/-!
# What the code of targets is handed

What evaluation does with the code of targets is to run it on a receiver and arguments.  An
evaluation *hands* the code a list of arguments if it makes no use of what the code would do
with others (`Hands`), and it hands *only* such arguments as satisfy a condition if it never
notices that the code refuses all others (`HandsOnly`).  Evaluations that hand one list hand only
what satisfies a condition exactly if this list does, or if they do not come to run the code at
all (`Hands.handsOnly_iff`).

Resolving names does not run the code of targets, except inside the evaluation of variables.  So
a forwarded call hands the targets of its arguments (`Adapter.hands_forward`), and so does the
construction of a new instance (`Resolver.hands_newInstance`).
-/

namespace LateBinding

/-- The code that accepts no arguments but those that satisfy a condition: on others it waits
for ever. -/
def Code.only (P : List Value → Bool) (code : Code) : Code := fun body receiver args =>
  if P args then code body receiver args else ExceptT.lift Act.blocked

theorem Code.only_false_only (P : List Value → Bool) (code : Code) :
    (code.only P).only (fun _ => false) = code.only fun _ => false := by
  funext body receiver args
  simp [only]

section Handing

variable {ε α : Type}

/-- Whatever the code does, the evaluation depends on it only through what it does with these
arguments. -/
def Hands (args : List Value) (valueOf : Resolver → String → Act (Option String))
    (x : Host → Attempt ε α) : Prop :=
  ∀ code code' : Code, (∀ body receiver, code body receiver args = code' body receiver args) →
    x ⟨code, valueOf⟩ = x ⟨code', valueOf⟩

/-- Whatever the code does, in this world the evaluation gives it no arguments but those that
satisfy a condition. -/
def HandsOnly (P : List Value → Bool) (valueOf : Resolver → String → Act (Option String))
    (x : Host → Attempt ε α) (w : World) : Prop :=
  ∀ code : Code, x ⟨code.only P, valueOf⟩ w = x ⟨code, valueOf⟩ w

/-- An evaluation that hands some arguments hands only such as satisfy a condition, if these
do or if nothing is handed at all. -/
theorem Hands.handsOnly_iff {args : List Value}
    {valueOf : Resolver → String → Act (Option String)} {x : Host → Attempt ε α}
    (hx : Hands args valueOf x) (P : List Value → Bool) (w : World) :
    HandsOnly P valueOf x w ↔
      P args = true ∨ HandsOnly (fun _ => false) valueOf x w := by
  constructor
  · intro h
    rcases Bool.eq_false_or_eq_true (P args) with hP | hP
    · exact .inl hP
    · -- the arguments are refused by both, so the two cannot be told apart
      refine .inr fun code => ?_
      rw [← h code]
      exact congrFun (hx _ _ fun body receiver => by simp [Code.only, hP]) w
  · rintro (hP | h) code
    · exact congrFun (hx _ _ fun body receiver => by simp [Code.only, hP]) w
    · have := h (code.only P)
      rw [Code.only_false_only] at this
      rw [← this, h code]

end Handing

/-! ### Names do not depend on the code -/

section Names

variable {valueOf : Resolver → String → Act (Option String)} (code code' : Code)

namespace Resolver

variable (r : Resolver)

theorem pass_code : r.pass ⟨code, valueOf⟩ = r.pass ⟨code', valueOf⟩ := rfl

theorem substituteUpTo_code (passes : Nat) :
    r.substituteUpTo ⟨code, valueOf⟩ passes = r.substituteUpTo ⟨code', valueOf⟩ passes := by
  induction passes with
  | zero => rfl
  | succ passes ih =>
    funext text
    simp only [substituteUpTo, r.pass_code code code', ih]

theorem substitute_code : r.substitute ⟨code, valueOf⟩ = r.substitute ⟨code', valueOf⟩ :=
  r.substituteUpTo_code code code' _

theorem resolveClass_code : r.resolveClass ⟨code, valueOf⟩ = r.resolveClass ⟨code', valueOf⟩ := by
  funext template scope
  simp only [resolveClass, r.substitute_code code code']

theorem indexRenames_code (l : List (String × List Mapping.Rename)) :
    r.indexRenames ⟨code, valueOf⟩ l = r.indexRenames ⟨code', valueOf⟩ l := by
  induction l with
  | nil => rfl
  | cons e rest ih =>
    funext index
    simp only [indexRenames, r.substitute_code code code', ih]

theorem renameIndex_code : r.renameIndex ⟨code, valueOf⟩ = r.renameIndex ⟨code', valueOf⟩ := by
  simp only [renameIndex, r.indexRenames_code code code']

theorem renameUpTo_code (table : Option (Table String String)) (passes : Nat) :
    r.renameUpTo ⟨code, valueOf⟩ table passes = r.renameUpTo ⟨code', valueOf⟩ table passes := by
  induction passes with
  | zero =>
    funext text
    simp only [renameUpTo]
  | succ passes ih =>
    funext text
    simp only [renameUpTo, r.pass_code code code', ih]

theorem resolveMember_code :
    r.resolveMember ⟨code, valueOf⟩ = r.resolveMember ⟨code', valueOf⟩ := by
  funext owner logical
  simp only [resolveMember, r.substitute_code code code', r.renameIndex_code code code',
    r.renameUpTo_code code code']

theorem resolveMethod_code :
    r.resolveMethod ⟨code, valueOf⟩ = r.resolveMethod ⟨code', valueOf⟩ := by
  funext target interface logical params
  simp only [resolveMethod, r.resolveMember_code code code']

theorem adaptType_code : r.adaptType ⟨code, valueOf⟩ = r.adaptType ⟨code', valueOf⟩ := by
  funext scope type
  simp only [adaptType, r.resolveClass_code code code']

theorem adaptTypes_code (scope : Scope) (types : List String) :
    r.adaptTypes ⟨code, valueOf⟩ scope types = r.adaptTypes ⟨code', valueOf⟩ scope types := by
  induction types with
  | nil => rfl
  | cons type types ih => simp only [adaptTypes, r.adaptType_code code code', ih]

end Resolver

theorem Adapter.bind_code :
    Adapter.bind ⟨code, valueOf⟩ = Adapter.bind ⟨code', valueOf⟩ := by
  funext r interface target scope
  simp only [Adapter.bind, r.resolveClass_code code code']

theorem Adapter.wrapResult_code (a : Adapter) :
    a.wrapResult ⟨code, valueOf⟩ = a.wrapResult ⟨code', valueOf⟩ := by
  funext type result
  simp only [wrapResult, Adapter.bind_code code code']

end Names

/-! ### Running members -/

section Members

variable {valueOf : Resolver → String → Act (Option String)} {args : List Value}

theorem MethodDecl.hands_call (m : MethodDecl) (receiver : Value) :
    Hands args valueOf fun h => m.call h receiver args := by
  intro code code' hcode
  simp only [call, hcode]

theorem MethodHandle.hands_invoke (m : MethodHandle) (receiver : Value) :
    Hands args valueOf fun h => m.invoke h receiver args := by
  intro code code' hcode
  have hcall (d : MethodDecl) (v : Value) :
      d.call ⟨code, valueOf⟩ v args = d.call ⟨code', valueOf⟩ v args :=
    d.hands_call v code code' hcode
  simp only [invoke, hcall]

theorem ConstructorHandle.hands_construct (k : ConstructorHandle) :
    Hands args valueOf fun h => k.construct h args := by
  intro code code' hcode
  simp only [construct, Class.construct, hcode]

end Members

/-- A forwarded call hands the target's method the targets of the arguments. -/
theorem Adapter.hands_forward (a : Adapter) (m : MethodDecl) (rename : Option Marker)
    (args : List Value) (valueOf : Resolver → String → Act (Option String)) :
    Hands (args.map Value.unwrap) valueOf fun h => a.forward h m rename args := by
  intro code code' hcode
  have hinvoke (real : MethodHandle) :
      real.invoke ⟨code, valueOf⟩ a.target (args.map Value.unwrap) =
        real.invoke ⟨code', valueOf⟩ a.target (args.map Value.unwrap) :=
    real.hands_invoke a.target code code' hcode
  -- what comes before the call and after it runs no code of targets
  simp only [forward, Resolver.adaptTypes_code code code', Resolver.resolveMethod_code code code',
    a.wrapResult_code code code', hinvoke]

/-- The construction of a new instance hands the constructor the targets of the arguments. -/
theorem Resolver.hands_newInstance (r : Resolver) (interface : String) (params : List String)
    (args : List Value) (scope : Option Scope)
    (valueOf : Resolver → String → Act (Option String)) :
    Hands (args.map Value.unwrap) valueOf fun h =>
      r.newInstance h interface params args scope := by
  intro code code' hcode
  have hconstruct (k : ConstructorHandle) :
      k.construct ⟨code, valueOf⟩ (args.map Value.unwrap) =
        k.construct ⟨code', valueOf⟩ (args.map Value.unwrap) :=
    k.hands_construct code code' hcode
  simp only [newInstance, r.resolveClass_code code code', r.adaptTypes_code code code',
    Adapter.bind_code code code', hconstruct]

end LateBinding
