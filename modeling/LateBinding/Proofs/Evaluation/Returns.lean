import LateBinding.Member.Invoke
import LateBinding.Member.Memo
import LateBinding.Proofs.Action
import LateBinding.Resolver.Types

/-!
# Lookups return

Looking classes and members up always returns, and running members returns if running bodies does
(`Code.Returns`).
-/

namespace LateBinding

/-- Running a body returns, whatever it is run on. -/
def Code.Returns (code : Code) : Prop :=
  ∀ body receiver args, Attempt.Returns (code body receiver args)

/-! ### Classes -/

namespace Resolver

variable (r : Resolver)

theorem returns_state : r.state.Returns := Act.Returns.world.bind fun _ => .pure _

theorem returns_types : r.types.Returns := r.returns_state.bind fun _ => .pure _

theorem returns_updateTypes (f : TypeCache → TypeCache) : (r.updateTypes f).Returns := .update _

theorem returns_entry (c : Class Value) : (r.entry c).Returns := by
  refine r.returns_types.bind fun t => ?_
  split
  · exact .pure _
  · exact Act.Returns.fresh.bind fun _ => (r.returns_updateTypes _).bind fun _ => .pure _

theorem returns_classNamed (name : String) : (r.classNamed name).Returns := by
  refine r.returns_types.bind fun t => ?_
  split
  · exact .pure _
  · refine Act.Returns.world.bind fun w => ?_
    split
    · exact .pure _
    · exact (r.returns_entry _).bind fun _ => (r.returns_updateTypes _).bind fun _ => .pure _

theorem returns_classNamedIn (name : String) (scope : Scope) :
    (r.classNamedIn name scope).Returns := by
  unfold classNamedIn
  split
  · exact r.returns_classNamed name
  refine r.returns_types.bind fun t => ?_
  split
  · exact .pure _
  · refine Act.Returns.world.bind fun w => ?_
    split
    · exact .pure _
    · exact (r.returns_entry _).bind fun _ => (r.returns_updateTypes _).bind fun _ => .pure _

end Resolver

/-! ### Members -/

namespace TypeEntry

variable (e : TypeEntry Value)

theorem returns_memo : e.memo.Returns := Act.Returns.world.bind fun _ => .pure _

theorem returns_method (d : Descriptor) : (e.method d).Returns := by
  refine e.returns_memo.bind fun m => ?_
  split
  · exact .pure _
  · dsimp only
    split
    · exact Act.Returns.bind (Act.Returns.fresh.bind fun _ => .pure _) fun _ =>
        (Act.Returns.update _).bind fun _ => .pure _
    · exact Act.Returns.bind (.pure _) fun _ => (Act.Returns.update _).bind fun _ => .pure _

theorem returns_constructor (params : List String) : (e.constructor params).Returns := by
  refine e.returns_memo.bind fun m => ?_
  split
  · exact .pure _
  · exact (Act.Returns.update _).bind fun _ => .pure _

end TypeEntry

/-! ### Bodies -/

theorem Object.returns_alloc (c : Class Value) : (alloc c).Returns :=
  Act.Returns.fresh.bind fun _ => (Act.Returns.update _).bind fun _ => .pure _

section Bodies

variable {h : Host} (hh : Code.Returns h.run)

include hh

theorem MethodDecl.returns_call (m : MethodDecl) (receiver : Value) (args : List Value) :
    Attempt.Returns (m.call h receiver args) := by
  unfold MethodDecl.call
  split
  · exact .throw _
  · split
    · exact hh _ _ _
    · exact .throw _

theorem MethodHandle.returns_invoke (m : MethodHandle) (receiver : Value) (args : List Value) :
    Attempt.Returns (m.invoke h receiver args) := by
  unfold MethodHandle.invoke
  split
  · exact m.decl.returns_call hh _ _
  · split
    · exact .throw _
    · exact .bind (.except _) fun _ => MethodDecl.returns_call hh _ _ _
    · exact m.decl.returns_call hh _ _

theorem Class.returns_construct (c : Class Value) (k : ConstructorDecl) (args : List Value) :
    Attempt.Returns (c.construct h k args) := by
  unfold Class.construct
  dsimp only
  split
  · exact .throw_bind _ _
  split
  · exact .throw_bind _ _
  exact .bind (.liftM (Object.returns_alloc c)) fun o => .bind (hh _ _ _) fun _ => .pure _

end Bodies

end LateBinding
