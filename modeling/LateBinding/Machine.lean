import LateBinding.Evaluate
import LateBinding.Resolver.Variable

/-!
# The machine

Bodies call adapters, adapters ask resolvers, resolvers evaluate variables, and variables run
bodies.  All of this is defined relative to a `Host`; here the circle is closed.  The host of
level `n + 1` evaluates by means of the host of level `n`, and the host of level 0 gives up
(`Host.level`), so a level bounds how deep evaluations nest.
-/

namespace LateBinding.Host

/-- The host that gives up. -/
def bottom : Host where
  run _ _ _ := ExceptT.lift Act.exhausted
  valueOf _ _ := Act.exhausted

/-- The host that evaluates by means of another one. -/
def above (h : Host) : Host where
  run body receiver args := body.eval h receiver args
  valueOf r name := r.valueOf h name

/-- The host under which evaluations nest at most this deep.  A level is made only when an
evaluation reaches it. -/
def level : Nat → Host
  | 0 => bottom
  | n + 1 =>
    { run := fun body receiver args => (above (level n)).run body receiver args
      valueOf := fun r name => (above (level n)).valueOf r name }

/-- A level evaluates by means of the level below. -/
theorem level_succ (n : Nat) : level (n + 1) = above (level n) := rfl

/-- A host for ordinary use. -/
def standard : Host := level 1000000

end LateBinding.Host
