import Mathlib
import LateBinding.Proofs.Activity

/-!
# Equality of values

Values are equal in one of a few ways (`Value.Same`, `Value.same_iff`).  Two proxies are so because
they are one and the same, or because they have interfaces of one name and equal targets.  Where
both ways meet it matters that a proxy is known by its identity: what it shows and stands for never
changes (`Proxies`, `Value.Among`).  Otherwise a value that is not equal to itself, as not-a-number,
could be reached in one way and not in the other.

* `Value.equality_is_partial_equivalence` : **equality is symmetric and transitive, and all values
  but not-a-number are equal to themselves**;
* `Adapter.among_of_bind` : making an adapter adds a proxy with an identity of its own, so proxies
  stay known by their identities;
* `Adapter.same_of_bind` : adapters of one interface for one target are equal.
-/

namespace LateBinding

/-! ### Numbers -/

theorem float_beq_iff {x y : Float} :
    (x == y) = true ↔ x.isNaN = false ∧ y.isNaN = false ∧
      (x.toBits = y.toBits ∨ (x = 0 ∨ x = -0) ∧ (y = 0 ∨ y = -0)) := by
  rw [Float.beq_iff_ne_nan_and_eq, Float.isNaN_eq_decide_eq_nan, Float.isNaN_eq_decide_eq_nan,
    decide_eq_false_iff_not, decide_eq_false_iff_not, Float.toBits_inj]
  constructor
  · rintro ⟨hx, hy, rfl | ⟨rfl, rfl⟩ | ⟨rfl, rfl⟩⟩ <;> simp [hx, hy]
  · rintro ⟨hx, hy, rfl | ⟨rfl | rfl, rfl | rfl⟩⟩ <;> simp [hx, hy]

theorem float_beq_comm (x y : Float) : (x == y) = (y == x) := by
  rw [Bool.eq_iff_iff, float_beq_iff, float_beq_iff]
  constructor
  · rintro ⟨hx, hy, h | ⟨zx, zy⟩⟩
    · exact ⟨hy, hx, .inl h.symm⟩
    · exact ⟨hy, hx, .inr ⟨zy, zx⟩⟩
  · rintro ⟨hy, hx, h | ⟨zy, zx⟩⟩
    · exact ⟨hx, hy, .inl h.symm⟩
    · exact ⟨hx, hy, .inr ⟨zx, zy⟩⟩

theorem float_beq_trans {x y z : Float} (hxy : (x == y) = true) (hyz : (y == z) = true) :
    (x == z) = true := by
  rw [float_beq_iff] at hxy hyz ⊢
  obtain ⟨hx, -, hxy⟩ := hxy
  obtain ⟨-, hz, hyz⟩ := hyz
  refine ⟨hx, hz, ?_⟩
  rcases hxy with hxy | ⟨zx, zy⟩
  · rw [Float.toBits_inj] at hxy
    exact hxy ▸ hyz
  · rcases hyz with hyz | ⟨-, zz⟩
    · rw [Float.toBits_inj] at hyz
      exact .inr ⟨zx, hyz ▸ zy⟩
    · exact .inr ⟨zx, zz⟩

namespace Value

/-! ### Ways of being equal -/

/-- Two values are equal. -/
inductive Same : Value → Value → Prop
  | null : Same .null .null
  | bool (b : Bool) : Same (.bool b) (.bool b)
  | int (i : Int64) : Same (.int i) (.int i)
  | float {x y : Float} (h : (x == y) = true) : Same (.float x) (.float y)
  | str (s : String) : Same (.str s) (.str s)
  /-- They are the same object. -/
  | object {o p : Object} (h : o.id = p.id) : Same (.object o) (.object p)
  /-- They are the same proxy. -/
  | self (i : Identity) (f g : Face Value) (t u : Value) : Same (.proxy i f t) (.proxy i g u)
  /-- They are proxies for interfaces of one name, over equal targets. -/
  | target (i j : Identity) {f g : Face Value} {t u : Value} (hn : f.name = g.name)
    (h : Same t u) : Same (.proxy i f t) (.proxy j g u)

theorem same_proxy_iff {i j : Identity} {f g : Face Value} {t u : Value} :
    (proxy i f t).same (proxy j g u) = true ↔ i = j ∨ f.name = g.name ∧ t.same u = true := by
  rw [same, Bool.or_eq_true, Bool.and_eq_true, beq_iff_eq, beq_iff_eq]

/-- By recursion on the first of them, whose target is met again only where both are proxies. -/
theorem Same.of_same : ∀ {v u : Value}, v.same u = true → Same v u
  | .null, .null, _ => .null
  | .bool b, .bool _, h => eq_of_beq h ▸ .bool b
  | .int i, .int _, h => eq_of_beq h ▸ .int i
  | .float _, .float _, h => .float h
  | .str s, .str _, h => eq_of_beq h ▸ .str s
  | .object _, .object _, h => .object (eq_of_beq h)
  | .proxy i f t, .proxy j g u, h => by
    rcases same_proxy_iff.1 h with rfl | ⟨hn, ht⟩
    · exact .self i f g t u
    · exact .target i j hn (of_same ht)

theorem Same.same {v u : Value} (h : Same v u) : v.same u = true := by
  induction h with
  | null => rfl
  | bool b => exact beq_self_eq_true b
  | int i => exact beq_self_eq_true i
  | float h => exact h
  | str s => exact beq_self_eq_true s
  | object h => exact beq_iff_eq.2 h
  | self => exact same_proxy_iff.2 (.inl rfl)
  | target i j hn _ ih => exact same_proxy_iff.2 (.inr ⟨hn, ih⟩)

theorem same_iff {v u : Value} : v.same u = true ↔ Same v u :=
  ⟨Same.of_same, Same.same⟩

namespace Same

theorem symm {v u : Value} (h : Same v u) : Same u v := by
  induction h with
  | null => exact .null
  | bool b => exact .bool b
  | int i => exact .int i
  | float h => exact .float (float_beq_comm _ _ ▸ h)
  | str s => exact .str s
  | object h => exact .object h.symm
  | self i f g t u => exact .self i g f u t
  | target i j hn _ ih => exact .target j i hn.symm ih

end Same

theorem same_comm (v u : Value) : v.same u = u.same v := by
  rw [Bool.eq_iff_iff, same_iff, same_iff]
  exact ⟨Same.symm, Same.symm⟩

/-- A value is equal to itself unless it is not-a-number. -/
theorem same_self_iff {v : Value} : v.same v = true ↔ ∀ x, v = .float x → x.isNaN = false := by
  rw [same_iff]
  constructor
  · rintro h x rfl
    cases h with
    | float h => exact (float_beq_iff.1 h).1
  · intro h
    cases v with
    | null => exact .null
    | bool b => exact .bool b
    | int i => exact .int i
    | float x => exact .float (float_beq_iff.2 ⟨h x rfl, h x rfl, .inl rfl⟩)
    | str s => exact .str s
    | object o => exact .object rfl
    | proxy i f t => exact .self i f f t t

end Value

/-! ### Proxies that exist together -/

/-- The proxies that there are, by their identities: what each of them shows of itself, and what it
stands for. -/
def Proxies : Type := Identity → Option (Face Value × Value)

namespace Value

/-- The proxies in the value, at any depth, are among those that there are. -/
def Among (H : Proxies) : Value → Prop
  | proxy i f t => H i = some (f, t) ∧ t.Among H
  | _ => True

variable {H : Proxies}

/-- A proxy is known by its identity. -/
theorem Among.eq_of_id {i : Identity} {f g : Face Value} {t u : Value}
    (h : (proxy i f t).Among H) (h' : (proxy i g u).Among H) : f = g ∧ t = u := by
  obtain ⟨h, -⟩ := h
  obtain ⟨h', -⟩ := h'
  rw [h, Option.some.injEq, Prod.mk.injEq] at h'
  exact h'

theorem Same.trans {v u x : Value} (hv : v.Among H) (hu : u.Among H) (hx : x.Among H)
    (hvu : Same v u) (hux : Same u x) : Same v x := by
  induction hvu generalizing x with
  | null | bool | int | str => exact hux
  | float h =>
    cases hux with
    | float h' => exact .float (float_beq_trans h h')
  | object h =>
    cases hux with
    | object h' => exact .object (h.trans h')
  | self i f g t u =>
    -- the first two are one proxy
    obtain ⟨rfl, rfl⟩ := hv.eq_of_id hu
    exact hux
  | target i j hn ht ih =>
    cases hux with
    | self _ _ _ _ _ =>
      -- and here the last two
      obtain ⟨rfl, rfl⟩ := hu.eq_of_id hx
      exact .target i j hn ht
    | target _ k hn' ht' =>
      exact .target i k (hn.trans hn') (ih hv.2 hu.2 hx.2 ht')

/-- Proxies are equal if they are the same proxy, or if they have interfaces of one name and equal
targets. -/
theorem same_proxy_iff_of_among {i j : Identity} {f g : Face Value} {t u : Value}
    (h : (proxy i f t).Among H) (h' : (proxy j g u).Among H) :
    (proxy i f t).same (proxy j g u) = true ↔
      proxy i f t = proxy j g u ∨ f.name = g.name ∧ t.same u = true := by
  rw [same_proxy_iff]
  refine or_congr_left ⟨?_, fun heq => (Value.proxy.inj heq).1⟩
  rintro rfl
  obtain ⟨rfl, rfl⟩ := h.eq_of_id h'
  rfl

/-- **Equality of values is a partial equivalence.**  It is symmetric, and transitive on values
whose proxies exist together.  A value is equal to itself unless it is itself a number that is
not-a-number.  Proxies are equal if they are the same proxy, or if they have interfaces of one name
and equal targets; numbers are equal if none is not-a-number and they have the same bits or are both
zero, whatever their sign. -/
theorem equality_is_partial_equivalence (H : Proxies) :
    (∀ v u : Value, v.same u = u.same v) ∧
      (∀ v u x : Value, v.Among H → u.Among H → x.Among H →
        v.same u = true → u.same x = true → v.same x = true) ∧
      (∀ v : Value, v.same v = true ↔ ∀ x, v = .float x → x.isNaN = false) ∧
      (∀ i f t j g u, (proxy i f t).Among H → (proxy j g u).Among H →
        ((proxy i f t).same (proxy j g u) = true ↔
          proxy i f t = proxy j g u ∨ f.name = g.name ∧ t.same u = true)) ∧
      ∀ x y : Float, (float x).same (float y) = true ↔
        x.isNaN = false ∧ y.isNaN = false ∧
          (x.toBits = y.toBits ∨ (x = 0 ∨ x = -0) ∧ (y = 0 ∨ y = -0)) := by
  refine ⟨same_comm, fun v u x hv hu hx hvu hux => ?_, fun v => same_self_iff,
    fun i f t j g u h h' => same_proxy_iff_of_among h h', fun x y => float_beq_iff⟩
  rw [same_iff] at hvu hux ⊢
  exact hvu.trans hv hu hx hux

/-- A box over a value. -/
def box (i : Identity) (v : Value) : Value := proxy i (.foreign "app.Box") v

/-- Two boxes over not-a-number, and two over the first of them. -/
def boxes : Proxies
  | 0 | 1 => some (.foreign "app.Box", float Float.nan)
  | 2 | 3 => some (.foreign "app.Box", box 0 (float Float.nan))
  | _ => none

/-- A box over not-a-number is equal to itself, not to another box over it.  The boxes over one such
box are equal. -/
theorem boxes_of_nan :
    let v := float Float.nan
    (box 0 v).same (box 0 v) = true ∧ (box 0 v).same (box 1 v) = false ∧
      (box 2 (box 0 v)).same (box 3 (box 0 v)) = true ∧
      (box 3 (box 0 v)).same (box 2 (box 0 v)) = true ∧
      (box 2 (box 0 v)).same (box 2 (box 0 v)) = true ∧ v.same v = false := by
  obtain ⟨symm, trans, self, proxies, floats⟩ := equality_is_partial_equivalence boxes
  have nan : Float.nan.isNaN = true := by simp [Float.isNaN_eq_decide_eq_nan]
  have b0 : (box 0 (float Float.nan)).Among boxes := ⟨rfl, trivial⟩
  have b1 : (box 1 (float Float.nan)).Among boxes := ⟨rfl, trivial⟩
  have b2 : (box 2 (box 0 (float Float.nan))).Among boxes := ⟨rfl, b0⟩
  have b3 : (box 3 (box 0 (float Float.nan))).Among boxes := ⟨rfl, b0⟩
  have alone : (float Float.nan).same (float Float.nan) = false := by
    rw [Bool.eq_false_iff, Ne, floats, nan]
    exact fun h => Bool.noConfusion h.1
  have inner : (box 0 (float Float.nan)).same (box 0 (float Float.nan)) = true :=
    (self _).2 nofun
  have outer : (box 2 (box 0 (float Float.nan))).same (box 3 (box 0 (float Float.nan))) = true :=
    (proxies _ _ _ _ _ _ b2 b3).2 (.inr ⟨rfl, inner⟩)
  have back := (symm _ _).symm.trans outer
  refine ⟨inner, ?_, outer, back, trans _ _ _ b2 b3 b2 outer back, alone⟩
  rw [Bool.eq_false_iff, Ne, box, box, proxies _ _ _ _ _ _ b0 b1, alone]
  rintro (h | h)
  · exact absurd (proxy.inj h).1 (by decide)
  · exact Bool.noConfusion h.2

end Value

/-! ### Proxies that are made -/

namespace Proxies

/-- Proxies are known by identities that were handed out. -/
def KnownIn (H : Proxies) (w : World) : Prop := ∀ i p, H i = some p → i < w.next

/-- The proxies and another one. -/
def add (H : Proxies) (i : Identity) (p : Face Value × Value) : Proxies :=
  fun j => if j = i then some p else H j

variable {H : Proxies} {i j : Identity} {p q : Face Value × Value}

theorem add_self (H : Proxies) (i : Identity) (p : Face Value × Value) : H.add i p i = some p :=
  if_pos rfl

theorem add_of_some (new : H i = none) (h : H j = some q) : H.add i p j = some q := by
  have other : j ≠ i := by
    rintro rfl
    rw [new] at h
    cases h
  rw [add, if_neg other, h]

theorem KnownIn.add {w w' : World} (known : H.KnownIn w) (next : w.next ≤ w'.next)
    (hi : i < w'.next) (p : Face Value × Value) : (H.add i p).KnownIn w' := by
  intro j q hj
  unfold Proxies.add at hj
  split at hj
  · rename_i hji
    exact hji ▸ hi
  · exact Nat.lt_of_lt_of_le (known j q hj) next

end Proxies

namespace Value

variable {H : Proxies} {i : Identity}

/-- The proxies that there are stay what they are when another one is made. -/
theorem Among.add (new : H i = none) (p : Face Value × Value) :
    ∀ {v : Value}, v.Among H → v.Among (H.add i p)
  | .proxy .., h => ⟨Proxies.add_of_some new h.1, h.2.add new p⟩
  | .null, _ | .bool _, _ | .int _, _ | .float _, _ | .str _, _ | .object _, _ => trivial

theorem Among.unwrap {v : Value} (h : v.Among H) : v.unwrap.Among H := by
  cases v with
  | proxy => exact h.2
  | _ => exact trivial

end Value

/-! ### Adapters -/

namespace Adapter

variable {h h' : Host} {r r' : Resolver} {e e' : TypeEntry Value} {target : Value}
  {scope scope' : Option Scope} {a a' : Adapter} {w w' w₁ w₁' : World}

/-- What a new adapter shows and stands for.  Its identity is the last that was handed out. -/
theorem made_of_bind (hx : (bind h r e target scope).run w = .done (.ok a) w') :
    a.binding.interface = e ∧ a.target = target.unwrap ∧ w'.next = a.id + 1 := by
  obtain ⟨_, _, -, hx⟩ | ⟨_, -, hx⟩ := Attempt.run_bind_eq_done.1 hx
  · obtain ⟨_, _, -, hx⟩ | ⟨_, -, hx⟩ := Attempt.run_bind_eq_done.1 hx
    · cases hx
      exact ⟨rfl, rfl, rfl⟩
    · cases hx
  · cases hx

/-- Adapters of interfaces of one name for one target are equal, whichever resolvers made them and
when, unless the target is not-a-number. -/
theorem same_of_bind (ha : (bind h r e target scope).run w = .done (.ok a) w')
    (ha' : (bind h' r' e' target scope').run w₁ = .done (.ok a') w₁')
    (hname : e.cls.name = e'.cls.name) (hnan : ∀ x, target.unwrap = .float x → x.isNaN = false) :
    a.toValue.same a'.toValue = true := by
  obtain ⟨rfl, htarget, -⟩ := made_of_bind ha
  obtain ⟨rfl, htarget', -⟩ := made_of_bind ha'
  refine Value.same_proxy_iff.2 (.inr ⟨hname, ?_⟩)
  rw [htarget, htarget']
  exact Value.same_self_iff.2 hnan

/-- A new adapter has an identity that was not handed out before. -/
theorem next_le_of_bind {m : Nat} (held : w.Caches e)
    (hx : (bind (.level m) r e target scope).run w = .done (.ok a) w') : w.next ≤ a.id := by
  have book := r.bookInvariant_next w.next
  have noting := book.stable.noting
  have fresh : Act.Keeps (fun w₁ => w.next ≤ w₁.next) (fun i => w.next ≤ i) Act.fresh := by
    intro w₁ i w₂ hw₁ hi
    cases hi
    exact ⟨Nat.le_succ_of_le hw₁, hw₁⟩
  have leads : Attempt.Leads (fun w₁ => w.next ≤ w₁.next ∧ w₁.Caches e)
      (fun w₁ => w.next ≤ w₁.next) (fun a => w.next ≤ a.id) (bind (.level m) r e target scope) := by
    refine Attempt.Leads.bind (e.keeps_adaptsTemplate noting) (fun _ hw => hw.1) fun _ _ =>
      Attempt.Keeps.leads ?_ fun _ hw => hw.1
    exact .bind (Resolver.keeps_resolveClass trivial (book.level m).reads noting _ _) fun _ _ =>
      .bind (.liftM fresh) fun _ hid => .pure hid
  exact (leads ⟨Nat.le_refl _, held⟩ hx).2 a rfl

/-- An adapter is a new proxy: those that there were stay what they were, and all are known by
their identities again. -/
theorem among_of_bind {H : Proxies} {m : Nat} (known : H.KnownIn w) (ht : target.Among H)
    (held : w.Caches e) (hx : (bind (.level m) r e target scope).run w = .done (.ok a) w') :
    ∃ H' : Proxies, H'.KnownIn w' ∧ (∀ v : Value, v.Among H → v.Among H') ∧
      a.toValue.Among H' := by
  obtain ⟨-, htarget, hnext⟩ := made_of_bind hx
  have later := next_le_of_bind held hx
  have new : H a.id = none := by
    rw [Option.eq_none_iff_forall_ne_some]
    exact fun p hp => Nat.not_lt_of_le later (known _ p hp)
  have next : w.next ≤ w'.next := hnext ▸ Nat.le_succ_of_le later
  have handed : a.id < w'.next := hnext ▸ Nat.lt_succ_self _
  refine ⟨H.add a.id (.adapter a.binding, a.target), known.add next handed _,
    fun v hv => hv.add new _, H.add_self _ _, ?_⟩
  rw [htarget]
  exact ht.unwrap.add new _

end Adapter

end LateBinding
