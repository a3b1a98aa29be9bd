import LateBinding.World.Basic

/-!
# Invariants of actions

An action *keeps* an invariant of worlds if, started in a world that satisfies it, it can only
return in such a world; a predicate on its result may be kept along with it.  Nothing is said
about an action that does not return.

* `Act.Keeps I P x` : `x` keeps `I`, and its results satisfy `P`;
* `Attempt.Keeps I P x` : the same for an action that can fail, where `P` speaks of the results
  of success only;
* `Act.Leads I J P x`, `Attempt.Leads I J P x` : started where `I` holds, `x` can only return where
  `J` holds;
* `Act.Gives I a x` : started where `I` holds, `x` does return, with the result `a`, where `I`
  holds again;
* `Act.Returns x` : `x` returns in every world;
* `Act.Ends x w Q` : `x` returns in the world `w`, with what satisfies `Q`.

The lemmas go along the ways actions are built, so that the invariants of a long action follow
from those of its parts.  A relation `R w₀ w` that is transitive is kept in the form `R w₀`.
-/

namespace LateBinding

variable {α β ε ε' : Type} {I : World → Prop}

/-- What there is to be seen when an action has returned. -/
def Outcome.seen (f : α → World → β) : Outcome α → Option β
  | .done a w => some (f a w)
  | _ => none

/-- An action of which something is seen has returned. -/
theorem Outcome.exists_of_seen {o : Outcome α} {f : α → World → β} {b : β}
    (h : o.seen f = some b) : ∃ a w, o = .done a w ∧ f a w = b := by
  cases o with
  | done a w => exact ⟨a, w, rfl, Option.some.inj h⟩
  | exhausted => cases h
  | blocked => cases h

/-- What an attempt that has succeeded gives. -/
def Outcome.result : Outcome (Except ε α) → Option α
  | .done (.ok a) _ => some a
  | _ => none

theorem Outcome.exists_of_result {o : Outcome (Except ε α)} {a : α} (h : o.result = some a) :
    ∃ w, o = .done (.ok a) w := by
  unfold result at h
  split at h
  · cases h
    exact ⟨_, rfl⟩
  · cases h

/-- What an attempt that has succeeded gives, and the world that it leads to. -/
def Outcome.success : Outcome (Except ε α) → Option (α × World)
  | .done (.ok a) w => some (a, w)
  | _ => none

/-- What an attempt has failed with. -/
def Outcome.failure : Outcome (Except ε α) → Option ε
  | .done (.error e) _ => some e
  | _ => none

theorem Outcome.exists_of_failure {o : Outcome (Except ε α)} {e : ε} (h : o.failure = some e) :
    ∃ w, o = .done (.error e) w := by
  unfold failure at h
  split at h
  · cases h
    exact ⟨_, rfl⟩
  · cases h

/-- Whether an action waits for ever. -/
def Outcome.waits : Outcome α → Bool
  | .blocked => true
  | _ => false

theorem Outcome.waits_iff {o : Outcome α} : o.waits = true ↔ o = .blocked := by
  cases o <;> simp [waits]

namespace Act

theorem bind_eq_done {x : Act α} {f : α → Act β} {w w' : World} {b : β} :
    (x >>= f) w = .done b w' ↔ ∃ a w₁, x w = .done a w₁ ∧ f a w₁ = .done b w' := by
  rw [bind_apply]
  cases hx : x w with
  | done a w₁ =>
    constructor
    · intro h
      exact ⟨a, w₁, rfl, h⟩
    · rintro ⟨a', w₁', h, h'⟩
      simp only [Outcome.done.injEq] at h
      obtain ⟨rfl, rfl⟩ := h
      exact h'
  | exhausted => simp
  | blocked => simp

theorem map_eq_done {f : α → β} {x : Act α} {w w₁ : World} {a : α} (hx : x w = .done a w₁) :
    (f <$> x) w = .done (f a) w₁ := by
  rw [← bind_pure_comp, bind_apply, hx]
  rfl

/-- Started where `I` holds, the action returns only where `J` holds, with a result that
satisfies `P`. -/
def Leads (I J : World → Prop) (P : α → Prop) (x : Act α) : Prop :=
  ∀ ⦃w a w'⦄, I w → x w = .done a w' → J w' ∧ P a

/-- Started where `I` holds, the action returns only where `I` holds, with a result that
satisfies `P`. -/
def Keeps (I : World → Prop) (P : α → Prop) (x : Act α) : Prop :=
  ∀ ⦃w a w'⦄, I w → x w = .done a w' → I w' ∧ P a

namespace Keeps

variable {P : α → Prop} {Q : β → Prop}

theorem pure {a : α} (h : P a) : Keeps I P (Pure.pure a : Act α) := by
  intro w b w' hw hb
  simp only [pure_apply, Outcome.done.injEq] at hb
  obtain ⟨rfl, rfl⟩ := hb
  exact ⟨hw, h⟩

theorem bind {x : Act α} {f : α → Act β} (hx : Keeps I P x) (hf : ∀ a, P a → Keeps I Q (f a)) :
    Keeps I Q (x >>= f) := by
  intro w b w' hw hb
  obtain ⟨a, w₁, ha, hb⟩ := bind_eq_done.1 hb
  obtain ⟨hw₁, hP⟩ := hx hw ha
  exact hf a hP hw₁ hb

theorem mono {P' : α → Prop} {x : Act α} (h : Keeps I P x) (hP : ∀ a, P a → P' a) :
    Keeps I P' x := by
  intro w a w' hw ha
  exact ⟨(h hw ha).1, hP a (h hw ha).2⟩

theorem trivial {x : Act α} (h : Keeps I P x) : Keeps I (fun _ => True) x :=
  h.mono fun _ _ => True.intro

theorem map {f : α → β} {x : Act α} (hx : Keeps I P x) (hf : ∀ a, P a → Q (f a)) :
    Keeps I Q (f <$> x) := by
  rw [← bind_pure_comp]
  exact hx.bind fun a ha => .pure (hf a ha)

/-- The world itself is read where the invariant holds. -/
theorem world : Keeps I I Act.world := by
  intro w a w' hw ha
  simp only [world_apply, Outcome.done.injEq] at ha
  obtain ⟨rfl, rfl⟩ := ha
  exact ⟨hw, hw⟩

theorem update {f : World → World} (h : ∀ w, I w → I (f w)) :
    Keeps I (fun _ => True) (Act.update f) := by
  intro w a w' hw ha
  simp only [update_apply, Outcome.done.injEq] at ha
  obtain ⟨-, rfl⟩ := ha
  exact ⟨h w hw, True.intro⟩

theorem fresh (h : ∀ w, I w → I { w with next := w.next + 1 }) :
    Keeps I (fun _ => True) Act.fresh := by
  intro w a w' hw ha
  simp only [Act.fresh, Outcome.done.injEq] at ha
  obtain ⟨-, rfl⟩ := ha
  exact ⟨h w hw, True.intro⟩

theorem exhausted : Keeps I P (Act.exhausted : Act α) := by
  intro w a w' _ ha
  cases ha

theorem blocked : Keeps I P (Act.blocked : Act α) := by
  intro w a w' _ ha
  cases ha

end Keeps

/-- Where each part of an action leads. -/
theorem Leads.bind {J K : World → Prop} {P : α → Prop} {Q : β → Prop} {x : Act α} {f : α → Act β}
    (hx : Leads I J P x) (hf : ∀ a, P a → Leads J K Q (f a)) : Leads I K Q (x >>= f) := by
  intro w b w' hw hb
  obtain ⟨a, w₁, ha, hb⟩ := bind_eq_done.1 hb
  obtain ⟨hw₁, hP⟩ := hx hw ha
  exact hf a hP hw₁ hb

/-- What comes after an action may rely on what the action brings about. -/
theorem Keeps.bind_bringing {P : α → Prop} {Q : β → Prop} {x : Act α} {f : α → Act β}
    (hx : Keeps I P x) {R : α → World → Prop} (hR : ∀ ⦃w a w'⦄, x w = .done a w' → R a w')
    (hf : ∀ a, P a → Leads (fun w => I w ∧ R a w) I Q (f a)) : Keeps I Q (x >>= f) := by
  intro w b w' hw hb
  obtain ⟨a, w₁, ha, hb⟩ := bind_eq_done.1 hb
  obtain ⟨hw₁, hP⟩ := hx hw ha
  exact hf a hP ⟨hw₁, hR ha⟩ hb

/-- Started where `I` holds, the action returns this very result, where `I` holds again. -/
def Gives (I : World → Prop) (a : α) (x : Act α) : Prop := ∀ w, I w → ∃ w', x w = .done a w' ∧ I w'

namespace Gives

theorem pure (a : α) : Gives I a (Pure.pure a : Act α) := fun w hw => ⟨w, rfl, hw⟩

theorem bind {x : Act α} {f : α → Act β} {a : α} {b : β} (hx : Gives I a x)
    (hf : Gives I b (f a)) : Gives I b (x >>= f) := by
  intro w hw
  obtain ⟨w₁, ha, hw₁⟩ := hx w hw
  obtain ⟨w₂, hb, hw₂⟩ := hf w₁ hw₁
  exact ⟨w₂, bind_eq_done.2 ⟨a, w₁, ha, hb⟩, hw₂⟩

/-- An action that gives a result keeps the invariant. -/
theorem mapM {f : α → β} {x : α → Act β} (hx : ∀ a, Gives I (f a) (x a)) (l : List α) :
    Gives I (l.map f) (l.mapM x) := by
  induction l with
  | nil =>
    rw [List.mapM_nil]
    exact .pure _
  | cons a l ih =>
    rw [List.mapM_cons]
    exact .bind (hx a) (.bind ih (.pure _))

theorem keeps {x : Act α} {a : α} (hx : Gives I a x) : Keeps I (· = a) x := by
  intro w b w' hw hb
  obtain ⟨w₁, ha, hw₁⟩ := hx w hw
  rw [ha] at hb
  cases hb
  exact ⟨hw₁, rfl⟩

end Gives

/-- Whatever the world, the action returns. -/
def Returns (x : Act α) : Prop := ∀ w, ∃ a w', x w = .done a w'

namespace Returns

theorem pure (a : α) : Returns (Pure.pure a : Act α) := fun w => ⟨a, w, rfl⟩

theorem bind {x : Act α} {f : α → Act β} (hx : Returns x) (hf : ∀ a, Returns (f a)) :
    Returns (x >>= f) := by
  intro w
  obtain ⟨a, w₁, ha⟩ := hx w
  obtain ⟨b, w₂, hb⟩ := hf a w₁
  exact ⟨b, w₂, bind_eq_done.2 ⟨a, w₁, ha, hb⟩⟩

theorem world : Returns Act.world := fun w => ⟨w, w, rfl⟩

theorem update (f : World → World) : Returns (Act.update f) := fun w => ⟨(), f w, rfl⟩

theorem fresh : Returns Act.fresh := fun w => ⟨w.next, { w with next := w.next + 1 }, rfl⟩

end Returns

/-- From this world the action returns, and what it gives and the world that it leads to are as they
should be. -/
def Ends (x : Act α) (w : World) (Q : α → World → Prop) : Prop := ∃ a w', x w = .done a w' ∧ Q a w'

namespace Ends

variable {x : Act α} {w : World} {P Q : α → World → Prop}

theorem bind {f : α → Act β} {R : β → World → Prop} (hx : x.Ends w P)
    (hf : ∀ a w', P a w' → (f a).Ends w' R) : (x >>= f).Ends w R := by
  obtain ⟨a, w₁, ha, hP⟩ := hx
  obtain ⟨b, w₂, hb, hR⟩ := hf a w₁ hP
  exact ⟨b, w₂, bind_eq_done.2 ⟨a, w₁, ha, hb⟩, hR⟩

theorem mono (hx : x.Ends w P) (h : ∀ a w', P a w' → Q a w') : x.Ends w Q := by
  obtain ⟨a, w', ha, hP⟩ := hx
  exact ⟨a, w', ha, h a w' hP⟩

/-- An action that returns ends as everything that it may end with. -/
theorem of_returns (hx : Returns x) (h : ∀ a w', x w = .done a w' → Q a w') : x.Ends w Q := by
  obtain ⟨a, w', ha⟩ := hx w
  exact ⟨a, w', ha, h a w' ha⟩

end Ends

end Act

namespace Attempt

/-- What attempts one after the other do: the second goes on where the first succeeds. -/
theorem run_bind_eq_done {x : Attempt ε α} {f : α → Attempt ε β} {w w' : World}
    {r : Except ε β} : (x >>= f).run w = .done r w' ↔
      (∃ a w₁, x.run w = .done (.ok a) w₁ ∧ (f a).run w₁ = .done r w') ∨
        ∃ e, x.run w = .done (.error e) w' ∧ r = .error e := by
  rw [ExceptT.run_bind, Act.bind_eq_done]
  constructor
  · rintro ⟨y, w₁, hy, hr⟩
    cases y with
    | ok a => exact .inl ⟨a, w₁, hy, hr⟩
    | error e =>
      cases hr
      exact .inr ⟨e, hy, rfl⟩
  · rintro (⟨a, w₁, ha, hr⟩ | ⟨e, he, rfl⟩)
    · exact ⟨.ok a, w₁, ha, hr⟩
    · exact ⟨.error e, w', he, rfl⟩

theorem run_liftM_eq_done {x : Act α} {w w' : World} {r : Except ε α} :
    (liftM x : Attempt ε α).run w = .done r w' ↔ ∃ a, r = .ok a ∧ x w = .done a w' := by
  constructor
  · intro h
    have h : (x >>= fun a => pure (Except.ok (ε := ε) a)) w = .done r w' := h
    obtain ⟨a, w₁, ha, hr⟩ := Act.bind_eq_done.1 h
    cases hr
    exact ⟨a, rfl, ha⟩
  · rintro ⟨a, rfl, ha⟩
    exact Act.map_eq_done ha

theorem run_adapt_eq_done {f : ε → ε'} {x : Attempt ε α} {w w' : World} {a : α} :
    (ExceptT.adapt f x).run w = .done (.ok a) w' ↔ x.run w = .done (.ok a) w' := by
  constructor
  · intro h
    have h : (x.run >>= fun r => pure (r.mapError f)) w = .done (.ok a) w' := h
    obtain ⟨r, w₁, hr, h⟩ := Act.bind_eq_done.1 h
    cases r with
    | ok b =>
      cases h
      exact hr
    | error e => cases h
  · intro h
    exact Act.map_eq_done (f := Except.mapError f) h

theorem run_adapt_eq_error {f : ε → ε'} {x : Attempt ε α} {w w' : World} {e' : ε'} :
    (ExceptT.adapt f x).run w = .done (.error e') w' ↔
      ∃ e, x.run w = .done (.error e) w' ∧ e' = f e := by
  constructor
  · intro h
    have h : (x.run >>= fun r => pure (r.mapError f)) w = .done (.error e') w' := h
    obtain ⟨r, w₁, hr, h⟩ := Act.bind_eq_done.1 h
    cases r with
    | ok b => cases h
    | error e =>
      cases h
      exact ⟨e, hr, rfl⟩
  · rintro ⟨e, he, rfl⟩
    exact Act.map_eq_done (f := Except.mapError f) he

theorem run_liftM_bind_eq (x : Act α) (f : α → Attempt ε β) :
    (liftM x >>= f : Attempt ε β).run = x >>= fun a => (f a).run := by
  have lifted : (liftM x : Attempt ε α).run = Except.ok <$> x := rfl
  rw [ExceptT.run_bind, lifted, ← bind_pure_comp, bind_assoc]
  simp only [pure_bind]

/-- An attempt goes on where an action that it starts with returns. -/
theorem run_liftM_bind {x : Act α} {f : α → Attempt ε β} {w w₁ : World} {a : α}
    (hx : x w = .done a w₁) : (liftM x >>= f : Attempt ε β).run w = (f a).run w₁ := by
  rw [run_liftM_bind_eq, Act.bind_apply, hx]

/-- What comes after something that may be missing. -/
theorem run_except_bind_eq_done {y : Except ε α} {f : α → Attempt ε β} {w w' : World}
    {r : Except ε β} : (MonadLift.monadLift y >>= f : Attempt ε β).run w = .done r w' ↔
      (∃ a, y = .ok a ∧ (f a).run w = .done r w') ∨ ∃ e, y = .error e ∧ r = .error e ∧ w' = w := by
  cases y with
  | ok a =>
    constructor
    · intro h
      exact .inl ⟨a, rfl, h⟩
    · rintro (⟨_, h, hr⟩ | ⟨_, h, -⟩)
      · cases h
        exact hr
      · cases h
  | error e =>
    constructor
    · intro h
      cases h
      exact .inr ⟨e, rfl, rfl, rfl⟩
    · rintro (⟨_, h, -⟩ | ⟨_, h, rfl, rfl⟩)
      · cases h
      · cases h
        rfl

/-- Whatever the world, the attempt succeeds or fails. -/
def Returns (x : Attempt ε α) : Prop := Act.Returns x.run

namespace Returns

theorem pure (a : α) : Returns (Pure.pure a : Attempt ε α) := Act.Returns.pure _

theorem throw (e : ε) : Returns (throw e : Attempt ε α) := Act.Returns.pure _

theorem bind {x : Attempt ε α} {f : α → Attempt ε β} (hx : Returns x)
    (hf : ∀ a, Returns (f a)) : Returns (x >>= f) := by
  refine Act.Returns.bind hx fun r => ?_
  cases r with
  | ok a => exact hf a
  | error e => exact .pure _

/-- What comes after a failure is not done. -/
theorem throw_bind (e : ε) (f : α → Attempt ε β) : Returns (MonadExcept.throw e >>= f) :=
  fun w => ⟨.error e, w, rfl⟩

theorem liftM {x : Act α} (hx : Act.Returns x) : Returns (liftM x : Attempt ε α) :=
  hx.bind fun _ => .pure _

theorem except (x : Except ε α) : Returns (MonadLift.monadLift x : Attempt ε α) :=
  Act.Returns.pure _

end Returns

/-- Started where `I` holds, the attempt returns only where `I` holds, and succeeds only with a
result that satisfies `P`. -/
def Keeps (I : World → Prop) (P : α → Prop) (x : Attempt ε α) : Prop :=
  Act.Keeps I (fun r => ∀ a, r = .ok a → P a) x.run

namespace Keeps

variable {P : α → Prop} {Q : β → Prop}

theorem pure {a : α} (h : P a) : Keeps I P (Pure.pure a : Attempt ε α) :=
  Act.Keeps.pure fun b hb => by
    cases hb
    exact h

theorem throw {e : ε} : Keeps I P (throw e : Attempt ε α) :=
  Act.Keeps.pure fun b hb => by cases hb

theorem bind {x : Attempt ε α} {f : α → Attempt ε β} (hx : Keeps I P x)
    (hf : ∀ a, P a → Keeps I Q (f a)) : Keeps I Q (x >>= f) := by
  refine Act.Keeps.bind hx fun r hr => ?_
  cases r with
  | ok a => exact hf a (hr a rfl)
  | error e => exact .pure fun b hb => by cases hb

theorem mono {P' : α → Prop} {x : Attempt ε α} (h : Keeps I P x) (hP : ∀ a, P a → P' a) :
    Keeps I P' x :=
  Act.Keeps.mono h fun _ hr a ha => hP a (hr a ha)

theorem lift {x : Act α} (h : Act.Keeps I P x) : Keeps I P (ExceptT.lift x : Attempt ε α) :=
  Act.Keeps.map h fun a ha b hb => by
    cases hb
    exact ha

theorem liftM {x : Act α} (h : Act.Keeps I P x) : Keeps I P (liftM x : Attempt ε α) := lift h

theorem except {x : Except ε α} (h : ∀ a, x = .ok a → P a) :
    Keeps I P (MonadLift.monadLift x : Attempt ε α) :=
  Act.Keeps.pure h

/-- What comes after a failure is not done. -/
theorem throw_bind {e : ε} {f : α → Attempt ε β} : Keeps I Q (MonadExcept.throw e >>= f) :=
  bind throw fun _ h => False.elim h

theorem adapt {f : ε → ε'} {x : Attempt ε α} (h : Keeps I P x) :
    Keeps I P (ExceptT.adapt f x) := by
  refine Act.Keeps.map h fun r hr a ha => ?_
  cases r with
  | ok b =>
    cases ha
    exact hr a rfl
  | error e => cases ha

/-- What an attempt leaves when its failure is caught. -/
theorem run {x : Attempt ε α} (h : Keeps I P x) : Act.Keeps I (fun _ => True) x.run :=
  Act.Keeps.trivial h

end Keeps

/-- Started where `I` holds, the attempt returns only where `J` holds, and succeeds only with a
result that satisfies `P`. -/
def Leads (I J : World → Prop) (P : α → Prop) (x : Attempt ε α) : Prop :=
  Act.Leads I J (fun r => ∀ a, r = .ok a → P a) x.run

section Leads

variable {J K : World → Prop} {P : α → Prop} {Q : β → Prop}

theorem Leads.liftM {x : Act α} (h : Act.Leads I J P x) :
    Leads I J P (liftM x : Attempt ε α) := by
  intro w r w' hw hr
  obtain ⟨a, rfl, ha⟩ := run_liftM_eq_done.1 hr
  obtain ⟨hw', hP⟩ := h hw ha
  exact ⟨hw', fun b hb => by cases hb; exact hP⟩

theorem Keeps.leads {x : Attempt ε α} (h : Keeps I P x) (hJ : ∀ w, J w → I w) : Leads J I P x :=
  fun _ _ _ hw hx => h (hJ _ hw) hx

/-- Where each part of an attempt leads.  The second part is left out if the first one fails. -/
theorem Leads.bind {x : Attempt ε α} {f : α → Attempt ε β} (hx : Leads I J P x)
    (hJ : ∀ w, J w → K w) (hf : ∀ a, P a → Leads J K Q (f a)) : Leads I K Q (x >>= f) := by
  intro w r w' hw hr
  obtain ⟨a, w₁, ha, hr⟩ | ⟨e, he, rfl⟩ := run_bind_eq_done.1 hr
  · obtain ⟨hw₁, hP⟩ := hx hw ha
    exact hf a (hP a rfl) hw₁ hr
  · exact ⟨hJ _ (hx hw he).1, fun _ h => by cases h⟩

/-- What comes after an attempt may rely on what its success brings about. -/
theorem Keeps.bind_bringing {x : Attempt ε α} {f : α → Attempt ε β} (hx : Keeps I P x)
    {R : α → World → Prop} (hR : ∀ ⦃w a w'⦄, x.run w = .done (.ok a) w' → R a w')
    (hf : ∀ a, P a → Leads (fun w => I w ∧ R a w) I Q (f a)) : Keeps I Q (x >>= f) := by
  intro w r w' hw hr
  obtain ⟨a, w₁, ha, hr⟩ | ⟨e, he, rfl⟩ := run_bind_eq_done.1 hr
  · obtain ⟨hw₁, hP⟩ := hx hw ha
    exact hf a (hP a rfl) ⟨hw₁, hR ha⟩ hr
  · exact ⟨(hx hw he).1, fun _ h => by cases h⟩

end Leads

end Attempt

/-- What bodies do with a receiver and arguments. -/
abbrev Code := Expr → Value → List Value → Attempt Exception Value

end LateBinding
