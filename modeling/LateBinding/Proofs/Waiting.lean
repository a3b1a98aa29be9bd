import LateBinding.Proofs.Evaluation.Returns
import LateBinding.Proofs.Indexing
import LateBinding.Proofs.Members
import LateBinding.Proofs.Reading.Asking
import LateBinding.Proofs.Reading.Lookups
import LateBinding.Proofs.Stages

/-!
# Who waits for an index

Resolving a member builds the index of the renames, which resolves the templates of the owners, and
so may run bodies: of providers, of static methods, of provider classes.  A body may call an adapter
of the same resolver, which resolves a member in turn.  If this needs the index that is being built
then it waits for ever, and so does everything around it.

Waiting is *mended* if bodies do something else where they would wait (`Act.Mends`).  What does not
wait is the same then, and what comes to wait does so in a body (`Host.RunsBlocked`): nothing else
that is nested in building the index asks for it.

* `Resolver.waits_only_for_bodies` : **building the index waits for ever exactly if it runs a body
  that does, and while the index is being built a member is resolved only if its rename is
  remembered**;
* `Resolver.index_meets_its_own_mark` : **there is such a body**, an ordinary call of an adapter.
-/

namespace LateBinding

variable {α β ε : Type} {I : World → Prop} {whole : Prop}

/-! ### Waiting that is mended -/

/-- Started where `I` holds, `y` does what `x` does unless `x` waits for ever.  If waiting is mended
as a whole, `y` does not wait itself; otherwise nothing is said of what it does instead. -/
structure Act.Mends (whole : Prop) (I : World → Prop) (x y : Act α) : Prop where
  /-- What `x` does without waiting for ever is what `y` does. -/
  same : ∀ w, I w → x w ≠ .blocked → y w = x w
  /-- `I` holds again where `x` leads. -/
  keeps : Act.Keeps I (fun _ => True) x
  /-- As a whole mended, `y` does not wait, -/
  proceeds : whole → ∀ w, I w → y w ≠ .blocked
  /-- and `I` holds again where it leads. -/
  leads : whole → Act.Keeps I (fun _ => True) y

namespace Act.Mends

theorem of_returns {x : Act α} {P : α → Prop} (returns : x.Returns) (keeps : Act.Keeps I P x) :
    Mends whole I x x where
  same _ _ _ := rfl
  keeps := keeps.trivial
  proceeds _ w _ h := by
    obtain ⟨a, w', ha⟩ := returns w
    cases ha.symm.trans h
  leads _ := keeps.trivial

theorem pure (a : α) : Mends whole I (Pure.pure a) (Pure.pure a) :=
  .of_returns (P := fun _ => True) (.pure a) (.pure trivial)

theorem exhausted : Mends whole I (Act.exhausted : Act α) Act.exhausted where
  same _ _ _ := rfl
  keeps := .exhausted
  proceeds _ _ _ := nofun
  leads _ := .exhausted

section Bind

variable {x y : Act α} {f g : α → Act β} {w : World}

/-- What comes after an action that does not wait. -/
theorem same_bind (hx : Mends whole I x y) (hw : I w) (h : (x >>= f) w ≠ .blocked)
    (hf : ∀ a w', x w = .done a w' → f a w' ≠ .blocked → g a w' = f a w') :
    (y >>= g) w = (x >>= f) w := by
  rw [Act.bind_apply] at h ⊢
  rw [Act.bind_apply]
  cases hxw : x w with
  | done a w' =>
    rw [hx.same w hw (by rw [hxw]; exact nofun), hxw]
    rw [hxw] at h
    exact hf a w' hxw h
  | exhausted => rw [hx.same w hw (by rw [hxw]; exact nofun), hxw]
  | blocked =>
    rw [hxw] at h
    exact absurd rfl h

theorem proceeds_bind (hx : Mends whole I x y) (mended : whole) (hw : I w)
    (hg : ∀ a w', y w = .done a w' → g a w' ≠ .blocked) : (y >>= g) w ≠ .blocked := by
  rw [Act.bind_apply]
  cases hyw : y w with
  | done a w' => exact hg a w' hyw
  | exhausted => exact nofun
  | blocked => exact absurd hyw (hx.proceeds mended w hw)

theorem bind (hx : Mends whole I x y) (hf : ∀ a, Mends whole I (f a) (g a)) :
    Mends whole I (x >>= f) (y >>= g) where
  same _ hw h := hx.same_bind hw h fun a _ ha => (hf a).same _ (hx.keeps hw ha).1
  keeps := hx.keeps.bind fun a _ => (hf a).keeps
  proceeds mended _ hw := hx.proceeds_bind mended hw fun a _ ha =>
    (hf a).proceeds mended _ (hx.leads mended hw ha).1
  leads mended := (hx.leads mended).bind fun a _ => (hf a).leads mended

end Bind

end Act.Mends

/-- The same for attempts. -/
def Attempt.Mends (whole : Prop) (I : World → Prop) (x y : Attempt ε α) : Prop :=
  Act.Mends whole I x.run y.run

namespace Attempt.Mends

theorem of_returns {x : Attempt ε α} {P : α → Prop} (returns : x.Returns)
    (keeps : Attempt.Keeps I P x) : Mends whole I x x :=
  Act.Mends.of_returns returns keeps

theorem pure (a : α) : Mends whole I (Pure.pure a : Attempt ε α) (Pure.pure a) :=
  Act.Mends.pure _

theorem bind {x y : Attempt ε α} {f g : α → Attempt ε β} (hx : Mends whole I x y)
    (hf : ∀ a, Mends whole I (f a) (g a)) : Mends whole I (x >>= f) (y >>= g) := by
  refine Act.Mends.bind hx fun r => ?_
  cases r with
  | ok a => exact hf a
  | error e => exact .pure _

end Attempt.Mends

/-- The same for the code of bodies. -/
def Code.Mends (whole : Prop) (I : World → Prop) (code code' : Code) : Prop :=
  ∀ body receiver args, Attempt.Mends whole I (code body receiver args) (code' body receiver args)

/-! ### Running members -/

section Running

variable {h h' : Host} (hrun : Code.Mends whole I h.run h'.run)

include hrun

theorem MethodHandle.mends_invoke (m : MethodHandle) (receiver : Value) (args : List Value) :
    Attempt.Mends whole I (m.invoke h receiver args) (m.invoke h' receiver args) := by
  rw [invoke_eq, invoke_eq]
  exact .bind (.of_returns (.except _) (.except fun _ _ => trivial)) fun _ => hrun _ _ _

theorem Class.mends_construct (hI : Stable (.free fun _ => True) I) (c : Class Value)
    (k : ConstructorDecl) (args : List Value) :
    Attempt.Mends whole I (c.construct h k args) (c.construct h' k args) := by
  have start : Attempt.Mends whole I (c.start k args) (c.start k args) := by
    unfold start
    dsimp only
    split
    · exact .of_returns (.throw_bind _ _) (P := fun _ => True) .throw_bind
    split
    · exact .of_returns (.throw_bind _ _) (P := fun _ => True) .throw_bind
    · exact .of_returns (.liftM (Object.returns_alloc c)) (.liftM (Object.keeps_alloc hI trivial))
  rw [construct_eq, construct_eq]
  exact .bind start fun o => .bind (hrun _ _ _) fun _ => .pure _

theorem Provider.mends_get (p : Provider) : Act.Mends whole I (p.get h) (p.get h') := by
  unfold Provider.get
  cases p.source with
  | constant text => exact .pure _
  | computed body otherwise => exact Act.Mends.bind (hrun _ _ _) fun _ => .pure _

end Running

/-! ### Reading variables -/

theorem Lookups.mends_run {lookup lookup' : String → Act (Option String)}
    (hl : ∀ name, Act.Mends whole I (lookup name) (lookup' name)) (x : Lookups α) :
    Act.Mends whole I (x.run lookup) (x.run lookup') := by
  induction x with
  | done a => exact .pure a
  | ask name next ih => exact .bind (hl name) ih

/-- Giving the value of a slot waits only where computing it does. -/
theorem Slot.mends_value (keep : ∀ w id s v, w.slots.get? id = some s → s.frozen = none → I w →
    I (w.keepIn id s v)) {x y : Act (Option String)} (hx : Act.Mends whole I x y) (s : Slot)
    (id : Identity) : Act.Mends whole I (s.value id x) (s.value id y) := by
  unfold value
  cases s.retention with
  | lazy => exact hx
  | cached =>
    have frozen : Act.Keeps I (fun _ => True) (frozenAt id) := Act.Keeps.world.bind fun _ _ =>
      .pure trivial
    refine .bind (.of_returns (returns_frozenAt id) frozen) fun o => ?_
    cases o with
    | some kept => exact .pure _
    | none =>
      refine .bind hx fun o => ?_
      cases o with
      | none => exact .pure _
      | some v =>
        exact .bind (.of_returns (returns_freeze id v) (Resolver.keeps_freeze (keep · id) v))
          fun _ => .pure _

namespace Resolver

variable {r : Resolver} {b : Prop} {h h' : Host} {n : Nat} {w w₁ : World}

section Reading

variable (hrun : Code.Mends whole (r.Marked b) h.run h'.run)

include hrun

theorem mends_staticText (e : TypeEntry Value) (d : LateBinding.Descriptor) :
    Act.Mends whole (r.Marked b) (staticText h e d) (staticText h' e d) := by
  refine .bind (.of_returns (e.returns_method d) (e.keeps_method (r.stable_marked b).noting d))
    fun o => ?_
  cases o with
  | none => exact .pure _
  | some m =>
    dsimp only
    split
    · exact Act.Mends.bind (m.mends_invoke hrun _ _) fun _ => .pure _
    · exact .pure _

theorem mends_providerText (e : TypeEntry Value) :
    Act.Mends whole (r.Marked b) (providerText h e) (providerText h' e) := by
  have stable := r.stable_marked b
  have looked : Act.Keeps (r.Marked b) (fun _ => True) (e.constructor []) := by
    intro w o w' hw ho
    rw [e.constructor_eq] at ho
    split at ho <;> · cases ho; exact ⟨hw, trivial⟩
  refine .bind (.of_returns (e.returns_constructor []) looked) fun o => ?_
  cases o with
  | none => exact .pure _
  | some k =>
    refine .bind (.of_returns (e.returns_method _) (e.keeps_method stable.noting _)) fun o => ?_
    cases o with
    | none => exact .pure _
    | some get =>
      have asked : Attempt.Mends whole (r.Marked b)
          (k.construct h [] >>= fun o => get.invoke h (.object o) [])
          (k.construct h' [] >>= fun o => get.invoke h' (.object o) []) :=
        .bind (k.cls.mends_construct hrun stable _ _) fun _ => get.mends_invoke hrun _ _
      exact Act.Mends.bind asked fun _ => .pure _

variable (hread : ∀ name, Act.Mends whole (r.Marked b) (h.valueOf r name) (h'.valueOf r name))

omit hrun in
include hread in
theorem mends_substitute (template : String) :
    Act.Mends whole (r.Marked b) (r.substitute h template) (r.substitute h' template) := by
  rw [← Lookups.run_substitute, ← Lookups.run_substitute]
  exact Lookups.mends_run hread _

omit hrun in
include hread in
theorem mends_describedClass (template : String) :
    Act.Mends whole (r.Marked b) (r.describedClass h template) (r.describedClass h' template) := by
  rw [describedClass_eq, describedClass_eq]
  exact .bind (mends_substitute hread template) fun name =>
    .of_returns (r.returns_classNamed name) (r.keeps_classNamed (r.stable_marked b).noting name)

include hread

theorem mends_evaluate (d : Mapping.Descriptor) :
    Act.Mends whole (r.Marked b) (r.evaluate h d) (r.evaluate h' d) := by
  unfold evaluate
  cases d.kind with
  | value => exact .pure _
  | registered =>
    cases d.value with
    | none => exact .pure _
    | some name =>
      have asked : (r.registered name).Returns := r.returns_state.bind fun _ => .pure _
      refine .bind (.of_returns asked (r.keeps_registered name)) fun o => ?_
      cases o with
      | none => exact .pure _
      | some p => exact p.mends_get hrun
  | static =>
    cases d.provider with
    | none => exact .pure _
    | some template =>
      cases d.value with
      | none => exact .pure _
      | some method =>
        refine .bind (mends_describedClass hread template) fun o => ?_
        cases o with
        | none => exact .pure _
        | some e => exact mends_staticText hrun e _
  | provider =>
    cases d.provider with
    | none => exact .pure _
    | some template =>
      refine .bind (mends_describedClass hread template) fun o => ?_
      cases o with
      | none => exact .pure _
      | some e => exact mends_providerText hrun e

theorem mends_ask (name : String) (src : SlotSource) :
    Act.Mends whole (r.Marked b) (r.ask h name src) (r.ask h' name src) := by
  unfold ask
  split
  · rename_i p
    exact p.mends_get hrun
  · exact .pure _
  · have moved (f : World → World) (hf : ∀ w, r.Marked b w → r.Marked b (f w)) :
        Act.Mends whole (r.Marked b) (Act.update f) (Act.update f) :=
      .of_returns (.update f) (.update hf)
    refine .bind (.of_returns .world Act.Keeps.world) fun w => ?_
    split
    · exact .pure _
    · exact .bind (moved _ fun _ hw => hw) fun _ =>
        .bind (mends_evaluate hrun hread _) fun _ => .bind (moved _ fun _ hw => hw) fun _ => .pure _

theorem mends_valueOf (name : String) :
    Act.Mends whole (r.Marked b) (r.valueOf h name) (r.valueOf h' name) := by
  rw [valueOf_eq, valueOf_eq]
  have slot : Act.Keeps (r.Marked b) (fun _ => True) (r.slotFor name) :=
    r.keeps_slotFor fun _ _ _ _ hw => hw.bindSlot name _
  refine .bind (.of_returns (r.returns_slotFor name) slot) fun o => ?_
  cases o with
  | none => exact .pure _
  | some p => exact p.2.mends_value (fun _ _ _ _ _ _ hw => hw) (mends_ask hrun hread name _) p.1

end Reading

/-- Reading a variable waits only in bodies, at any depth: a description may name its class by
variables, whose descriptions are evaluated one level below. -/
theorem mends_level {code : Nat → Code}
    (hcode : ∀ k, Code.Mends whole (r.Marked b) (Host.level k).run (code k)) (n : Nat)
    (name : String) : Act.Mends whole (r.Marked b) ((Host.level n).valueOf r name)
      ((Host.around code n).valueOf r name) := by
  induction n generalizing name with
  | zero => exact .exhausted
  | succ n ih =>
    have hrun : Code.Mends whole (r.Marked b) (Host.level n).run (Host.around code n).run := by
      rw [Host.run_around]
      exact hcode n
    exact mends_valueOf hrun ih name

/-! ### Resolving members -/

section Members

variable (hread : ∀ name, Act.Mends whole (r.Marked b) (h.valueOf r name) (h'.valueOf r name))

include hread

theorem mends_indexRenames (l : List (String × List Mapping.Rename)) (index : RenameIndex) :
    Act.Mends whole (r.Marked b) (r.indexRenames h l index) (r.indexRenames h' l index) := by
  induction l generalizing index with
  | nil => exact .pure _
  | cons e rest ih => exact .bind (mends_substitute hread e.1) fun _ => ih _

theorem mends_renameUpTo (table : Option (Table String String)) (passes : Nat) (text : String) :
    Act.Mends whole (r.Marked b) (r.renameUpTo h table passes text)
      (r.renameUpTo h' table passes text) := by
  induction passes generalizing text with
  | zero =>
    unfold renameUpTo
    split
    · exact .pure _
    · split <;> exact .pure _
  | succ passes ih =>
    unfold renameUpTo
    split
    · exact .pure _
    · split
      · rw [← Lookups.run_pass, ← Lookups.run_pass]
        exact .bind (Lookups.mends_run hread _) ih
      · exact .pure _

end Members

/-- Where the index is not being built, building it waits only where resolving the templates of the
owners does, which is done while it is being built. -/
theorem mends_renameIndex
    (hread : ∀ name, Act.Mends whole (r.Marked True) (h.valueOf r name) (h'.valueOf r name)) :
    Act.Mends whole (r.Marked False) (r.renameIndex h) (r.renameIndex h') where
  same w hw hx := by
    cases hrenames : (w.stateOf r).renames with
    | ready index => rw [renameIndex_eq, renameIndex_eq, hrenames]
    | underway => exact absurd hrenames hw.1
    | unset =>
      rw [renameIndex_eq, hrenames] at hx ⊢
      rw [renameIndex_eq, hrenames]
      exact (mends_indexRenames hread _ _).same_bind (marked_underway r w) hx fun _ _ _ _ => rfl
  keeps := keeps_own_renameIndex rfl
  proceeds mended w hw := by
    rw [renameIndex_eq]
    cases hrenames : (w.stateOf r).renames with
    | ready index => exact nofun
    | underway => exact absurd hrenames hw.1
    | unset =>
      exact (mends_indexRenames hread _ _).proceeds_bind mended (marked_underway r w)
        fun _ _ _ => nofun
  leads _ := keeps_own_renameIndex rfl

/-- Where the index is not being built, resolving a member waits only where reading variables does,
be it before the index is built, in the meantime, or afterwards. -/
theorem mends_resolveMember
    (hread : ∀ b name, Act.Mends whole (r.Marked b) (h.valueOf r name) (h'.valueOf r name))
    (owner logical : String) : Act.Mends whole (r.Marked False)
      (r.resolveMember h owner logical) (r.resolveMember h' owner logical) := by
  refine .bind (mends_substitute (hread False) owner) fun owner => ?_
  refine .bind (.of_returns r.returns_state r.keeps_state) fun s => ?_
  split
  · exact .pure _
  refine .bind (mends_renameIndex (hread True)) fun index => ?_
  refine .bind (mends_renameUpTo (hread False) _ _ _) fun x => ?_
  dsimp only
  split
  · exact .bind (.of_returns (.update _) (.update fun w hw => hw.withState rfl)) fun _ => .pure _
  · exact .pure _

end Resolver

/-! ### Bodies that wait -/

namespace Host

/-- Bodies do what they do in the machine, unless they wait for ever where `I` holds. -/
def Alike (I : World → Prop) (code : Nat → Code) : Prop := ∀ k body receiver args w,
  (code k body receiver args).run w = ((level k).run body receiver args).run w ∨
    I w ∧ ((level k).run body receiver args).run w = .blocked

/-- What is carried out in the world comes to run a body that waits for ever where `I` holds: what
comes of it depends on what is done there instead of waiting. -/
def RunsBlocked (I : World → Prop) (n : Nat) (x : Host → Act α) (w : World) : Prop :=
  ∃ code, Alike I code ∧ x (around code n) w ≠ x (level n) w

/-- There is such a body: if there were none then the machine would be the only host alike. -/
theorem RunsBlocked.exists_body {n : Nat} {x : Host → Act α} {w : World}
    (h : RunsBlocked I n x w) : ∃ k body receiver args w',
      I w' ∧ ((level k).run body receiver args).run w' = .blocked := by
  obtain ⟨code, hcode, differs⟩ := h
  by_contra none
  have same : code = fun k => (level k).run := by
    funext k body receiver args w'
    exact (hcode k body receiver args w').resolve_right fun h =>
      none ⟨k, body, receiver, args, w', h⟩
  exact differs (by rw [same, ← level_eq_around])

open Classical in
/-- Bodies that would wait for ever where `I` holds fail instead. -/
noncomputable def impatient (I : World → Prop) (k : Nat) : Code := fun body receiver args w =>
  if I w ∧ ((level k).run body receiver args).run w = .blocked then
    .done (.error (.plain "there is no use in waiting")) w
  else ((level k).run body receiver args).run w

theorem alike_impatient (I : World → Prop) : Alike I (impatient I) := by
  intro k body receiver args w
  by_cases waits : I w ∧ ((level k).run body receiver args).run w = .blocked
  · exact .inr waits
  · exact .inl (if_neg waits)

variable {J : World → Prop}

/-- Whatever is done instead of waiting, what does not wait is the same. -/
theorem Alike.mends {code : Nat → Code} (hcode : Alike J code)
    (keeps : ∀ n, (level n).Keeps (.free fun _ => True) I) (k : Nat) :
    Code.Mends False I (level k).run (code k) := fun body receiver args =>
  { same := fun w _ hw => (hcode k body receiver args w).resolve_right fun h => hw h.2
    keeps := ((keeps k).runs body receiver args trivial fun _ _ => trivial).trivial
    proceeds := nofun
    leads := nofun }

/-- Where bodies fail instead of waiting, nothing waits. -/
theorem mends_impatient (keeps : ∀ n, (level n).Keeps (.free fun _ => True) I)
    (hJ : ∀ w, I w → J w) (k : Nat) : Code.Mends True I (level k).run (impatient J k) := by
  intro body receiver args
  have kept : Act.Keeps I (fun _ => True) ((level k).run body receiver args).run :=
    ((keeps k).runs body receiver args trivial fun _ _ => trivial).trivial
  refine ⟨fun w _ hw => if_neg fun h => hw h.2, kept, fun _ w hw h => ?_, fun _ w x w' hw hx => ?_⟩
  · by_cases waits : J w ∧ ((level k).run body receiver args).run w = .blocked
    · cases (if_pos waits).symm.trans h
    · exact waits ⟨hJ w hw, (if_neg waits).symm.trans h⟩
  · by_cases waits : J w ∧ ((level k).run body receiver args).run w = .blocked
    · cases (if_pos waits).symm.trans hx
      exact ⟨hw, trivial⟩
    · exact kept hw ((if_neg waits).symm.trans hx)

/-- What waits only in bodies waits exactly if it runs a body that does. -/
theorem blocked_iff {x : Host → Act α} {n : Nat} {w : World} (hw : I w)
    (alike : ∀ code, Alike J code → Act.Mends False I (x (level n)) (x (around code n)))
    (mended : Act.Mends True I (x (level n)) (x (around (impatient J) n))) :
    x (level n) w = .blocked ↔ RunsBlocked J n x w := by
  constructor
  · intro blocked
    exact ⟨impatient J, alike_impatient J, blocked ▸ mended.proceeds trivial w hw⟩
  · rintro ⟨code, hcode, differs⟩
    by_contra proceeds
    exact differs ((alike code hcode).same w hw proceeds)

end Host

namespace Resolver

variable {r : Resolver} {n : Nat} {w w₁ : World}

/-- While the index is being built, a member is resolved only if its rename is remembered. -/
theorem resolveMember_of_indexing (hw : r.Indexing w) {owner logical o : String}
    (ho : r.substitute (Host.level n) owner w = .done o w₁) :
    r.resolveMember (Host.level n) owner logical w =
      match (w₁.stateOf r).renameMemo.get? (o, logical) with
      | some real => .done real w₁
      | none => .blocked := by
  have marked : r.Marked True w₁ :=
    (keeps_substitute trivial (r.keeps_marks True n).reads owner (iff_of_true hw trivial) ho).1
  have read : r.state w₁ = .done (w₁.stateOf r) w₁ := rfl
  rw [resolveMember, Act.bind_apply, ho]
  dsimp only
  rw [Act.bind_apply, read]
  dsimp only
  cases (w₁.stateOf r).renameMemo.get? (o, logical) with
  | some real => rfl
  | none =>
    have waits : r.renameIndex (Host.level n) w₁ = .blocked := by
      rw [renameIndex_eq, show _ = Once.underway from marked.2 trivial]
    dsimp only
    rw [Act.bind_apply, waits]

/-- **Nothing but bodies waits for an index.**  Where the index of a resolver is not being built,
building it waits for ever exactly if it runs a body that does so while the index is being built,
and resolving a member waits for ever exactly if it runs a body that does.  Where the index is being
built, as it is for what such a body calls, a member whose owner is resolved is resolved if its
rename is remembered, and otherwise waits for ever. -/
theorem waits_only_for_bodies (r : Resolver) (n : Nat) (w : World) :
    (¬ r.Indexing w →
      (r.renameIndex (Host.level n) w = .blocked ↔
        Host.RunsBlocked r.Indexing n (fun h => r.renameIndex h) w) ∧
      ∀ owner logical, r.resolveMember (Host.level n) owner logical w = .blocked ↔
        Host.RunsBlocked (fun _ => True) n (fun h => r.resolveMember h owner logical) w) ∧
    (r.Indexing w → ∀ owner logical o w₁, r.substitute (Host.level n) owner w = .done o w₁ →
      r.resolveMember (Host.level n) owner logical w =
        match (w₁.stateOf r).renameMemo.get? (o, logical) with
        | some real => .done real w₁
        | none => .blocked) := by
  refine ⟨fun idle => ⟨?_, fun owner logical => ?_⟩, fun hw owner logical o w₁ =>
    resolveMember_of_indexing hw⟩
  · refine Host.blocked_iff (I := r.Marked False) (x := fun h => r.renameIndex h)
      (iff_of_false idle not_false) (fun code hcode => ?_) ?_
    · exact mends_renameIndex (mends_level (hcode.mends (r.keeps_marks True)) n)
    · exact mends_renameIndex (mends_level
        (Host.mends_impatient (r.keeps_marks True) fun _ hw => hw.2 trivial) n)
  · refine Host.blocked_iff (I := r.Marked False)
      (x := fun h => r.resolveMember h owner logical) (iff_of_false idle not_false)
      (fun code hcode => ?_) ?_
    · exact mends_resolveMember (fun b => mends_level (hcode.mends (r.keeps_marks b)) n) owner
        logical
    · exact mends_resolveMember (fun b => mends_level
        (Host.mends_impatient (r.keeps_marks b) fun _ _ => trivial) n) owner logical

end Resolver

/-! ### An adapter of the same resolver -/

namespace Reentry

open Session

/-- A method that gives a text. -/
def method : MethodDecl := ⟨"name", [], "str", .pub, false, [], some (.literal (.str "T"))⟩

/-- The name of the owner of a rename is given by a variable. -/
def document : Mapping.Document := Mapping.Document.empty.rename "pkg.@x@" "z" "y"

/-- A client makes an adapter, and registers a provider for the variable. -/
def requests (body : Expr) : List Request := [
  .scope "app" "app" none,
  .define "t" ⟨"pkg.T", .concrete, none, [method], [], [], []⟩ (some "app"),
  .define "it" ⟨"app.T", .interface, none, [{ method with body := none }], [], [],
    [.adapts "pkg.T"]⟩ (some "app"),
  .resolver "r" document "app",
  .newInstance "adapter" "r" "app.T" [] [] none,
  .provider "p" .lazy (.computed body (some "")),
  .register "r" "x" "p"]

/-- The provider calls the method of the adapter. -/
def calling : Expr := .call (.register "adapter") "name" []

end Reentry

namespace Resolver

open Reentry Session

/-- A provider that gives the text itself lets the member be resolved, and so no body that is run
waits.  If the same call were made while the index is being built, it would wait for ever. -/
theorem member_of_named_owner_is_resolved : ∃ (k : Names) (w w' : World) (r : Resolver),
    Reached (fun _ => true) (Host.level 8) k w ∧ k.resolvers.get? "r" = some r ∧
      ¬ r.Indexing w ∧ r.resolveMember (Host.level 8) "pkg.T" "z" w = .done "y" w' ∧
      ¬ Host.RunsBlocked (fun _ => True) 8 (fun h => r.resolveMember h "pkg.T" "z") w ∧
      r.resolveMember (Host.level 8) "pkg.T" "z"
        (w.withState r { w.stateOf r with renames := .underway }) = .blocked := by
  have told : (do
      let s ← played 8 (requests (.literal (.str "T")))
      let r ← s.1.resolvers.get? "r"
      let real ← (r.resolveMember (Host.level 8) "pkg.T" "z" s.2).seen fun real _ => real
      return (real, (s.2.stateOf r).renameMemo.get? ("pkg.T", "z"))) = some ("y", none) := by
    decide +kernel
  simp only [Option.bind_eq_bind, Option.bind_eq_some_iff, Option.pure_def, Option.some.injEq,
    Prod.mk.injEq] at told
  obtain ⟨⟨k, w⟩, hplayed, r, held, real, seen, rfl, memo⟩ := told
  obtain ⟨_, w', resolved, rfl⟩ := Outcome.exists_of_seen seen
  have reached := reached_of_played hplayed
  have idle := reached.not_indexing r
  refine ⟨k, w, w', r, reached, held, idle, resolved, fun runs => ?_, ?_⟩
  · have blocked := (((waits_only_for_bodies r 8 w).1 idle).2 "pkg.T" "z").2 runs
    cases blocked.symm.trans resolved
  · have plain : Template.hasTokens "pkg.T" = false := by decide +kernel
    have meets := (waits_only_for_bodies r 8 (w.withState r
      { w.stateOf r with renames := .underway })).2 ((marked_underway r w).2 trivial)
      "pkg.T" "z" "pkg.T" _ (substitute_of_not_hasTokens _ r plain _)
    rw [World.stateOf_withState_self, memo] at meets
    exact meets

/-- **The index can meet its own mark.**  The provider of a variable, which names the owner of a
rename, calls an adapter of the same resolver, which is the only one.  Resolving a member asks this
provider while it builds the index; the call resolves a member as well, and waits for ever for the
index. -/
theorem index_meets_its_own_mark :
    ¬ ∀ (n : Nat) (k : Names) (w : World) (label owner logical : String) (r : Resolver),
      Reached (fun _ => true) (Host.level n) k w → k.resolvers.size = 1 →
        k.resolvers.get? label = some r →
        r.resolveMember (Host.level n) owner logical w ≠ .blocked := by
  intro claim
  have told : (do
      let s ← played 8 (requests calling)
      let r ← s.1.resolvers.get? "r"
      return (s.1.resolvers.size, (r.resolveMember (Host.level 8) "pkg.T" "z" s.2).waits)) =
        some (1, true) := by
    decide +kernel
  simp only [Option.bind_eq_bind, Option.bind_eq_some_iff, Option.pure_def, Option.some.injEq,
    Prod.mk.injEq] at told
  obtain ⟨⟨k, w⟩, hplayed, r, held, alone, waits⟩ := told
  exact claim 8 k w "r" "pkg.T" "z" r (reached_of_played hplayed) alone held
    (Outcome.waits_iff.1 waits)

end Resolver

end LateBinding
