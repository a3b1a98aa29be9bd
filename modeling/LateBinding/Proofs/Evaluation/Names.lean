import LateBinding.Proofs.Evaluation.Lookup
import LateBinding.Proofs.Evaluation.Returns
import LateBinding.Proofs.Slots
import LateBinding.Resolver.Rename

/-!
# What the resolution of names keeps

Substitution asks for variables and does nothing else, so it keeps what asking for a variable
keeps (`Host.Reads`).  Asking for a variable and resolving a member also keep the books of the
resolver: the slots, the renames and the variables that are being evaluated.  An invariant that
this bookkeeping does not break (`Tended`) is kept by both (`Resolver.keeps_valueOf`,
`Resolver.keeps_resolveMember`); one that does not look at the books at all (`Indifferent`) is also
kept when providers are registered and taken away.
-/

namespace LateBinding

variable {C : Contract} {I : World → Prop} {h : Host}

/-- Asking an admitted resolver for a variable keeps the invariant. -/
def Host.Reads (C : Contract) (I : World → Prop) (h : Host) : Prop :=
  ∀ r name, C.resolver r → Act.Keeps I (fun _ => True) (h.valueOf r name)

/-- Resolving a member with an admitted resolver keeps the invariant. -/
def Host.Renames (C : Contract) (I : World → Prop) (h : Host) : Prop :=
  ∀ r owner logical, C.resolver r → Act.Keeps I (fun _ => True) (r.resolveMember h owner logical)

/-! ### Substitution -/

theorem Template.keeps_fill {lookup : String → Act (Option String)}
    (hl : ∀ name, Act.Keeps I (fun _ => True) (lookup name)) (l : List (List Char × List Char)) :
    Act.Keeps I (fun _ => True) (fill lookup l) := by
  induction l with
  | nil => exact .pure trivial
  | cons t rest ih => exact .bind (hl _) fun _ _ => .bind ih fun _ _ => .pure trivial

namespace Resolver

variable {r : Resolver}

/-- What comes of a class that was looked up. -/
def classFound (template resolved : String) :
    Option (TypeEntry Value) → Attempt BindingError (TypeEntry Value)
  | some e => return e
  | none => throw (.typeNotFound template resolved)

theorem keeps_classFound (template resolved : String) (o : Option (TypeEntry Value))
    (ho : ∀ e ∈ o, C.cls e.cls) :
    Attempt.Keeps I (fun e => C.cls e.cls) (classFound template resolved o) := by
  cases o with
  | some e => exact .pure (ho e rfl)
  | none => exact .throw

section Substitution

variable (hr : C.resolver r) (hh : h.Reads C I)

include hr hh

theorem keeps_pass (text : String) : Act.Keeps I (fun _ => True) (r.pass h text) :=
  .bind (Template.keeps_fill (fun name => hh r name hr) _) fun _ _ => .pure trivial

theorem keeps_substituteUpTo (passes : Nat) (text : String) :
    Act.Keeps I (fun _ => True) (r.substituteUpTo h passes text) := by
  induction passes generalizing text with
  | zero => exact .pure trivial
  | succ passes ih =>
    unfold substituteUpTo
    split
    · exact .bind (keeps_pass hr hh text) fun text _ => ih text
    · exact .pure trivial

theorem keeps_substitute (template : String) :
    Act.Keeps I (fun _ => True) (r.substitute h template) :=
  keeps_substituteUpTo hr hh _ template

theorem keeps_resolveClass (hI : Noting C I) (template : String) (scope : Option Scope) :
    Attempt.Keeps I (fun e => C.cls e.cls) (r.resolveClass h template scope) := by
  refine .bind (.liftM (keeps_substitute hr hh template)) fun resolved _ => ?_
  cases scope with
  | some s =>
    exact .bind (.liftM (r.keeps_classNamedIn hI resolved s)) (keeps_classFound template resolved)
  | none =>
    exact .bind (.liftM (r.keeps_classNamed hI resolved)) (keeps_classFound template resolved)

theorem keeps_resolveField (hI : Noting C I) (e : TypeEntry Value) (template : String) :
    Act.Keeps I (fun _ => True) (r.resolveField h e template) :=
  .bind (keeps_substitute hr hh template) fun _ _ => e.keeps_field hI _

omit hh in
theorem keeps_resolveMethod (hI : Noting C I) (hm : h.Renames C I)
    (target interface : TypeEntry Value) (logical : String) (params : List String) :
    Attempt.Keeps I (fun _ => True) (r.resolveMethod h target interface logical params) := by
  refine .bind (.liftM (hm r _ _ hr)) fun real _ =>
    .bind (.liftM (target.keeps_method hI _)) fun o _ => ?_
  split
  · exact .pure trivial
  · exact .throw

end Substitution

/-- Looking the class of a template up resolves its name, and looks that up in the scope. -/
theorem resolveClass_eq (h : Host) (template : String) (scope : Option Scope) :
    r.resolveClass h template scope = liftM (r.substitute h template) >>= fun name =>
      liftM (r.classNamedIn name (scope.getD r.defaultScope)) >>= classFound template name := by
  cases scope with
  | some s => rfl
  | none =>
    simp only [Option.getD_none, classNamedIn_defaultScope]
    rfl

/-- What looking the class of a template up comes to: its name is resolved, and looked up in the
scope. -/
theorem resolveClass_eq_done {template : String} {scope : Option Scope}
    {x : Except BindingError (TypeEntry Value)} {w w' : World}
    (hx : (r.resolveClass h template scope).run w = .done x w') :
    ∃ name w₁ o, r.substitute h template w = .done name w₁ ∧
      r.classNamedIn name (scope.getD r.defaultScope) w₁ = .done o w' ∧
      x = match o with
        | some e => .ok e
        | none => .error (.typeNotFound template name) := by
  rw [resolveClass_eq, Attempt.run_liftM_bind_eq] at hx
  obtain ⟨name, w₁, hname, hx⟩ := Act.bind_eq_done.1 hx
  rw [Attempt.run_liftM_bind_eq] at hx
  obtain ⟨o, w₂, ho, hx⟩ := Act.bind_eq_done.1 hx
  cases o with
  | some e =>
    cases hx
    exact ⟨name, w₁, _, hname, ho, rfl⟩
  | none =>
    cases hx
    exact ⟨name, w₁, _, hname, ho, rfl⟩

/-- A class that a template denotes has an entry that a cache holds. -/
theorem caches_of_resolveClass {template : String} {scope : Option Scope} {e : TypeEntry Value}
    {w w' : World} (hx : (r.resolveClass h template scope).run w = .done (.ok e) w') :
    w'.Caches e := by
  obtain ⟨name, w₁, o, -, ho, hx⟩ := resolveClass_eq_done hx
  cases o with
  | some e' =>
    cases hx
    exact ⟨r, .of_known (r.known_of_classNamedIn ho)⟩
  | none => cases hx

theorem caches_of_describedClass {template : String} {e : TypeEntry Value} {w w' : World}
    (hx : r.describedClass h template w = .done (some e) w') : w'.Caches e := by
  obtain ⟨x, w₁, hx, ho⟩ := Act.bind_eq_done.1 hx
  cases x with
  | ok e' =>
    cases ho
    exact caches_of_resolveClass hx
  | error => cases ho

/-! ### Sources of variables -/

theorem keeps_state (r : Resolver) : Act.Keeps I (fun _ => True) r.state :=
  Act.Keeps.bind Act.Keeps.world fun _ _ => .pure trivial

theorem keeps_registered (r : Resolver) (name : String) :
    Act.Keeps I (fun _ => True) (r.registered name) :=
  r.keeps_state.bind fun _ _ => .pure trivial

section Sources

variable (hI : Stable C I) (hC : C.Basic) (hrun : h.Runs C I)

include hI hC hrun

theorem keeps_staticText (e : TypeEntry Value) (d : LateBinding.Descriptor) :
    Act.Keeps I (fun _ => True) (staticText h e d) := by
  refine .bind (e.keeps_method hI.noting d) fun o _ => ?_
  split
  · split
    · exact .bind (MethodHandle.keeps_invoke hrun hC _ hC.null (by simp)).run
        fun _ _ => .pure trivial
    · exact .pure trivial
  · exact .pure trivial

theorem leads_providerText {e : TypeEntry Value} (he : C.cls e.cls) :
    Act.Leads (fun w => I w ∧ w.Caches e) I (fun _ => True) (providerText h e) := by
  refine .bind (e.leads_constructor hI.noting he []) fun o ho => ?_
  -- nothing but the constructor is looked up where it matters that the entry is held
  change Act.Keeps I (fun _ => True) _
  split
  · exact .pure trivial
  rename_i k
  refine .bind (e.keeps_method hI.noting _) fun o' _ => ?_
  split
  · exact .pure trivial
  rename_i get
  refine .bind (Attempt.Keeps.run (P := C.value) ?_) fun _ _ => .pure trivial
  refine .bind (Class.keeps_construct hrun hI hC (ho k rfl) _ (by simp)) fun o hcls =>
    MethodHandle.keeps_invoke hrun hC _ ?_ (by simp)
  rw [hC.object, hcls]
  exact ho k rfl

omit hI in
theorem keeps_get (p : Provider) : Act.Keeps I (fun _ => True) (p.get h) := by
  unfold Provider.get
  split
  · exact .pure trivial
  · exact .bind (hrun _ _ _ hC.null (by simp)).run fun _ _ => .pure trivial

theorem keeps_evaluate (hr : C.resolver r) (hh : h.Reads C I) (d : Mapping.Descriptor) :
    Act.Keeps I (fun _ => True) (r.evaluate h d) := by
  have described (template : String) :
      Act.Keeps I (fun o => ∀ e ∈ o, C.cls e.cls) (r.describedClass h template) := by
    refine .bind (keeps_resolveClass hr hh hI.noting template none) fun x hx => ?_
    split
    · exact .pure fun _ h => by cases h; exact hx _ rfl
    · exact .pure fun _ h => by cases h
  unfold evaluate
  cases d.kind with
  | value => exact .pure trivial
  | registered =>
    dsimp only
    split
    · exact .pure trivial
    · refine .bind (r.keeps_registered _) fun o _ => ?_
      split
      · exact keeps_get hC hrun _
      · exact .pure trivial
  | static =>
    dsimp only
    split
    · refine .bind (described _) fun o ho => ?_
      split
      · exact keeps_staticText hI hC hrun _ _
      · exact .pure trivial
    · exact .pure trivial
  | provider =>
    dsimp only
    split
    · refine (described _).bind_bringing (R := fun o w => ∀ e ∈ o, w.Caches e) ?_ fun o ho => ?_
      · rintro w o w' hx e rfl
        exact caches_of_describedClass hx
      split
      · rintro w v w' ⟨hw, held⟩ h
        exact leads_providerText hI hC hrun (ho _ rfl) ⟨hw, held _ rfl⟩ h
      · rintro w v w' ⟨hw, -⟩ h
        cases h
        exact ⟨hw, trivial⟩
    · exact .pure trivial

end Sources

end Resolver

/-! ### The books of resolvers -/

/-- An invariant that resolving members does not break. -/
structure Renaming (I : World → Prop) : Prop where
  /-- The renames are being indexed, or have been. -/
  index : ∀ w (r : Resolver) x, I w → I (w.withState r { w.stateOf r with renames := x })
  /-- A rename is remembered that was not remembered before it was looked for. -/
  rename : ∀ w₀ w (r : Resolver) key real, I w₀ → (w₀.stateOf r).renameMemo.get? key = none →
    I w → I (w.withState r
      { w.stateOf r with renameMemo := (w.stateOf r).renameMemo.insert key real })

/-- An invariant that the bookkeeping of admitted resolvers does not break. -/
structure Tended (C : Contract) (I : World → Prop) : Prop extends Renaming I where
  /-- A variable gets a fresh slot if the one it has does not fit its source. -/
  bind : ∀ w r name src, C.resolver r → r.sourceOf w name = some src →
    (w.slotOf r name).filter (fun p => p.2.fits src) = none → I w → I (w.bindSlot r name (.of src))
  /-- A value is kept in a slot that keeps none. -/
  keep : ∀ w id s v, w.slots.get? id = some s → s.frozen = none → I w → I (w.keepIn id s v)
  /-- A description begins to be evaluated. -/
  enter : ∀ w r name, I w → I (w.enter r name)
  /-- The innermost evaluation of a description ends. -/
  leave : ∀ w, I w → I w.leave

/-- An invariant that does not look at slots, at renames, at registered providers, or at which
variables are being evaluated. -/
structure Indifferent (I : World → Prop) : Prop where
  slots : ∀ w s, I w → I { w with slots := s }
  evaluating : ∀ w l, I w → I { w with evaluating := l }
  state : ∀ w (r : Resolver) s, s.types = (w.stateOf r).types → I w →
    I { w with resolvers := w.resolvers.insert r.id s }

theorem Indifferent.and {J : World → Prop} (hI : Indifferent I) (hJ : Indifferent J) :
    Indifferent fun w => I w ∧ J w where
  slots w s hw := ⟨hI.slots w s hw.1, hJ.slots w s hw.2⟩
  evaluating w l hw := ⟨hI.evaluating w l hw.1, hJ.evaluating w l hw.2⟩
  state w r s hs hw := ⟨hI.state w r s hs hw.1, hJ.state w r s hs hw.2⟩

theorem Indifferent.of_respects : Indifferent (World.Respects C) where
  slots _ _ hw := { hw with }
  evaluating _ _ hw := { hw with }
  state _ r _ hs hw :=
    { hw with types := Store.forall_insert hw.types (hs ▸ hw.typesOf r) }

theorem Indifferent.tended (hJ : Indifferent I) (hI : Noting C I) : Tended C I where
  bind w r name src _ _ _ hw := by
    have fresh : I { w with next := w.next + 1 } := hI.note _ _ .fresh (.of_members rfl) hw
    exact hJ.state _ r _ rfl (hJ.slots _ _ fresh)
  keep w id s v _ _ hw := hJ.slots w _ hw
  enter w r name hw := hJ.evaluating w _ hw
  leave w hw := hJ.evaluating w _ hw
  index w r _ hw := hJ.state w r _ rfl hw
  rename _ w r _ _ _ _ hw := hJ.state w r _ rfl hw

namespace Resolver

variable {r : Resolver}

section Registry

variable (hJ : Indifferent I)

include hJ

theorem keeps_update {f : ResolverState → ResolverState}
    (hf : ∀ s, (f s).types = s.types := by exact fun _ => rfl) :
    Act.Keeps I (fun _ => True) (r.update f) :=
  .update fun w hw => hJ.state w r _ (hf _) hw

theorem keeps_register (name : String) (p : Provider) :
    Act.Keeps I (fun _ => True) (r.register name p) :=
  (r.keeps_registered name).bind fun _ _ =>
    (keeps_update hJ).bind fun _ _ => .pure trivial

theorem keeps_unregister (name : String) : Act.Keeps I (fun _ => True) (r.unregister name) :=
  (r.keeps_registered name).bind fun _ _ =>
    (keeps_update hJ).bind fun _ _ => .pure trivial

end Registry

/-- Keeping a value in a slot keeps what that does not break. -/
theorem keeps_freeze {id : Identity}
    (keep : ∀ w s v, w.slots.get? id = some s → s.frozen = none → I w → I (w.keepIn id s v))
    (v : String) : Act.Keeps I (fun _ => True) (Slot.freeze id v) := by
  intro w a w' hw h
  rw [Slot.freeze, Act.bind_apply, Slot.frozenAt_eq] at h
  cases hf : (w.slots.get? id).bind Slot.frozen with
  | some kept =>
    rw [hf] at h
    cases h
    exact ⟨hw, trivial⟩
  | none =>
    rw [hf] at h
    cases h
    refine ⟨?_, trivial⟩
    dsimp only
    split
    · rename_i s hs
      rw [hs, Option.bind_some] at hf
      exact keep w s v hs hf hw
    · exact hw

theorem keeps_value (s : Slot) {id : Identity}
    (keep : ∀ w s v, w.slots.get? id = some s → s.frozen = none → I w → I (w.keepIn id s v))
    {compute : Act (Option String)} (hc : Act.Keeps I (fun _ => True) compute) :
    Act.Keeps I (fun _ => True) (s.value id compute) := by
  unfold Slot.value
  split
  · exact hc
  refine Act.Keeps.bind (P := fun _ => True) (Act.Keeps.world.bind fun _ _ => .pure trivial)
    fun o _ => ?_
  split
  · exact .pure trivial
  refine hc.bind fun o' _ => ?_
  split
  · exact .pure trivial
  · exact (keeps_freeze keep _).bind fun _ _ => .pure trivial

/-- Evaluating a description keeps `I` if the evaluation keeps what holds instead of `I` while it is
under way. -/
theorem keeps_guarded {J : World → Prop} {name : String} (enter : ∀ w, I w → J (w.enter r name))
    (leave : ∀ w, J w → I w.leave) {evaluation : Act (Option String)}
    (he : Act.Keeps J (fun _ => True) evaluation) :
    Act.Keeps I (fun _ => True) (r.guarded name evaluation) := by
  intro w o w' hw h
  cases heval : w.isEvaluating r name with
  | true =>
    rw [guarded_eq_of_evaluating _ heval] at h
    cases h
    exact ⟨hw, trivial⟩
  | false =>
    obtain ⟨w₁, hv, rfl⟩ := (guarded_eq_done _ heval).1 h
    exact ⟨leave w₁ (he (enter w hw) hv).1, trivial⟩

/-- Asking a source keeps `I` if evaluating a description keeps what holds instead of `I` while it is
under way. -/
theorem keeps_ask_within {J : World → Prop} (hC : C.Basic) (hrun : h.Runs C I) {name : String}
    (enter : ∀ w, I w → J (w.enter r name)) (leave : ∀ w, J w → I w.leave)
    (he : ∀ d, Act.Keeps J (fun _ => True) (r.evaluate h d)) (src : SlotSource) :
    Act.Keeps I (fun _ => True) (r.ask h name src) := by
  unfold ask
  split
  · exact keeps_get hC hrun _
  · exact .pure trivial
  · exact keeps_guarded enter leave (he _)

/-- Finding the slot of a variable keeps what giving it a fresh one does not break. -/
theorem keeps_slotFor {name : String}
    (bind : ∀ w src, r.sourceOf w name = some src →
      (w.slotOf r name).filter (fun p => p.2.fits src) = none → I w →
      I (w.bindSlot r name (.of src))) :
    Act.Keeps I (fun _ => True) (r.slotFor name) := by
  intro w o w' hw h
  rw [slotFor_eq] at h
  cases hsrc : r.sourceOf w name with
  | none =>
    rw [hsrc] at h
    cases h
    exact ⟨hw, trivial⟩
  | some src =>
    rw [hsrc] at h
    dsimp only at h
    cases hs : (w.slotOf r name).filter fun p => p.2.fits src with
    | some p =>
      rw [hs] at h
      cases h
      exact ⟨hw, trivial⟩
    | none =>
      rw [hs] at h
      cases h
      exact ⟨bind w src hsrc hs hw, trivial⟩

/-- Asking for a variable keeps `I` if evaluating a description keeps what holds instead of `I` while
it is under way. -/
theorem keeps_valueOf_within {J : World → Prop} (hC : C.Basic) (hrun : h.Runs C I) {name : String}
    (bind : ∀ w src, r.sourceOf w name = some src →
      (w.slotOf r name).filter (fun p => p.2.fits src) = none → I w →
      I (w.bindSlot r name (.of src)))
    (keep : ∀ w id s v, w.slots.get? id = some s → s.frozen = none → I w → I (w.keepIn id s v))
    (enter : ∀ w, I w → J (w.enter r name)) (leave : ∀ w, J w → I w.leave)
    (he : ∀ d, Act.Keeps J (fun _ => True) (r.evaluate h d)) :
    Act.Keeps I (fun _ => True) (r.valueOf h name) := by
  rw [valueOf_eq]
  refine (keeps_slotFor bind).bind fun o _ => ?_
  split
  · exact .pure trivial
  · exact keeps_value _ (keep · _) (keeps_ask_within hC hrun enter leave he _)

/-- Asking a source keeps what the bookkeeping does not break. -/
theorem keeps_ask (hT : Tended C I) (hI : Stable C I) (hC : C.Basic) (hr : C.resolver r)
    (hrun : h.Runs C I) (hh : h.Reads C I) (name : String) (src : SlotSource) :
    Act.Keeps I (fun _ => True) (r.ask h name src) :=
  keeps_ask_within hC hrun (fun w hw => hT.enter w r name hw) hT.leave
    (keeps_evaluate hI hC hrun hr hh) src

/-- Asking for a variable keeps what the bookkeeping does not break. -/
theorem keeps_valueOf (hT : Tended C I) (hI : Stable C I) (hC : C.Basic) (hr : C.resolver r)
    (hrun : h.Runs C I) (hh : h.Reads C I) (name : String) :
    Act.Keeps I (fun _ => True) (r.valueOf h name) :=
  keeps_valueOf_within hC hrun (hT.bind · r name · hr) hT.keep (fun w hw => hT.enter w r name hw)
    hT.leave (keeps_evaluate hI hC hrun hr hh)

/-! ### Members -/

/-- What resolving a member comes to. -/
structure Member where
  /-- The resolved owner. -/
  owner : String
  /-- The real name. -/
  real : String
  /-- Whether the owner renames it. -/
  renamed : Bool

/-- Find the real name of a logical member of a resolved owner for which no rename is remembered,
and whether it was renamed. -/
def renameAnew (h : Host) (r : Resolver) (owner logical : String) : Act (String × Bool) := do
  let index ← r.renameIndex h
  let (real, renamed) ← r.renameUpTo h (index.get? owner) Template.maxPasses logical
  if renamed then
    r.update fun s => { s with renameMemo := s.renameMemo.insert (owner, logical) real }
  return (real, renamed)

/-- Resolve a member, and tell also for which owner and whether by a rename.  A rename that is
remembered counts as one. -/
def findMember (h : Host) (r : Resolver) (owner logical : String) : Act Member := do
  let owner ← r.substitute h owner
  match (← r.state).renameMemo.get? (owner, logical) with
  | some real => return ⟨owner, real, true⟩
  | none => (fun x => ⟨owner, x.1, x.2⟩) <$> r.renameAnew h owner logical

theorem resolveMember_eq (h : Host) (r : Resolver) (owner logical : String) :
    r.resolveMember h owner logical = Member.real <$> r.findMember h owner logical := by
  simp only [resolveMember, findMember, map_bind]
  congr 1
  funext owner
  congr 1
  funext s
  cases s.renameMemo.get? (owner, logical) with
  | some real => simp
  | none =>
    simp only [renameAnew, Functor.map_map, map_bind]
    congr 1
    funext index
    congr 1
    funext x
    obtain ⟨real, renamed⟩ := x
    cases renamed <;> simp

section Members

variable (hr : C.resolver r) (hh : h.Reads C I)

include hr hh

theorem keeps_indexRenames (l : List (String × List Mapping.Rename)) (index : RenameIndex) :
    Act.Keeps I (fun _ => True) (r.indexRenames h l index) := by
  induction l generalizing index with
  | nil => exact .pure trivial
  | cons e rest ih => exact (keeps_substitute hr hh e.1).bind fun _ _ => ih _

theorem keeps_renameUpTo (table : Option (Table String String)) (passes : Nat) (text : String) :
    Act.Keeps I (fun _ => True) (r.renameUpTo h table passes text) := by
  induction passes generalizing text with
  | zero =>
    unfold renameUpTo
    split
    · exact .pure trivial
    · split <;> exact .pure trivial
  | succ passes ih =>
    unfold renameUpTo
    split
    · exact .pure trivial
    · split
      · exact (keeps_pass hr hh text).bind fun text _ => ih text
      · exact .pure trivial

/-- Indexing the renames keeps what writing the index does not break. -/
theorem keeps_renameIndex
    (index : ∀ w x, I w → I (w.withState r { w.stateOf r with renames := x })) :
    Act.Keeps I (fun _ => True) (r.renameIndex h) := by
  refine r.keeps_state.bind fun s _ => ?_
  split
  · exact .pure trivial
  · exact .blocked
  · exact (Act.Keeps.update fun w hw => index w _ hw).bind fun _ _ =>
      (keeps_indexRenames hr hh _ _).bind fun _ _ =>
        (Act.Keeps.update fun w hw => index w _ hw).bind fun _ _ => .pure trivial

/-- Finding a member keeps what indexing the renames and remembering one keep. -/
theorem keeps_findMember (index : Act.Keeps I (fun _ => True) (r.renameIndex h))
    (rename : ∀ w₀ w key real, I w₀ → (w₀.stateOf r).renameMemo.get? key = none → I w →
      I (w.withState r
        { w.stateOf r with renameMemo := (w.stateOf r).renameMemo.insert key real }))
    (owner logical : String) : Act.Keeps I (fun _ => True) (r.findMember h owner logical) := by
  refine (keeps_substitute hr hh owner).bind fun owner _ => ?_
  intro w₀ m w' hw₀ hm
  obtain ⟨_, _, hs, hm⟩ := Act.bind_eq_done.1 hm
  cases hs
  cases hmemo : (w₀.stateOf r).renameMemo.get? (owner, logical) with
  | some real =>
    rw [hmemo] at hm
    cases hm
    exact ⟨hw₀, trivial⟩
  | none =>
    rw [hmemo] at hm
    -- the memo may have got an entry in the meantime, but it had none where the invariant held
    have anew : Act.Keeps I (fun _ => True) (r.renameAnew h owner logical) := by
      refine index.bind fun index _ => (keeps_renameUpTo hr hh _ _ _).bind fun x _ => ?_
      dsimp only
      split
      · exact (Act.Keeps.update fun w hw => rename w₀ w _ x.1 hw₀ hmemo hw).bind
          fun _ _ => .pure trivial
      · exact .pure trivial
    exact (anew.map (Q := fun _ => True) fun _ _ => trivial) hw₀ hm

/-- Resolving a member keeps what asking for variables keeps. -/
theorem keeps_resolveMember (hN : Renaming I) (owner logical : String) :
    Act.Keeps I (fun _ => True) (r.resolveMember h owner logical) := by
  rw [resolveMember_eq]
  refine (keeps_findMember hr hh (keeps_renameIndex hr hh (hN.index · r)) (hN.rename · · r) owner
    logical).map fun _ _ => trivial

end Members

end Resolver

end LateBinding
