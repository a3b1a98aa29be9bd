import Mathlib.Logic.Relation
import LateBinding.Proofs.Activity

/-!
# Renames that are remembered

A rename that was applied is remembered for the resolved owner and the logical name, and from then
on it is what resolving this member comes to.  It is written down when a call ends, whatever was
remembered in the meantime.  So a call that has ended with a rename settles what all calls that
start later come to (`Resolver.renamed_member_stays`).

While a call is under way, the substitution of its logical name may run a body that calls an
adapter of the same resolver, and thereby resolves the same member.  What this nested call
remembers is overwritten when the call around it ends with another rename
(`Resolver.nested_rename_is_overwritten`).
-/

namespace LateBinding.Resolver

variable {r : Resolver} {w w' : World} {owner logical real : String} {m : Member} {h : Host}
  {n : Nat}

/-! ### What is remembered -/

/-- The rename of a logical member of a resolved owner is remembered. -/
def Remembers (r : Resolver) (owner logical real : String) (w : World) : Prop :=
  (w.stateOf r).renameMemo.get? (owner, logical) = some real

theorem Remembers.withState (hw : r.Remembers owner logical real w) {r' : Resolver}
    {s : ResolverState} (hs : s.renameMemo = (w.stateOf r').renameMemo) :
    r.Remembers owner logical real (w.withState r' s) := by
  rw [Remembers, w.apply_stateOf_withState ResolverState.renameMemo hs r]
  exact hw

theorem Remembers.of_spares (hw : r.Remembers owner logical real w) (h : w.Spares r w') :
    r.Remembers owner logical real w' := by
  rw [Remembers, h.renameMemo]
  exact hw

/-- Bookkeeping keeps what is remembered: a rename is only written where none was when it was
looked for. -/
theorem tended_remembers (r : Resolver) (owner logical real : String) :
    Tended (.free fun _ => True) (r.Remembers owner logical real) where
  bind w r' name src _ _ _ hw := by
    have slot : r.Remembers owner logical real
        { w with next := w.next + 1, slots := w.slots.insert w.next (.of src) } := hw
    exact slot.withState rfl
  keep _ _ _ _ _ _ hw := hw
  enter _ _ _ hw := hw
  leave _ hw := hw
  index _ _ _ hw := hw.withState rfl
  rename w₀ w r' key real' hw₀ hmiss hw := by
    rw [Remembers, World.stateOf_withState]
    by_cases hid : r'.id = r.id
    · have hne : key ≠ (owner, logical) := by
        rintro rfl
        rw [w₀.stateOf_congr hid, show _ = some real from hw₀] at hmiss
        cases hmiss
      rw [if_pos hid, Table.get?_insert, if_neg hne, w.stateOf_congr hid]
      exact hw
    · rw [if_neg hid]
      exact hw

theorem bookInvariant_remembers (r : Resolver) (owner logical real : String) :
    r.BookInvariant (r.Remembers owner logical real) :=
  ⟨fun _ _ h hw => hw.of_spares h, tended_remembers r owner logical real⟩

/-- What is remembered stays remembered. -/
theorem Remembers.activity (hw : r.Remembers owner logical real w) (h : r.Activity w w') :
    r.Remembers owner logical real w' := by
  obtain ⟨r', t, rfl⟩ | keeps := h.keeps_or_registers
  · exact hw.withState rfl
  · exact keeps _ (bookInvariant_remembers r owner logical real) hw

theorem Remembers.activities (hw : r.Remembers owner logical real w)
    (h : Relation.ReflTransGen r.Activity w w') : r.Remembers owner logical real w' := by
  induction h with
  | refl => exact hw
  | tail _ h ih => exact ih.activity h

/-! ### Members -/

/-- A call substitutes the owner; then the rename is remembered, or it is looked for. -/
theorem findMember_cases {template : String}
    (hm : r.findMember h template logical w = .done m w') :
    ∃ w₁, r.substitute h template w = .done m.owner w₁ ∧
      (r.Remembers m.owner logical m.real w₁ ∧ m.renamed = true ∧ w' = w₁ ∨
        (w₁.stateOf r).renameMemo.get? (m.owner, logical) = none ∧
          r.renameAnew h m.owner logical w₁ = .done (m.real, m.renamed) w') := by
  obtain ⟨o, w₁, ho, hm⟩ := Act.bind_eq_done.1 hm
  obtain ⟨_, _, hs, hm⟩ := Act.bind_eq_done.1 hm
  cases hs
  cases hmemo : (w₁.stateOf r).renameMemo.get? (o, logical) with
  | some real =>
    rw [hmemo] at hm
    cases hm
    exact ⟨_, ho, .inl ⟨hmemo, rfl, rfl⟩⟩
  | none =>
    rw [hmemo, ← bind_pure_comp] at hm
    obtain ⟨x, w₂, hx, hm⟩ := Act.bind_eq_done.1 hm
    cases hm
    exact ⟨w₁, ho, .inr ⟨hmemo, hx⟩⟩

/-- A call that ends with a rename leaves it remembered, whatever was remembered meanwhile. -/
theorem remembers_of_findMember {template : String}
    (hm : r.findMember h template logical w = .done m w') (renamed : m.renamed = true) :
    r.Remembers m.owner logical m.real w' := by
  obtain ⟨w₁, -, ⟨remembered, -, rfl⟩ | ⟨-, hx⟩⟩ := findMember_cases hm
  · exact remembered
  · obtain ⟨o, real, _⟩ := m
    obtain rfl := renamed
    obtain ⟨index, w₂, -, hx⟩ := Act.bind_eq_done.1 hx
    obtain ⟨⟨text, found⟩, w₃, -, hx⟩ := Act.bind_eq_done.1 hx
    cases found with
    | false => cases hx
    | true =>
      cases hx
      simp [Remembers, World.stateOf]

/-- A call for an owner whose rename is remembered comes to this rename. -/
theorem Remembers.findMember (hw : r.Remembers owner logical real w) {template : String}
    (hm : r.findMember (Host.level n) template logical w = .done m w') (same : m.owner = owner) :
    m.real = real ∧ m.renamed = true := by
  subst same
  obtain ⟨w₁, ho, hm⟩ := findMember_cases hm
  -- the owner is substituted first, which keeps what is remembered
  have hw₁ : r.Remembers m.owner logical real w₁ :=
    (bookInvariant_remembers r m.owner logical real).substitute hw ho
  rcases hm with ⟨remembered, renamed, -⟩ | ⟨missing, -⟩
  · have same : some m.real = some real := remembered.symm.trans hw₁
    exact ⟨Option.some.inj same, renamed⟩
  · have : some real = none := hw₁.symm.trans missing
    cases this

/-- **A rename that a call has ended with stays.**  If resolving a logical member came to a real
name by a rename, then after any activities resolving it for the same resolved owner comes to this
name again, whatever the templates of the owners are and however deep evaluations nest. -/
theorem renamed_member_stays {n n' : Nat} {template template' : String} {w₀ w₁ w₂ w₃ : World}
    {m m' : Member} (first : r.findMember (Host.level n) template logical w₀ = .done m w₁)
    (renamed : m.renamed = true) (between : Relation.ReflTransGen r.Activity w₁ w₂)
    (later : r.findMember (Host.level n') template' logical w₂ = .done m' w₃)
    (same : m'.owner = m.owner) :
    (r.resolveMember (Host.level n) template logical w₀ = .done m.real w₁) ∧
      (r.resolveMember (Host.level n') template' logical w₂ = .done m.real w₃) ∧
      m'.renamed = true := by
  have remembered := (remembers_of_findMember first renamed).activities between
  obtain ⟨real, again⟩ := remembered.findMember later same
  refine ⟨?_, ?_, again⟩
  · rw [resolveMember_eq]
    exact Act.map_eq_done first
  · rw [resolveMember_eq, ← real]
    exact Act.map_eq_done later

namespace Jumps

/-- The members `a` and `b` of one type have other names in reality. -/
def document : Mapping.Document :=
  (Mapping.Document.empty.rename "pkg.T" "a" "one").rename "pkg.T" "b" "two"

/-- A resolver of this document. -/
def resolver : Resolver := ⟨0, document, .root 1 "main"⟩

/-- A provider that gives the first of the two names. -/
def first : Provider := ⟨2, none, .lazy, .constant "a"⟩

/-- A provider that gives the second one. -/
def second : Provider := ⟨3, none, .lazy, .constant "b"⟩

/-- A client that holds all of this. -/
def names : Session.Names where
  scopes := ∅
  classes := ∅
  resolvers := Table.ofList [("r", resolver)]
  providers := Table.ofList [("first", first), ("second", second)]

/-- The world in which the first provider is registered. -/
def start : World := World.empty.withRegistry resolver (Table.ofList [("x", first)])

/-- The member is resolved, the other provider is registered, and the member is resolved again. -/
def calls : Act (Member × Option Provider × Member) := do
  let m ← resolver.findMember (Host.level 2) "pkg.T" "@x@"
  let _ ← Session.run (fun _ => true) (Host.level 2) [.register "r" "x" "second"] names
  let p ← resolver.registered "x"
  let m' ← resolver.findMember (Host.level 2) "pkg.T" "@x@"
  return (m, p, m')

/-- What is seen of the calls: the first member, which provider is registered, and the owner of the
second member. -/
def told (calls : Member × Option Provider × Member) (_ : World) :
    (String × String × Bool) × Option Identity × String :=
  ((calls.1.owner, calls.1.real, calls.1.renamed), calls.2.1.map Provider.id, calls.2.2.owner)

end Jumps

open Jumps in
/-- A member that was renamed by the value of a variable keeps its real name when the variable gets
another value. -/
theorem member_stays_one : ∃ w₁ w₂ w₃,
    resolver.findMember (Host.level 2) "pkg.T" "@x@" start = .done ⟨"pkg.T", "one", true⟩ w₁ ∧
      Relation.ReflTransGen resolver.Activity w₁ w₂ ∧
      (∃ p, (w₂.stateOf resolver).registry.get? "x" = some p ∧ p.id = second.id) ∧
      resolver.resolveMember (Host.level 2) "pkg.T" "@x@" w₂ = .done "one" w₃ := by
  have seen : (calls start).seen told = some (("pkg.T", "one", true), some 3, "pkg.T") := by
    decide +kernel
  obtain ⟨⟨m, p, m'⟩, w₃, hcalls, told⟩ := Outcome.exists_of_seen seen
  simp only [Jumps.told, Prod.mk.injEq] at told
  obtain ⟨⟨howner, hreal, hrenamed⟩, hp, howner'⟩ := told
  obtain ⟨m₁, w₁, first, h⟩ := Act.bind_eq_done.1 hcalls
  obtain ⟨y, w₂, change, h⟩ := Act.bind_eq_done.1 h
  obtain ⟨p₁, _, registered, h⟩ := Act.bind_eq_done.1 h
  cases registered
  obtain ⟨m₂, _, later, h⟩ := Act.bind_eq_done.1 h
  cases h
  obtain ⟨p, hget, hid⟩ := Option.map_eq_some_iff.1 hp
  have stays := renamed_member_stays first hrenamed (activities_of_run _ change) later
    (howner'.trans howner.symm)
  obtain ⟨owner, real, renamed⟩ := m
  simp only at howner hreal hrenamed
  subst howner hreal hrenamed
  exact ⟨w₁, w₂, w₃, first, activities_of_run _ change, ⟨p, hget, hid⟩, stays.2.1⟩

namespace Nested

open Session

/-- A method that leaves its name in a register. -/
def marking (name : String) : MethodDecl :=
  ⟨name, [], "str", .pub, false, [],
    some (.sequence [.store "last" (.literal (.str name)), .literal (.str "done")])⟩

/-- A logical method whose real name depends on a variable. -/
def go : MethodDecl := ⟨"go", [], "str", .pub, false, [.rename "@x@"], none⟩

/-- The first time it is asked, the provider calls the adapter's method itself, and takes down which
method that came to. -/
def body : Expr :=
  .choose (.equal (.register "inside") (.literal (.bool true))) (.literal (.str "a"))
    (.sequence [.store "inside" (.literal (.bool true)), .call (.register "adapter") "go" [],
      .store "early" (.register "last"), .literal (.str "b")])

/-- A client makes an adapter, registers the provider of the variable, and calls the adapter's
method. -/
def requests : List Request := [
  .scope "app" "app" none,
  .define "raw" ⟨"pkg.T", .concrete, none, [marking "one", marking "two"], [], [], []⟩
    (some "app"),
  .define "logical" ⟨"app.T", .interface, none, [go], [], [], [.adapts "pkg.T"]⟩ (some "app"),
  .resolver "r" Jumps.document "app",
  .newInstance "adapter" "r" "app.T" [] [] none,
  .provider "p" .lazy (.computed body none),
  .register "r" "x" "p",
  .call "first" (.register "adapter") "go" []]

/-- After the requests, what the provider took down is read, and the member that the method stands
for is resolved. -/
def story : Act (Option (Option String × String)) := do
  let k ← Session.run (fun _ => true) (Host.level 8) requests ∅
  match k.resolvers.get? "r" with
  | none => return none
  | some r =>
    let w ← Act.world
    let later ← r.resolveMember (Host.level 8) "pkg.T" "@x@"
    return some ((w.registers.get? "early").bind Value.str?, later)

/-- Only a text has the text of a value. -/
theorem eq_str_of_str? {v : Value} {s : String} (h : v.str? = some s) : v = .str s := by
  cases v <;> simp_all [Value.str?]

end Nested

open Nested in
/-- **What a nested call remembers can be overwritten.**  While a call of the adapter's method is
under way, the provider that it asks calls this method too; that call comes to a real name first,
and the provider takes it down.  When the call around it has ended, resolving the same member comes
to another name. -/
theorem nested_rename_is_overwritten :
    ¬ ∀ (k : Session.Names) (r : Resolver) (w w' : World) (early later : String),
      Session.run (fun _ => true) (Host.level 8) requests ∅ World.empty = .done k w →
        k.resolvers.get? "r" = some r →
        w.registers.get? "early" = some (.str early) →
        r.resolveMember (Host.level 8) "pkg.T" "@x@" w = .done later w' → later = early := by
  intro claim
  have seen : (story World.empty).seen (fun x _ => x) = some (some (some "one", "two")) := by
    decide +kernel
  obtain ⟨_, w', hstory, rfl⟩ := Outcome.exists_of_seen seen
  obtain ⟨k, w, hrun, h⟩ := Act.bind_eq_done.1 hstory
  cases hr : k.resolvers.get? "r" with
  | none =>
    rw [hr] at h
    cases h
  | some r =>
    rw [hr] at h
    obtain ⟨_, _, hworld, h⟩ := Act.bind_eq_done.1 h
    cases hworld
    obtain ⟨later, w₁, hlater, h⟩ := Act.bind_eq_done.1 h
    simp only [Act.pure_apply, Outcome.done.injEq, Option.some.injEq, Prod.mk.injEq] at h
    obtain ⟨⟨hearly, rfl⟩, -⟩ := h
    obtain ⟨v, hv, hstr⟩ := Option.bind_eq_some_iff.1 hearly
    obtain rfl := eq_str_of_str? hstr
    have same := claim k r _ w₁ "one" "two" hrun hr hv hlater
    revert same
    decide

end LateBinding.Resolver
