import Mathlib.Data.Nat.Find
import LateBinding.Proofs.Literal

/-!
# Renames of members

For a document of literal variables the real name of a member is a matter of the document alone.
Its renames can be indexed by what their owner templates resolve to
(`Mapping.Document.realName?`); if templates that resolve to one owner do not contradict each
other, this says just what the entries say (`Mapping.Document.realName?_eq_some_iff`).  A logical
name and its passes are looked up in turn, and the first one that is renamed gives the real name
(`Mapping.Document.Answer`); if none is, the name that substitution gives stays.

The index that a resolver makes once is this index, and what it remembers of applied renames are
answers (`Resolver.Faithful`).  So **resolving a member gives what the document says**, whatever
was asked before (`Resolver.resolveMember_of_faithful`).
-/

namespace LateBinding

/-! ### Indexing -/

/-- The real name that renames give a logical name; the last one counts. -/
def lastReal (renames : List Mapping.Rename) (logical : String) : Option String :=
  (renames.reverse.find? fun rn => rn.logical = logical).map Mapping.Rename.real

theorem lastReal_append_singleton (renames : List Mapping.Rename) (rn : Mapping.Rename)
    (logical : String) : lastReal (renames ++ [rn]) logical =
      if rn.logical = logical then some rn.real else lastReal renames logical := by
  rw [lastReal, List.reverse_append, List.reverse_singleton, List.singleton_append,
    List.find?_cons]
  by_cases h : rn.logical = logical <;> simp [h, lastReal]

theorem Resolver.get?_enterRenames (table : Table String String) (renames : List Mapping.Rename)
    (logical : String) : (enterRenames table renames).get? logical =
      (lastReal renames logical).or (table.get? logical) := by
  induction renames using List.reverseRecOn with
  | nil => rfl
  | append_singleton renames rn ih =>
    rw [enterRenames, List.foldl_append, List.foldl_cons, List.foldl_nil, Table.get?_insert,
      lastReal_append_singleton]
    split
    · rfl
    · exact ih

namespace RenameIndex

/-- The real name under which the index knows a logical name of an owner. -/
def real? (index : RenameIndex) (owner logical : String) : Option String :=
  (index.get? owner).bind fun t => t.get? logical

/-- The index with the renames of owner templates, by what these resolve to. -/
def enter (resolve : String → String) : List (String × List Mapping.Rename) → RenameIndex →
    RenameIndex
  | [], index => index
  | (template, renames) :: rest, index =>
    enter resolve rest (index.insert (resolve template)
      (Resolver.enterRenames ((index.get? (resolve template)).getD ∅) renames))

variable {resolve : String → String}

theorem real?_insert (index : RenameIndex) (owner o : String) (renames : List Mapping.Rename)
    (logical : String) :
    real? (index.insert owner (Resolver.enterRenames ((index.get? owner).getD ∅) renames)) o
        logical =
      if owner = o then (lastReal renames logical).or (index.real? o logical)
      else index.real? o logical := by
  rw [real?, Table.get?_insert]
  split
  · rename_i ho
    subst ho
    rw [Option.bind_some, Resolver.get?_enterRenames, real?]
    cases index.get? owner <;> rfl
  · rfl

/-- If all entered renames of a logical name agree, the index says what they say. -/
theorem real?_enter {owner logical : String} {real : Option String}
    (l : List (String × List Mapping.Rename)) (index : RenameIndex)
    (agree : ∀ e ∈ l, resolve e.1 = owner → ∀ x, lastReal e.2 logical = some x → real = some x)
    (start : index.real? owner logical = real ∨
      ∃ e ∈ l, resolve e.1 = owner ∧ ∃ x, lastReal e.2 logical = some x) :
    (enter resolve l index).real? owner logical = real := by
  induction l generalizing index with
  | nil =>
    rcases start with h | ⟨e, he, -⟩
    · exact h
    · cases he
  | cons e rest ih =>
    obtain ⟨template, renames⟩ := e
    refine ih _ (fun e he => agree e (List.mem_cons_of_mem _ he)) ?_
    rw [real?_insert]
    by_cases ho : resolve template = owner
    · rw [if_pos ho]
      cases hx : lastReal renames logical with
      | some x => exact .inl (agree _ List.mem_cons_self ho x hx).symm
      | none =>
        rw [Option.none_or]
        rcases start with h | ⟨e, he, heo, x, hex⟩
        · exact .inl h
        · rcases List.mem_cons.1 he with rfl | he
          · rw [hx] at hex
            cases hex
          · exact .inr ⟨e, he, heo, x, hex⟩
    · rw [if_neg ho]
      rcases start with h | ⟨e, he, heo, hx⟩
      · exact .inl h
      · rcases List.mem_cons.1 he with rfl | he
        · exact absurd heo ho
        · exact .inr ⟨e, he, heo, hx⟩

end RenameIndex

/-! ### What the document says -/

namespace Mapping.Document

variable (doc : Document)

/-- Some owner template that resolves to this owner renames the logical name. -/
def RenamedTo (owner logical real : String) : Prop :=
  ∃ template renames, (template, renames) ∈ doc.renames.entries ∧
    doc.resolved template = owner ∧ lastReal renames logical = some real

/-- Owner templates that resolve to one owner agree on the logical names that they rename. -/
def Consistent : Prop :=
  ∀ owner logical real real', doc.RenamedTo owner logical real →
    doc.RenamedTo owner logical real' → real = real'

/-- The index of all renames. -/
def index : RenameIndex := .enter doc.resolved doc.renames.entries ∅

/-- The real name that is indexed for a logical name of an owner. -/
def realName? (owner logical : String) : Option String := doc.index.real? owner logical

/-- The logical name after some passes. -/
def after (passes : Nat) (logical : String) : String :=
  (Template.once doc.literal?)^[passes] logical

/-- The first text that is renamed, among the logical name and its passes, has this real name. -/
def Answer (owner logical real : String) : Prop :=
  ∃ k ≤ Template.maxPasses, doc.realName? owner (doc.after k logical) = some real ∧
    ∀ j < k, doc.realName? owner (doc.after j logical) = none

variable {doc}

theorem realName?_eq_some_iff (hdoc : doc.Consistent) {owner logical real : String} :
    doc.realName? owner logical = some real ↔ doc.RenamedTo owner logical real := by
  constructor
  · intro h
    by_contra hno
    -- without this entry the index says what the others agree on, or nothing
    by_cases hany : ∃ other, doc.RenamedTo owner logical other
    · obtain ⟨other, hother⟩ := hany
      have indexed : doc.realName? owner logical = some other := by
        obtain ⟨template, renames, hmem, ho, hx⟩ := hother
        refine RenameIndex.real?_enter _ ∅ (fun e he heo x hex => ?_)
          (.inr ⟨_, hmem, ho, _, hx⟩)
        rw [hdoc _ _ _ _ ⟨template, renames, hmem, ho, hx⟩ ⟨e.1, e.2, he, heo, hex⟩]
      rw [h] at indexed
      cases indexed
      exact hno hother
    · have indexed : doc.realName? owner logical = none :=
        RenameIndex.real?_enter _ ∅
          (fun e he heo x hex => absurd ⟨x, e.1, e.2, he, heo, hex⟩ hany) (.inl rfl)
      rw [h] at indexed
      cases indexed
  · rintro ⟨template, renames, hmem, ho, hx⟩
    refine RenameIndex.real?_enter _ ∅ (fun e he heo x hex => ?_) (.inr ⟨_, hmem, ho, _, hx⟩)
    rw [hdoc _ _ _ _ ⟨template, renames, hmem, ho, hx⟩ ⟨e.1, e.2, he, heo, hex⟩]

theorem realName?_eq_none_iff (hdoc : doc.Consistent) {owner logical : String} :
    doc.realName? owner logical = none ↔ ∀ real, ¬ doc.RenamedTo owner logical real := by
  simp only [← realName?_eq_some_iff hdoc, Option.eq_none_iff_forall_ne_some]

theorem Answer.unique {owner logical real real' : String}
    (h : doc.Answer owner logical real) (h' : doc.Answer owner logical real') : real = real' := by
  obtain ⟨k, -, hk, hfirst⟩ := h
  obtain ⟨k', -, hk', hfirst'⟩ := h'
  rcases Nat.lt_trichotomy k k' with hlt | rfl | hlt
  · rw [hfirst' k hlt] at hk
    cases hk
  · rw [hk] at hk'
    cases hk'
    rfl
  · rw [hfirst k' hlt] at hk'
    cases hk'

/-- Some text that is in reach is renamed, or none is. -/
theorem answer_or_none (doc : Document) (owner logical : String) :
    (∃ real, doc.Answer owner logical real) ∨
      ∀ k ≤ Template.maxPasses, doc.realName? owner (doc.after k logical) = none := by
  by_cases h : ∃ k ≤ Template.maxPasses, doc.realName? owner (doc.after k logical) ≠ none
  · classical
    obtain ⟨hk, hne⟩ := Nat.find_spec h
    obtain ⟨real, hreal⟩ := Option.ne_none_iff_exists'.1 hne
    refine .inl ⟨real, _, hk, hreal, fun j hj => ?_⟩
    by_contra hj'
    exact Nat.find_min h hj ⟨Nat.le_trans (Nat.le_of_lt hj) hk, hj'⟩
  · refine .inr fun k hk => ?_
    by_contra hne
    exact h ⟨k, hk, hne⟩

end Mapping.Document

namespace Resolver

variable {r : Resolver} {w w' : World} {h : Host}

/-! ### Looking a name and its passes up -/

section Search

variable {I : World → Prop} {f : String → Option String} {table : Option (Table String String)}

/-- The first text that is renamed is found, if it is not out of reach. -/
theorem gives_renameUpTo_of_first (hl : ∀ name, Act.Gives I (f name) (h.valueOf r name))
    {k passes : Nat} (hk : k ≤ passes) {text real : String}
    (found : (table.bind fun t => t.get? ((Template.once f)^[k] text)) = some real)
    (first : ∀ j < k, (table.bind fun t => t.get? ((Template.once f)^[j] text)) = none) :
    Act.Gives I (real, true) (r.renameUpTo h table passes text) := by
  induction k generalizing passes text with
  | zero =>
    unfold renameUpTo
    rw [show (table.bind fun t => t.get? text) = some real from found]
    exact .pure _
  | succ k ih =>
    have missing : (table.bind fun t => t.get? text) = none := first 0 (Nat.succ_pos _)
    obtain ⟨passes, rfl⟩ : ∃ p, passes = p + 1 := Nat.exists_eq_succ_of_ne_zero (by omega)
    -- without a token all passes give the same text, which is not renamed
    have ht : Template.hasTokens text = true := by
      by_contra ht
      rw [Template.iterate_once_of_not_hasTokens f (by simpa using ht), missing] at found
      cases found
    unfold renameUpTo
    rw [missing]
    dsimp only
    rw [if_pos ht]
    refine .bind (gives_pass hl text) (ih (by omega) found fun j hj => ?_)
    exact first (j + 1) (by omega)

/-- If nothing that is in reach is renamed, the last text stays. -/
theorem gives_renameUpTo_of_none (hl : ∀ name, Act.Gives I (f name) (h.valueOf r name))
    {passes : Nat} {text : String}
    (none : ∀ k ≤ passes, (table.bind fun t => t.get? ((Template.once f)^[k] text)) = none) :
    Act.Gives I ((Template.once f)^[passes] text, false) (r.renameUpTo h table passes text) := by
  induction passes generalizing text with
  | zero =>
    unfold renameUpTo
    rw [show (table.bind fun t => t.get? text) = .none from none 0 (Nat.le_refl _)]
    dsimp only
    split <;> exact .pure _
  | succ passes ih =>
    unfold renameUpTo
    rw [show (table.bind fun t => t.get? text) = .none from none 0 (Nat.zero_le _)]
    dsimp only
    split
    · refine .bind (gives_pass hl text) (ih fun k hk => ?_)
      exact none (k + 1) (by omega)
    · -- the passes that are left change nothing
      rename_i ht
      rw [Template.iterate_once_of_not_hasTokens f (by simpa using ht)]
      exact .pure _

end Search

/-! ### Faithful resolvers -/

/-- The resolver is plain, its index is that of its document, and it remembers answers only. -/
structure Faithful (r : Resolver) (w : World) : Prop extends Plain r w where
  index : (w.stateOf r).renames = .unset ∨ (w.stateOf r).renames = .ready r.document.index
  memo : ∀ owner logical real, (w.stateOf r).renameMemo.get? (owner, logical) = some real →
    r.document.Answer owner logical real

/-- A resolver is plain whatever it knows of renames. -/
theorem Plain.withState (hw : r.Plain w) {s : ResolverState}
    (hreg : ∀ name, s.registry.get? name = none) (hslots : s.slots = (w.stateOf r).slots) :
    r.Plain (w.withState r s) where
  registry name := by
    rw [World.stateOf_withState_self]
    exact hreg name
  slots name id hid := by
    rw [World.stateOf_withState_self, hslots] at hid
    exact hw.slots name id hid

theorem Faithful.of_spares (hw : r.Faithful w) (h : w.Spares r w') : r.Faithful w' where
  toPlain := hw.toPlain.of_spares h
  index := by
    rw [h.renames]
    exact hw.index
  memo := by
    rw [h.renameMemo]
    exact hw.memo

theorem Faithful.of_books (hw : r.Faithful w) (hplain : r.Plain w')
    (hbooks : r.renameBooks w' = r.renameBooks w) : r.Faithful w' := by
  obtain ⟨hindex, hmemo⟩ := Prod.mk.inj hbooks
  refine ⟨hplain, ?_, ?_⟩
  · rw [hindex]
    exact hw.index
  · rw [hmemo]
    exact hw.memo

/-- What is given whatever is known of renames, and leaves that as it is, is given by faithful
resolvers. -/
theorem Faithful.gives {α : Type} {a : α} {x : Act α}
    (hx : ∀ books, Act.Gives (fun w => r.Plain w ∧ r.renameBooks w = books) a x) :
    Act.Gives r.Faithful a x := by
  intro w hw
  obtain ⟨w', hrun, hplain, hbooks⟩ := hx (r.renameBooks w) w ⟨hw.toPlain, rfl⟩
  exact ⟨w', hrun, hw.of_books hplain hbooks⟩

/-- Remembering an answer does no harm. -/
theorem Faithful.remember (hw : r.Faithful w) {owner logical real : String}
    (h : r.document.Answer owner logical real) :
    r.Faithful (w.withState r { w.stateOf r with
      renameMemo := (w.stateOf r).renameMemo.insert (owner, logical) real }) where
  toPlain := hw.toPlain.withState hw.registry rfl
  index := by
    rw [World.stateOf_withState_self]
    exact hw.index
  memo o l x hx := by
    rw [World.stateOf_withState_self, Table.get?_insert] at hx
    split at hx
    · rename_i heq
      cases heq
      cases hx
      exact h
    · exact hw.memo o l x hx

/-- A host with which a plain resolver finds the literals of its document. -/
def FindsLiterals (r : Resolver) (h : Host) : Prop :=
  ∀ books name, Act.Gives (fun w => r.Plain w ∧ r.renameBooks w = books)
    (r.document.literal? name) (h.valueOf r name)

theorem findsLiterals_level (hdoc : r.document.Literal) (n : Nat) :
    r.FindsLiterals (.level (n + 1)) :=
  gives_valueOf hdoc (.level n)

section Faithful

variable (hh : r.FindsLiterals h)

include hh

theorem faithful_gives_substitute (template : String) :
    Act.Gives r.Faithful (r.document.resolved template) (r.substitute h template) :=
  Faithful.gives fun books => gives_substitute (hh books) template

theorem gives_indexRenames (books) (l : List (String × List Mapping.Rename))
    (index : RenameIndex) :
    Act.Gives (fun w => r.Plain w ∧ r.renameBooks w = books) (.enter r.document.resolved l index)
      (r.indexRenames h l index) := by
  induction l generalizing index with
  | nil => exact .pure _
  | cons e rest ih => exact .bind (gives_substitute (hh books) e.1) (ih _)

theorem renameIndex_of_faithful (hw : r.Faithful w) :
    ∃ w', r.renameIndex h w = .done r.document.index w' ∧ r.Faithful w' := by
  rcases hw.index with hunset | hready
  · -- the index is made now
    obtain ⟨w', hrun, hplain, hbooks⟩ := gives_indexRenames hh
      (.underway, (w.stateOf r).renameMemo) r.document.renames.entries ∅
      (w.withState r { w.stateOf r with renames := .underway })
      ⟨hw.toPlain.withState hw.registry rfl, by rw [renameBooks, World.stateOf_withState_self]⟩
    refine ⟨w'.withState r { w'.stateOf r with renames := .ready r.document.index }, ?_,
      hplain.withState hplain.registry rfl, .inr (by rw [World.stateOf_withState_self]), ?_⟩
    · have hrun' : r.indexRenames h r.document.renames.entries ∅
          { w with resolvers := w.resolvers.insert r.id { w.stateOf r with renames := .underway } }
            = .done r.document.index w' := hrun
      simp only [renameIndex, state, update, Act.bind_apply, Act.world_apply, Act.pure_apply,
        hunset, Act.update_apply, hrun', World.withState]
    · rw [World.stateOf_withState_self]
      rw [(Prod.mk.inj hbooks).2]
      exact hw.memo
  · -- the index was made before
    refine ⟨w, ?_, hw⟩
    simp only [renameIndex, state, Act.bind_apply, Act.world_apply, Act.pure_apply, hready]

/-- Resolving a member gives what the document says, whatever was asked before. -/
theorem resolveMember_of_faithful (hw : r.Faithful w) (owner logical : String) :
    ∃ real w', r.resolveMember h owner logical w = .done real w' ∧ r.Faithful w' ∧
      (r.document.Answer (r.document.resolved owner) logical real ∨
        (∀ k ≤ Template.maxPasses,
          r.document.realName? (r.document.resolved owner) (r.document.after k logical) = none) ∧
        real = r.document.resolved logical) := by
  obtain ⟨w₁, howner, hw₁⟩ := faithful_gives_substitute hh owner w hw
  cases hmemo : (w₁.stateOf r).renameMemo.get? (r.document.resolved owner, logical) with
  | some real =>
    -- an answer is remembered
    refine ⟨real, w₁, ?_, hw₁, .inl (hw₁.memo _ _ _ hmemo)⟩
    simp only [resolveMember, state, Act.bind_apply, howner, Act.world_apply, Act.pure_apply,
      hmemo]
  | none =>
    obtain ⟨w₂, hindex, hw₂⟩ := renameIndex_of_faithful hh hw₁
    rcases r.document.answer_or_none (r.document.resolved owner) logical with
      ⟨real, answer⟩ | hnone
    · have ha := answer
      obtain ⟨k, hk, hreal, hfirst⟩ := ha
      obtain ⟨w₃, hfound, hplain, hbooks⟩ := gives_renameUpTo_of_first (hh (r.renameBooks w₂)) hk
        hreal hfirst w₂ ⟨hw₂.toPlain, rfl⟩
      refine ⟨real, _, ?_, (hw₂.of_books hplain hbooks).remember answer, .inl answer⟩
      simp only [resolveMember, state, update, Act.bind_apply, howner, Act.world_apply,
        Act.pure_apply, hmemo, hindex, hfound, if_true, Act.update_apply]
      rfl
    · obtain ⟨w₃, hlast, hplain, hbooks⟩ := gives_renameUpTo_of_none (hh (r.renameBooks w₂)) hnone
        w₂ ⟨hw₂.toPlain, rfl⟩
      refine ⟨_, w₃, ?_, hw₂.of_books hplain hbooks, .inr ⟨hnone, rfl⟩⟩
      simp only [resolveMember, state, Act.bind_apply, howner, Act.world_apply, Act.pure_apply,
        hmemo, hindex, hlast, Bool.false_eq_true, if_false]
      rfl

end Faithful

end Resolver

end LateBinding
