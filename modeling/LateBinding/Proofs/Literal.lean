import LateBinding.Machine
import LateBinding.Proofs.Evaluation.Names
import LateBinding.Proofs.Sparing
import LateBinding.Proofs.Template.Clean

/-!
# Documents of literal variables

If a document declares literals only and no provider is registered, a variable has the text that
is declared for it and no other variable has a value (`Mapping.Document.literal?`).  What the
slots keep agrees with this (`Resolver.Plain`), so asking for a variable gives that text whatever
was asked before (`Resolver.gives_valueOf`), and substitution is the iteration of a pass without
effects (`Resolver.gives_substitute`).
-/

namespace LateBinding

/-! ### Substitution without effects -/

section Substitution

variable {I : World → Prop} {f : String → Option String}

/-- Substitution in a text asks for a name: it is a token of the text, or of what comes of it after
some passes. -/
def Template.Asks (f : String → Option String) (text name : String) : Prop :=
  ∃ k < maxPasses, name ∈ tokens ((once f)^[k] text)

theorem Template.gives_fill {lookup : String → Act (Option String)}
    (l : List (List Char × List Char))
    (hl : ∀ t ∈ l, Act.Gives I (f (String.ofList t.1)) (lookup (String.ofList t.1))) :
    Act.Gives I (Id.run (fill (fun name => pure (f name)) l)) (fill lookup l) := by
  induction l with
  | nil => exact .pure _
  | cons t rest ih =>
    exact .bind (hl t List.mem_cons_self)
      (.bind (ih fun u hu => hl u (List.mem_cons_of_mem t hu)) (.pure _))

/-- A pass asks for the tokens of the text and for nothing else. -/
theorem Template.gives_substituteOnce {lookup : String → Act (Option String)} (text : String)
    (hl : ∀ name ∈ tokens text, Act.Gives I (f name) (lookup name)) :
    Act.Gives I (once f text) (substituteOnce lookup text) :=
  .bind (gives_fill _ fun _ ht => hl _ (List.mem_map_of_mem ht))
    (.pure _)

namespace Resolver

variable {h : Host} {r : Resolver}

theorem gives_substituteUpTo (passes : Nat) (text : String)
    (hl : ∀ k < passes, ∀ name ∈ Template.tokens ((Template.once f)^[k] text),
      Act.Gives I (f name) (h.valueOf r name)) :
    Act.Gives I ((Template.once f)^[passes] text) (r.substituteUpTo h passes text) := by
  induction passes generalizing text with
  | zero => exact .pure _
  | succ passes ih =>
    unfold substituteUpTo
    split
    · rw [Function.iterate_succ_apply]
      refine .bind (Template.gives_substituteOnce text (hl 0 (Nat.succ_pos _))) (ih _ fun k hk => ?_)
      have later := hl (k + 1) (Nat.succ_lt_succ hk)
      rwa [Function.iterate_succ_apply] at later
    · rename_i ht
      rw [Template.iterate_once_of_not_hasTokens f (by simpa using ht)]
      exact .pure _

/-- Substitution is the iteration of a pass without effects, if every name that is asked for has
its value. -/
theorem gives_substitute_of_asks (template : String)
    (hl : ∀ name, Template.Asks f template name → Act.Gives I (f name) (h.valueOf r name)) :
    Act.Gives I ((Template.once f)^[Template.maxPasses] template) (r.substitute h template) :=
  gives_substituteUpTo _ template fun k hk name hname => hl name ⟨k, hk, hname⟩

variable (hl : ∀ name, Act.Gives I (f name) (h.valueOf r name))

include hl

theorem gives_pass (text : String) : Act.Gives I (Template.once f text) (r.pass h text) :=
  Template.gives_substituteOnce text fun name _ => hl name

theorem gives_substitute (template : String) :
    Act.Gives I ((Template.once f)^[Template.maxPasses] template) (r.substitute h template) :=
  gives_substitute_of_asks template fun name _ => hl name

end Resolver

end Substitution

/-! ### Literal documents -/

namespace Mapping.Document

/-- The document declares literals only. -/
def Literal (doc : Document) : Prop :=
  ∀ name d, doc.declarations.get? name = some d → ∃ text, d = .literal text

/-- The literal that is declared for a variable. -/
def literal? (doc : Document) (name : String) : Option String :=
  match doc.declarations.get? name with
  | some (.literal text) => some text
  | _ => none

/-- What a template resolves to by the literals of the document alone. -/
def resolved (doc : Document) (template : String) : String :=
  (Template.once doc.literal?)^[Template.maxPasses] template

end Mapping.Document

namespace Resolver

/-- No provider is registered, and slots that are bound to declarations are bound to the ones of
their variables, which are literals, and keep nothing else. -/
structure Plain (r : Resolver) (w : World) : Prop where
  registry : ∀ name, (w.stateOf r).registry.get? name = none
  slots : ∀ name id, (w.stateOf r).slots.get? name = some id → id < w.next ∧
    ∀ s, w.slots.get? id = some s → s.isDeclared = true →
      ∃ text, r.document.declarations.get? name = some (.literal text) ∧
        s.source = .declared (.literal text) ∧ s.retention = .cached ∧ ∀ v ∈ s.frozen, v = text

/-- What the resolver knows of renames. -/
def renameBooks (r : Resolver) (w : World) : Once RenameIndex × Table (String × String) String :=
  ((w.stateOf r).renames, (w.stateOf r).renameMemo)

variable {r : Resolver} {w w' : World}

namespace Plain

theorem of_spares (hw : r.Plain w) (h : w.Spares r w') : r.Plain w' where
  registry name := by
    rw [h.registry]
    exact hw.registry name
  slots name id hid := by
    rw [h.slotIds] at hid
    obtain ⟨hlt, hs⟩ := hw.slots name id hid
    refine ⟨Nat.lt_of_lt_of_le hlt h.next, fun s hs' => hs s ?_⟩
    rwa [h.slots name id hid] at hs'

theorem bindSlot (hw : r.Plain w) {name text : String}
    (hd : r.document.declarations.get? name = some (.literal text)) :
    r.Plain (w.bindSlot r name (.of (.declared (.literal text)))) where
  registry n := by
    rw [World.bindSlot, World.stateOf_withState_self]
    exact hw.registry n
  slots n id hid := by
    rw [World.bindSlot, World.stateOf_withState_self, Table.get?_insert] at hid
    have next : (w.bindSlot r name (.of (.declared (.literal text)))).next = w.next + 1 := rfl
    have get : (w.bindSlot r name (.of (.declared (.literal text)))).slots.get? id =
        if w.next = id then some (.of (.declared (.literal text))) else w.slots.get? id :=
      Store.get?_insert _ _ _ _
    rw [next, get]
    split at hid
    · rename_i hn
      cases hid
      refine ⟨Nat.lt_succ_self _, fun s hs _ => ?_⟩
      rw [if_pos rfl] at hs
      cases hs
      exact ⟨text, hn ▸ hd, rfl, rfl, fun v hv => by cases hv⟩
    · obtain ⟨hlt, hs⟩ := hw.slots n id hid
      refine ⟨Nat.lt_succ_of_lt hlt, fun s hs' => hs s ?_⟩
      rwa [if_neg (Nat.ne_of_gt hlt)] at hs'

theorem keepIn (hw : r.Plain w) {id : Identity} {s : Slot} {text : String}
    (hs : w.slots.get? id = some s) (hsrc : s.source = .declared (.literal text)) :
    r.Plain (w.keepIn id s text) where
  registry := hw.registry
  slots n i hi := by
    obtain ⟨hlt, hslots⟩ := hw.slots n i hi
    refine ⟨hlt, fun s' hs' hd => ?_⟩
    rw [World.keepIn, Store.get?_insert] at hs'
    split at hs'
    · rename_i heq
      subst heq
      cases hs'
      obtain ⟨text', hdecl, hsrc', hret, -⟩ := hslots s hs hd
      rw [hsrc] at hsrc'
      cases hsrc'
      exact ⟨text, hdecl, hsrc, hret, fun v hv => by cases hv; rfl⟩
    · exact hslots s' hs' hd

end Plain

theorem renameBooks_bindSlot (name : String) (s : Slot) :
    r.renameBooks (w.bindSlot r name s) = r.renameBooks w := by
  rw [renameBooks, World.bindSlot, World.stateOf_withState_self, renameBooks]

/-- A slot of a literal gives the literal. -/
theorem value_of_literal (h : Host) (name : String) {text : String} {id : Identity} {s : Slot}
    (hw : r.Plain w) (hs : w.slots.get? id = some s) (hsrc : s.source = .declared (.literal text))
    (hret : s.retention = .cached) (hfrozen : ∀ v ∈ s.frozen, v = text) :
    ∃ w', s.value id (r.ask h name s.source) w = .done (some text) w' ∧ r.Plain w' ∧
      r.renameBooks w' = r.renameBooks w := by
  cases hf : s.frozen with
  | some kept =>
    obtain rfl := hfrozen kept hf
    refine ⟨w, ?_, hw, rfl⟩
    rw [Slot.value_eq_of_frozen hret (by rw [hs]; exact hf)]
  | none =>
    refine ⟨w.keepIn id s text, ?_, hw.keepIn hs hsrc, rfl⟩
    rw [Slot.value_eq_of_not_frozen (by rw [hs]; exact hf), hsrc]
    simp only [ask, Slot.retain, hret, Act.bind_apply, Slot.freeze_eq_of_not_frozen hs hf,
      Act.pure_apply]

/-- Asking for a variable of a literal document gives the literal that is declared, whatever was
asked before. -/
theorem gives_valueOf (hdoc : r.document.Literal) (h : Host) (books) (name : String) :
    Act.Gives (fun w => r.Plain w ∧ r.renameBooks w = books) (r.document.literal? name)
      (r.valueOf h name) := by
  rintro w ⟨hw, hbooks⟩
  rw [valueOf_eq, Act.bind_apply, slotFor_eq, sourceOf, hw.registry, Mapping.Document.literal?]
  cases hd : r.document.declarations.get? name with
  | none => exact ⟨w, rfl, hw, hbooks⟩
  | some d =>
    obtain ⟨text, rfl⟩ := hdoc name d hd
    simp only [Option.map_some]
    cases hslot : (w.slotOf r name).filter fun p => p.2.fits (.declared (.literal text)) with
    | some p =>
      -- a slot that is bound to a declaration is bound to this one
      obtain ⟨id, s⟩ := p
      obtain ⟨hslot, hdeclared⟩ := Option.filter_eq_some_iff.1 hslot
      obtain ⟨hid, hs⟩ := World.slotOf_eq_some_iff.1 hslot
      obtain ⟨-, hslots⟩ := hw.slots name id hid
      obtain ⟨text', hd', hsrc, hret, hfrozen⟩ := hslots s hs hdeclared
      rw [hd] at hd'
      cases hd'
      obtain ⟨w', hv, hw', hb⟩ := value_of_literal h name hw hs hsrc hret hfrozen
      exact ⟨w', hv, hw', hb.trans hbooks⟩
    | none =>
      -- a fresh slot is bound
      have hs : (w.bindSlot r name (.of (.declared (.literal text)))).slots.get? w.next =
          some (.of (.declared (.literal text))) := Store.get?_insert_self _ _ _
      obtain ⟨w', hv, hw', hb⟩ := value_of_literal h name (hw.bindSlot hd) hs rfl
        rfl (fun v hv => by cases hv)
      exact ⟨w', hv, hw', hb.trans ((renameBooks_bindSlot _ _).trans hbooks)⟩

end Resolver

end LateBinding
