import Mathlib.Logic.Relation
import LateBinding.Proofs.Literal
import LateBinding.Proofs.Template.Leftmost

/-!
# Substitution comes to an end

Removing tokens can make new ones of the `@` that are left over, so even a template without any
variables may take many passes.  If no value has an `@` itself (`Resolver.YieldsNoAt`), then a pass
takes away two `@` for each token (`Resolver.keeps_pass_count`), and a text with a token has at
least two.  So a template with at most `2 * n + 1` of them has no token after `n` passes
(`Resolver.keeps_substituteUpTo_few`).

* `Resolver.substitution_converges` : **with at most 129 `@`, substitution never stops because of
  the bound on its passes**;
* `Resolver.gives_substitute_nested` : the number is the greatest there is: a name in 65 pairs of
  `@` still has one around it when substitution gives up.
-/

namespace LateBinding

/-! ### Counting -/

namespace Template

theorem at_notMem_of_forall_isWordChar {name : List Char}
    (hw : ∀ c ∈ name, isWordChar c = true) : '@' ∉ name :=
  fun h => ne_at_of_isWordChar (hw _ h) rfl

theorem at_notMem_name {s : List Char} {t : List Char × List Char} (ht : t ∈ (scan s).tokens) :
    '@' ∉ t.1 :=
  at_notMem_of_forall_isWordChar ((leftmost_scan s).name t ht).2

namespace Segments

theorem count_text (s : List Char) (l : List (List Char × List Char)) :
    (text ⟨s, l⟩).count '@' = s.count '@' + (text ⟨[], l⟩).count '@' := by
  simp [text]

theorem count_text_token (t : List Char × List Char) (l : List (List Char × List Char)) :
    (text ⟨[], t :: l⟩).count '@' =
      2 + t.1.count '@' + t.2.count '@' + (text ⟨[], l⟩).count '@' := by
  rw [text_token, List.cons_append, List.count_cons_self, List.count_append, List.count_cons_self,
    count_text]
  omega

/-- A text has two `@` for each token. -/
theorem two_mul_length_tokens_le (g : Segments) : 2 * g.tokens.length ≤ g.text.count '@' := by
  obtain ⟨s, l⟩ := g
  induction l generalizing s with
  | nil => simp
  | cons t l ih =>
    have behind := ih []
    rw [count_text, count_text_token, List.length_cons]
    dsimp only at behind
    omega

end Segments

/-- A text with less than two `@` has no token. -/
theorem hasTokens_of_few {text : String} (few : text.toList.count '@' ≤ 1) :
    hasTokens text = false := by
  have pairs := (scan text.toList).two_mul_length_tokens_le
  rw [text_scan] at pairs
  by_contra h
  have some_token := hasTokens_iff.1 (by simpa using h)
  omega

variable {I : World → Prop} {lookup : String → Act (Option String)}

/-- Values without `@` take the place of the two `@` of each token. -/
theorem keeps_fill_count
    (hl : ∀ name, Act.Keeps I (fun o => ∀ v ∈ o, '@' ∉ v.toList) (lookup name))
    (l : List (List Char × List Char)) (hn : ∀ t ∈ l, '@' ∉ t.1) :
    Act.Keeps I (fun u => u.toList.count '@' + 2 * l.length =
      (Segments.text ⟨[], l⟩).count '@') (fill lookup l) := by
  induction l with
  | nil => exact .pure rfl
  | cons t l ih =>
    obtain ⟨ht, hl'⟩ := List.forall_mem_cons.1 hn
    refine .bind (hl _) fun o ho => .bind (ih hl') fun tail htail => .pure ?_
    have replaced : (o.getD (String.ofList t.1)).toList.count '@' = 0 := by
      rw [List.count_eq_zero]
      cases o with
      | none => simpa using ht
      | some v => exact ho v rfl
    have name : t.1.count '@' = 0 := List.count_eq_zero.2 ht
    rw [Segments.count_text_token, List.length_cons, String.toList_append, String.toList_append,
      String.toList_ofList, List.count_append, List.count_append]
    omega

end Template

/-! ### Passes -/

/-- What comes after an action matters only for what the action can give. -/
theorem Act.Keeps.bind_congr {α β : Type} {I : World → Prop} {P : α → Prop} {x : Act α}
    (hx : Act.Keeps I P x) {f g : α → Act β} {w : World} (hw : I w)
    (h : ∀ a w', I w' → P a → f a w' = g a w') : (x >>= f) w = (x >>= g) w := by
  rw [Act.bind_apply, Act.bind_apply]
  cases hrun : x w with
  | done a w' =>
    obtain ⟨hw', ha⟩ := hx hw hrun
    exact h a w' hw' ha
  | exhausted => rfl
  | blocked => rfl

namespace Resolver

variable {h : Host} {r : Resolver} {w : World}

/-- The second world has come about from the first one by asking for variables. -/
def AfterReads (h : Host) (r : Resolver) : World → World → Prop :=
  Relation.ReflTransGen fun w w' => ∃ name o, h.valueOf r name w = .done o w'

/-- Whichever variables are asked for from this world on, in whichever order and how often, no value
has an `@`. -/
def YieldsNoAt (h : Host) (r : Resolver) (w : World) : Prop :=
  ∀ w₁, r.AfterReads h w w₁ → ∀ name v w₂, h.valueOf r name w₁ = .done (some v) w₂ →
    '@' ∉ v.toList

theorem YieldsNoAt.keeps_valueOf (hw : r.YieldsNoAt h w) (name : String) :
    Act.Keeps (r.AfterReads h w) (fun o => ∀ v ∈ o, '@' ∉ v.toList) (h.valueOf r name) := by
  intro w₁ o w₂ hw₁ ho
  refine ⟨hw₁.tail ⟨name, o, ho⟩, ?_⟩
  rintro v rfl
  exact hw w₁ hw₁ name v w₂ ho

section Passes

variable {I : World → Prop}
  (hv : ∀ name, Act.Keeps I (fun o => ∀ v ∈ o, '@' ∉ v.toList) (h.valueOf r name))

include hv

/-- It is so if an invariant holds under which no variable gives a value with an `@`. -/
theorem YieldsNoAt.of_keeps (hw : I w) : r.YieldsNoAt h w := by
  intro w₁ hreads name v w₂ hval
  have hw₁ : I w₁ := by
    clear hval
    induction hreads with
    | refl => exact hw
    | tail _ last ih =>
      obtain ⟨name, o, ho⟩ := last
      exact (hv name ih ho).1
  exact (hv name hw₁ hval).2 v rfl

/-- A pass takes away two `@` for each token. -/
theorem keeps_pass_count (text : String) :
    Act.Keeps I (fun u => u.toList.count '@' + 2 * (Template.scan text.toList).tokens.length =
      text.toList.count '@') (r.pass h text) := by
  refine .bind (Template.keeps_fill_count hv _ fun t ht => Template.at_notMem_name ht)
    fun tail htail => .pure ?_
  rw [← Template.text_scan text.toList, Template.Segments.count_text, String.toList_append,
    String.toList_ofList, List.count_append, Template.text_scan]
  omega

/-- If there is a token, a pass takes away at least two `@`. -/
theorem keeps_pass_few {text : String} (ht : Template.hasTokens text = true) {n : Nat}
    (few : text.toList.count '@' ≤ n + 2) :
    Act.Keeps I (fun u => u.toList.count '@' ≤ n) (r.pass h text) := by
  refine (keeps_pass_count hv text).mono fun u hu => ?_
  have := Template.hasTokens_iff.1 ht
  omega

/-- So a text with few `@` has no token after the passes. -/
theorem keeps_substituteUpTo_few {passes : Nat} {text : String}
    (few : text.toList.count '@' ≤ 2 * passes + 1) :
    Act.Keeps I (fun u => Template.hasTokens u = false) (r.substituteUpTo h passes text) := by
  induction passes generalizing text with
  | zero => exact .pure (Template.hasTokens_of_few few)
  | succ passes ih =>
    unfold substituteUpTo
    split
    · rename_i ht
      exact .bind (keeps_pass_few hv ht few) fun u hu => ih hu
    · rename_i ht
      exact .pure (by simpa using ht)

omit hv in
theorem substituteUpTo_of_not_hasTokens {text : String} (ht : Template.hasTokens text = false)
    (passes : Nat) : r.substituteUpTo h passes text = pure text := by
  cases passes with
  | zero => rfl
  | succ passes => rw [substituteUpTo, if_neg (by simp [ht])]

/-- More passes make no difference. -/
theorem substituteUpTo_add_of_few {passes : Nat} {text : String}
    (few : text.toList.count '@' ≤ 2 * passes + 1) (more : Nat) (hw : I w) :
    r.substituteUpTo h (passes + more) text w = r.substituteUpTo h passes text w := by
  induction passes generalizing text w with
  | zero =>
    have ht := Template.hasTokens_of_few few
    rw [substituteUpTo_of_not_hasTokens ht, substituteUpTo_of_not_hasTokens ht]
  | succ passes ih =>
    rw [Nat.add_right_comm, substituteUpTo, substituteUpTo]
    split
    · rename_i ht
      exact (keeps_pass_few hv ht few).bind_congr hw fun u w' hw' hu => ih hu hw'
    · rfl

end Passes

/-- **Substitution of values without `@` converges.**  Let no variable give a value with an `@`,
whatever else it gives, and whatever it gave before.  If a template has at most 129 `@`, no token is
left when its substitution returns, and any larger bound on the passes would make no difference. -/
theorem substitution_converges (hv : r.YieldsNoAt h w) {template : String}
    (few : template.toList.count '@' ≤ 129) :
    (∀ text w', r.substitute h template w = .done text w' → Template.hasTokens text = false) ∧
      ∀ more, r.substituteUpTo h (Template.maxPasses + more) template w =
        r.substitute h template w := by
  have here : r.AfterReads h w w := .refl
  constructor
  · intro text w' hrun
    exact (keeps_substituteUpTo_few hv.keeps_valueOf few here hrun).2
  · intro more
    exact substituteUpTo_add_of_few hv.keeps_valueOf few more here

namespace Tides

/-- The literal of one variable. -/
def almanac : Mapping.Document := Mapping.Document.empty.declare "tide" (.literal "neap")

/-- A resolver for it. -/
def resolver : Resolver := ⟨0, almanac, .root 1 "main"⟩

theorem declared {name : String} {d : Mapping.Declaration}
    (h : almanac.declarations.get? name = some d) : d = .literal "neap" := by
  have entries : almanac.declarations.entries = [("tide", .literal "neap")] := by decide +kernel
  have mem := Table.mem_of_get? h
  rw [entries, List.mem_singleton, Prod.mk.injEq] at mem
  exact mem.2

theorem literal : almanac.Literal := fun _ _ h => ⟨"neap", declared h⟩

theorem literal?_eq_some {name text : String} (h : almanac.literal? name = some text) :
    text = "neap" := by
  unfold Mapping.Document.literal? at h
  split at h
  · rename_i hd
    cases h
    cases declared hd
    rfl
  · cases h

theorem plain : resolver.Plain .empty where
  registry _ := rfl
  slots _ _ h := by cases h

end Tides

open Tides in
/-- The bound is not what stops the substitution of a name between 64 and 65 `@`, which has a value
at first and then none. -/
theorem high_tide_converges : ∃ template text : String, ∃ w',
    template.toList.count '@' = 129 ∧ resolver.YieldsNoAt (.level 1) .empty ∧
      resolver.substitute (.level 1) template .empty = .done text w' ∧
      Template.hasTokens text = false := by
  have asked (name : String) : Act.Gives
      (fun w => resolver.Plain w ∧ resolver.renameBooks w = resolver.renameBooks .empty)
      (almanac.literal? name) ((Host.level 1).valueOf resolver name) :=
    gives_valueOf (r := resolver) literal (.level 0) _ name
  have yields : resolver.YieldsNoAt (.level 1) .empty := by
    refine .of_keeps (fun name => (asked name).keeps.mono fun o ho v hv => ?_) ⟨plain, rfl⟩
    rw [literal?_eq_some (ho.symm.trans hv)]
    decide
  let template := String.ofList
    (List.replicate 64 '@' ++ "tide".toList ++ List.replicate 65 '@')
  have few : template.toList.count '@' = 129 := by decide +kernel
  obtain ⟨w', hrun, -⟩ := gives_substitute asked template .empty ⟨plain, rfl⟩
  exact ⟨template, _, w', few, yields, hrun,
    (substitution_converges yields (Nat.le_of_eq few)).1 _ w' hrun⟩

/-! ### One `@` too many -/

end Resolver

namespace Template

/-- A name in as many pairs of `@`. -/
def nested (name : List Char) (k : Nat) : List Char :=
  List.replicate k '@' ++ name ++ List.replicate k '@'

variable {name : List Char} (hn : name ≠ []) (hw : ∀ c ∈ name, isWordChar c = true)

theorem scan_replicate_at (k : Nat) : scan (List.replicate k '@') = ⟨List.replicate k '@', []⟩ := by
  induction k with
  | zero => exact scan_nil
  | succ k ih =>
    have opens : token? ('@' :: List.replicate k '@') = none := by
      cases k <;> simp [token?, List.replicate_succ, isWordChar_at]
    rw [List.replicate_succ, scan_of_token?_eq_none opens, ih]

include hn hw

/-- Only the innermost pair is a token. -/
theorem scan_nested (j k : Nat) :
    scan (List.replicate j '@' ++ ('@' :: name ++ '@' :: List.replicate k '@')) =
      ⟨List.replicate j '@', [(name, List.replicate k '@')]⟩ := by
  induction j with
  | zero =>
    have behind := scan_replicate_at k
    rw [List.replicate_zero, List.nil_append, scan_token hn hw, behind]
  | succ j ih =>
    have opens : token? ('@' :: (List.replicate j '@' ++
        ('@' :: name ++ '@' :: List.replicate k '@'))) = none := by
      cases j <;> simp [token?, List.replicate_succ, isWordChar_at]
    rw [List.replicate_succ, List.cons_append, scan_of_token?_eq_none opens, ih]

/-- A pass that finds no value takes away one pair. -/
theorem once_nested {lookup : String → Option String} (hl : lookup (String.ofList name) = none)
    (k : Nat) : once lookup (String.ofList (nested name (k + 1))) = String.ofList (nested name k) := by
  have pairs : nested name (k + 1) =
      List.replicate k '@' ++ ('@' :: name ++ '@' :: List.replicate k '@') := by
    have inner : List.replicate (k + 1) '@' = List.replicate k '@' ++ ['@'] := List.replicate_succ'
    rw [nested]
    nth_rewrite 1 [inner]
    simp [List.replicate_succ]
  rw [← String.toList_inj, toList_once, String.toList_ofList, String.toList_ofList, pairs,
    onceChars, scan_nested hn hw]
  simp [replacement, hl, nested]

theorem iterate_once_nested (lookup : String → Option String)
    (hl : lookup (String.ofList name) = none) (n k : Nat) :
    (once lookup)^[n] (String.ofList (nested name (k + n))) = String.ofList (nested name k) := by
  induction n with
  | zero => rfl
  | succ n ih => rw [Function.iterate_succ_apply, ← Nat.add_assoc, once_nested hn hw hl, ih]

end Template

/-- If no variable has a value, a name in one pair of `@` more than there are passes keeps that
pair: with 130 `@` the bound does stop substitution. -/
theorem Resolver.gives_substitute_nested {I : World → Prop} {h : Host} {r : Resolver}
    (hl : ∀ name, Act.Gives I none (h.valueOf r name)) {name : List Char} (hn : name ≠ [])
    (hw : ∀ c ∈ name, isWordChar c = true) :
    Act.Gives I (String.ofList ('@' :: name ++ ['@']))
      (r.substitute h (String.ofList (Template.nested name 65))) := by
  have passes := Template.iterate_once_nested hn hw (fun _ => none) rfl Template.maxPasses 1
  have gives := gives_substitute (f := fun _ => none) hl
    (String.ofList (Template.nested name (1 + Template.maxPasses)))
  rw [passes] at gives
  exact gives

end LateBinding
