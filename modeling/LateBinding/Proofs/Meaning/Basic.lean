import Mathlib.Logic.Relation
import LateBinding.Proofs.Literal
import LateBinding.Proofs.Reading.History

/-!
# What variables mean

What a resolver can find out depends on its document, on the providers that are registered with it,
on the classes that names denote, and on what all these answer when they are asked: its `Setting`.

The *meaning* of a variable (`Setting.meaning`) is its value by the setting alone, as if nothing
were ever kept.  Descriptions depend on each other through the templates of the classes that they
name, and a description that is being evaluated has no value; so the meaning is relative to the
variables that are being evaluated, innermost first.  Meanings come to an end because there are
only so many declarations.

Which variables can come to be evaluated within which (`Setting.Nested`) follows from the meanings.
The setting is *transparent* (`Setting.Transparent`) if a variable whose value is to be kept means
the same within others as it does by itself.  It is transparent if no such variable and another one
depend on each other (`Setting.transparent_of_acyclic`).
-/

namespace LateBinding

/-- What there is around a resolver. -/
structure Setting where
  /-- The mapping document. -/
  document : Mapping.Document
  /-- The registered providers. -/
  registry : Table String Provider
  /-- The class that a name denotes. -/
  find? : String → Option (Class Value)
  /-- What a provider gives. -/
  given : Provider → Option String
  /-- The text that a static method of a class gives. -/
  static : Class Value → Descriptor → Option String
  /-- The text that a new instance of a provider class gives. -/
  made : Class Value → Option String

namespace Setting

variable (E : Setting)

/-! ### Meanings -/

/-- The source of a variable: the provider registered under its name, or else its declaration. -/
def source (name : String) : Option SlotSource :=
  match E.registry.get? name with
  | some p => some (.registered p)
  | none => (E.document.declarations.get? name).map .declared

/-- The description of a variable, if that is its source. -/
def described (name : String) : Option Mapping.Descriptor :=
  match E.source name with
  | some (.declared (.described d)) => some d
  | _ => none

/-- What a description answers, given what templates resolve to. -/
def answer (resolved : String → String) (d : Mapping.Descriptor) : Option String :=
  match d.kind with
  | .value => d.value
  | .registered => d.value.bind fun name => (E.registry.get? name).bind E.given
  | .static =>
    match d.provider, d.value with
    | some template, some method =>
      (E.find? (resolved template)).bind fun c => E.static c ⟨method, d.params⟩
    | _, _ => none
  | .provider => d.provider.bind fun template => (E.find? (resolved template)).bind E.made

/-- The number of declared variables that are not among these. -/
def pending (S : List String) : Nat :=
  (E.document.declarations.keys.filter fun name => !decide (name ∈ S)).length

theorem pending_le (S : List String) : E.pending S ≤ E.document.declarations.size :=
  Nat.le_trans (List.length_filter_le _ _) (Nat.le_of_eq (List.length_map ..))

theorem described_eq_some_iff {name : String} {d : Mapping.Descriptor} :
    E.described name = some d ↔ E.source name = some (.declared (.described d)) := by
  unfold described
  split
  · rename_i d' h
    simp [h]
  · rename_i h
    simp only [reduceCtorEq, false_iff]
    exact h d

theorem declared_of_source {name : String} {d : Mapping.Declaration}
    (h : E.source name = some (.declared d)) : E.document.declarations.get? name = some d := by
  unfold source at h
  split at h
  · cases h
  · simpa using h

theorem registered_of_source {name : String} {p : Provider}
    (h : E.source name = some (.registered p)) : E.registry.get? name = some p := by
  unfold source at h
  split at h
  · cases h
    assumption
  · simp at h

variable {E} in
/-- Fewer variables are left when one more is evaluated. -/
theorem pending_cons_lt {S : List String} {name : String} {d : Mapping.Declaration}
    (hsrc : E.source name = some (.declared d)) (hname : name ∉ S) :
    E.pending (name :: S) < E.pending S := by
  have declared : name ∈ E.document.declarations.keys := by
    by_contra hno
    have := E.declared_of_source hsrc
    rw [Table.get?_eq_none_iff.2 hno] at this
    cases this
  have split : (E.document.declarations.keys.filter fun n => !decide (n ∈ name :: S)) =
      (E.document.declarations.keys.filter fun n => !decide (n ∈ S)).filter
        fun n => !decide (n = name) := by
    rw [List.filter_filter]
    refine List.filter_congr fun n _ => ?_
    simp
  rw [pending, pending, split, List.length_filter_lt_length_iff_exists]
  exact ⟨name, List.mem_filter.2 ⟨declared, by simp [hname]⟩, by simp⟩

/-- What a variable means while others are being evaluated, innermost first. -/
def meaning (S : List String) (name : String) : Option String :=
  match _hsrc : E.source name with
  | none => none
  | some (.registered p) => E.given p
  | some (.declared (.literal text)) => some text
  | some (.declared (.described d)) =>
    if _hname : name ∈ S then none
    else
      E.answer
        (fun template => (Template.once fun n => meaning (name :: S) n)^[Template.maxPasses] template)
        d
termination_by E.pending S
decreasing_by exact pending_cons_lt _hsrc _hname

/-- What a template resolves to while variables are being evaluated. -/
def resolved (S : List String) (template : String) : String :=
  (Template.once (E.meaning S))^[Template.maxPasses] template

variable {E}

theorem meaning_of_source_eq_none {name : String} (h : E.source name = none) (S : List String) :
    E.meaning S name = none := by
  rw [meaning]
  split <;> simp_all

theorem meaning_of_registered {name : String} {p : Provider}
    (h : E.source name = some (.registered p)) (S : List String) :
    E.meaning S name = E.given p := by
  rw [meaning]
  split <;> simp_all

theorem meaning_of_literal {name text : String}
    (h : E.source name = some (.declared (.literal text))) (S : List String) :
    E.meaning S name = some text := by
  rw [meaning]
  split <;> simp_all

theorem meaning_of_described {name : String} {d : Mapping.Descriptor}
    (h : E.described name = some d) (S : List String) :
    E.meaning S name = if name ∈ S then none else E.answer (E.resolved (name :: S)) d := by
  rw [described_eq_some_iff] at h
  rw [meaning]
  split <;> simp_all
  rfl

/-! ### What is evaluated within what -/

/-- While the first variable is being evaluated, within others, its description asks for the
second. -/
def Asks (E : Setting) (S : List String) (a n : String) : Prop :=
  ∃ d template, E.described a = some d ∧ d.template? = some template ∧
    Template.Asks (E.meaning (a :: S)) template n

/-- A variable can be read while these are being evaluated: nobody knows what is asked from
outside. -/
def Reads (E : Setting) : List String → String → Prop
  | [], _ => True
  | a :: S, n => E.Asks S a n

/-- These variables can come to be evaluated one within the other, innermost first. -/
inductive Nested (E : Setting) : List String → Prop
  | nil : Nested E []
  | cons {S : List String} {name : String} {d : Mapping.Descriptor} (h : Nested E S)
    (reads : E.Reads S name) (described : E.described name = some d) (idle : name ∉ S) :
    Nested E (name :: S)

/-- A variable whose value is to be kept means the same wherever it comes to be evaluated. -/
def Transparent (E : Setting) : Prop :=
  ∀ S name d, E.Nested (name :: S) → E.described name = some d → d.retention = .cached →
    E.meaning S name = E.meaning [] name

/-- What is being evaluated is described. -/
theorem Nested.exists_described {S : List String} (h : E.Nested S) :
    ∀ n ∈ S, ∃ d, E.described n = some d := by
  induction h with
  | nil => simp
  | cons _ _ described _ ih =>
    intro n hn
    rcases List.mem_cons.1 hn with rfl | hn
    · exact ⟨_, described⟩
    · exact ih n hn

/-- What has a meaning is not being evaluated. -/
theorem Nested.notMem_of_meaning {S : List String} (h : E.Nested S) {name v : String}
    (hv : E.meaning S name = some v) : name ∉ S := by
  intro hname
  obtain ⟨d, hd⟩ := h.exists_described name hname
  rw [meaning_of_described hd, if_pos hname] at hv
  cases hv

/-- What is to be kept means the same wherever it is read. -/
theorem Transparent.meaning_eq (hE : E.Transparent) {S : List String} (nested : E.Nested S)
    {name : String} (reads : E.Reads S name) {src : SlotSource}
    (hsrc : E.source name = some src) (hcached : src.retention = .cached) (hname : name ∉ S) :
    E.meaning S name = E.meaning [] name := by
  match src with
  | .registered p => rw [meaning_of_registered hsrc, meaning_of_registered hsrc]
  | .declared (.literal text) => rw [meaning_of_literal hsrc, meaning_of_literal hsrc]
  | .declared (.described d) =>
    have hd : E.described name = some d := E.described_eq_some_iff.2 hsrc
    exact hE S name d (.cons nested reads hd hname) hd hcached

/-- The description of a variable may ask for another one. -/
def Depends (E : Setting) (a n : String) : Prop := ∃ S, E.Asks S a n

/-- What comes to be evaluated within a variable is what that depends on. -/
theorem Nested.depends {S : List String} {name : String} (h : E.Nested (name :: S)) :
    ∀ a ∈ S, Relation.TransGen E.Depends a name := by
  induction S generalizing name with
  | nil => simp
  | cons b S ih =>
    cases h with
    | cons h reads _ _ =>
      have last : E.Depends b name := ⟨S, reads⟩
      intro a ha
      rcases List.mem_cons.1 ha with rfl | ha
      · exact .single last
      · exact (ih h a ha).tail last

end Setting

/-! ### Agreement of lookups -/

namespace Template

variable {f g : String → Option String}

/-- A pass depends on the values of the tokens only. -/
theorem once_congr {text : String} (h : ∀ name ∈ tokens text, f name = g name) :
    once f text = once g text := by
  rw [← String.toList_inj, toList_once, toList_once, onceChars, onceChars, List.flatMap_def,
    List.flatMap_def]
  refine congrArg (fun l => _ ++ List.flatten l) (List.map_congr_left fun t ht => ?_)
  rw [replacement, h _ (List.mem_map_of_mem ht), replacement]

theorem iterate_once_congr {text : String} (k : Nat)
    (h : ∀ i < k, ∀ name ∈ tokens ((once f)^[i] text), f name = g name) :
    (once f)^[k] text = (once g)^[k] text := by
  induction k with
  | zero => rfl
  | succ k ih =>
    rw [Function.iterate_succ_apply', Function.iterate_succ_apply',
      ← ih fun i hi => h i (Nat.lt_succ_of_lt hi)]
    exact once_congr (h k (Nat.lt_succ_self k))

end Template

namespace Setting

variable {E : Setting}

/-- What a description answers depends only on what its template resolves to. -/
theorem answer_congr {resolved resolved' : String → String} {d : Mapping.Descriptor}
    (h : ∀ template ∈ d.template?, resolved template = resolved' template) :
    E.answer resolved d = E.answer resolved' d := by
  unfold Mapping.Descriptor.template? at h
  unfold answer
  cases hkind : d.kind with
  | value => rfl
  | registered => rfl
  | static =>
    rw [hkind] at h
    cases hp : d.provider with
    | none => rfl
    | some template =>
      cases hv : d.value with
      | none => rfl
      | some method => simp only [h template (by simp [hp, hv])]
  | provider =>
    rw [hkind] at h
    cases hp : d.provider with
    | none => rfl
    | some template => simp only [Option.bind_some, h template hp]

/-- The meaning of a variable depends only on which of those that it depends on are being
evaluated. -/
theorem meaning_congr {S S' : List String} {name : String}
    (h : ∀ n, Relation.ReflTransGen E.Depends name n → (n ∈ S ↔ n ∈ S')) :
    E.meaning S name = E.meaning S' name := by
  induction hk : E.pending S using Nat.strongRecOn generalizing S S' name with
  | ind k ih =>
    subst hk
    cases hsrc : E.source name with
    | none => rw [meaning_of_source_eq_none hsrc, meaning_of_source_eq_none hsrc]
    | some src =>
      match src with
      | .registered p => rw [meaning_of_registered hsrc, meaning_of_registered hsrc]
      | .declared (.literal text) => rw [meaning_of_literal hsrc, meaning_of_literal hsrc]
      | .declared (.described d) =>
        have hd : E.described name = some d := E.described_eq_some_iff.2 hsrc
        rw [meaning_of_described hd, meaning_of_described hd]
        by_cases hname : name ∈ S
        · rw [if_pos hname, if_pos ((h name .refl).1 hname)]
        · rw [if_neg hname, if_neg fun hname' => hname ((h name .refl).2 hname')]
          refine answer_congr fun template ht => ?_
          refine Template.iterate_once_congr _ fun i hi n hn => ?_
          -- what the template asks for is something that the variable depends on
          have asked : E.Depends name n := ⟨S, d, template, hd, ht, i, hi, hn⟩
          refine ih _ (pending_cons_lt hsrc hname) (fun m hm => ?_) rfl
          simp only [List.mem_cons, h m (.head asked hm)]

/-- The setting is transparent if no variable whose value is to be kept depends on another one that
depends on it. -/
theorem transparent_of_acyclic
    (h : ∀ name d, E.described name = some d → d.retention = .cached →
      ∀ n, Relation.TransGen E.Depends name n → Relation.TransGen E.Depends n name → n = name) :
    E.Transparent := by
  intro S name d nested hd hcached
  have idle : name ∉ S := by
    cases nested
    assumption
  refine meaning_congr fun n hn => ?_
  simp only [List.not_mem_nil, iff_false]
  intro hmem
  rcases Relation.reflTransGen_iff_eq_or_transGen.1 hn with rfl | hn
  · exact idle hmem
  · exact idle (h name d hd hcached n hn (nested.depends n hmem) ▸ hmem)

end Setting

end LateBinding
