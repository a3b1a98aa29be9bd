import Mathlib.Data.List.Chain
import LateBinding.Proofs.Template.Clean

/-!
# Full expansion

The values of variables may have tokens again.  The full expansion of a text replaces each token
by the full expansion of the value of its name, or by the name if it has no value
(`Template.Expands`); a text has at most one (`Expands.unique`).

A variable refers to those whose names are tokens of its value (`Template.Refers`).  If chains of
references that start at the tokens of a clean text have at most `k` names, then `k` passes are
the full expansion, and no token is left (`expands_iterate`).
-/

namespace LateBinding.Template

variable {lookup : String → Option String}

mutual

/-- The second text is the full expansion of the first. -/
inductive Expands (lookup : String → Option String) : List Char → List Char → Prop
  /-- The plain text before the first token stays. -/
  | intro {s tail : List Char} (h : ExpandsTokens lookup (scan s).tokens tail) :
    Expands lookup s ((scan s).opening ++ tail)

/-- The text is the full expansion of tokens with the plain stretches behind them. -/
inductive ExpandsTokens (lookup : String → Option String) :
    List (List Char × List Char) → List Char → Prop
  | nil : ExpandsTokens lookup [] []
  /-- A name without a value stays. -/
  | bare {name after tail : List Char} {rest : List (List Char × List Char)}
    (hn : lookup (String.ofList name) = none) (h : ExpandsTokens lookup rest tail) :
    ExpandsTokens lookup ((name, after) :: rest) (name ++ after ++ tail)
  /-- A value is expanded in its turn. -/
  | value {name after expansion tail : List Char} {rest : List (List Char × List Char)}
    {v : String} (hn : lookup (String.ofList name) = some v)
    (hv : Expands lookup v.toList expansion) (h : ExpandsTokens lookup rest tail) :
    ExpandsTokens lookup ((name, after) :: rest) (expansion ++ after ++ tail)

end

/-- A text has at most one full expansion. -/
theorem Expands.unique {s u u' : List Char} (h : Expands lookup s u) (h' : Expands lookup s u') :
    u = u' := by
  -- The second motive says the same of tokens.
  induction h using Expands.rec
    (motive_2 := fun l u _ => ∀ u', ExpandsTokens lookup l u' → u = u') generalizing u' with
  | intro h ih =>
    cases h' with
    | intro h' => rw [ih _ h']
  | nil =>
    rename_i h'
    cases h'
    rfl
  | bare hn h ih =>
    rename_i h'
    cases h' with
    | bare _ h' => rw [ih _ h']
    | value hn' _ _ =>
      rw [hn] at hn'
      cases hn'
  | value hn hv h ihv ih =>
    rename_i h'
    cases h' with
    | bare hn' _ =>
      rw [hn] at hn'
      cases hn'
    | value hn' hv' h' =>
      rw [hn] at hn'
      cases hn'
      rw [ihv hv', ih _ h']

/-! ### Expansions of clean texts, part by part -/

theorem expands_of_names_eq_nil {s : List Char} (h : names s = []) : Expands lookup s s := by
  have ht : (scan s).tokens = [] := by simpa [names] using h
  have hs := text_scan s
  rw [Segments.text, ht] at hs
  have he : Expands lookup s ((scan s).opening ++ []) := .intro (by rw [ht]; exact .nil)
  rwa [show (scan s).opening ++ [] = s from hs] at he

theorem expands_char_iff {c : Char} {s u : List Char} (hc : c ≠ '@') :
    Expands lookup (c :: s) u ↔ ∃ u', u = c :: u' ∧ Expands lookup s u' := by
  constructor
  · rintro ⟨h⟩
    rw [scan_char hc] at h ⊢
    exact ⟨_, rfl, .intro h⟩
  · rintro ⟨u', rfl, ⟨h⟩⟩
    have he : Expands lookup (c :: s) _ := .intro (by rw [scan_char hc]; exact h)
    rwa [scan_char hc] at he

/-- What takes the place of a token in the full expansion. -/
def ExpandsName (lookup : String → Option String) (name u : List Char) : Prop :=
  (lookup (String.ofList name) = none ∧ u = name) ∨
    ∃ v, lookup (String.ofList name) = some v ∧ Expands lookup v.toList u

theorem expands_token_iff {name s u : List Char} (hn : name ≠ [])
    (hw : ∀ c ∈ name, isWordChar c = true) :
    Expands lookup ('@' :: name ++ '@' :: s) u ↔
      ∃ e u', u = e ++ u' ∧ ExpandsName lookup name e ∧ Expands lookup s u' := by
  constructor
  · intro h
    generalize ht : '@' :: name ++ '@' :: s = t at h
    cases h with
    | intro h =>
      rw [← ht, scan_token hn hw] at h ⊢
      cases h with
      | bare hl h => exact ⟨_, _, by simp, .inl ⟨hl, rfl⟩, .intro h⟩
      | value hl hv h => exact ⟨_, _, by simp, .inr ⟨_, hl, hv⟩, .intro h⟩
  · rintro ⟨e, u', rfl, he, h⟩
    cases h with
    | intro h =>
      rename_i tail
      have htokens : ExpandsTokens lookup (scan ('@' :: name ++ '@' :: s)).tokens
          (e ++ (scan s).opening ++ tail) := by
        rw [scan_token hn hw]
        rcases he with ⟨hl, rfl⟩ | ⟨v, hl, hv⟩
        · exact .bare hl h
        · exact .value hl hv h
      have := Expands.intro htokens
      rwa [scan_token hn hw, List.nil_append, List.append_assoc] at this

theorem expands_append_iff {s t u : List Char} (hs : Neat s) :
    Expands lookup (s ++ t) u ↔
      ∃ e u', u = e ++ u' ∧ Expands lookup s e ∧ Expands lookup t u' := by
  induction hs generalizing u with
  | nil =>
    have hnil : Expands lookup [] [] := expands_of_names_eq_nil (by simp [names, scan_nil])
    constructor
    · intro h
      exact ⟨[], u, rfl, hnil, h⟩
    · rintro ⟨e, u', rfl, he, h⟩
      rwa [he.unique hnil]
  | char hc _ ih =>
    rw [List.cons_append, expands_char_iff hc]
    simp only [ih, expands_char_iff hc]
    constructor
    · rintro ⟨_, rfl, e, u', rfl, he, h⟩
      exact ⟨_, u', rfl, ⟨e, rfl, he⟩, h⟩
    · rintro ⟨_, u', rfl, ⟨e, rfl, he⟩, h⟩
      exact ⟨_, rfl, e, u', rfl, he, h⟩
  | @token name s hn hw _ ih =>
    rw [token_append, expands_token_iff hn hw]
    simp only [ih, expands_token_iff hn hw]
    constructor
    · rintro ⟨e, _, rfl, hname, e', u', rfl, he, h⟩
      exact ⟨e ++ e', u', by simp, ⟨e, e', rfl, hname, he⟩, h⟩
    · rintro ⟨_, u', rfl, ⟨e, e', rfl, hname, he⟩, h⟩
      exact ⟨e, e' ++ u', by simp, hname, e', u', rfl, he, h⟩

/-! ### Passes -/

/-- A variable refers to those whose names are tokens of its value. -/
def Refers (lookup : String → Option String) (a b : String) : Prop :=
  ∃ v, lookup a = some v ∧ b ∈ tokens v

/-- Chains of references that start at this name have at most `k` names. -/
def ChainsWithin (lookup : String → Option String) (k : Nat) (name : String) : Prop :=
  ∀ l, List.IsChain (Refers lookup) (name :: l) → (name :: l).length ≤ k

theorem ChainsWithin.of_refers {k : Nat} {a b : String} (h : ChainsWithin lookup (k + 1) a)
    (hab : Refers lookup a b) : ChainsWithin lookup k b := by
  intro l hl
  have := h (b :: l) (hl.cons_cons hab)
  simp only [List.length_cons] at this ⊢
  omega

section Passes

variable (hl : ∀ n v, lookup n = some v → Clean v)

include hl

omit hl in
theorem names_replacement {name n : List Char} (hw : ∀ c ∈ name, isWordChar c = true)
    (hn : n ∈ names (replacement lookup name)) :
    Refers lookup (String.ofList name) (String.ofList n) := by
  unfold replacement at hn
  split at hn
  · rename_i v hv
    exact ⟨v, hv, by rw [tokens_eq]; exact List.mem_map_of_mem hn⟩
  · rw [names_eq_nil_of_forall_ne fun c hc => ne_at_of_isWordChar (hw c hc)] at hn
    cases hn

/-- A token after a pass comes from the value of a token before it. -/
theorem exists_refers_of_mem_names {s n : List Char} (hs : Neat s)
    (hn : n ∈ names (onceChars lookup s)) :
    ∃ m ∈ names s, Refers lookup (String.ofList m) (String.ofList n) := by
  induction hs with
  | nil => simp [names, scan_nil] at hn
  | char hc _ ih =>
    rw [onceChars_char _ hc, names_char hc] at hn
    rw [names_char hc]
    exact ih hn
  | @token name s hne hw _ ih =>
    rw [onceChars_token _ hne hw, names_append (neat_replacement hl hw), List.mem_append] at hn
    rw [names_token hne hw]
    rcases hn with hn | hn
    · -- values are clean, so no token reaches across the seam
      exact ⟨name, List.mem_cons_self, names_replacement hw hn⟩
    · obtain ⟨m, hm, hr⟩ := ih hn
      exact ⟨m, List.mem_cons_of_mem _ hm, hr⟩

/-- The full expansion after a pass is the full expansion before it. -/
theorem expands_of_expands_once {s u : List Char} (hs : Neat s)
    (h : Expands lookup (onceChars lookup s) u) : Expands lookup s u := by
  induction hs generalizing u with
  | nil => simpa using h
  | char hc _ ih =>
    rw [onceChars_char _ hc, expands_char_iff hc] at h
    obtain ⟨u', rfl, h⟩ := h
    exact (expands_char_iff hc).2 ⟨u', rfl, ih h⟩
  | @token name s hn hw _ ih =>
    rw [onceChars_token _ hn hw, expands_append_iff (neat_replacement hl hw)] at h
    obtain ⟨e, u', rfl, he, h⟩ := h
    refine (expands_token_iff hn hw).2 ⟨e, u', rfl, ?_, ih h⟩
    unfold replacement at he
    split at he
    · rename_i v hv
      exact .inr ⟨v, hv, he⟩
    · rename_i hv
      have hbare : Expands lookup name name := expands_of_names_eq_nil
        (names_eq_nil_of_forall_ne fun c hc => ne_at_of_isWordChar (hw c hc))
      exact .inl ⟨hv, he.unique hbare⟩

/-- As many passes as the chains of references are long are the full expansion. -/
theorem expands_iterate {k : Nat} {s : List Char} (hs : Neat s)
    (hk : ∀ n ∈ names s, ChainsWithin lookup k (String.ofList n)) :
    names ((onceChars lookup)^[k] s) = [] ∧ Expands lookup s ((onceChars lookup)^[k] s) := by
  induction k generalizing s with
  | zero =>
    -- a chain has at least one name
    have hnames : names s = [] := by
      rw [List.eq_nil_iff_forall_not_mem]
      intro n hn
      have := hk n hn [] (.singleton _)
      simp at this
    exact ⟨hnames, expands_of_names_eq_nil hnames⟩
  | succ k ih =>
    have step : ∀ n ∈ names (onceChars lookup s), ChainsWithin lookup k (String.ofList n) := by
      intro n hn
      obtain ⟨m, hm, hr⟩ := exists_refers_of_mem_names hl hs hn
      exact (hk m hm).of_refers hr
    obtain ⟨hnames, hexpands⟩ := ih (hs.onceChars hl) step
    rw [Function.iterate_succ_apply]
    exact ⟨hnames, expands_of_expands_once hl hs hexpands⟩

theorem iterate_onceChars_append (k : Nat) {s : List Char} (hs : Neat s) (t : List Char) :
    (onceChars lookup)^[k] (s ++ t) = (onceChars lookup)^[k] s ++ (onceChars lookup)^[k] t := by
  induction k generalizing s t with
  | zero => rfl
  | succ k ih =>
    simp only [Function.iterate_succ_apply]
    rw [onceChars_append lookup hs, ih (hs.onceChars hl)]

end Passes

end LateBinding.Template
