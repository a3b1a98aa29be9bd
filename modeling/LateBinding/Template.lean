import LateBinding.Text.Word

/-!
# Name templates

A template is a text with *tokens*: a name between two `@`, where a name is a non-empty run of
word characters.  Tokens are read from the left and never overlap: after a token the search
goes on behind its closing `@`, after an `@` that opens no token it goes on with the next
character.

`Template.scan` cuts a text into its tokens and the plain stretches between them
(`Template.Segments`); everything else reads that decomposition:

* `Template.tokens` lists the names, `Template.hasTokens` asks whether there is one,
* `Template.substituteOnce` replaces each token by the value a lookup gives its name, or by the
  bare name, and copies the rest.

`Template.text_scan` says that the decomposition loses nothing.
-/

namespace LateBinding

namespace Template

/-- The number of passes after which repeated substitution gives up. -/
def maxPasses : Nat := 64

/-! ### Scanning -/

/-- The token at the head of a text: its name and the text behind it. -/
def token? : List Char → Option (List Char × List Char)
  | [] => none
  | c :: rest =>
    if c = '@' ∧ rest.takeWhile isWordChar ≠ [] then
      match rest.dropWhile isWordChar with
      | '@' :: after => some (rest.takeWhile isWordChar, after)
      | _ => none
    else none

theorem token?_eq_some {s name after : List Char} (h : token? s = some (name, after)) :
    s = '@' :: name ++ '@' :: after ∧ name ≠ [] ∧ ∀ c ∈ name, isWordChar c = true := by
  cases s with
  | nil => simp [token?] at h
  | cons c rest =>
    rw [token?] at h
    split at h
    · rename_i hc
      split at h
      · rename_i t hd
        simp only [Option.some.injEq, Prod.mk.injEq] at h
        obtain ⟨rfl, rfl⟩ := h
        refine ⟨?_, hc.2, fun c hm => List.all_eq_true.1 (List.all_takeWhile) c hm⟩
        rw [hc.1, List.cons_append, ← hd, List.takeWhile_append_dropWhile]
      · simp at h
    · simp at h

theorem length_lt_of_token? {s name after : List Char} (h : token? s = some (name, after)) :
    after.length < s.length := by
  rw [(token?_eq_some h).1]
  simp
  omega

/-- A text cut at its tokens. -/
structure Segments where
  /-- The plain text before the first token. -/
  opening : List Char
  /-- The name of each token with the plain text between it and the next one. -/
  tokens : List (List Char × List Char)

/-- Cut a text at its tokens, from the left. -/
def scan (s : List Char) : Segments :=
  match s with
  | [] => ⟨[], []⟩
  | c :: rest =>
    match _h : token? (c :: rest) with
    | some (name, after) =>
      let next := scan after
      ⟨[], (name, next.opening) :: next.tokens⟩
    | none =>
      let next := scan rest
      ⟨c :: next.opening, next.tokens⟩
termination_by s.length
decreasing_by
  · exact length_lt_of_token? _h
  · simp

/-- The text that was cut. -/
def Segments.text (g : Segments) : List Char :=
  g.opening ++ g.tokens.flatMap fun t => '@' :: t.1 ++ '@' :: t.2

theorem scan_nil : scan [] = ⟨[], []⟩ := by rw [scan]

theorem scan_of_token? {s name after : List Char} (h : token? s = some (name, after)) :
    scan s = ⟨[], (name, (scan after).opening) :: (scan after).tokens⟩ := by
  cases s with
  | nil => simp [token?] at h
  | cons c rest =>
    rw [scan]
    split
    · rename_i n a hn
      rw [h] at hn
      simp only [Option.some.injEq, Prod.mk.injEq] at hn
      rw [hn.1, hn.2]
    · rename_i hn
      rw [h] at hn
      simp at hn

theorem scan_of_token?_eq_none {c : Char} {rest : List Char} (h : token? (c :: rest) = none) :
    scan (c :: rest) = ⟨c :: (scan rest).opening, (scan rest).tokens⟩ := by
  rw [scan]
  split
  · rename_i n a hn
    rw [h] at hn
    simp at hn
  · rfl

/-- Cutting a text loses nothing. -/
theorem text_scan (s : List Char) : (scan s).text = s := by
  fun_induction scan s with
  | case1 => rfl
  | case2 c rest name after h next ih =>
    rw [(token?_eq_some h).1]
    simpa [Segments.text] using ih
  | case3 c rest h next ih => simpa [Segments.text] using ih

/-! ### Texts -/

/-- The names of the tokens, in order of appearance. -/
def tokens (text : String) : List String :=
  (scan text.toList).tokens.map fun t => String.ofList t.1

/-- Whether the text has a token. -/
def hasTokens (text : String) : Bool := !(scan text.toList).tokens.isEmpty

section Substitution

variable {m : Type → Type} [Monad m]

/-- Put a value, or else the bare name, in the place of each token.  The values are looked up
from left to right. -/
def fill (lookup : String → m (Option String)) : List (List Char × List Char) → m String
  | [] => pure ""
  | (name, after) :: rest => do
    let value ← lookup (String.ofList name)
    let tail ← fill lookup rest
    pure (value.getD (String.ofList name) ++ String.ofList after ++ tail)

/-- Replace every token in one pass.  A token without a value is replaced by its bare name. -/
def substituteOnce (lookup : String → m (Option String)) (text : String) : m String := do
  let segments := scan text.toList
  let tail ← fill lookup segments.tokens
  pure (String.ofList segments.opening ++ tail)

end Substitution

end Template

end LateBinding
