import Mathlib.Logic.Function.Iterate
import LateBinding.Template

/-!
# Clean texts

A text is *clean* if every `@` in it is a delimiter of one of its tokens (`Template.Clean`).  A
clean text is made of plain characters and tokens, in any order (`Template.Neat`); hence clean
texts can be put one after the other, and their tokens are those of the parts.

One pass without effects is `Template.once`; on the characters of a text it is
`Template.onceChars`.  On clean texts it goes from part to part (`onceChars_append`), and if the
values are clean, so is the result (`Neat.onceChars`).
-/

namespace LateBinding.Template

/-! ### Scanning -/

theorem token?_of_ne {c : Char} {s : List Char} (hc : c ≠ '@') : token? (c :: s) = none := by
  simp [token?, hc]

theorem scan_char {c : Char} {s : List Char} (hc : c ≠ '@') :
    scan (c :: s) = ⟨c :: (scan s).opening, (scan s).tokens⟩ :=
  scan_of_token?_eq_none (token?_of_ne hc)

section Token

variable {name s : List Char} (hn : name ≠ []) (hw : ∀ c ∈ name, isWordChar c = true)

include hn hw

theorem token?_token : token? ('@' :: name ++ '@' :: s) = some (name, s) := by
  have htake : (name ++ '@' :: s).takeWhile isWordChar = name := by
    rw [List.takeWhile_append_of_pos hw]
    simp [isWordChar_at]
  have hdrop : (name ++ '@' :: s).dropWhile isWordChar = '@' :: s := by
    rw [List.dropWhile_append_of_pos hw]
    simp [isWordChar_at]
  rw [List.cons_append, token?, htake, if_pos ⟨rfl, hn⟩, hdrop]
  rfl

theorem scan_token : scan ('@' :: name ++ '@' :: s) =
    ⟨[], (name, (scan s).opening) :: (scan s).tokens⟩ :=
  scan_of_token? (token?_token hn hw)

end Token

theorem token_append (name s t : List Char) :
    '@' :: name ++ '@' :: s ++ t = '@' :: name ++ '@' :: (s ++ t) := by simp

/-! ### Clean texts -/

/-- Every `@` in the text is a delimiter of one of its tokens. -/
def Clean (text : String) : Prop :=
  '@' ∉ (scan text.toList).opening ∧ ∀ t ∈ (scan text.toList).tokens, '@' ∉ t.2

/-- Plain characters and tokens, one after the other. -/
inductive Neat : List Char → Prop
  | nil : Neat []
  | char {c : Char} {s : List Char} (hc : c ≠ '@') (h : Neat s) : Neat (c :: s)
  | token {name s : List Char} (hn : name ≠ []) (hw : ∀ c ∈ name, isWordChar c = true)
    (h : Neat s) : Neat ('@' :: name ++ '@' :: s)

theorem neat_of_scan {s : List Char} (ho : '@' ∉ (scan s).opening)
    (ht : ∀ t ∈ (scan s).tokens, '@' ∉ t.2) : Neat s := by
  fun_induction scan s with
  | case1 => exact .nil
  | case2 c rest name after h next ih =>
    obtain ⟨hs, hn, hw⟩ := token?_eq_some h
    rw [hs]
    exact .token hn hw (ih (ht _ List.mem_cons_self) fun t h => ht t (List.mem_cons_of_mem _ h))
  | case3 c rest h next ih =>
    rw [List.mem_cons, not_or] at ho
    exact .char (Ne.symm ho.1) (ih ho.2 ht)

theorem Clean.neat {text : String} (h : Clean text) : Neat text.toList := neat_of_scan h.1 h.2

theorem ne_at_of_isWordChar {c : Char} (h : isWordChar c = true) : c ≠ '@' := by
  rintro rfl
  simp [isWordChar_at] at h

namespace Neat

variable {s t : List Char}

theorem of_forall_ne (h : ∀ c ∈ s, c ≠ '@') : Neat s := by
  induction s with
  | nil => exact .nil
  | cons c s ih =>
    exact .char (h c List.mem_cons_self) (ih fun d hd => h d (List.mem_cons_of_mem _ hd))

theorem append (hs : Neat s) (ht : Neat t) : Neat (s ++ t) := by
  induction hs with
  | nil => exact ht
  | char hc _ ih => exact .char hc ih
  | token hn hw _ ih =>
    rw [token_append]
    exact .token hn hw ih

end Neat

/-! ### One pass -/

/-- Replace every token in one pass, with a lookup that has no effects. -/
def once (lookup : String → Option String) (text : String) : String :=
  Id.run (substituteOnce (fun name => pure (lookup name)) text)

/-- What takes the place of a token. -/
def replacement (lookup : String → Option String) (name : List Char) : List Char :=
  match lookup (String.ofList name) with
  | some v => v.toList
  | none => name

/-- One pass over the characters of a text. -/
def onceChars (lookup : String → Option String) (s : List Char) : List Char :=
  (scan s).opening ++ (scan s).tokens.flatMap fun t => replacement lookup t.1 ++ t.2

/-- The names of the tokens of a text, as characters. -/
def names (s : List Char) : List (List Char) := (scan s).tokens.map Prod.fst

section Once

variable (lookup : String → Option String)

theorem fill_id (l : List (List Char × List Char)) :
    (Id.run (fill (fun name => pure (lookup name)) l)).toList =
      l.flatMap fun t => replacement lookup t.1 ++ t.2 := by
  induction l with
  | nil => rfl
  | cons t rest ih =>
    simp only [fill, pure_bind, Id.run_bind, Id.run_pure, String.toList_append, ih,
      String.toList_ofList, List.flatMap_cons, replacement]
    cases lookup (String.ofList t.1) <;> simp

theorem toList_once (text : String) : (once lookup text).toList = onceChars lookup text.toList := by
  simp only [once, substituteOnce, Id.run_bind, Id.run_pure, String.toList_append,
    String.toList_ofList, fill_id, onceChars]

theorem toList_iterate_once (k : Nat) (text : String) :
    ((once lookup)^[k] text).toList = (onceChars lookup)^[k] text.toList := by
  induction k generalizing text with
  | zero => rfl
  | succ k ih => rw [Function.iterate_succ_apply, Function.iterate_succ_apply, ih, toList_once]

@[simp] theorem onceChars_nil : onceChars lookup [] = [] := by simp [onceChars, scan_nil]

theorem onceChars_char {c : Char} {s : List Char} (hc : c ≠ '@') :
    onceChars lookup (c :: s) = c :: onceChars lookup s := by
  simp [onceChars, scan_char hc]

theorem onceChars_token {name s : List Char} (hn : name ≠ [])
    (hw : ∀ c ∈ name, isWordChar c = true) :
    onceChars lookup ('@' :: name ++ '@' :: s) = replacement lookup name ++ onceChars lookup s := by
  rw [onceChars, scan_token hn hw, onceChars]
  simp

/-- A pass over clean texts one after the other goes over each of them. -/
theorem onceChars_append {s : List Char} (hs : Neat s) (t : List Char) :
    onceChars lookup (s ++ t) = onceChars lookup s ++ onceChars lookup t := by
  induction hs with
  | nil => simp
  | char hc _ ih => rw [List.cons_append, onceChars_char _ hc, onceChars_char _ hc, ih,
      List.cons_append]
  | @token name s hn hw _ ih =>
    rw [token_append, onceChars_token _ hn hw, onceChars_token _ hn hw, ih, List.append_assoc]

end Once

theorem names_char {c : Char} {s : List Char} (hc : c ≠ '@') : names (c :: s) = names s := by
  simp [names, scan_char hc]

theorem names_token {name s : List Char} (hn : name ≠ [])
    (hw : ∀ c ∈ name, isWordChar c = true) :
    names ('@' :: name ++ '@' :: s) = name :: names s := by
  rw [names, scan_token hn hw, names, List.map_cons]

/-- The tokens of clean texts one after the other are those of each of them. -/
theorem names_append {s : List Char} (hs : Neat s) (t : List Char) :
    names (s ++ t) = names s ++ names t := by
  induction hs with
  | nil => simp [names, scan_nil]
  | char hc _ ih => rw [List.cons_append, names_char hc, names_char hc, ih]
  | @token name s hn hw _ ih =>
    rw [token_append, names_token hn hw, names_token hn hw, ih, List.cons_append]

theorem names_eq_nil_of_forall_ne {s : List Char} (h : ∀ c ∈ s, c ≠ '@') : names s = [] := by
  induction s with
  | nil => simp [names, scan_nil]
  | cons c s ih =>
    rw [names_char (h c List.mem_cons_self), ih fun d hd => h d (List.mem_cons_of_mem _ hd)]

theorem hasTokens_eq_false_iff {text : String} :
    hasTokens text = false ↔ names text.toList = [] := by
  simp [hasTokens, names]

theorem tokens_eq (text : String) : tokens text = (names text.toList).map String.ofList := by
  simp [tokens, names]

/-- A pass over a text without tokens changes nothing. -/
theorem once_of_not_hasTokens (lookup : String → Option String) {text : String}
    (h : hasTokens text = false) : once lookup text = text := by
  have ht : (scan text.toList).tokens = [] := by simpa [hasTokens] using h
  have hs := text_scan text.toList
  rw [Segments.text, ht] at hs
  rw [← String.toList_inj, toList_once, onceChars, ht]
  exact hs

theorem iterate_once_of_not_hasTokens (lookup : String → Option String) {text : String}
    (h : hasTokens text = false) (k : Nat) : (once lookup)^[k] text = text :=
  Function.iterate_fixed (once_of_not_hasTokens lookup h) k

theorem neat_replacement {lookup : String → Option String} {name : List Char}
    (hl : ∀ n v, lookup n = some v → Clean v) (hw : ∀ c ∈ name, isWordChar c = true) :
    Neat (replacement lookup name) := by
  unfold replacement
  split
  · rename_i v hv
    exact (hl _ v hv).neat
  · exact .of_forall_ne fun c hc => ne_at_of_isWordChar (hw c hc)

/-- A pass that puts clean values into a clean text leaves a clean text. -/
theorem Neat.onceChars {lookup : String → Option String}
    (hl : ∀ n v, lookup n = some v → Clean v) {s : List Char} (hs : Neat s) :
    Neat (onceChars lookup s) := by
  induction hs with
  | nil => simpa using Neat.nil
  | char hc _ ih =>
    rw [onceChars_char _ hc]
    exact .char hc ih
  | token hn hw _ ih =>
    rw [onceChars_token _ hn hw]
    exact (neat_replacement hl hw).append ih

end LateBinding.Template
