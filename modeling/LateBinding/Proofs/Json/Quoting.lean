import Mathlib.Tactic.SplitIfs
import LateBinding.Json.Reader

/-!
# Strings survive quoting

`Quote.read` takes back what `Quote.encode` writes, for every string: quotes, backslashes,
control characters and characters beyond U+FFFF included (`Quote.read_encoded`,
`Reader.quote_encoded`).

A character is written in one of three ways (`encodeChar_cases`): behind a backslash by a short
escape, by its code, or as it is.  Each way has its lemma on what `Quote.read` makes of it.
-/

namespace LateBinding.Json

namespace Quote

/-! ### How a character is written -/

/-- A character is written by a short escape that stands for it, by its code, or as it is. -/
theorem encodeChar_cases (c : Char) :
    (∃ e, shortEscape? e = some c ∧ encodeChar c = ['\\', e]) ∨
      (isControl c = true ∧ encodeChar c =
        ['\\', 'u', '0', '0', hexDigit (c.toNat / 16), hexDigit (c.toNat % 16)]) ∨
      (c ≠ '"' ∧ c ≠ '\\' ∧ isControl c = false ∧ encodeChar c = [c]) := by
  by_cases hq : c = '"'
  · exact .inl ⟨'"', by subst hq; exact ⟨rfl, rfl⟩⟩
  by_cases hb : c = '\\'
  · exact .inl ⟨'\\', by subst hb; exact ⟨rfl, rfl⟩⟩
  unfold encodeChar
  rw [if_neg hq, if_neg hb]
  split_ifs with h₁ h₂ h₃ h₄ h₅ hc
  · exact .inl ⟨'b', by simp [shortEscape?, h₁], rfl⟩
  · exact .inl ⟨'f', by simp [shortEscape?, h₂], rfl⟩
  · exact .inl ⟨'n', by simp [shortEscape?, h₃], rfl⟩
  · exact .inl ⟨'r', by simp [shortEscape?, h₄], rfl⟩
  · exact .inl ⟨'t', by simp [shortEscape?, h₅], rfl⟩
  · exact .inr (.inl ⟨hc, rfl⟩)
  · exact .inr (.inr ⟨hq, hb, by simpa using hc, rfl⟩)

theorem hexValue?_hexDigit : ∀ n < 16, hexValue? (hexDigit n) = some n := by decide

/-- The code of a control character, in four digits, is read back. -/
theorem hexQuad_code {n : Nat} (h : n < 0x20) (s : List Char) :
    hexQuad ('0' :: '0' :: hexDigit (n / 16) :: hexDigit (n % 16) :: s) = .ok (n, s) := by
  have high : hexValue? (hexDigit (n / 16)) = some (n / 16) := hexValue?_hexDigit _ (by omega)
  have low : hexValue? (hexDigit (n % 16)) = some (n % 16) := hexValue?_hexDigit _ (by omega)
  have zero : hexValue? '0' = some 0 := rfl
  have sum : n / 16 * 16 + n % 16 = n := by omega
  simp [hexQuad, high, low, zero, sum]

/-! ### What is read -/

theorem readEscape_short {e c : Char} (h : shortEscape? e = some c) (s : List Char) :
    readEscape (e :: s) = .ok (c, s) := by
  simp [readEscape, h]

theorem readEscape_code {c : Char} (h : isControl c = true) (s : List Char) :
    readEscape ('u' :: '0' :: '0' :: hexDigit (c.toNat / 16) :: hexDigit (c.toNat % 16) :: s) =
      .ok (c, s) := by
  have small : c.toNat < 0x20 := by simpa [isControl] using h
  -- so small a code is no half of a pair of surrogates
  have notLow : ¬(0xDC00 ≤ c.toNat ∧ c.toNat ≤ 0xDFFF) := by omega
  have notHigh : ¬(0xD800 ≤ c.toNat ∧ c.toNat ≤ 0xDBFF) := by omega
  have noShort : shortEscape? 'u' = none := rfl
  simp only [readEscape, noShort, if_true, readCode, hexQuad_code small, notLow, notHigh, if_false,
    Char.ofNat_toNat]

/-- What is read if this character stands before what is read. -/
def prepend (c : Char) (p : List Char × List Char) : List Char × List Char := (c :: p.1, p.2)

theorem read_quote (s : List Char) : read ('"' :: s) = .ok ([], s) := by
  rw [read]

theorem read_escaped {s s' : List Char} {c : Char} (h : readEscape s = .ok (c, s')) :
    read ('\\' :: s) = (read s').map (prepend c) := by
  rw [read]
  split
  · rename_i e he
    rw [h] at he
    cases he
  · rename_i c' t he
    rw [h] at he
    cases he
    cases read s' <;> rfl

theorem read_plain {c : Char} (hq : c ≠ '"') (hb : c ≠ '\\') (hc : isControl c = false)
    (s : List Char) : read (c :: s) = (read s).map (prepend c) := by
  rw [read]
  · rw [hc, if_neg Bool.false_ne_true]
    cases read s <;> rfl
  · exact hq
  · exact hb

/-- A character is read back from how it is written. -/
theorem read_encodeChar (c : Char) (s : List Char) :
    read (encodeChar c ++ s) = (read s).map (prepend c) := by
  obtain ⟨e, he, h⟩ | ⟨hc, h⟩ | ⟨hq, hb, hc, h⟩ := encodeChar_cases c
  · rw [h]
    exact read_escaped (readEscape_short he s)
  · rw [h]
    exact read_escaped (readEscape_code hc s)
  · rw [h]
    exact read_plain hq hb hc s

/-- A string is read back from how it is written, up to its closing quote. -/
theorem read_encoded (cs s : List Char) :
    read (cs.flatMap encodeChar ++ '"' :: s) = .ok (cs, s) := by
  induction cs with
  | nil => exact read_quote s
  | cons c cs ih =>
    rw [List.flatMap_cons, List.append_assoc, read_encodeChar, ih]
    rfl

end Quote

/-- A string is read back behind its opening quote. -/
theorem Reader.quote_encoded (text : String) (s : List Char) :
    Reader.quote (text.toList.flatMap Quote.encodeChar ++ '"' :: s) = .ok (text, s) := by
  simp [Reader.quote, Quote.read_encoded, Except.map]

end LateBinding.Json
