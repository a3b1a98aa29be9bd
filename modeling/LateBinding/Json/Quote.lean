import LateBinding.Json.Basic

/-!
# JSON strings

The text of a JSON string between its quotes.  `Quote.encode` writes it and `Quote.read` reads
it back, up to and with the closing quote.

A quote or backslash is written behind a backslash, a control character by its short form or
by its code, and any other character as it is.  Read are all escapes of JSON; a character
beyond U+FFFF may be written as a pair of surrogates, and a surrogate that is not part of a
pair is malformed.  `Quote.skip` passes over a string without reading it, so it accepts any
surrogate.
-/

namespace LateBinding.Json.Quote

/-- The value of a digit in base sixteen. -/
def hexValue? (c : Char) : Option Nat :=
  if c.isDigit then some (c.toNat - '0'.toNat)
  else if 'a' ≤ c ∧ c ≤ 'f' then some (c.toNat - 'a'.toNat + 10)
  else if 'A' ≤ c ∧ c ≤ 'F' then some (c.toNat - 'A'.toNat + 10)
  else none

/-- Read four digits in base sixteen.  The text counts as cut short if fewer than four bytes
are left. -/
def hexQuad (s : List Char) : Except Fault (Nat × List Char) :=
  match s with
  | a :: b :: c :: d :: rest =>
    match hexValue? a, hexValue? b, hexValue? c, hexValue? d with
    | some a, some b, some c, some d => .ok (((a * 16 + b) * 16 + c) * 16 + d, rest)
    | _, _, _, _ => .error .malformed
  | short => .error (if (String.ofList short).utf8ByteSize < 4 then .truncated else .malformed)

theorem hexQuad_length {s rest : List Char} {n : Nat} (h : hexQuad s = .ok (n, rest)) :
    rest.length < s.length := by
  unfold hexQuad at h
  split at h
  · split at h
    · simp only [Except.ok.injEq, Prod.mk.injEq] at h
      rw [← h.2]
      simp
      omega
    · simp at h
  · simp at h

/-- The character that a pair of surrogates stands for. -/
def ofSurrogates (high low : Nat) : Char :=
  Char.ofNat (0x10000 + (high - 0xD800) * 0x400 + (low - 0xDC00))

/-- Read the second half of a pair of surrogates. -/
def readPair (high : Nat) (s : List Char) : Except Fault (Char × List Char) :=
  match s with
  | [] | ['\\'] => .error .truncated
  | '\\' :: 'u' :: rest =>
    match hexQuad rest with
    | .error e => .error e
    | .ok (low, rest) =>
      if 0xDC00 ≤ low ∧ low ≤ 0xDFFF then .ok (ofSurrogates high low, rest)
      else .error .malformed
  | _ => .error .malformed

/-- Read a code of four digits, or a pair of them. -/
def readCode (s : List Char) : Except Fault (Char × List Char) :=
  match hexQuad s with
  | .error e => .error e
  | .ok (n, rest) =>
    if 0xDC00 ≤ n ∧ n ≤ 0xDFFF then .error .malformed
    else if 0xD800 ≤ n ∧ n ≤ 0xDBFF then readPair n rest
    else .ok (Char.ofNat n, rest)

/-- The character that a short escape stands for. -/
def shortEscape? (c : Char) : Option Char :=
  match c with
  | '"' => some '"'
  | '\\' => some '\\'
  | '/' => some '/'
  | 'b' => some '\x08'
  | 'f' => some '\x0c'
  | 'n' => some '\n'
  | 'r' => some '\r'
  | 't' => some '\t'
  | _ => none

/-- Read what stands behind a backslash. -/
def readEscape (s : List Char) : Except Fault (Char × List Char) :=
  match s with
  | [] => .error .truncated
  | c :: rest =>
    match shortEscape? c with
    | some d => .ok (d, rest)
    | none => if c = 'u' then readCode rest else .error .malformed

theorem readPair_length {high : Nat} {s rest : List Char} {c : Char}
    (h : readPair high s = .ok (c, rest)) : rest.length < s.length := by
  unfold readPair at h
  split at h
  · simp at h
  · simp at h
  · split at h
    · simp at h
    · rename_i hq
      split at h
      · simp only [Except.ok.injEq, Prod.mk.injEq] at h
        have := hexQuad_length hq
        rw [← h.2]
        simp
        omega
      · simp at h
  · simp at h

theorem readCode_length {s rest : List Char} {c : Char} (h : readCode s = .ok (c, rest)) :
    rest.length < s.length := by
  unfold readCode at h
  split at h
  · simp at h
  · rename_i n r hq
    have := hexQuad_length hq
    split at h
    · simp at h
    · split at h
      · have := readPair_length h
        omega
      · simp only [Except.ok.injEq, Prod.mk.injEq] at h
        rw [← h.2]
        omega

theorem readEscape_length {s rest : List Char} {c : Char} (h : readEscape s = .ok (c, rest)) :
    rest.length < s.length := by
  unfold readEscape at h
  split at h
  · simp at h
  · split at h
    · simp only [Except.ok.injEq, Prod.mk.injEq] at h
      rw [← h.2]
      simp
    · split at h
      · have := readCode_length h
        simp
        omega
      · simp at h

/-- Whether a character may stand in a string only by an escape. -/
def isControl (c : Char) : Bool := c.toNat < 0x20

/-- Read a string behind its opening quote. -/
def read (s : List Char) : Except Fault (List Char × List Char) :=
  match s with
  | [] => .error .truncated
  | '"' :: rest => .ok ([], rest)
  | '\\' :: rest =>
    match _h : readEscape rest with
    | .error e => .error e
    | .ok (c, rest') =>
      match read rest' with
      | .error e => .error e
      | .ok (cs, rest'') => .ok (c :: cs, rest'')
  | c :: rest =>
    if isControl c then .error .malformed
    else
      match read rest with
      | .error e => .error e
      | .ok (cs, rest') => .ok (c :: cs, rest')
termination_by s.length
decreasing_by
  · have := readEscape_length _h
    simp
    omega
  · simp

/-- Pass over what stands behind a backslash. -/
def skipEscape (s : List Char) : Except Fault (List Char) :=
  match s with
  | [] => .error .truncated
  | c :: rest =>
    if (shortEscape? c).isSome then .ok rest
    else if c = 'u' then (hexQuad rest).map Prod.snd
    else .error .malformed

theorem skipEscape_length {s rest : List Char} (h : skipEscape s = .ok rest) :
    rest.length < s.length := by
  unfold skipEscape at h
  split at h
  · simp at h
  · split at h
    · simp only [Except.ok.injEq] at h
      rw [← h]
      simp
    · split at h
      · rename_i c r _ _
        cases hq : hexQuad r with
        | error e => simp [hq, Except.map] at h
        | ok p =>
          obtain ⟨n, t⟩ := p
          simp only [hq, Except.map, Except.ok.injEq] at h
          have := hexQuad_length hq
          rw [← h]
          simp
          omega
      · simp at h

/-- Pass over a string behind its opening quote. -/
def skip (s : List Char) : Except Fault (List Char) :=
  match s with
  | [] => .error .truncated
  | '"' :: rest => .ok rest
  | '\\' :: rest =>
    match _h : skipEscape rest with
    | .error e => .error e
    | .ok rest' => skip rest'
  | c :: rest => if isControl c then .error .malformed else skip rest
termination_by s.length
decreasing_by
  · have := skipEscape_length _h
    simp
    omega
  · simp

/-- A digit in base sixteen. -/
def hexDigit (n : Nat) : Char := Nat.digitChar n

/-- How a character is written in a string. -/
def encodeChar (c : Char) : List Char :=
  if c = '"' then ['\\', '"']
  else if c = '\\' then ['\\', '\\']
  else if c = '\x08' then ['\\', 'b']
  else if c = '\x0c' then ['\\', 'f']
  else if c = '\n' then ['\\', 'n']
  else if c = '\r' then ['\\', 'r']
  else if c = '\t' then ['\\', 't']
  else if isControl c then
    ['\\', 'u', '0', '0', hexDigit (c.toNat / 16), hexDigit (c.toNat % 16)]
  else [c]

/-- A string with its quotes. -/
def encode (s : List Char) : List Char := '"' :: s.flatMap encodeChar ++ ['"']

end LateBinding.Json.Quote
