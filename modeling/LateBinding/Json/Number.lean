import LateBinding.Json.Basic

/-!
# Reading numbers

A JSON number is an optional sign, a whole part without leading zeros, and optionally a
fraction and a power of ten.

* A whole number is read exactly if it fits 64 bits, signed if it has a sign; minus zero does
  not and is a floating-point number.
* Any other number is its *significand*, the digits read as one number as far as that fits 64
  bits, scaled by a power of ten in floating-point arithmetic (`Number.scaled`).  Digits that
  do not fit are dropped.

`Number.skip` passes over a number without reading its value, so it accepts numbers that are
out of range.
-/

namespace LateBinding.Json

/-- The value of a decimal digit. -/
def digitValue (c : Char) : Nat := c.toNat - '0'.toNat

namespace Number

/-- Append digits to a significand as long as the result fits 64 bits; the digits that remain
are returned. -/
def accumulate (significand : Nat) : List Char → Nat × List Char
  | [] => (significand, [])
  | c :: rest =>
    let next := significand * 10 + digitValue c
    if next < UInt64.size then accumulate next rest else (significand, c :: rest)

/-- The floating-point power of ten. -/
def powerOfTen (n : Nat) : Float := Float.ofScientific 1 false n

/-- `x * 10 ^ e` in floating-point arithmetic, in steps of at most `10 ^ 308`; `none` if it is
out of range.  A number below `2 ^ 64` is zero after two such divisions, so three steps are
enough. -/
def scaled : Nat → Float → Int → Option Float
  | 0, x, _ => some x
  | steps + 1, x, e =>
    if 0 ≤ e ∧ e ≤ 308 then
      let y := x * powerOfTen e.toNat
      if y.isInf then none else some y
    else if -308 ≤ e ∧ e < 0 then some (x / powerOfTen (-e).toNat)
    else if x == 0 then some x
    else if 0 ≤ e then none
    else scaled steps (x / powerOfTen 308) (e + 308)

/-- The number with this sign, significand and power of ten. -/
def ofParts (negative : Bool) (significand : Nat) (power : Int) : Except Fault Number :=
  match scaled 3 significand.toUInt64.toFloat power with
  | none => .error .malformed
  | some x => .ok (.float (if negative then -x else x))

/-- The number without fraction or power of ten. -/
def ofWhole (negative : Bool) (significand : Nat) : Number :=
  if !negative then .integer significand
  else if significand = 0 ∨ UInt64.size / 2 < significand then .float (-significand.toUInt64.toFloat)
  else .integer (-significand)

/-- Read a power of ten behind its mark: its value and the rest of the text. -/
def readPower (s : List Char) : Except Fault (Int × List Char) :=
  let (negative, s) := match s with
    | '+' :: rest => (false, rest)
    | '-' :: rest => (true, rest)
    | s => (false, s)
  match s with
  | [] => .error .truncated
  | c :: _ =>
    if c.isDigit then
      let n : Nat := (s.takeWhile Char.isDigit).foldl (fun n c => n * 10 + digitValue c) 0
      .ok (if negative then -(n : Int) else n, s.dropWhile Char.isDigit)
    else .error .malformed

/-- Whether a character marks a power of ten. -/
def isPowerMark (c : Char) : Bool := c == 'e' || c == 'E'

/-- Read what follows the digits of a number that is not whole. -/
def readTail (negative : Bool) (significand : Nat) (power : Int) (s : List Char) :
    Except Fault (Number × List Char) := do
  match s with
  | c :: rest =>
    if isPowerMark c then
      let (p, rest) ← readPower rest
      return (← ofParts negative significand (power + p), rest)
    else return (← ofParts negative significand power, s)
  | [] => return (← ofParts negative significand power, s)

/-- Read a number behind its sign. -/
def read (negative : Bool) (s : List Char) : Except Fault (Number × List Char) := do
  let whole := s.takeWhile Char.isDigit
  let rest := s.dropWhile Char.isDigit
  match whole with
  | [] => .error (if s.isEmpty then .truncated else .malformed)
  | '0' :: _ :: _ => .error .malformed
  | _ =>
    let (significand, dropped) := accumulate 0 whole
    let power : Int := dropped.length
    match rest with
    | '.' :: fraction =>
      let digits := fraction.takeWhile Char.isDigit
      if digits.isEmpty then .error (if fraction.isEmpty then .truncated else .malformed)
      else
        let (significand, unread) := accumulate significand digits
        readTail negative significand (power - (digits.length - unread.length : Nat))
          (fraction.dropWhile Char.isDigit)
    | c :: _ =>
      if isPowerMark c || !dropped.isEmpty then readTail negative significand power rest
      else return (ofWhole negative significand, rest)
    | [] =>
      if dropped.isEmpty then return (ofWhole negative significand, [])
      else readTail negative significand power []

/-- Pass over at least one digit. -/
def skipDigits (s : List Char) : Except Fault (List Char) :=
  if (s.takeWhile Char.isDigit).isEmpty then .error .malformed
  else .ok (s.dropWhile Char.isDigit)

/-- Pass over a power of ten, if there is one. -/
def skipPower (s : List Char) : Except Fault (List Char) :=
  match s with
  | c :: rest =>
    if isPowerMark c then
      match rest with
      | '+' :: rest => skipDigits rest
      | '-' :: rest => skipDigits rest
      | rest => skipDigits rest
    else .ok s
  | [] => .ok []

/-- Pass over a number behind its sign.  A number that is cut short is malformed. -/
def skip (s : List Char) : Except Fault (List Char) := do
  match s with
  | '0' :: c :: _ => if c.isDigit then .error .malformed
  | _ => pure ()
  match ← skipDigits s with
  | '.' :: fraction => skipPower (← skipDigits fraction)
  | rest => skipPower rest

end Number

end LateBinding.Json
