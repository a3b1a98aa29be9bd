/-!
# Shortest decimals

A finite binary number stands for every real number that rounds to it, and `Decimal.shortest`
picks a decimal among those with the fewest digits: the nearest to the number, and of two
equally near ones the one that `Tie` names.

The number is `m * 2 ^ q` (`Binary`), and everything is decided by comparing natural numbers:

* `Binary.covers` tests whether a decimal rounds to the number,
* `Binary.scale` is the power of ten just above the number,
* `Binary.onGrid` tries the two neighbours of the number among the multiples of a power of ten,
* `Binary.shortest` tries finer and finer powers of ten.
-/

namespace LateBinding

/-- A finite binary number without its sign, `mantissa * 2 ^ exponent`. -/
structure Binary where
  /-- The mantissa. -/
  mantissa : Nat
  /-- The power of two it is multiplied with. -/
  exponent : Int
  /-- Whether the number below is half as far away as the number above. -/
  narrowBelow : Bool

/-- A decimal number without its sign, `digits * 10 ^ exponent`. -/
structure Decimal where
  /-- The digits, read as a natural number. -/
  digits : Nat
  /-- The power of ten they are multiplied with. -/
  exponent : Int
  deriving DecidableEq

/-- Which of two equally near decimals is taken. -/
inductive Tie
  /-- The one whose last digit is even. -/
  | toEven
  /-- The greater one. -/
  | upward

/-- The bit above the fraction of a binary number, of weight `2 ^ 52`.  It is set in every
number but the smallest ones, and not stored. -/
def Binary.hiddenBit : Nat := 4503599627370496

/-- The magnitude of a finite number. -/
def Binary.ofFloat (x : Float) : Binary :=
  let bits := x.toBits.toNat
  let biased : Nat := bits / hiddenBit % 2048
  let fraction : Nat := bits % hiddenBit
  if biased = 0 then ⟨fraction, -1074, false⟩
  else ⟨hiddenBit + fraction, (biased : Nat) - (1075 : Int), fraction == 0 && biased != 1⟩

/-- The numerator of `base ^ e`: the power itself, or one if `e` is negative. -/
def powerNumerator (base : Nat) (e : Int) : Nat := Nat.pow base e.toNat

/-- Compare `a * 10 ^ i` with `b * 2 ^ j`. -/
def compareScaled (a : Nat) (i : Int) (b : Nat) (j : Int) : Ordering :=
  compare (a * powerNumerator 10 i * powerNumerator 2 (-j))
    (b * powerNumerator 2 j * powerNumerator 10 (-i))

namespace Binary

/-- Whether a decimal rounds to the number.  The ends of the interval, half-way to the
neighbours, belong to it iff the mantissa is even. -/
def covers (b : Binary) (d : Decimal) : Bool :=
  let low := compareScaled d.digits d.exponent
    (4 * b.mantissa - if b.narrowBelow then 1 else 2) (b.exponent - 2)
  let high := compareScaled d.digits d.exponent (4 * b.mantissa + 2) (b.exponent - 2)
  if b.mantissa % 2 = 0 then low != .lt && high != .gt else low == .gt && high == .lt

/-- The least `k` such that the number is below `10 ^ k`. -/
def scale (b : Binary) : Int :=
  let estimate := ((b.mantissa.log2 : Int) + b.exponent) * 30103 / 100000
  let above (k : Int) : Bool := compareScaled 1 k b.mantissa b.exponent == .gt
  ([estimate, estimate + 1, estimate + 2].find? above).getD (estimate + 3)

/-- The multiple of `10 ^ i` that is nearest to the number among its two neighbours on that
grid, if one of them rounds to the number. -/
def onGrid (b : Binary) (tie : Tie) (i : Int) : Option Decimal :=
  let numerator := b.mantissa * powerNumerator 2 b.exponent * powerNumerator 10 (-i)
  let denominator := powerNumerator 2 (-b.exponent) * powerNumerator 10 i
  let below := numerator / denominator
  let lower : Decimal := ⟨below, i⟩
  let upper : Decimal := ⟨below + 1, i⟩
  match b.covers lower, b.covers upper with
  | false, false => none
  | true, false => some lower
  | false, true => some upper
  | true, true =>
    match compare (2 * (numerator % denominator)) denominator, tie with
    | .lt, _ => some lower
    | .gt, _ => some upper
    | .eq, .upward => some upper
    | .eq, .toEven => some (if below % 2 = 0 then lower else upper)

/-- The number as a decimal with all its digits. -/
def exact (b : Binary) : Decimal :=
  if 0 ≤ b.exponent then ⟨b.mantissa * powerNumerator 2 b.exponent, 0⟩
  else ⟨b.mantissa * powerNumerator 5 (-b.exponent), b.exponent⟩

end Binary

/-- Move zeros at the end of the digits to the power of ten; `fuel` bounds their number. -/
def Decimal.stripZeros : Nat → Decimal → Decimal
  | 0, d => d
  | fuel + 1, d =>
    if d.digits ≠ 0 ∧ d.digits % 10 = 0 then stripZeros fuel ⟨d.digits / 10, d.exponent + 1⟩
    else d

/-- The decimal with the fewest digits that rounds to the number. -/
def Binary.shortest (b : Binary) (tie : Tie) : Decimal :=
  if b.mantissa = 0 then ⟨0, 0⟩
  else
    let top := b.scale
    let found := (List.range 17).findSome? fun n => b.onGrid tie (top - (n + 1 : Nat))
    (found.getD b.exact).stripZeros 20

end LateBinding
