import LateBinding.Decimal.Shortest

/-!
# Writing floating-point numbers

A number is written with its shortest digits (`Binary.shortest`).  How the digits are laid out
is a value of type `NumberLayout`, given where the text is written; `NumberLayout.render` is
the one function from numbers to text.
-/

namespace LateBinding

/-- The decisions of a format for floating-point numbers. -/
structure NumberLayout where
  /-- The powers of ten of the leading digit for which the number is written positionally. -/
  positional : Int → Bool
  /-- Whether a whole number is given a point and a zero. -/
  pointZero : Bool
  /-- The sign before a power of ten that is not negative. -/
  plus : String
  /-- The choice between two equally near decimals. -/
  tie : Tie

/-- A row of zeros. -/
def zeros (n : Nat) : List Char := List.replicate n '0'

/-- The digits of a natural number in base ten. -/
def digitsOf (n : Nat) : List Char := Nat.toDigits 10 n

namespace NumberLayout

/-- A decimal in positional notation. -/
def positionalText (l : NumberLayout) (d : Decimal) : List Char :=
  let ds := digitsOf d.digits
  let point : Int := ds.length + d.exponent
  if 0 ≤ d.exponent then
    ds ++ zeros d.exponent.toNat ++ if l.pointZero then ['.', '0'] else []
  else if 0 < point then ds.take point.toNat ++ '.' :: ds.drop point.toNat
  else '0' :: '.' :: zeros (-point).toNat ++ ds

/-- A decimal with a power of ten. -/
def scientificText (l : NumberLayout) (d : Decimal) : List Char :=
  let ds := digitsOf d.digits
  let power : Int := ds.length + d.exponent - 1
  let lead := ds.take 1
  let rest := ds.drop 1
  lead ++ (if rest.isEmpty then [] else '.' :: rest) ++ 'e' ::
    (if power < 0 then ['-'] else l.plus.toList) ++ digitsOf power.natAbs

/-- A decimal as the layout says. -/
def decimalText (l : NumberLayout) (d : Decimal) : List Char :=
  let power : Int := (digitsOf d.digits).length + d.exponent - 1
  if l.positional power then l.positionalText d else l.scientificText d

/-- The text of a number. -/
def render (l : NumberLayout) (x : Float) : String :=
  if x.isNaN then "NaN"
  else
    let magnitude := if x.isInf then ['i', 'n', 'f']
      else l.decimalText ((Binary.ofFloat x).shortest l.tie)
    String.ofList (if x.toBits < 0x8000000000000000 then magnitude else '-' :: magnitude)

end NumberLayout

end LateBinding
