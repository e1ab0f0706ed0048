import Cambist.Decimal.Rounding

/-!
# Adding and multiplying decimals

Both operations are exact whenever the exact result fits; otherwise the result is the fitted one
(`Magnitude.fit?`), and there is none when the whole part needs more than 96 bits.

Some results keep more or fewer zeros than the exact rule would give. A zero operand of an addition
gives back the other operand as it stands, whatever the scales. A product with a zero is zero
without digits after the point.
-/

namespace Cambist.Decimal

/-! ### Addition -/

/-- The number as a whole number of units of `10 ^ (-s)`, for a scale `s` not below its own. -/
def atScale (x : Decimal) (s : Nat) : Int := x.sign.toInt (x.magnitude.units s)

/-- The sum of two decimals, `none` on overflow. A sum of zero is positive. -/
def add? (x y : Decimal) : Option Decimal :=
  if x.isZero then some y
  else if y.isZero then some x
  else
    let s := max x.scale y.scale
    let total := x.atScale s + y.atScale s
    (Magnitude.fit? total.natAbs s).map fun m => ⟨.ofInt total, m⟩

/-! ### Multiplication -/

/-- Is this a short decimal, one whose mantissa takes at most 32 bits? -/
def isShort (x : Decimal) : Bool := x.mantissa < 2 ^ 32

/-- The product of two decimals, `none` on overflow.

A product that rounds to zero has scale 28; it keeps a minus sign only if an operand is not short.
Two short operands with more than 47 digits after the point together give a plain zero: their
product is below half a unit of the last place. -/
def mul? (x y : Decimal) : Option Decimal :=
  if x.isZero || y.isZero then some zero
  else
    let s := x.scale + y.scale
    let sign := x.sign.mul y.sign
    let product := (Magnitude.fit? (x.mantissa * y.mantissa) s).map fun m => (⟨sign, m⟩ : Decimal)
    if x.isShort && y.isShort then
      if 47 < s then some zero else product.map unsignZero
    else product

end Cambist.Decimal
