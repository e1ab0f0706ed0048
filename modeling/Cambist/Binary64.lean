import Cambist.Rounding

/-!
# Binary numbers of 64 bits

The nonnegative finite numbers of the 64-bit binary format: a significand below `2 ^ 53` times a
power of two, with an exponent from -1074 to 971. Products and quotients are those of exact
arithmetic, rounded once to the nearest number of the format, a half to the even significand.
-/

namespace Cambist

/-- The number `significand * 2 ^ exponent`. -/
structure Binary64 where
  significand : Nat
  exponent : Int
  significand_lt : significand < 2 ^ 53

namespace Binary64

/-- The least exponent of the format. -/
def minExponent : Int := -1074

/-- The greatest exponent of the format. -/
def maxExponent : Int := 971

/-- The number zero. -/
def zero : Binary64 := ⟨0, minExponent, by decide⟩

instance : Inhabited Binary64 := ⟨zero⟩

/-- Is this zero? -/
def isZero (x : Binary64) : Bool := x.significand == 0

/-- The numerator of the number as a fraction of whole numbers. -/
def num (x : Binary64) : Nat := x.significand * 2 ^ x.exponent.toNat

/-- The denominator of the number as a fraction of whole numbers. -/
def den (x : Binary64) : Nat := 2 ^ (-x.exponent).toNat

/-! ### Rounding to the format -/

/-- The fraction `n / d` in units of `2 ^ e`, rounded. -/
def inUnits (n d : Nat) (e : Int) : Nat := roundHalfEven (n * 2 ^ (-e).toNat) (d * 2 ^ e.toNat)

/-- The exponent at which the significand of `n / d` has 53 bits, or the least one. -/
def exponentOf (n d : Nat) : Int :=
  let e : Int := n.log2 - d.log2 - 53
  let whole := (n * 2 ^ (-e).toNat) / (d * 2 ^ e.toNat)
  max minExponent (if whole < 2 ^ 53 then e else e + 1)

/-- The number of the format nearest to `n / d`, `none` if that is beyond the greatest one. -/
def ofRatio? (n d : Nat) : Option Binary64 :=
  let e := exponentOf n d
  let m := inUnits n d e
  if h : m < 2 ^ 53 then
    if e ≤ maxExponent then some ⟨m, e, h⟩ else none
  else
    if e < maxExponent then some ⟨2 ^ 52, e + 1, by decide⟩ else none

/-- The number of the format nearest to a whole number. -/
def ofNat? (n : Nat) : Option Binary64 := ofRatio? n 1

/-! ### Arithmetic -/

/-- The product of two numbers, rounded. -/
def mul? (x y : Binary64) : Option Binary64 := ofRatio? (x.num * y.num) (x.den * y.den)

/-- The quotient of two numbers, rounded. -/
def div? (x y : Binary64) : Option Binary64 := ofRatio? (x.num * y.den) (x.den * y.num)

/-- The greatest power of ten below the greatest number of the format. -/
def maxPower : Nat := 308

/-- Divides by `10 ^ e`, by at most `10 ^ 308` at a time. -/
def divPower? (x : Binary64) (e : Nat) : Option Binary64 :=
  if e ≤ maxPower then do div? x (← ofNat? (10 ^ e))
  else if x.isZero then some x
  else do divPower? (← div? x (← ofNat? (10 ^ maxPower))) (e - maxPower)
termination_by e
decreasing_by simp only [maxPower] at *; omega

/-- Multiplies by `10 ^ e`. Beyond `10 ^ 308` only zero has a product. -/
def mulPower? (x : Binary64) (e : Nat) : Option Binary64 :=
  if e ≤ maxPower then do mul? x (← ofNat? (10 ^ e))
  else if x.isZero then some x
  else none

/-- The number nearest to `n`, times `10 ^ e` or divided by `10 ^ (-e)`. The power of ten is rounded
to the format first, so that the result may miss the nearest number to `n * 10 ^ e`. -/
def ofScaled? (n : Nat) (e : Int) : Option Binary64 := do
  let x ← ofNat? n
  if 0 ≤ e then x.mulPower? e.toNat else x.divPower? (-e).toNat

end Binary64

end Cambist
