import Cambist.Binary64
import Cambist.Decimal.Text

/-!
# The shortest decimal of a binary number

A binary number stands for all reals that round to it. Among the decimals in that interval the one
with the fewest digits is chosen, the nearest one if there are several, and the larger one of two
that are equally near.

Numbers are written positionally, with all zeros before or after the digits and without an exponent.
-/

namespace Cambist.Binary64

/-! ### The interval of a number -/

/-- Is this the smallest significand of its exponent, so that the numbers below lie closer? -/
def isLowerEdge (x : Binary64) : Bool := x.significand == 2 ^ 52 && minExponent < x.exponent

/-- Does `k * 10 ^ p` round to this number? The bounds are `1/2` of a unit away, the lower one `1/4`
at a lower edge, and belong to the interval of an even significand. Everything is multiplied by four
and brought to a common denominator. -/
def contains (x : Binary64) (k : Nat) (p : Int) : Bool :=
  let value := 4 * (k * 10 ^ p.toNat) * x.den
  let unit := 2 ^ x.exponent.toNat * 10 ^ (-p).toNat
  let lower := (4 * x.significand - if x.isLowerEdge then 1 else 2) * unit
  let upper := (4 * x.significand + 2) * unit
  if x.significand % 2 = 0 then lower ≤ value && value ≤ upper
  else lower < value && value < upper

/-! ### Digits -/

/-- The multiple of `10 ^ p` in the interval of a number that is nearest to it, if there is one. -/
def nearestMultiple? (x : Binary64) (p : Int) : Option Nat :=
  let n := x.num * 10 ^ (-p).toNat
  let d := x.den * 10 ^ p.toNat
  let k := n / d
  let below := x.contains k p
  let above := x.contains (k + 1) p
  if below && above then some (roundHalfUp n d)
  else if below then some k
  else if above then some (k + 1)
  else none

/-- A power of ten not below the number, and at most a thousand times as large. -/
def startPower (x : Binary64) : Int :=
  if x.den ≤ x.num then (Nat.toDigits 10 (x.num / x.den)).length
  else 2 - (Nat.toDigits 10 (x.den / x.num)).length

/-- The digits and the power of ten of the shortest decimal of a number other than zero. Twenty
powers suffice, since 17 digits tell all numbers apart. -/
def shortest (x : Binary64) : Nat × Int :=
  ((List.range 20).findSome? fun (i : Nat) =>
    let p := x.startPower - i
    (x.nearestMultiple? p).map (·, p)).getD (0, 0)

/-- The decimal `k * 10 ^ p` in positional notation. -/
def positional (k : Nat) (p : Int) : List Char :=
  let places := (-p).toNat
  Nat.toDigits 10 (k * 10 ^ p.toNat / 10 ^ places) ++
    if places = 0 then [] else '.' :: lastDigits places (k % 10 ^ places)

/-- The characters of a number. -/
def chars (x : Binary64) : List Char :=
  if x.isZero then ['0'] else positional x.shortest.1 x.shortest.2

end Cambist.Binary64
