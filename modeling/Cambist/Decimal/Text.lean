import Cambist.Decimal.Basic

/-!
# The text of a decimal

A decimal is written with all the digits of its scale, `10.50` for the mantissa 1050 at scale 2,
with at least one digit before the point and no point at scale 0. A minus sign is written also in
front of a zero.
-/

namespace Cambist

/-- The last `k` digits of a number, leading zeros included. -/
def lastDigits : Nat → Nat → List Char
  | 0, _     => []
  | k + 1, n => lastDigits k (n / 10) ++ [Nat.digitChar (n % 10)]

@[simp] theorem length_lastDigits (k n : Nat) : (lastDigits k n).length = k := by
  induction k generalizing n with
  | zero => rfl
  | succ k ih => simp [lastDigits, ih]

namespace Magnitude

/-- The characters of a magnitude: the whole part, and the digits after the point if there are
any. -/
def chars (x : Magnitude) : List Char :=
  Nat.toDigits 10 (x.mantissa / 10 ^ x.scale) ++
    if x.scale = 0 then [] else '.' :: lastDigits x.scale (x.mantissa % 10 ^ x.scale)

/-- A magnitude as it is written. -/
def text (x : Magnitude) : String := .ofList x.chars

end Magnitude

namespace Decimal

/-- The characters of a decimal. A plus sign is not written. -/
def chars (x : Decimal) : List Char :=
  match x.sign with
  | .plus  => x.magnitude.chars
  | .minus => '-' :: x.magnitude.chars

/-- A decimal as it is written. -/
def text (x : Decimal) : String := .ofList x.chars

end Decimal

end Cambist
