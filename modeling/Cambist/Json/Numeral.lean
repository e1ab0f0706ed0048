import Cambist.Binary64.Shortest
import Cambist.Decimal.Reading
import Cambist.Json

/-!
# Numerals as decimals

A whole number that 64 bits can hold is read exactly. Any other numeral goes through a binary number
of 64 bits, and the decimal is the one that its shortest form reads as. So a rate written as a
number has at most 17 digits, and may be refused where the same digits in a string are not.

The binary number takes as many digits as fit 64 bits, and the power of ten that is left; both are
rounded, and so is their product or quotient.
-/

namespace Cambist.Json.Numeral

/-! ### Whole numbers -/

/-- The whole number that a numeral writes out, if 64 bits can hold it: without a sign up to
`2 ^ 64 - 1`, with a sign from `-2 ^ 63` to `-1`. -/
def whole? (n : Numeral) : Option Decimal :=
  let value := Nat.ofDigitChars 10 n.whole 0
  if n.fraction.isNone && n.exponent.isNone then
    match n.sign with
    | .plus =>
      if h : value < 2 ^ 64 then
        some ⟨.plus, value, 0, Nat.lt_trans h (by decide), Magnitude.zero.scale_le⟩
      else none
    | .minus =>
      if h : 0 < value ∧ value ≤ 2 ^ 63 then
        some ⟨.minus, value, 0, Nat.lt_of_le_of_lt h.2 (by decide),
          Magnitude.zero.scale_le⟩
      else none
  else none

/-! ### Binary numbers -/

/-- Digits taken into a significand below `2 ^ 64`, with the power of ten that goes with it. -/
structure Scaled where
  significand : Nat
  exponent : Int
deriving DecidableEq

namespace Scaled

/-- Has the significand room for another digit? -/
def hasRoom (x : Scaled) (c : Char) : Bool :=
  x.significand * 10 + Decimal.digitValue c < 2 ^ 64

/-- Takes digits before the point. From the first one that does not fit they only count. -/
def takeWhole (x : Scaled) : List Char → Scaled
  | [] => x
  | c :: cs =>
    if x.hasRoom c then
      takeWhole { x with significand := x.significand * 10 + Decimal.digitValue c } cs
    else { x with exponent := x.exponent + (c :: cs).length }

/-- Takes digits after the point. From the first one that does not fit they are left out. -/
def takeFraction (x : Scaled) : List Char → Scaled
  | [] => x
  | c :: cs =>
    if x.hasRoom c then
      takeFraction ⟨x.significand * 10 + Decimal.digitValue c, x.exponent - 1⟩ cs
    else x

end Scaled

/-- The digits of a numeral, as far as they fit. -/
def scaled (n : Numeral) : Scaled :=
  let x := (Scaled.takeWhole ⟨0, 0⟩ n.whole).takeFraction (n.fraction.getD [])
  { x with exponent := x.exponent + n.exponent.getD 0 }

/-- The absolute value of a numeral as a binary number, `none` if that is too large. -/
def toBinary64? (n : Numeral) : Option Binary64 :=
  Binary64.ofScaled? n.scaled.significand n.scaled.exponent

/-- The decimal that the binary number of a numeral is written as. -/
def viaBinary64? (n : Numeral) : Option Decimal := do
  let x ← n.toBinary64?
  match n.sign with
  | .plus  => Decimal.readPlain? x.chars
  | .minus => Decimal.readPlain? ('-' :: x.chars)

/-- The decimal that a numeral stands for. -/
def toDecimal? (n : Numeral) : Option Decimal := n.whole? <|> n.viaBinary64?

end Cambist.Json.Numeral

namespace Cambist.Json

/-- The decimal that a value stands for, which is a number or a string that holds one. -/
def decimal? : Json → Option Decimal
  | number n        => n.toDecimal?
  | text (some s)   => Decimal.read? s
  | _               => none

end Cambist.Json
