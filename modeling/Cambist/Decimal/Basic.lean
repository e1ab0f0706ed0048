import Cambist.Rounding
import Cambist.Sign

/-!
# Decimals

A decimal is a sign, a mantissa below `2 ^ 96` and a scale of at most 28 digits after the point.
The scale is part of the value: `1.5` and `1.50` are different decimals that denote the same
rational number. `Decimal.toRat` is that number, and two decimals are numerically equal when it
agrees. Bounds are fields of the type, so no operation can leave them.
-/

namespace Cambist

/-! ### Magnitudes -/

/-- A decimal without a sign: the number `mantissa / 10 ^ scale`. -/
structure Magnitude where
  mantissa : Nat
  scale : Nat
  mantissa_lt : mantissa < 2 ^ 96
  scale_le : scale ≤ 28
deriving DecidableEq

namespace Magnitude

/-- The number zero, with no digit after the point. -/
def zero : Magnitude := ⟨0, 0, by decide, by decide⟩

instance : Inhabited Magnitude := ⟨zero⟩

/-- The rational number that a magnitude denotes. -/
def toRat (x : Magnitude) : Rat := mkRat x.mantissa (10 ^ x.scale)

/-- The number of units of `10 ^ (-s)`, for a scale `s` not below its own. -/
def units (x : Magnitude) (s : Nat) : Nat := x.mantissa * 10 ^ (s - x.scale)

@[ext] theorem ext {x y : Magnitude} (mantissa_eq : x.mantissa = y.mantissa)
    (scale_eq : x.scale = y.scale) : x = y := by
  cases x
  cases y
  simp_all

@[simp] theorem mantissa_zero : zero.mantissa = 0 := rfl

@[simp] theorem scale_zero : zero.scale = 0 := rfl

end Magnitude

/-! ### Decimals with a sign -/

/-- A sign and a magnitude. Zero has both signs. -/
structure Decimal where
  sign : Sign
  magnitude : Magnitude
deriving DecidableEq

namespace Decimal

/-- The digits of a decimal, read as a whole number. -/
abbrev mantissa (x : Decimal) : Nat := x.magnitude.mantissa

/-- The number of digits after the point. -/
abbrev scale (x : Decimal) : Nat := x.magnitude.scale

/-- The number zero, with a plus sign and no digit after the point. -/
def zero : Decimal := ⟨.plus, .zero⟩

instance : Inhabited Decimal := ⟨zero⟩

/-- Is this zero, of any scale and sign? -/
def isZero (x : Decimal) : Bool := x.mantissa == 0

/-- Is this strictly greater than zero? -/
def isPositive (x : Decimal) : Bool := x.sign = .plus && !x.isZero

/-- The decimal of the opposite sign, `-0` for `0`. -/
def neg (x : Decimal) : Decimal := { x with sign := x.sign.flip }

instance : Neg Decimal := ⟨neg⟩

/-- The decimal with the sign of a zero made positive. -/
def unsignZero (x : Decimal) : Decimal := if x.isZero then { x with sign := .plus } else x

/-- The rational number that a decimal denotes. -/
def toRat (x : Decimal) : Rat := mkRat (x.sign.toInt x.mantissa) (10 ^ x.scale)

/-- Do two decimals denote the same number? Neither the scale nor the sign of zero matters. -/
def equals (x y : Decimal) : Bool := x.toRat = y.toRat

@[ext] theorem ext {x y : Decimal} (sign_eq : x.sign = y.sign)
    (magnitude_eq : x.magnitude = y.magnitude) : x = y := by
  cases x
  cases y
  simp_all

@[simp] theorem sign_neg (x : Decimal) : (-x).sign = x.sign.flip := rfl

@[simp] theorem magnitude_neg (x : Decimal) : (-x).magnitude = x.magnitude := rfl

@[simp] theorem neg_neg (x : Decimal) : -(-x) = x := by
  ext1 <;> simp

@[simp] theorem isZero_neg (x : Decimal) : (-x).isZero = x.isZero := rfl

@[simp] theorem isZero_eq_true_iff (x : Decimal) : x.isZero = true ↔ x.mantissa = 0 := by
  simp [isZero]

@[simp] theorem magnitude_unsignZero (x : Decimal) : x.unsignZero.magnitude = x.magnitude := by
  unfold unsignZero
  split <;> rfl

theorem unsignZero_of_isZero {x : Decimal} (h : x.isZero = true) :
    x.unsignZero = ⟨.plus, x.magnitude⟩ := by simp [unsignZero, h]

theorem unsignZero_of_not_isZero {x : Decimal} (h : x.isZero = false) : x.unsignZero = x := by
  simp [unsignZero, h]

end Decimal

/-! ### Signs applied to decimals -/

/-- A decimal taken with a sign in front of it. -/
def Sign.apply : Sign → Decimal → Decimal
  | .plus, x  => x
  | .minus, x => -x

@[simp] theorem Sign.apply_plus (x : Decimal) : Sign.plus.apply x = x := rfl

@[simp] theorem Sign.apply_minus (x : Decimal) : Sign.minus.apply x = -x := rfl

@[simp] theorem Sign.magnitude_apply (s : Sign) (x : Decimal) :
    (s.apply x).magnitude = x.magnitude := by cases s <;> rfl

end Cambist
