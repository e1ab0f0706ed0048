/-!
# Signs

The two signs an amount can be written with. A decimal carries one of them as well, so that zero
comes in two forms, `0` and `-0`, which are written differently and compare equal.
-/

namespace Cambist

/-- The sign of a number. -/
inductive Sign where
  | plus
  | minus
deriving DecidableEq, Inhabited

namespace Sign

/-- The opposite sign. -/
def flip : Sign → Sign
  | plus  => minus
  | minus => plus

/-- The sign of a product or of a quotient. -/
def mul : Sign → Sign → Sign
  | plus, s  => s
  | minus, s => s.flip

/-- The integer with this sign and the given absolute value. -/
def toInt : Sign → Nat → Int
  | plus, n  => n
  | minus, n => -n

/-- The sign of an integer, zero counting as positive. -/
def ofInt (n : Int) : Sign := if n < 0 then minus else plus

/-- The sign as it is written, also when it is a plus. -/
def text : Sign → String
  | plus  => "+"
  | minus => "-"

@[simp] theorem flip_plus : plus.flip = minus := rfl

@[simp] theorem flip_minus : minus.flip = plus := rfl

@[simp] theorem flip_flip (s : Sign) : s.flip.flip = s := by cases s <;> rfl

@[simp] theorem plus_mul (s : Sign) : plus.mul s = s := rfl

@[simp] theorem minus_mul (s : Sign) : minus.mul s = s.flip := rfl

@[simp] theorem mul_plus (s : Sign) : s.mul plus = s := by cases s <;> rfl

@[simp] theorem toInt_plus (n : Nat) : plus.toInt n = n := rfl

@[simp] theorem toInt_minus (n : Nat) : minus.toInt n = -n := rfl

theorem toInt_flip (s : Sign) (n : Nat) : s.flip.toInt n = -s.toInt n := by
  cases s <;> simp

@[simp] theorem ofInt_toInt_natAbs (n : Int) : (ofInt n).toInt n.natAbs = n := by
  unfold ofInt
  split
  · rw [toInt_minus]
    omega
  · rw [toInt_plus]
    omega

end Sign

end Cambist
