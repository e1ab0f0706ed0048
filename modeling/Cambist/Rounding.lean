/-!
# Rounding a quotient

Numbers that do not fit their type are rounded to a whole number of units, a half either to the even
neighbour (`roundHalfEven`) or to the larger one (`roundHalfUp`).
-/

namespace Cambist

/-- Powers of natural numbers are those of the core library, whatever other powers are imported. -/
@[default_instance 20000]
instance (priority := 20000) natPow : Pow Nat Nat := instPowNat

/-- The quotient `n / d` rounded to the nearest whole number, a half to the even one. -/
def roundHalfEven (n d : Nat) : Nat :=
  let q := n / d
  let r := n % d
  if 2 * r < d then q
  else if d < 2 * r then q + 1
  else if q % 2 = 0 then q else q + 1

theorem roundHalfEven_le (n d : Nat) : roundHalfEven n d ≤ n / d + 1 := by
  simp only [roundHalfEven]
  split
  · omega
  · split
    · omega
    · split <;> omega

/-- The quotient `n / d` rounded to the nearest whole number, a half to the larger one. -/
def roundHalfUp (n d : Nat) : Nat := (n + d / 2) / d

theorem roundHalfUp_lt {n b d : Nat} (h : n < b) (pos : 0 < d) : roundHalfUp n d < b := by
  unfold roundHalfUp
  rw [Nat.div_lt_iff_lt_mul pos]
  rcases Nat.lt_or_ge 1 d with one | one
  · have : b * d = (b - 1) * d + d := by
      rw [← Nat.succ_mul]
      congr 1
      omega
    have : n ≤ (b - 1) * d := Nat.le_trans (by omega) (Nat.le_mul_of_pos_right (b - 1) pos)
    omega
  · have : d = 1 := by omega
    simp [this, h]

end Cambist
