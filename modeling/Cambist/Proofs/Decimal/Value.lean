import Cambist.Decimal.Arithmetic
import Mathlib.Algebra.Field.Basic
import Mathlib.Algebra.Field.Rat
import Mathlib.Tactic.FieldSimp
import Mathlib.Tactic.Common

/-!
# The number that a decimal denotes

A decimal is a whole number of units of its own scale, and at every finer scale it is a whole number
of units as well. Fitting rounds nothing away from a number that is in range, so an addition is
exact as soon as the units of its operands, counted at a common scale, are together below `2 ^ 96`.
-/

namespace Cambist

lemma Sign.natAbs_toInt (s : Sign) (n : Nat) : (s.toInt n).natAbs = n := by
  cases s <;> simp

lemma Sign.toInt_mul (s : Sign) (m n : Nat) : s.toInt (m * n) = s.toInt m * n := by
  cases s <;> simp

lemma roundHalfEven_one (n : Nat) : roundHalfEven n 1 = n := by
  simp [roundHalfEven, Nat.mod_one]

namespace Decimal

/-! ### Units -/

/-- The number of units of `10 ^ (-s)` in the absolute value, for a scale `s` not below its own. -/
def units (x : Decimal) (s : Nat) : Nat := x.magnitude.units s

variable {x y : Decimal} {s S : Nat}

lemma natAbs_atScale (x : Decimal) (s : Nat) : (x.atScale s).natAbs = x.units s :=
  Sign.natAbs_toInt x.sign (x.units s)

/-- A unit of one scale is a power of ten of units at a finer scale. -/
lemma units_eq_mul (hx : x.scale ≤ s) (hs : s ≤ S) : x.units S = x.units s * 10 ^ (S - s) := by
  have hexp : S - x.scale = s - x.scale + (S - s) := by omega
  rw [units, units, Magnitude.units, Magnitude.units, hexp, Nat.pow_add, Nat.mul_assoc]

/-- The decimal of `n` units of `10 ^ (-s)`, for examples. Out of range it is zero. -/
def ofUnits (n s : Nat) : Decimal :=
  if h : n < 2 ^ 96 ∧ s ≤ 28 then ⟨.plus, n, s, h.1, h.2⟩ else zero

/-! ### Numbers -/

lemma toRat_eq_div (x : Decimal) : x.toRat = (x.sign.toInt x.mantissa : Rat) / 10 ^ x.scale := by
  rw [toRat, Rat.mkRat_eq_div]
  push_cast
  rfl

lemma toRat_of_isZero (h : x.isZero = true) : x.toRat = 0 := by
  rw [toRat, (isZero_eq_true_iff x).mp h]
  cases x.sign <;> exact Rat.zero_mkRat _

@[simp] lemma toRat_zero : zero.toRat = 0 := toRat_of_isZero rfl

lemma toRat_neg (x : Decimal) : (-x).toRat = -x.toRat := by
  rw [toRat_eq_div, toRat_eq_div, sign_neg, Sign.toInt_flip, Int.cast_neg, neg_div]
  rfl

lemma toRat_unsignZero (x : Decimal) : x.unsignZero.toRat = x.toRat := by
  by_cases h : x.isZero = true
  · have h' : x.unsignZero.isZero = true := by
      rw [isZero_eq_true_iff, mantissa, magnitude_unsignZero]
      exact (isZero_eq_true_iff x).mp h
    rw [toRat_of_isZero h, toRat_of_isZero h']
  · rw [unsignZero_of_not_isZero (Bool.eq_false_iff.mpr h)]

/-- The number does not depend on the scale at which the units are counted. -/
lemma toRat_eq_atScale (hs : x.scale ≤ s) : x.toRat = (x.atScale s : Rat) / 10 ^ s := by
  have hpow : (10 : Rat) ^ s = 10 ^ (s - x.scale) * 10 ^ x.scale := by
    rw [← pow_add, Nat.sub_add_cancel hs]
  rw [toRat_eq_div, atScale, Magnitude.units, Sign.toInt_mul, hpow]
  push_cast
  field_simp

end Decimal

/-! ### Numbers in range -/

/-- A number in range is fitted as it is. -/
lemma Magnitude.fit?_of_lt {n s : Nat} (hn : n < 2 ^ 96) (hs : s ≤ 28) :
    fit? n s = some ⟨n, s, hn, hs⟩ := by
  have hexcess : excess? n s = some 0 := by
    rw [excess?_eq_some_iff]
    refine ⟨?_, Nat.zero_le s, fun e he => absurd he (Nat.not_lt_zero e)⟩
    rw [Fits, Nat.pow_zero, Nat.div_one, Bool.and_eq_true, decide_eq_true_eq, decide_eq_true_eq]
    exact ⟨by omega, hn⟩
  unfold fit?
  split
  case h_1 h =>
    rw [hexcess] at h
    cases h
  case h_2 d h =>
    rw [hexcess] at h
    cases h
    simp only [Nat.pow_zero, roundHalfEven_one, dif_pos hn, Nat.sub_zero]

namespace Decimal

variable {x y : Decimal} {S : Nat}

lemma add?_of_isZero_left (hx : x.isZero = true) (y : Decimal) : x.add? y = some y := if_pos hx

lemma add?_of_isZero_right (hx : ¬ x.isZero = true) (hy : y.isZero = true) :
    x.add? y = some x := by
  rw [add?, if_neg hx, if_pos hy]

/-- Unless an operand is zero, the sum is fitted at the larger of two scales. -/
lemma add?_eq_map {s : Nat} (hx0 : ¬ x.isZero = true) (hy0 : ¬ y.isZero = true)
    (hs : max x.scale y.scale = s) :
    x.add? y = (Magnitude.fit? (x.atScale s + y.atScale s).natAbs s).map fun m =>
      ⟨.ofInt (x.atScale s + y.atScale s), m⟩ := by
  subst hs
  rw [add?, if_neg hx0, if_neg hy0]

/-- A sum in range at the larger of two scales is that sum. -/
lemma add?_of_lt {s : Nat} (hx0 : ¬ x.isZero = true) (hy0 : ¬ y.isZero = true)
    (hs : max x.scale y.scale = s) (hs28 : s ≤ 28)
    (hlt : (x.atScale s + y.atScale s).natAbs < 2 ^ 96) :
    x.add? y = some ⟨.ofInt (x.atScale s + y.atScale s), _, s, hlt, hs28⟩ := by
  rw [add?_eq_map hx0 hy0 hs, Magnitude.fit?_of_lt hlt hs28]
  rfl

/-- If the units of two decimals are together in range at some scale, then their sum is exact and
has no more units than they have. -/
lemma add?_of_units_lt (hx : x.scale ≤ S) (hy : y.scale ≤ S)
    (hlt : x.units S + y.units S < 2 ^ 96) :
    ∃ z, x.add? y = some z ∧ z.scale ≤ S ∧ z.units S ≤ x.units S + y.units S ∧
      z.toRat = x.toRat + y.toRat := by
  by_cases hx0 : x.isZero = true
  · refine ⟨y, add?_of_isZero_left hx0 y, hy, Nat.le_add_left _ _, ?_⟩
    rw [toRat_of_isZero hx0, zero_add]
  by_cases hy0 : y.isZero = true
  · refine ⟨x, add?_of_isZero_right hx0 hy0, hx, Nat.le_add_right _ _, ?_⟩
    rw [toRat_of_isZero hy0, add_zero]
  -- the units are added at the larger of the two scales, which may be below `S`
  obtain ⟨s, hm⟩ : ∃ s, max x.scale y.scale = s := ⟨_, rfl⟩
  have hxs : x.scale ≤ s := hm ▸ le_max_left _ _
  have hys : y.scale ≤ s := hm ▸ le_max_right _ _
  have hs : s ≤ S := hm ▸ max_le hx hy
  have hs28 : s ≤ 28 := hm ▸ max_le x.magnitude.scale_le y.magnitude.scale_le
  have habs : (x.atScale s + y.atScale s).natAbs ≤ x.units s + y.units s := by
    have h := Int.natAbs_add_le (x.atScale s) (y.atScale s)
    rwa [natAbs_atScale, natAbs_atScale] at h
  have hle : (x.atScale s + y.atScale s).natAbs * 10 ^ (S - s) ≤ x.units S + y.units S := by
    rw [units_eq_mul hxs hs, units_eq_mul hys hs, ← Nat.add_mul]
    exact Nat.mul_le_mul_right _ habs
  have hrange : (x.atScale s + y.atScale s).natAbs < 2 ^ 96 :=
    Nat.lt_of_le_of_lt (Nat.le_mul_of_pos_right _ (Nat.pow_pos (by decide)))
      (Nat.lt_of_le_of_lt hle hlt)
  refine ⟨_, add?_of_lt hx0 hy0 hm hs28 hrange, hs, hle, ?_⟩
  rw [toRat_eq_atScale hxs, toRat_eq_atScale hys, toRat_eq_div, Sign.ofInt_toInt_natAbs,
    Int.cast_add, add_div]

end Decimal

end Cambist
