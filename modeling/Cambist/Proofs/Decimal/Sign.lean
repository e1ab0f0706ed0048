import Cambist.Amount
import Cambist.Proofs.Decimal.Fitting

/-!
# The sign of a decimal

The sign of a decimal is the sign of the number that it denotes, unless that is zero. A product has
the product of the signs, or it is zero, so an amount keeps its sign when it is multiplied by a
positive decimal.
-/

namespace Cambist

namespace Decimal

variable {x y p : Decimal}

lemma abs_toRat (x : Decimal) : |x.toRat| = x.magnitude.toRat := by
  obtain ⟨sign, m⟩ := x
  cases sign with
  | plus => exact abs_of_nonneg m.toRat_nonneg
  | minus =>
    have hneg : (⟨.minus, m⟩ : Decimal).toRat = -m.toRat := toRat_neg ⟨.plus, m⟩
    rw [hneg, abs_neg, abs_of_nonneg m.toRat_nonneg]

lemma toRat_eq_zero_iff : x.toRat = 0 ↔ x.isZero = true := by
  refine ⟨fun h => ?_, toRat_of_isZero⟩
  rw [toRat_eq_div, div_eq_zero_iff] at h
  have hint : x.sign.toInt x.mantissa = 0 := Int.cast_eq_zero.mp (h.resolve_right (by positivity))
  rw [isZero_eq_true_iff, ← Sign.natAbs_toInt x.sign x.mantissa, hint, Int.natAbs_zero]

lemma toRat_neg_iff : x.toRat < 0 ↔ x.sign = .minus ∧ ¬ x.isZero = true := by
  rw [← toRat_eq_zero_iff]
  obtain ⟨sign, m⟩ := x
  cases sign with
  | plus =>
    have hnonneg : 0 ≤ (⟨.plus, m⟩ : Decimal).toRat := m.toRat_nonneg
    simp [hnonneg.not_gt]
  | minus =>
    have hneg : (⟨.minus, m⟩ : Decimal).toRat = -m.toRat := toRat_neg ⟨.plus, m⟩
    rw [hneg, neg_lt_zero, neg_eq_zero, m.toRat_nonneg.lt_iff_ne']
    simp

lemma toRat_pos_iff : 0 < x.toRat ↔ x.isPositive = true := by
  have hsign : x.sign = .minus ↔ ¬ x.sign = .plus := by cases x.sign <;> simp
  rw [← not_iff_not, not_lt, le_iff_lt_or_eq, toRat_neg_iff, toRat_eq_zero_iff, hsign, isPositive,
    Bool.and_eq_true, decide_eq_true_eq, Bool.not_eq_true', ← Bool.not_eq_true]
  tauto

lemma sign_of_isPositive (h : x.isPositive = true) : x.sign = .plus := by
  rw [isPositive, Bool.and_eq_true, decide_eq_true_eq] at h
  exact h.1

/-- The sign of a product is the product of the signs, unless the product is zero. -/
lemma sign_of_mul? (h : x.mul? y = some p) : p.isZero = true ∨ p.sign = x.sign.mul y.sign := by
  unfold mul? at h
  dsimp only at h
  split_ifs at h
  · cases h
    exact .inl rfl
  · cases h
    exact .inl rfl
  · obtain ⟨v, hv, rfl⟩ := Option.map_eq_some_iff.mp h
    obtain ⟨m, -, rfl⟩ := Option.map_eq_some_iff.mp hv
    by_cases hzero : (⟨x.sign.mul y.sign, m⟩ : Decimal).isZero = true
    · rw [unsignZero_of_isZero hzero]
      exact .inl hzero
    · rw [unsignZero_of_not_isZero (Bool.eq_false_iff.mpr hzero)]
      exact .inr rfl
  · obtain ⟨m, -, rfl⟩ := Option.map_eq_some_iff.mp h
    exact .inr rfl

end Decimal

/-- A value that is not negative keeps the sign that is put in front of it. -/
lemma Amount.sign_signed {v : Decimal} (h : v.isZero = true ∨ v.sign = .plus) (s : Sign)
    (u : String) : (signed s v u).sign = s := by
  have hplus : v.unsignZero.sign = .plus := by
    by_cases hzero : v.isZero = true
    · rw [Decimal.unsignZero_of_isZero hzero]
    · rw [Decimal.unsignZero_of_not_isZero (Bool.eq_false_iff.mpr hzero)]
      exact h.resolve_left hzero
  cases s with
  | plus => exact hplus
  | minus => exact congrArg Sign.flip hplus

end Cambist
