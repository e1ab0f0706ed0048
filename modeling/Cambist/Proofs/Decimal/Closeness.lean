import Cambist.Proofs.Decimal.Sign
import Mathlib.Tactic.NormNum

/-!
# Fitting stays close

A number that is a magnitude is fitted to itself. Any other number is fitted to one nearby: half a
unit of the last place is lost when digits behind the 28th are dropped, and when more have to go,
the number is so large that not even its `10 ^ 28`-th part is lost. A number is out of range only if
it would be rounded to `2 ^ 96` or more.
-/

namespace Cambist

/-! ### Half a unit -/

/-- A quotient is rounded to one of its neighbours, not to the farther one, and to an even number if
both are equally far. -/
lemma roundHalfEven_spec (n : Nat) {d : Nat} (hd : 0 < d) : ∃ q r, n = q * d + r ∧ r < d ∧
    (roundHalfEven n d = q ∧ 2 * r ≤ d ∨ roundHalfEven n d = q + 1 ∧ d ≤ 2 * r) ∧
      (2 * r = d → roundHalfEven n d % 2 = 0) := by
  refine ⟨n / d, n % d, (Nat.div_add_mod' n d).symm, Nat.mod_lt n hd, ?_⟩
  simp only [roundHalfEven]
  split_ifs <;> omega

lemma roundHalfEven_mul_le (n : Nat) {d : Nat} (hd : 0 < d) :
    2 * (roundHalfEven n d * d) ≤ 2 * n + d := by
  obtain ⟨q, r, rfl, hr, ⟨hround, hle⟩ | ⟨hround, hle⟩, -⟩ := roundHalfEven_spec n hd
  · rw [hround]
    omega
  · rw [hround, Nat.add_one_mul q]
    omega

lemma le_roundHalfEven_mul (n : Nat) {d : Nat} (hd : 0 < d) :
    2 * n ≤ 2 * (roundHalfEven n d * d) + d := by
  obtain ⟨q, r, rfl, hr, ⟨hround, hle⟩ | ⟨hround, hle⟩, -⟩ := roundHalfEven_spec n hd
  · rw [hround]
    omega
  · rw [hround, Nat.add_one_mul q]
    omega

/-- Rounding reaches an even number from half a unit below it on. -/
lemma le_roundHalfEven_iff {k d : Nat} (hk : k % 2 = 0) (hd : 0 < d) (n : Nat) :
    k ≤ roundHalfEven n d ↔ 2 * (k * d) ≤ 2 * n + d := by
  constructor
  · intro h
    have hle := Nat.mul_le_mul_right d h
    have hround := roundHalfEven_mul_le n hd
    omega
  · intro h
    by_contra! hlt
    obtain ⟨q, r, rfl, hr, hround, htie⟩ := roundHalfEven_spec n hd
    have hle := Nat.mul_le_mul_right d (Nat.succ_le_of_lt hlt)
    rw [Nat.succ_mul] at hle
    rcases hround with ⟨hround, hnear⟩ | ⟨hround, hnear⟩
    · -- the number is half a unit above `q`, which is even then, so that `k` is not the next one
      rw [hround] at hlt hle htie
      have heven := htie (by omega)
      have hnext : q + 2 ≤ k := by omega
      have hnext := Nat.mul_le_mul_right d hnext
      rw [Nat.add_mul] at hnext
      omega
    · rw [hround, Nat.add_one_mul q] at hle
      omega

lemma abs_roundHalfEven_mul_sub_le (n : Nat) {d : Nat} (hd : 0 < d) :
    |(roundHalfEven n d * d : Rat) - n| ≤ d / 2 := by
  have hle : (2 * (roundHalfEven n d * d) : Rat) ≤ 2 * n + d := mod_cast roundHalfEven_mul_le n hd
  have hge : (2 * n : Rat) ≤ 2 * (roundHalfEven n d * d) + d := mod_cast le_roundHalfEven_mul n hd
  rw [abs_le]
  constructor <;> linarith

namespace Magnitude

variable {n s d : Nat} {x : Magnitude} {q z : Rat}

/-! ### Numbers out of range -/

lemma large_of_excess?_eq_none (h : excess? n s = none) : 2 ^ 96 ≤ n / 10 ^ s := by
  rw [excess?, List.find?_eq_none] at h
  have hfits := h s (List.mem_range.mpr (Nat.lt_succ_self s))
  rw [fits_iff] at hfits
  omega

/-- There is no result just if the number without any digits after the point is rounded to more than
there is room for. -/
lemma fit?_eq_none_iff_le : fit? n s = none ↔ 2 ^ 96 ≤ roundHalfEven n (10 ^ s) := by
  constructor
  · intro h
    unfold fit? at h
    split at h
    case h_1 hnone => exact (large_of_excess?_eq_none hnone).trans (div_le_roundHalfEven n _)
    case h_2 d hd =>
      dsimp only at h
      split_ifs at h with hlt hds
      have hle := (excess?_eq_some_iff.mp hd).2.1
      obtain rfl : d = s := by omega
      exact Nat.not_lt.mp hlt
  · intro h
    by_contra hsome
    obtain ⟨x, hx⟩ := Option.ne_none_iff_exists'.mp hsome
    obtain ⟨d, hd, hdrops⟩ := fit?_eq_some_iff.mp hx
    obtain ⟨hfits, hle, -⟩ := excess?_eq_some_iff.mp hd
    rcases hle.lt_or_eq with hlt | rfl
    · -- with a digit left behind the point, the number has not even 96 bits
      have hdiv : n / 10 ^ s ≤ n / 10 ^ d / 10 := by
        rw [Nat.div_div_eq_div_mul, ← Nat.pow_succ]
        exact Nat.div_le_div_left (Nat.pow_le_pow_right (by decide) hlt) (Nat.pow_pos (by decide))
      have hround := roundHalfEven_le n (10 ^ s)
      have hroom := (fits_iff.mp hfits).2
      omega
    · rcases hdrops with ⟨hm, -⟩ | ⟨-, -, hs⟩
      · rw [← hm] at h
        exact absurd x.mantissa_lt (Nat.not_lt_of_le h)
      · omega

/-- A number is out of range from half a unit below `2 ^ 96` on. -/
lemma fit?_eq_none_iff : fit? n s = none ↔ (2 ^ 96 - 1 / 2 : Rat) ≤ n / 10 ^ s := by
  rw [fit?_eq_none_iff_le, le_roundHalfEven_iff (by decide) (Nat.pow_pos (by decide)),
    le_div_iff₀ (by positivity), ← Nat.cast_le (α := Rat)]
  push_cast
  constructor <;> intro h <;> linarith

/-! ### Numbers in range -/

/-- How far a fitted number may be from the exact number `q`: half a unit of the 28th digit behind
the point, or the `10 ^ 28`-th part of the number. -/
def tolerance (q : Rat) : Rat := max (1 / 2 / 10 ^ 28) (q / 10 ^ 28)

lemma tolerance_mul_pow (n s : Nat) :
    tolerance (n / 10 ^ s) * 10 ^ s = max ((10 : Rat) ^ s / 2 / 10 ^ 28) ((n : Rat) / 10 ^ 28) := by
  rw [tolerance, max_mul_of_nonneg _ _ (by positivity)]
  congr 1 <;> field_simp

/-- Digits are dropped because the scale is too large, or because the number is. -/
lemma half_unit_le_tolerance (hd : excess? n s = some (d + 1)) :
    (10 : Rat) ^ (d + 1) / 2 ≤ tolerance (n / 10 ^ s) * 10 ^ s := by
  rw [tolerance_mul_pow]
  rcases (fits_iff.mp (excess?_eq_some_iff.mp hd).1).1.lt_or_eq with hlt | rfl
  · have hlarge : (2 ^ 96 * 10 ^ d : Rat) ≤ n := mod_cast large_of_excess? hd hlt
    have hunit : (0 : Rat) < 10 ^ d := by positivity
    refine le_max_of_le_right ?_
    rw [le_div_iff₀ (by positivity), pow_succ]
    linarith
  · refine le_max_of_le_left (le_of_eq ?_)
    rw [pow_add _ (d + 1) 28, div_right_comm, mul_div_cancel_right₀ _ (by positivity)]

/-- A number that rounding carries into `2 ^ 96` units is at most half a unit less, and four units
more are left of it. -/
lemma abs_carried_sub_le (hr : roundHalfEven n (10 ^ d) = 2 ^ 96) :
    |(carried * 10 * 10 ^ d : Rat) - n| ≤ n / 10 ^ 28 := by
  have hcarried : (carried * 10 : Rat) = 2 ^ 96 + 4 :=
    mod_cast (by decide : carried * 10 = 2 ^ 96 + 4)
  have hnear := abs_roundHalfEven_mul_sub_le n (Nat.pow_pos (n := d) (by decide : 0 < 10))
  have hunit : (0 : Rat) < 10 ^ d := by positivity
  rw [hr] at hnear
  push_cast at hnear
  obtain ⟨hge, hle⟩ := abs_le.mp hnear
  rw [hcarried, abs_le, neg_le, le_div_iff₀ (by positivity), le_div_iff₀ (by positivity)]
  constructor <;> linarith

lemma Drops.abs_units_sub_le (hd : excess? n s = some d) (h : Drops n s d x) :
    |(x.units s : Rat) - n| ≤ tolerance (n / 10 ^ s) * 10 ^ s := by
  rcases h with ⟨hm, hs⟩ | ⟨hr, hm, hs⟩
  · have hnear := abs_roundHalfEven_mul_sub_le n (Nat.pow_pos (n := d) (by decide : 0 < 10))
    rw [units_of_rounded hm hs]
    push_cast at hnear ⊢
    cases d with
    | zero =>
      have hexact : roundHalfEven n (10 ^ 0) = n := roundHalfEven_one n
      rw [hexact, pow_zero, mul_one, sub_self, abs_zero, tolerance_mul_pow]
      positivity
    | succ d => exact hnear.trans (half_unit_le_tolerance hd)
  · rw [units_of_carries hm hs, tolerance_mul_pow]
    push_cast
    exact le_max_of_le_right (abs_carried_sub_le hr)

/-- A fitted number is near the exact one. -/
lemma Fitted.abs_sub_le (h : Fitted q z) : |z - q| ≤ tolerance q := by
  obtain ⟨n, s, x, rfl, hx, rfl⟩ := h
  obtain ⟨d, hd, hdrops⟩ := fit?_eq_some_iff.mp hx
  have hs : x.scale ≤ s := by
    have := hdrops.scale_add_le
    omega
  have hpos : (0 : Rat) < 10 ^ s := by positivity
  rw [toRat_eq_units hs, ← sub_div, abs_div, abs_of_pos hpos, div_le_iff₀ hpos]
  exact hdrops.abs_units_sub_le hd

/-- A number that is a magnitude is not rounded. -/
lemma Fitted.eq_of_toRat (h : Fitted x.toRat z) : z = x.toRat :=
  le_antisymm (h.mono (fitted_toRat x) le_rfl) ((fitted_toRat x).mono h le_rfl)

end Magnitude

/-! ### Products -/

namespace Decimal

variable {x y p : Decimal}

/-- The absolute value of a product is fitted. -/
lemma fitted_of_mul? (h : x.mul? y = some p) :
    Magnitude.Fitted |x.toRat * y.toRat| p.magnitude.toRat := by
  rw [← abs_toRat]
  exact (roundsTo_of_mul? h).abs

lemma abs_toRat_mul_toRat (x y : Decimal) : |x.toRat * y.toRat| =
    ((x.mantissa * y.mantissa : Nat) : Rat) / 10 ^ (x.scale + y.scale) := by
  rw [toRat_mul_toRat, abs_div, abs_of_pos (by positivity : (0 : Rat) < 10 ^ (x.scale + y.scale)),
    ← Int.cast_abs, Int.abs_eq_natAbs, Sign.natAbs_toInt, Int.cast_natCast]

/-- A product overflows from half a unit below `2 ^ 96` on. -/
lemma mul?_eq_none_iff : x.mul? y = none ↔ (2 ^ 96 - 1 / 2 : Rat) ≤ |x.toRat * y.toRat| := by
  by_cases hzero : (x.isZero || y.isZero) = true
  · have hlt : ¬ (2 ^ 96 - 1 / 2 : Rat) ≤ |0| := by norm_num
    rw [mul?, if_pos hzero, toRat_mul_toRat_eq_zero hzero]
    exact iff_of_false (Option.some_ne_none zero) hlt
  · rw [abs_toRat_mul_toRat, ← Magnitude.fit?_eq_none_iff, mul?, if_neg hzero]
    dsimp only
    split_ifs with hshort hs
    · obtain ⟨hx, hy⟩ := Bool.and_eq_true_iff.mp hshort
      obtain ⟨m, hm, -⟩ := fit?_of_isShort hx hy hs
      simp [hm]
    · rw [Option.map_eq_none_iff, Option.map_eq_none_iff]
    · rw [Option.map_eq_none_iff]

end Decimal

end Cambist
