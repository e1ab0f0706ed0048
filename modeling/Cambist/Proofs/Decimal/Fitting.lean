import Cambist.Proofs.Decimal.Value
import Mathlib.Algebra.Order.Field.Rat
import Mathlib.Tactic.Linarith
import Mathlib.Tactic.Positivity

/-!
# Fitting is monotone

How many digits `Magnitude.fit?` drops depends on the size of the number, so a larger number may be
left with fewer digits, and one that rounds up to `2 ^ 96` units with one digit less again. Still a
larger number is never fitted to a smaller one, and the outcome depends on the number alone, not on
the digits it is written with. Sums and products of decimals are rounded in this way.
-/

namespace Cambist

/-! ### Rounding a quotient -/

lemma div_le_roundHalfEven (n d : Nat) : n / d ≤ roundHalfEven n d := by
  simp only [roundHalfEven]
  split_ifs <;> omega

lemma roundHalfEven_mono {n m : Nat} (h : n ≤ m) (d : Nat) :
    roundHalfEven n d ≤ roundHalfEven m d := by
  rcases (Nat.div_le_div_right h : n / d ≤ m / d).lt_or_eq with hlt | heq
  · exact (roundHalfEven_le n d).trans (hlt.trans_le (div_le_roundHalfEven m d))
  · -- with the same quotient, the remainders are ordered as the numbers are
    have hmod : n % d ≤ m % d := by
      have hn := Nat.div_add_mod n d
      have hm := Nat.div_add_mod m d
      rw [heq] at hn
      omega
    simp only [roundHalfEven, heq]
    split_ifs <;> omega

lemma roundHalfEven_mul {k : Nat} (hk : 0 < k) (n d : Nat) :
    roundHalfEven (n * k) (d * k) = roundHalfEven n d := by
  have hdouble : 2 * (n % d * k) = 2 * (n % d) * k := (Nat.mul_assoc ..).symm
  simp only [roundHalfEven, Nat.mul_div_mul_right _ _ hk, Nat.mul_mod_mul_right, hdouble,
    Nat.mul_lt_mul_right hk]

/-- Less than half a unit vanishes. -/
lemma roundHalfEven_of_lt {n d : Nat} (h : 2 * n < d) : roundHalfEven n d = 0 := by
  have hlt : n < d := by omega
  simp only [roundHalfEven, Nat.div_eq_of_lt hlt, Nat.mod_eq_of_lt hlt, if_pos h]

namespace Magnitude

variable {n m s d : Nat} {x y : Magnitude}

/-! ### Units -/

lemma toRat_eq_units (hs : x.scale ≤ s) : x.toRat = (x.units s : Rat) / 10 ^ s := by
  have h := Decimal.toRat_eq_atScale (x := ⟨.plus, x⟩) hs
  rwa [Decimal.atScale, Sign.toInt_plus, Int.cast_natCast] at h

lemma toRat_le_iff_units (hx : x.scale ≤ s) (hy : y.scale ≤ s) :
    x.toRat ≤ y.toRat ↔ x.units s ≤ y.units s := by
  have hpos : (0 : Rat) < 10 ^ s := by positivity
  rw [toRat_eq_units hx, toRat_eq_units hy, div_le_div_iff_of_pos_right hpos, Nat.cast_le]

lemma toRat_nonneg (x : Magnitude) : 0 ≤ x.toRat := by
  rw [toRat_eq_units (Nat.le_refl _)]
  positivity

/-! ### Dropping digits -/

lemma fits_iff : Fits n s d = true ↔ s ≤ d + 28 ∧ n / 10 ^ d < 2 ^ 96 := by
  rw [Fits, Bool.and_eq_true, decide_eq_true_eq, decide_eq_true_eq]

lemma fits_mul_ten : Fits (n * 10) (s + 1) (d + 1) = Fits n s d := by
  rw [Bool.eq_iff_iff, fits_iff, fits_iff, Nat.pow_succ, Nat.mul_div_mul_right _ _ (by decide)]
  omega

lemma fits_of_le (h : Fits m s d = true) (hle : n ≤ m) : Fits n s d = true := by
  rw [fits_iff] at h ⊢
  exact ⟨h.1, Nat.lt_of_le_of_lt (Nat.div_le_div_right hle) h.2⟩

/-- A digit more behind the point is a digit more to drop, if there is not room for it. -/
lemma excess?_mul_ten (h : excess? n s = some d) :
    excess? (n * 10) (s + 1) = some (d + 1) ∨ d = 0 ∧ excess? (n * 10) (s + 1) = some 0 := by
  obtain ⟨hfits, hle, hmin⟩ := excess?_eq_some_iff.mp h
  cases hroom : Fits (n * 10) (s + 1) 0 with
  | true =>
    refine .inr ⟨?_, excess?_eq_some_iff.mpr ⟨hroom, Nat.zero_le _, by omega⟩⟩
    by_contra hpos
    have hfail := hmin 0 (by omega)
    rw [Bool.eq_false_iff, Ne, fits_iff] at hfail
    rw [fits_iff] at hroom
    omega
  | false =>
    refine .inl (excess?_eq_some_iff.mpr ⟨fits_mul_ten.trans hfits, by omega, ?_⟩)
    intro e he
    cases e with
    | zero => exact hroom
    | succ e => exact fits_mul_ten.trans (hmin e (by omega))

/-! ### Fitted numbers -/

/-- The mantissa that is left when rounding carries into `2 ^ 96`. -/
def carried : Nat := roundHalfEven (2 ^ 96) 10

/-- What the number `n / 10 ^ s` is fitted to when `d` digits are dropped: the rounded number, or
one digit less if that carries. -/
inductive Drops (n s d : Nat) : Magnitude → Prop where
  | rounded {x : Magnitude} (hm : x.mantissa = roundHalfEven n (10 ^ d)) (hs : x.scale + d = s) :
      Drops n s d x
  | carries {x : Magnitude} (hr : roundHalfEven n (10 ^ d) = 2 ^ 96) (hm : x.mantissa = carried)
      (hs : x.scale + d + 1 = s) : Drops n s d x

lemma roundHalfEven_le_of_excess? (h : excess? n s = some d) :
    roundHalfEven n (10 ^ d) ≤ 2 ^ 96 := by
  have hlt := (fits_iff.mp (excess?_eq_some_iff.mp h).1).2
  have hle := roundHalfEven_le n (10 ^ d)
  omega

lemma fit?_eq_some_iff : fit? n s = some x ↔ ∃ d, excess? n s = some d ∧ Drops n s d x := by
  unfold fit?
  split
  case h_1 h => simp [h]
  case h_2 d h =>
    have hle := roundHalfEven_le_of_excess? h
    have hds := (excess?_eq_some_iff.mp h).2.1
    have hdrops : (∃ d', excess? n s = some d' ∧ Drops n s d' x) ↔ Drops n s d x := by simp [h]
    rw [hdrops]
    dsimp only
    split_ifs with hlt hlt'
    · rw [Option.some.injEq]
      constructor
      · rintro rfl
        exact .rounded rfl (Nat.sub_add_cancel hds)
      · rintro (⟨hm, hs⟩ | ⟨hr, -, -⟩)
        · exact Magnitude.ext hm.symm (by dsimp only; omega)
        · omega
    · rw [Option.some.injEq]
      constructor
      · rintro rfl
        exact .carries (by omega) rfl (by dsimp only; omega)
      · rintro (⟨hm, -⟩ | ⟨-, hm, hs⟩)
        · exact absurd (hm ▸ x.mantissa_lt) hlt
        · exact Magnitude.ext hm.symm (by dsimp only; omega)
    · constructor
      · intro h
        cases h
      · rintro (⟨hm, -⟩ | ⟨-, -, hs⟩)
        · exact absurd (hm ▸ x.mantissa_lt) hlt
        · omega

/-! ### Larger numbers -/

lemma carried_bounds : 2 ^ 96 ≤ carried * 10 ∧ carried < 2 ^ 96 := by decide

lemma Drops.scale_add_le (h : Drops n s d x) : x.scale + d ≤ s := by
  rcases h with ⟨-, hs⟩ | ⟨-, -, hs⟩ <;> omega

lemma units_of_rounded (hm : x.mantissa = m) (hs : x.scale + d = s) : x.units s = m * 10 ^ d := by
  rw [units, hm, ← hs, Nat.add_sub_cancel_left]

lemma units_of_carries (hm : x.mantissa = carried) (hs : x.scale + d + 1 = s) :
    x.units s = carried * 10 * 10 ^ d := by
  rw [units_of_rounded hm (by rw [← hs, Nat.add_assoc]), Nat.pow_succ, Nat.mul_assoc,
    Nat.mul_comm 10]

lemma Drops.units_le (h : Drops n s d x) : x.units s ≤ carried * 10 * 10 ^ d := by
  rcases h with ⟨hm, hs⟩ | ⟨-, hm, hs⟩
  · rw [units_of_rounded rfl hs]
    exact Nat.mul_le_mul_right _ (x.mantissa_lt.le.trans carried_bounds.1)
  · exact (units_of_carries hm hs).le

lemma Drops.le_units (h : Drops n s d x) : roundHalfEven n (10 ^ d) * 10 ^ d ≤ x.units s := by
  rcases h with ⟨hm, hs⟩ | ⟨hr, hm, hs⟩
  · exact (units_of_rounded hm hs).ge
  · rw [hr, units_of_carries hm hs]
    exact Nat.mul_le_mul_right _ carried_bounds.1

/-- With the same number of digits dropped, the larger number is not fitted to less. -/
lemma Drops.units_le_units (hx : Drops n s d x) (hy : Drops m s d y) (h : n ≤ m) :
    x.units s ≤ y.units s := by
  have hround := roundHalfEven_mono h (10 ^ d)
  rcases hx with ⟨hxm, hxs⟩ | ⟨hxr, hxm, hxs⟩
  · rw [units_of_rounded hxm hxs]
    exact (Nat.mul_le_mul_right _ hround).trans hy.le_units
  · rcases hy with ⟨hym, -⟩ | ⟨-, hym, hys⟩
    · rw [hxr, ← hym] at hround
      exact absurd y.mantissa_lt (Nat.not_lt_of_le hround)
    · rw [units_of_carries hxm hxs, units_of_carries hym hys]

/-- A number that needs another digit dropped is large, unless its scale needs it. -/
lemma large_of_excess? (h : excess? n s = some (d + 1)) (hlt : s < d + 1 + 28) :
    2 ^ 96 * 10 ^ d ≤ n := by
  have hfail := (excess?_eq_some_iff.mp h).2.2 d (Nat.lt_succ_self d)
  rw [Bool.eq_false_iff, Ne, fits_iff, not_and, Nat.not_lt] at hfail
  exact (Nat.le_div_iff_mul_le (Nat.pow_pos (by decide))).mp (hfail (by omega))

lemma carried_le_of_excess? (h : excess? m s = some d) (hlt : s < d + 28) (hd : 0 < d) :
    carried ≤ roundHalfEven m (10 ^ d) := by
  obtain ⟨d, rfl⟩ := Nat.exists_eq_succ_of_ne_zero hd.ne'
  have hlarge : 2 ^ 96 * 10 ^ d ≤ m := large_of_excess? h hlt
  calc carried
      = roundHalfEven (2 ^ 96 * 10 ^ d) (10 * 10 ^ d) :=
        (roundHalfEven_mul (Nat.pow_pos (by decide)) (2 ^ 96) 10).symm
    _ ≤ roundHalfEven m (10 * 10 ^ d) := roundHalfEven_mono hlarge _
    _ = roundHalfEven m (10 ^ (d + 1)) := by rw [Nat.pow_succ, Nat.mul_comm]

/-- At one scale, a larger number is not fitted to less. -/
lemma units_mono (hx : fit? n s = some x) (hy : fit? m s = some y) (h : n ≤ m) :
    x.scale ≤ s ∧ y.scale ≤ s ∧ x.units s ≤ y.units s := by
  obtain ⟨d, hd, hx⟩ := fit?_eq_some_iff.mp hx
  obtain ⟨e, he, hy⟩ := fit?_eq_some_iff.mp hy
  refine ⟨by have := hx.scale_add_le; omega, by have := hy.scale_add_le; omega, ?_⟩
  obtain ⟨hfits, -, hmin⟩ := excess?_eq_some_iff.mp hd
  rcases Nat.lt_trichotomy d e with hlt | rfl | hlt
  · -- the bound between them is what `2 ^ 96` units are fitted to before the last digit is dropped
    have hs : s < e + 28 := by
      have := (fits_iff.mp hfits).1
      omega
    have hpow : 10 * 10 ^ d ≤ 10 ^ e := by
      rw [Nat.mul_comm, ← Nat.pow_succ]
      exact Nat.pow_le_pow_right (by decide) hlt
    calc x.units s
        ≤ carried * 10 * 10 ^ d := hx.units_le
      _ = carried * (10 * 10 ^ d) := Nat.mul_assoc ..
      _ ≤ carried * 10 ^ e := Nat.mul_le_mul_left _ hpow
      _ ≤ roundHalfEven m (10 ^ e) * 10 ^ e :=
        Nat.mul_le_mul_right _ (carried_le_of_excess? he hs (by omega))
      _ ≤ y.units s := hy.le_units
  · exact hx.units_le_units hy h
  · -- the smaller number has room where the larger one has
    have hroom := fits_of_le (excess?_eq_some_iff.mp he).1 h
    rw [hmin e hlt] at hroom
    cases hroom

/-! ### The same number with more digits -/

lemma fit?_mul_ten (h : fit? n s = some x) :
    ∃ y, fit? (n * 10) (s + 1) = some y ∧ y.toRat = x.toRat := by
  obtain ⟨d, hd, hx⟩ := fit?_eq_some_iff.mp h
  have hround : roundHalfEven (n * 10) (10 ^ (d + 1)) = roundHalfEven n (10 ^ d) := by
    rw [Nat.pow_succ, roundHalfEven_mul (by decide)]
  rcases excess?_mul_ten hd with hd' | ⟨rfl, hd'⟩
  · refine ⟨x, fit?_eq_some_iff.mpr ⟨d + 1, hd', ?_⟩, rfl⟩
    rcases hx with ⟨hm, hs⟩ | ⟨hr, hm, hs⟩
    · exact .rounded (hm.trans hround.symm) (by omega)
    · exact .carries (hround.trans hr) hm (by omega)
  · -- nothing is dropped, neither before nor after
    obtain ⟨hs, hlt⟩ := fits_iff.mp (excess?_eq_some_iff.mp hd').1
    rw [Nat.pow_zero, Nat.div_one] at hlt
    refine ⟨_, fit?_of_lt hlt (by omega), ?_⟩
    rcases hx with ⟨hm, hscale⟩ | ⟨hr, -, -⟩
    · rw [Nat.pow_zero, roundHalfEven_one] at hm
      have hxs : x.scale + 1 = s + 1 := by omega
      rw [toRat_eq_units (Nat.le_refl _), toRat_eq_units (Nat.le_of_succ_le hxs.le),
        units_of_rounded hm hxs]
      simp [units]
    · rw [Nat.pow_zero, roundHalfEven_one] at hr
      omega

lemma fit?_mul_pow (h : fit? n s = some x) (k : Nat) :
    ∃ y, fit? (n * 10 ^ k) (s + k) = some y ∧ y.toRat = x.toRat := by
  induction k with
  | zero => exact ⟨x, by rwa [Nat.pow_zero, Nat.mul_one], rfl⟩
  | succ k ih =>
    obtain ⟨y, hy, hyx⟩ := ih
    obtain ⟨z, hz, hzy⟩ := fit?_mul_ten hy
    exact ⟨z, by rwa [Nat.pow_succ, ← Nat.mul_assoc], hzy.trans hyx⟩

/-! ### Fitting a rational number -/

/-- A rational number `q` with finitely many digits after the point is fitted to `z`. -/
def Fitted (q z : Rat) : Prop :=
  ∃ (n s : Nat) (x : Magnitude), q = n / 10 ^ s ∧ fit? n s = some x ∧ z = x.toRat

variable {q q' z z' : Rat}

lemma Fitted.nonneg (h : Fitted q z) : 0 ≤ z := by
  obtain ⟨n, s, x, -, -, rfl⟩ := h
  exact x.toRat_nonneg

lemma Fitted.number_nonneg (h : Fitted q z) : 0 ≤ q := by
  obtain ⟨n, s, x, rfl, -, -⟩ := h
  positivity

/-- A magnitude is fitted to itself. -/
lemma fitted_toRat (x : Magnitude) : Fitted x.toRat x.toRat := by
  refine ⟨x.mantissa, x.scale, x, ?_, fit?_of_lt x.mantissa_lt x.scale_le, rfl⟩
  rw [toRat_eq_units (Nat.le_refl _), units, Nat.sub_self, Nat.pow_zero, Nat.mul_one]

/-- A larger number is not fitted to less. -/
lemma Fitted.mono (h : Fitted q z) (h' : Fitted q' z') (hle : q ≤ q') : z ≤ z' := by
  obtain ⟨n, s, x, rfl, hx, rfl⟩ := h
  obtain ⟨m, s', x', rfl, hx', rfl⟩ := h'
  -- both numbers are compared at the sum of their scales
  obtain ⟨y, hy, hyx⟩ := fit?_mul_pow hx s'
  obtain ⟨y', hy', hyx'⟩ := fit?_mul_pow hx' s
  have hnm : n * 10 ^ s' ≤ m * 10 ^ s := by
    rw [div_le_div_iff₀ (by positivity) (by positivity)] at hle
    exact_mod_cast hle
  rw [Nat.add_comm s' s] at hy'
  obtain ⟨hys, hys', hunits⟩ := units_mono hy hy' hnm
  rw [← hyx, ← hyx', toRat_le_iff_units hys hys']
  exact hunits

end Magnitude

/-! ### Rounding a rational number -/

/-- A rational number `q` with finitely many digits after the point is rounded to `z`: the absolute
value is fitted, and the sign stays. -/
structure RoundsTo (q z : Rat) : Prop where
  abs : Magnitude.Fitted |q| |z|
  nonneg : 0 ≤ q → 0 ≤ z
  nonpos : q ≤ 0 → z ≤ 0

namespace RoundsTo

variable {q q' z z' : Rat}

lemma of_fitted (h : Magnitude.Fitted q z) : RoundsTo q z where
  abs := by rwa [abs_of_nonneg h.nonneg, abs_of_nonneg h.number_nonneg]
  nonneg _ := h.nonneg
  nonpos hq := h.mono (Magnitude.fitted_toRat .zero) hq

lemma neg (h : RoundsTo q z) : RoundsTo (-q) (-z) where
  abs := by
    rw [abs_neg, abs_neg]
    exact h.abs
  nonneg hq := neg_nonneg.mpr (h.nonpos (neg_nonneg.mp hq))
  nonpos hq := neg_nonpos.mpr (h.nonneg (neg_nonpos.mp hq))

lemma fitted_of_nonneg (h : RoundsTo q z) (hq : 0 ≤ q) : Magnitude.Fitted q z := by
  have habs := h.abs
  rwa [abs_of_nonneg hq, abs_of_nonneg (h.nonneg hq)] at habs

/-- A larger number is not rounded to less. -/
lemma mono (h : RoundsTo q z) (h' : RoundsTo q' z') (hle : q ≤ q') : z ≤ z' := by
  rcases le_total 0 q with hq | hq
  · exact (h.fitted_of_nonneg hq).mono (h'.fitted_of_nonneg (hq.trans hle)) hle
  · rcases le_total 0 q' with hq' | hq'
    · exact (h.nonpos hq).trans (h'.nonneg hq')
    · have hneg := h.neg.fitted_of_nonneg (neg_nonneg.mpr hq)
      have hneg' := h'.neg.fitted_of_nonneg (neg_nonneg.mpr hq')
      exact neg_le_neg_iff.mp (hneg'.mono hneg (neg_le_neg hle))

end RoundsTo

namespace Decimal

variable {x y p : Decimal} {n s : Nat} {m : Magnitude}

/-- A number that is fitted with a sign in front of it is rounded. -/
lemma roundsTo_of_fit? (h : Magnitude.fit? n s = some m) (sign : Sign) :
    RoundsTo ((sign.toInt n : Rat) / 10 ^ s) (⟨sign, m⟩ : Decimal).toRat := by
  have hplus : RoundsTo ((n : Rat) / 10 ^ s) m.toRat := .of_fitted ⟨n, s, m, rfl, h, rfl⟩
  cases sign with
  | plus =>
    rw [Sign.toInt_plus, Int.cast_natCast]
    exact hplus
  | minus =>
    have hneg : (⟨.minus, m⟩ : Decimal).toRat = -m.toRat := toRat_neg ⟨.plus, m⟩
    rw [hneg, Sign.toInt_minus, Int.cast_neg, Int.cast_natCast, neg_div]
    exact hplus.neg

/-- A decimal is rounded to itself. -/
lemma roundsTo_toRat (x : Decimal) : RoundsTo x.toRat x.toRat := by
  have h := roundsTo_of_fit? (Magnitude.fit?_of_lt x.magnitude.mantissa_lt x.magnitude.scale_le)
    x.sign
  rwa [← toRat_eq_div] at h

/-- A sum of decimals is rounded. -/
lemma roundsTo_of_add? (h : x.add? y = some p) : RoundsTo (x.toRat + y.toRat) p.toRat := by
  by_cases hx0 : x.isZero = true
  · rw [add?_of_isZero_left hx0] at h
    obtain rfl := Option.some.inj h
    rw [toRat_of_isZero hx0, zero_add]
    exact roundsTo_toRat y
  by_cases hy0 : y.isZero = true
  · rw [add?_of_isZero_right hx0 hy0] at h
    obtain rfl := Option.some.inj h
    rw [toRat_of_isZero hy0, add_zero]
    exact roundsTo_toRat x
  obtain ⟨s, hs⟩ : ∃ s, max x.scale y.scale = s := ⟨_, rfl⟩
  rw [add?_eq_map hx0 hy0 hs] at h
  obtain ⟨m, hm, rfl⟩ := Option.map_eq_some_iff.mp h
  have hround := roundsTo_of_fit? hm (.ofInt (x.atScale s + y.atScale s))
  rwa [Sign.ofInt_toInt_natAbs, Int.cast_add, add_div,
    ← toRat_eq_atScale (hs ▸ le_max_left _ _), ← toRat_eq_atScale (hs ▸ le_max_right _ _)]
    at hround

/-! ### Products -/

lemma toRat_mul_toRat (x y : Decimal) : x.toRat * y.toRat =
    ((x.sign.mul y.sign).toInt (x.mantissa * y.mantissa) : Rat) / 10 ^ (x.scale + y.scale) := by
  rw [toRat_eq_div, toRat_eq_div, div_mul_div_comm, ← pow_add, ← Int.cast_mul]
  congr 2
  cases x.sign <;> cases y.sign <;> simp

lemma toRat_mul_toRat_eq_zero (h : (x.isZero || y.isZero) = true) : x.toRat * y.toRat = 0 := by
  rcases Bool.or_eq_true_iff.mp h with hx | hy
  · rw [toRat_of_isZero hx, zero_mul]
  · rw [toRat_of_isZero hy, mul_zero]

/-- A product of two short decimals vanishes if it has many digits after the point. -/
lemma fit?_of_isShort (hx : x.isShort = true) (hy : y.isShort = true)
    (hs : 47 < x.scale + y.scale) : ∃ m : Magnitude,
      Magnitude.fit? (x.mantissa * y.mantissa) (x.scale + y.scale) = some m ∧ m.mantissa = 0 := by
  obtain ⟨s, hsum⟩ : ∃ s, x.scale + y.scale = s := ⟨_, rfl⟩
  rw [hsum] at hs ⊢
  have hn : x.mantissa * y.mantissa < 2 ^ 32 * 2 ^ 32 :=
    Nat.mul_lt_mul'' (of_decide_eq_true hx) (of_decide_eq_true hy)
  have hexcess : Magnitude.excess? (x.mantissa * y.mantissa) s = some (s - 28) := by
    refine Magnitude.excess?_eq_some_iff.mpr ⟨?_, Nat.sub_le _ _, ?_⟩
    · have hle := Nat.div_le_self (x.mantissa * y.mantissa) (10 ^ (s - 28))
      rw [Magnitude.fits_iff]
      omega
    · intro e he
      rw [Bool.eq_false_iff, Ne, Magnitude.fits_iff]
      omega
  -- half a unit of the last place is more than the product
  have hlarge : 10 ^ 20 ≤ 10 ^ (s - 28) := Nat.pow_le_pow_right (by decide) (by omega)
  refine ⟨⟨0, 28, by decide, by decide⟩, Magnitude.fit?_eq_some_iff.mpr ⟨_, hexcess, ?_⟩, rfl⟩
  refine .rounded ?_ ?_
  · exact (roundHalfEven_of_lt (by omega)).symm
  · have hle : 28 ≤ s := by omega
    exact Nat.add_sub_cancel' hle

/-- A product of decimals is rounded. -/
lemma roundsTo_of_mul? (h : x.mul? y = some p) : RoundsTo (x.toRat * y.toRat) p.toRat := by
  by_cases hzero : (x.isZero || y.isZero) = true
  · rw [mul?, if_pos hzero] at h
    obtain rfl := Option.some.inj h
    rw [toRat_mul_toRat_eq_zero hzero, ← toRat_zero]
    exact roundsTo_toRat zero
  · have hround {m : Magnitude}
        (hm : Magnitude.fit? (x.mantissa * y.mantissa) (x.scale + y.scale) = some m) :
        RoundsTo (x.toRat * y.toRat) (⟨x.sign.mul y.sign, m⟩ : Decimal).toRat := by
      rw [toRat_mul_toRat]
      exact roundsTo_of_fit? hm _
    rw [mul?, if_neg hzero] at h
    dsimp only at h
    split_ifs at h with hshort hs
    · obtain rfl := Option.some.inj h
      obtain ⟨hx, hy⟩ := Bool.and_eq_true_iff.mp hshort
      obtain ⟨m, hm, hm0⟩ := fit?_of_isShort hx hy hs
      have hp : (⟨x.sign.mul y.sign, m⟩ : Decimal).toRat = zero.toRat := by
        rw [toRat_of_isZero ((isZero_eq_true_iff ⟨_, m⟩).mpr hm0), toRat_zero]
      rw [← hp]
      exact hround hm
    · obtain ⟨_, hp, rfl⟩ := Option.map_eq_some_iff.mp h
      obtain ⟨m, hm, rfl⟩ := Option.map_eq_some_iff.mp hp
      rw [toRat_unsignZero]
      exact hround hm
    · obtain ⟨m, hm, rfl⟩ := Option.map_eq_some_iff.mp h
      exact hround hm

end Decimal

end Cambist
