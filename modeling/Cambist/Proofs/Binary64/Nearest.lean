import Cambist.Binary64.Shortest
import Cambist.Proofs.Decimal.Closeness

/-!
# Rounding to 64 bits

A binary number stands for the numbers that are rounded to it: those up to half a unit away, a
quarter of a unit below if the numbers below lie closer. The bounds belong to even significands.
What a quotient is rounded to stands for that quotient, and whole numbers of at most 53 bits, with
some zeros behind them, are not changed by rounding.
-/

namespace Cambist.Binary64

variable {n d s : Nat} {v : Rat} {x y : Binary64}

/-! ### Values -/

/-- The number as a rational number. -/
def toRat (x : Binary64) : Rat := x.significand * 2 ^ x.exponent

/-- A power with a negative exponent belongs in the denominator. -/
lemma zpow_eq_div (b : Rat) (e : Int) : b ^ e = b ^ e.toNat / b ^ (-e).toNat := by
  obtain ⟨k, rfl | rfl⟩ := e.eq_nat_or_neg
  · simp
  · simp

lemma two_zpow_pos (e : Int) : (0 : Rat) < 2 ^ e := zpow_pos two_pos e

lemma toRat_eq_div (x : Binary64) : x.toRat = x.num / x.den := by
  rw [toRat, zpow_eq_div, num, den]
  push_cast
  exact (mul_div_assoc ..).symm

lemma den_pos (x : Binary64) : 0 < x.den := Nat.two_pow_pos _

/-- The least number that a binary number stands for, or its bound. -/
def lower (x : Binary64) : Rat :=
  (x.significand - if x.isLowerEdge then 1 / 4 else 1 / 2) * 2 ^ x.exponent

/-- The greatest number that a binary number stands for, or its bound. -/
def upper (x : Binary64) : Rat := (x.significand + 1 / 2) * 2 ^ x.exponent

/-- Does a binary number stand for this number? -/
def Covers (x : Binary64) (v : Rat) : Prop :=
  if x.significand % 2 = 0 then x.lower ≤ v ∧ v ≤ x.upper else x.lower < v ∧ v < x.upper

lemma Covers.le (h : x.Covers v) : x.lower ≤ v ∧ v ≤ x.upper := by
  rw [Covers] at h
  split_ifs at h
  · exact h
  · exact ⟨h.1.le, h.2.le⟩

/-- What lies between a number and one that it stands for is covered, too. -/
lemma Covers.of_between {w : Rat} (h : x.Covers v) (hle : x.lower < x.toRat ∧ x.toRat < x.upper)
    (hw : v ≤ w ∧ w ≤ x.toRat ∨ x.toRat ≤ w ∧ w ≤ v) : x.Covers w := by
  rw [Covers] at h ⊢
  split_ifs at h ⊢
  all_goals grind

/-! ### Rounding a quotient -/

/-- What is rounded to an odd number lies closer to it than half a unit. -/
lemma roundHalfEven_mul_lt_of_odd (hd : 0 < d) (hodd : roundHalfEven n d % 2 = 1) :
    2 * (roundHalfEven n d * d) < 2 * n + d ∧ 2 * n < 2 * (roundHalfEven n d * d) + d := by
  obtain ⟨q, r, rfl, hr, ⟨hround, hle⟩ | ⟨hround, hle⟩, htie⟩ := roundHalfEven_spec n hd
  · have hne : 2 * r ≠ d := fun h => by omega
    rw [hround]
    omega
  · have hne : 2 * r ≠ d := fun h => by omega
    rw [hround, Nat.add_one_mul q]
    omega

/-- A quotient lies within half a unit of what it is rounded to, and closer to an odd number. -/
lemma roundHalfEven_bounds (n : Nat) (hd : 0 < d) :
    ((roundHalfEven n d - 1 / 2 : Rat) ≤ n / d ∧ (n / d : Rat) ≤ roundHalfEven n d + 1 / 2) ∧
      (roundHalfEven n d % 2 = 1 →
        (roundHalfEven n d - 1 / 2 : Rat) < n / d ∧ (n / d : Rat) < roundHalfEven n d + 1 / 2) := by
  have hd0 : (0 : Rat) < d := mod_cast hd
  have hle : (2 * (roundHalfEven n d * d) : Rat) ≤ 2 * n + d := mod_cast roundHalfEven_mul_le n hd
  have hge : (2 * n : Rat) ≤ 2 * (roundHalfEven n d * d) + d := mod_cast le_roundHalfEven_mul n hd
  rw [le_div_iff₀ hd0, div_le_iff₀ hd0, lt_div_iff₀ hd0, div_lt_iff₀ hd0]
  refine ⟨⟨by linarith, by linarith⟩, fun hodd => ?_⟩
  obtain ⟨hlt, hgt⟩ := roundHalfEven_mul_lt_of_odd hd hodd
  have hlt : (2 * (roundHalfEven n d * d) : Rat) < 2 * n + d := mod_cast hlt
  have hgt : (2 * n : Rat) < 2 * (roundHalfEven n d * d) + d := mod_cast hgt
  exact ⟨by linarith, by linarith⟩

/-- Whether a quotient is less than some units is told by its whole part. -/
lemma units_lt_iff (hd : 0 < d) (k : Nat) (e : Int) :
    n * 2 ^ (-e).toNat / (d * 2 ^ e.toNat) < k ↔ (n / d : Rat) < k * 2 ^ e := by
  have hd0 : (0 : Rat) < d := mod_cast hd
  have hpos : 0 < d * 2 ^ e.toNat := Nat.mul_pos hd (Nat.two_pow_pos _)
  rw [Nat.div_lt_iff_lt_mul hpos, zpow_eq_div, ← mul_div_assoc, div_lt_div_iff₀ hd0 (by positivity),
    ← Nat.cast_lt (α := Rat), mul_assoc, mul_comm (2 ^ e.toNat : Rat)]
  push_cast
  rfl

/-- The exponent is chosen for a quotient with 53 bits above it, unless it would be too small. -/
lemma exponentOf_spec (hn : 0 < n) (hd : 0 < d) : ∃ e : Int, exponentOf n d = max minExponent e ∧
    2 ^ 52 * 2 ^ e ≤ (n / d : Rat) ∧ (n / d : Rat) < 2 ^ 53 * 2 ^ e := by
  have hd0 : (0 : Rat) < d := mod_cast hd
  have hn' : (2 ^ n.log2 : Rat) ≤ n ∧ (n : Rat) < 2 ^ n.log2 * 2 := by
    have hlt : n < 2 ^ n.log2 * 2 := Nat.pow_succ .. ▸ Nat.lt_log2_self
    exact ⟨mod_cast Nat.log2_self_le hn.ne', mod_cast hlt⟩
  have hd' : (2 ^ d.log2 : Rat) ≤ d ∧ (d : Rat) < 2 ^ d.log2 * 2 := by
    have hlt : d < 2 ^ d.log2 * 2 := Nat.pow_succ .. ▸ Nat.lt_log2_self
    exact ⟨mod_cast Nat.log2_self_le hd.ne', mod_cast hlt⟩
  have hpow : (2 : Rat) ^ (n.log2 - d.log2 - 53 : Int) = 2 ^ n.log2 / 2 ^ d.log2 / 2 ^ 53 := by
    rw [zpow_sub₀ two_ne_zero, zpow_sub₀ two_ne_zero, zpow_natCast, zpow_natCast]
    rfl
  -- the logarithms leave two exponents to choose from
  have hlow : (2 ^ 52 * 2 ^ (n.log2 - d.log2 - 53 : Int) : Rat) < n / d := by
    calc (2 ^ 52 * 2 ^ (n.log2 - d.log2 - 53 : Int) : Rat) = 2 ^ n.log2 / (2 ^ d.log2 * 2) := by
          rw [hpow]
          field_simp
      _ < n / d := div_lt_div₀' hn'.1 hd'.2 (mod_cast hn) hd0
  have hhigh : (n / d : Rat) < 2 ^ 54 * 2 ^ (n.log2 - d.log2 - 53 : Int) := by
    calc (n / d : Rat) < 2 ^ n.log2 * 2 / 2 ^ d.log2 :=
          div_lt_div₀ hn'.2 hd'.1 (by positivity) (by positivity)
      _ = 2 ^ 54 * 2 ^ (n.log2 - d.log2 - 53 : Int) := by
          rw [hpow]
          field_simp
  rw [exponentOf]
  generalize (n.log2 - d.log2 - 53 : Int) = e at hlow hhigh ⊢
  have hnext : (2 : Rat) ^ (e + 1) = 2 ^ e * 2 := zpow_add_one₀ two_ne_zero e
  refine ⟨_, rfl, ?_⟩
  simp only [units_lt_iff hd]
  split_ifs with hlt
  · exact ⟨hlow.le, mod_cast hlt⟩
  · rw [not_lt] at hlt
    rw [hnext]
    push_cast at hlt
    constructor <;> linarith

/-- Numbers that are far from the bounds of the format. -/
def IsModerate (v : Rat) : Prop := 2 ^ (-200 : Int) ≤ v ∧ v < 2 ^ (200 : Int)

lemma exponentOf_bounds (hn : 0 < n) (hd : 0 < d) (h : IsModerate (n / d)) :
    2 ^ 52 * 2 ^ exponentOf n d ≤ (n / d : Rat) ∧ (n / d : Rat) < 2 ^ 53 * 2 ^ exponentOf n d ∧
      minExponent < exponentOf n d ∧ exponentOf n d < maxExponent := by
  obtain ⟨e, he, hle, hlt⟩ := exponentOf_spec hn hd
  have hmin : minExponent < e := by
    have hpow : (2 : Rat) ^ (-200 : Int) < 2 ^ (53 + e) := by
      rw [zpow_add₀ two_ne_zero]
      exact h.1.trans_lt hlt
    have hexp := (zpow_lt_zpow_iff_right₀ one_lt_two).mp hpow
    rw [minExponent]
    omega
  have hmax : e < maxExponent := by
    have hpow : (2 : Rat) ^ (52 + e) < 2 ^ (200 : Int) := by
      rw [zpow_add₀ two_ne_zero]
      exact hle.trans_lt h.2
    have hexp := (zpow_lt_zpow_iff_right₀ one_lt_two).mp hpow
    rw [maxExponent]
    omega
  rw [he, max_eq_right hmin.le]
  exact ⟨hle, hlt, hmin, hmax⟩

/-- The fraction in units of `2 ^ e`. -/
lemma inUnits_bounds (n : Nat) (hd : 0 < d) (e : Int) :
    ((inUnits n d e - 1 / 2 : Rat) * 2 ^ e ≤ n / d ∧
      (n / d : Rat) ≤ (inUnits n d e + 1 / 2 : Rat) * 2 ^ e) ∧
      (inUnits n d e % 2 = 1 → (inUnits n d e - 1 / 2 : Rat) * 2 ^ e < n / d ∧
        (n / d : Rat) < (inUnits n d e + 1 / 2 : Rat) * 2 ^ e) := by
  have hpos : 0 < d * 2 ^ e.toNat := Nat.mul_pos hd (Nat.two_pow_pos _)
  have hd0 : (0 : Rat) < d := mod_cast hd
  have hunits : (n / d : Rat) / 2 ^ e =
      (n * 2 ^ (-e).toNat : Nat) / (d * 2 ^ e.toNat : Nat) := by
    rw [zpow_eq_div]
    push_cast
    field_simp
  have hbounds := roundHalfEven_bounds (n * 2 ^ (-e).toNat) hpos
  rw [← hunits, ← inUnits, le_div_iff₀ (two_zpow_pos e), lt_div_iff₀ (two_zpow_pos e),
    div_le_iff₀ (two_zpow_pos e), div_lt_iff₀ (two_zpow_pos e)] at hbounds
  exact hbounds

/-- Half a unit on both sides is covered, if the numbers below do not lie closer. -/
lemma covers_of_bounds
    (h : (x.significand - 1 / 2 : Rat) * 2 ^ x.exponent ≤ v ∧
      v ≤ (x.significand + 1 / 2 : Rat) * 2 ^ x.exponent)
    (hodd : x.significand % 2 = 1 → (x.significand - 1 / 2 : Rat) * 2 ^ x.exponent < v ∧
      v < (x.significand + 1 / 2 : Rat) * 2 ^ x.exponent)
    (hedge : x.isLowerEdge = true → (x.significand - 1 / 4 : Rat) * 2 ^ x.exponent ≤ v) :
    x.Covers v := by
  rw [Covers, lower, upper]
  by_cases hx : x.isLowerEdge = true
  · have heven : x.significand % 2 = 0 := by
      rw [isLowerEdge, Bool.and_eq_true, beq_iff_eq] at hx
      rw [hx.1]
      rfl
    rw [if_pos heven, if_pos hx]
    exact ⟨hedge hx, h.2⟩
  · rw [if_neg hx]
    split_ifs with heven
    · exact h
    · exact hodd (by omega)

/-- A quotient that is not too small or too large is rounded to a number that stands for it, with
all of its 53 bits. -/
lemma exists_ofRatio? (hn : 0 < n) (hd : 0 < d) (h : IsModerate (n / d)) :
    ∃ x, ofRatio? n d = some x ∧ x.Covers (n / d) ∧ 2 ^ 52 ≤ x.significand := by
  obtain ⟨hle, hlt, -, hmax⟩ := exponentOf_bounds hn hd h
  rw [ofRatio?]
  generalize exponentOf n d = e at hle hlt hmax ⊢
  obtain ⟨⟨hbelow, habove⟩, hodd⟩ := inUnits_bounds n hd e
  have hpos := two_zpow_pos e
  have hfew : 2 ^ 52 ≤ inUnits n d e := by
    have hunits : (2 ^ 52 : Rat) ≤ inUnits n d e + 1 / 2 :=
      le_of_mul_le_mul_right (hle.trans habove) hpos
    by_contra! hm
    have hm : (inUnits n d e + 1 : Rat) ≤ 2 ^ 52 := mod_cast hm
    linarith
  by_cases hm : inUnits n d e < 2 ^ 53
  · rw [dif_pos hm, if_pos hmax.le]
    refine ⟨_, rfl, covers_of_bounds ⟨hbelow, habove⟩ hodd fun hx => le_trans ?_ hle, hfew⟩
    rw [isLowerEdge, Bool.and_eq_true, beq_iff_eq] at hx
    have hunits : (inUnits n d e : Rat) = 2 ^ 52 := mod_cast hx.1
    refine mul_le_mul_of_nonneg_right ?_ hpos.le
    change (inUnits n d e - 1 / 4 : Rat) ≤ 2 ^ 52
    linarith
  · -- the significand has been rounded up to `2 ^ 53`, so the exponent grows
    have hunits : (2 ^ 53 : Rat) ≤ inUnits n d e := mod_cast not_lt.mp hm
    have hbelow : (2 ^ 53 - 1 / 2 : Rat) * 2 ^ e ≤ n / d :=
      (mul_le_mul_of_nonneg_right (by linarith) hpos.le).trans hbelow
    have hnext : (2 : Rat) ^ (e + 1) = 2 ^ e * 2 := zpow_add_one₀ two_ne_zero e
    rw [dif_neg hm, if_pos hmax]
    refine ⟨_, rfl, covers_of_bounds ?_ (fun hodd => ?_) fun _ => ?_, le_rfl⟩
    · simp only [hnext]
      push_cast
      constructor <;> linarith
    · have heven : ¬ 2 ^ 52 % 2 = 1 := by decide
      exact absurd hodd heven
    · simp only [hnext]
      push_cast
      linarith

/-! ### Exact numbers -/

lemma isModerate_natCast (hn : 0 < n) (hlt : n < 2 ^ 100) : IsModerate n := by
  constructor
  · have hone : (1 : Rat) ≤ n := mod_cast hn
    have hpow : (2 : Rat) ^ (-200 : Int) ≤ 1 := zpow_le_one_of_nonpos₀ one_le_two (by decide)
    exact hpow.trans hone
  · have hpow : (2 : Rat) ^ (100 : Nat) ≤ 2 ^ (200 : Int) := by
      rw [← zpow_natCast]
      exact zpow_le_zpow_right₀ one_le_two (by decide)
    exact lt_of_lt_of_le (mod_cast hlt) hpow

/-- A whole number of at most 53 bits in front of some zeros is not changed by rounding. -/
lemma exists_ofNat? {k : Nat} (hn : 0 < n) (hk : k ≤ 40) (hlt : n < 2 ^ (53 + k))
    (hdvd : 2 ^ k ∣ n) : ∃ x, ofNat? n = some x ∧ x.toRat = n := by
  have hmoderate : IsModerate (n / (1 : Nat)) := by
    rw [Nat.cast_one, div_one]
    exact isModerate_natCast hn (hlt.trans_le (Nat.pow_le_pow_right two_pos (by omega)))
  obtain ⟨hunit, hbits, -, hmax⟩ := exponentOf_bounds hn one_pos hmoderate
  rw [Nat.cast_one, div_one] at hunit hbits
  rw [ofNat?, ofRatio?]
  generalize exponentOf n 1 = e at hunit hbits hmax ⊢
  have he : e.toNat ≤ k := by
    have hpow : (2 : Rat) ^ (52 + e) < 2 ^ ((53 + k : Nat) : Int) := by
      rw [zpow_add₀ two_ne_zero, zpow_natCast]
      exact lt_of_le_of_lt hunit (mod_cast hlt)
    have hexp := (zpow_lt_zpow_iff_right₀ one_lt_two).mp hpow
    omega
  obtain ⟨q, rfl⟩ := (pow_dvd_pow 2 he).trans hdvd
  have hunits : inUnits (2 ^ e.toNat * q) 1 e = q * 2 ^ (-e).toNat := by
    rw [inUnits, Nat.mul_assoc, Nat.mul_comm, roundHalfEven_mul (Nat.two_pow_pos _),
      roundHalfEven_one]
  have hvalue : (inUnits (2 ^ e.toNat * q) 1 e : Rat) * 2 ^ e = (2 ^ e.toNat * q : Nat) := by
    rw [hunits, zpow_eq_div]
    push_cast
    field_simp
  have hm : inUnits (2 ^ e.toNat * q) 1 e < 2 ^ 53 := by
    rw [← hvalue] at hbits
    have hm := lt_of_mul_lt_mul_right hbits (two_zpow_pos e).le
    exact mod_cast hm
  exact ⟨⟨_, e, hm⟩, by rw [dif_pos hm, if_pos hmax.le], hvalue⟩

lemma exists_ofNat?_of_lt (hn : 0 < n) (hlt : n < 2 ^ 53) :
    ∃ x, ofNat? n = some x ∧ x.toRat = n :=
  exists_ofNat? (k := 0) hn (by omega) hlt (one_dvd n)

/-- The powers of ten up to `10 ^ 22` are numbers of the format. -/
lemma exists_ofNat?_pow (hs : s ≤ 22) : ∃ x, ofNat? (10 ^ s) = some x ∧ x.toRat = 10 ^ s := by
  have hsplit : 10 ^ s = 2 ^ s * 5 ^ s := Nat.mul_pow 2 5 s
  have hfive : 5 ^ s < 2 ^ 53 := lt_of_le_of_lt (Nat.pow_le_pow_right (by decide) hs) (by decide)
  have hlt : 10 ^ s < 2 ^ (53 + s) := by
    rw [hsplit, Nat.pow_add, Nat.mul_comm]
    exact Nat.mul_lt_mul_of_pos_right hfive (Nat.two_pow_pos s)
  obtain ⟨x, hx, hvalue⟩ :=
    exists_ofNat? (Nat.pow_pos (by decide)) (by omega) hlt ⟨_, hsplit⟩
  push_cast at hvalue
  exact ⟨x, hx, hvalue⟩

/-! ### Scaled numbers -/

lemma num_pos (h : 0 < x.toRat) : 0 < x.num := by
  rw [toRat_eq_div] at h
  by_contra! hle
  rw [Nat.le_zero.mp hle, Nat.cast_zero, zero_div] at h
  exact lt_irrefl _ h

/-- The quotient of two numbers is rounded once. -/
lemma exists_div? (hx : 0 < x.toRat) (hy : 0 < y.toRat) (h : IsModerate (x.toRat / y.toRat)) :
    ∃ z, x.div? y = some z ∧ z.Covers (x.toRat / y.toRat) ∧ 2 ^ 52 ≤ z.significand := by
  have hratio : x.toRat / y.toRat = (x.num * y.den : Nat) / (x.den * y.num : Nat) := by
    rw [toRat_eq_div, toRat_eq_div]
    push_cast
    exact div_div_div_eq ..
  rw [hratio] at h ⊢
  exact exists_ofRatio? (Nat.mul_pos (num_pos hx) y.den_pos) (Nat.mul_pos x.den_pos (num_pos hy)) h

/-- A number of 53 bits with at most 22 places is rounded only once, since the power of ten is a
number of the format. -/
lemma exists_ofScaled? (hn : 0 < n) (hlt : n < 2 ^ 53) (hs : 0 < s) (hs' : s ≤ 22) :
    ∃ x, ofScaled? n (-s) = some x ∧ x.Covers (n / 10 ^ s) ∧ 2 ^ 52 ≤ x.significand := by
  obtain ⟨x, hx, hxn⟩ := exists_ofNat?_of_lt hn hlt
  obtain ⟨y, hy, hys⟩ := exists_ofNat?_pow hs'
  have hmoderate : IsModerate (n / 10 ^ s) := by
    have hone : (1 : Rat) ≤ n := mod_cast hn
    have hscale : (1 : Rat) ≤ 10 ^ s ∧ (10 : Rat) ^ s ≤ 10 ^ 22 :=
      ⟨one_le_pow₀ (by norm_num), pow_le_pow_right₀ (by norm_num) hs'⟩
    constructor
    · calc (2 ^ (-200 : Int) : Rat) ≤ 1 / 10 ^ 22 := by norm_num
        _ ≤ n / 10 ^ s := div_le_div₀ (by positivity) hone (by positivity) hscale.2
    · calc (n / 10 ^ s : Rat) ≤ n := div_le_self (by positivity) hscale.1
        _ < 2 ^ (200 : Int) := (isModerate_natCast hn (hlt.trans (by decide))).2
  have hdiv := exists_div? (x := x) (y := y) (by rw [hxn]; positivity) (by rw [hys]; positivity)
    (by rwa [hxn, hys])
  rw [hxn, hys] at hdiv
  have hneg : ¬ 0 ≤ (-s : Int) := by omega
  have hpower : s ≤ maxPower := hs'.trans (by decide)
  have hscaled : ofScaled? n (-s) = x.div? y := by
    rw [ofScaled?, hx, Option.bind_eq_bind, Option.bind_some, if_neg hneg, neg_neg,
      Int.toNat_natCast, divPower?, if_pos hpower, hy]
    rfl
  rw [hscaled]
  exact hdiv

end Cambist.Binary64
