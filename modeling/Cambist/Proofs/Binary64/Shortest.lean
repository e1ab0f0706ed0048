import Cambist.Proofs.Binary64.Nearest
import Mathlib.Data.Nat.Cast.Order.Field
import Mathlib.Tactic.Ring

/-!
# The shortest decimal keeps 15 digits

The search for a shortest decimal goes through the powers of ten from a large one on. It finds a
decimal that the number stands for, and not behind the power of one that is known. If that one has
less than `2 ^ 52` units, its neighbours are too far away, so that it is the decimal that is found,
perhaps with zeros left out.
-/

namespace Cambist.Binary64

variable {x : Binary64} {k : Nat} {p : Int}

/-! ### The interval -/

lemma ten_zpow_pos (p : Int) : (0 : Rat) < 10 ^ p := zpow_pos (by norm_num) p

/-- The test in whole numbers is about the interval. -/
lemma contains_iff (hx : 0 < x.significand) : x.contains k p = true ↔ x.Covers (k * 10 ^ p) := by
  -- everything has been multiplied by this number
  have hscale : (0 : Rat) < 4 * x.den * 10 ^ (-p).toNat := by
    have hden : (0 : Rat) < x.den := mod_cast x.den_pos
    positivity
  have hvalue : ((4 * (k * 10 ^ p.toNat) * x.den : Nat) : Rat) =
      k * 10 ^ p * (4 * x.den * 10 ^ (-p).toNat) := by
    rw [zpow_eq_div]
    push_cast
    field_simp
  have hunit : ((2 ^ x.exponent.toNat * 10 ^ (-p).toNat : Nat) : Rat) =
      2 ^ x.exponent * x.den * 10 ^ (-p).toNat := by
    rw [zpow_eq_div, den]
    push_cast
    field_simp
  have hupper : (((4 * x.significand + 2) * (2 ^ x.exponent.toNat * 10 ^ (-p).toNat) : Nat) : Rat) =
      x.upper * (4 * x.den * 10 ^ (-p).toNat) := by
    rw [Nat.cast_mul, hunit, upper]
    push_cast
    ring
  have hlower : (((4 * x.significand - if x.isLowerEdge then 1 else 2) *
      (2 ^ x.exponent.toNat * 10 ^ (-p).toNat) : Nat) : Rat) =
      x.lower * (4 * x.den * 10 ^ (-p).toNat) := by
    rw [Nat.cast_mul, hunit, lower, Nat.cast_sub (by split_ifs <;> omega)]
    push_cast
    split_ifs <;> ring
  simp only [contains, Covers]
  by_cases heven : x.significand % 2 = 0
  · rw [if_pos heven, if_pos heven, Bool.and_eq_true, decide_eq_true_eq, decide_eq_true_eq,
      ← Nat.cast_le (α := Rat), ← Nat.cast_le (α := Rat), hvalue, hupper, hlower,
      mul_le_mul_iff_left₀ hscale, mul_le_mul_iff_left₀ hscale]
  · rw [if_neg heven, if_neg heven, Bool.and_eq_true, decide_eq_true_eq, decide_eq_true_eq,
      ← Nat.cast_lt (α := Rat), ← Nat.cast_lt (α := Rat), hvalue, hupper, hlower,
      mul_lt_mul_iff_left₀ hscale, mul_lt_mul_iff_left₀ hscale]

/-- A number lies inside its own interval. -/
lemma toRat_bounds (x : Binary64) : x.lower < x.toRat ∧ x.toRat < x.upper := by
  have hpos := two_zpow_pos x.exponent
  rw [lower, upper, toRat]
  constructor
  · refine mul_lt_mul_of_pos_right ?_ hpos
    split_ifs <;> linarith
  · exact mul_lt_mul_of_pos_right (by linarith) hpos

/-! ### The multiple of a power of ten -/

lemma roundHalfUp_eq (n : Nat) {d : Nat} (hd : 0 < d) :
    roundHalfUp n d = n / d ∨ roundHalfUp n d = n / d + 1 := by
  have hle : n / d ≤ (n + d / 2) / d := Nat.div_le_div_right (Nat.le_add_right ..)
  have hlt : (n + d / 2) / d < n / d + 2 := by
    rw [Nat.div_lt_iff_lt_mul hd, Nat.add_mul]
    have hmod := Nat.lt_div_mul_add hd (a := n)
    omega
  rw [roundHalfUp]
  omega

/-- The multiple that is found stands for the number. -/
lemma contains_of_nearestMultiple? (h : x.nearestMultiple? p = some k) :
    x.contains k p = true := by
  have hpos : 0 < x.den * 10 ^ p.toNat := Nat.mul_pos x.den_pos (Nat.pow_pos (by decide))
  simp only [nearestMultiple?] at h
  split_ifs at h with hboth hbelow habove
  · cases h
    rw [Bool.and_eq_true] at hboth
    rcases roundHalfUp_eq (x.num * 10 ^ (-p).toNat) hpos with heq | heq
    · rw [heq]
      exact hboth.1
    · rw [heq]
      exact hboth.2
  · cases h
    exact hbelow
  · cases h
    exact habove

/-- The number lies between two multiples of a power of ten. -/
lemma multiple_bounds (x : Binary64) (p : Int) :
    ((x.num * 10 ^ (-p).toNat / (x.den * 10 ^ p.toNat) : Nat) : Rat) * 10 ^ p ≤ x.toRat ∧
      x.toRat < ((x.num * 10 ^ (-p).toNat / (x.den * 10 ^ p.toNat) + 1 : Nat) : Rat) * 10 ^ p := by
  have hpos : 0 < x.den * 10 ^ p.toNat := Nat.mul_pos x.den_pos (Nat.pow_pos (by decide))
  have hpos' : (0 : Rat) < (x.den * 10 ^ p.toNat : Nat) := mod_cast hpos
  have hunits : x.toRat / 10 ^ p =
      (x.num * 10 ^ (-p).toNat : Nat) / (x.den * 10 ^ p.toNat : Nat) := by
    have hden : (0 : Rat) < x.den := mod_cast x.den_pos
    rw [toRat_eq_div, zpow_eq_div 10]
    push_cast
    field_simp
  rw [← le_div_iff₀ (ten_zpow_pos p), ← div_lt_iff₀ (ten_zpow_pos p), hunits, div_lt_iff₀ hpos']
  refine ⟨Nat.cast_div_le, ?_⟩
  rw [← Nat.cast_mul, Nat.cast_lt, Nat.add_one_mul]
  exact Nat.lt_div_mul_add hpos

/-- If there is a multiple in the interval, then one of those next to the number is in it. -/
lemma isSome_nearestMultiple? (hx : 0 < x.significand) (h : x.contains k p = true) :
    (x.nearestMultiple? p).isSome = true := by
  obtain ⟨hbelow, habove⟩ := multiple_bounds x p
  simp only [nearestMultiple?]
  generalize x.num * 10 ^ (-p).toNat / (x.den * 10 ^ p.toNat) = q at hbelow habove ⊢
  have hnext : x.contains q p = true ∨ x.contains (q + 1) p = true := by
    rw [contains_iff hx] at h
    rw [contains_iff hx, contains_iff hx]
    rcases Nat.lt_or_ge q k with hlt | hge
    · refine .inr (h.of_between (toRat_bounds x) (.inr ⟨habove.le, ?_⟩))
      exact mul_le_mul_of_nonneg_right (mod_cast hlt) (ten_zpow_pos p).le
    · refine .inl (h.of_between (toRat_bounds x) (.inl ⟨?_, hbelow⟩))
      exact mul_le_mul_of_nonneg_right (mod_cast hge) (ten_zpow_pos p).le
  split_ifs with hboth hbelow hafter
  · rfl
  · rfl
  · rfl
  · exact absurd hnext (by simp [hbelow, hafter])

/-! ### The search -/

/-- The length of a number other than zero, as powers of ten. -/
lemma length_toDigits_bounds {n : Nat} (hn : 0 < n) :
    10 ^ ((Nat.toDigits 10 n).length - 1) ≤ n ∧ n < 10 ^ (Nat.toDigits 10 n).length := by
  have hlength := Nat.length_toDigits_pos (b := 10) (n := n)
  refine ⟨?_, (Nat.length_toDigits_le_iff (by decide) hlength).mp le_rfl⟩
  by_contra! hlt
  rcases Nat.eq_zero_or_pos ((Nat.toDigits 10 n).length - 1) with hzero | hpos
  · rw [hzero, Nat.pow_zero] at hlt
    omega
  · have hle := (Nat.length_toDigits_le_iff (by decide) hpos).mpr hlt
    omega

/-- The length of the whole part of a quotient that is not less than one. -/
lemma length_whole_bounds {n d : Nat} (hd : 0 < d) (hle : d ≤ n) :
    (10 : Rat) ^ ((Nat.toDigits 10 (n / d)).length - 1 : Int) ≤ n / d ∧
      (n / d : Rat) ≤ 10 ^ ((Nat.toDigits 10 (n / d)).length : Int) := by
  have hd0 : (0 : Rat) < d := mod_cast hd
  obtain ⟨hlow, hhigh⟩ := length_toDigits_bounds (Nat.div_pos hle hd)
  have hlength := Nat.length_toDigits_pos (b := 10) (n := n / d)
  generalize (Nat.toDigits 10 (n / d)).length = l at hlow hhigh hlength ⊢
  constructor
  · have hexp : (l - 1 : Int) = (l - 1 : Nat) := by omega
    rw [hexp, zpow_natCast]
    exact le_trans (mod_cast hlow) Nat.cast_div_le
  · rw [zpow_natCast, div_le_iff₀ hd0]
    have hlt : n < (n / d + 1) * d := by
      rw [Nat.add_one_mul]
      exact Nat.lt_div_mul_add hd
    exact mod_cast hlt.le.trans (Nat.mul_le_mul_right d hhigh)

/-- The search starts not below the number and not far above it. -/
lemma startPower_bounds (hx : 0 < x.toRat) :
    10 ^ (x.startPower - 2) ≤ x.toRat ∧ x.toRat ≤ 10 ^ x.startPower := by
  rw [startPower]
  split_ifs with hone
  · obtain ⟨hlow, hhigh⟩ := length_whole_bounds x.den_pos hone
    rw [← toRat_eq_div] at hlow hhigh
    exact ⟨(zpow_le_zpow_right₀ (by norm_num) (by omega)).trans hlow, hhigh⟩
  · obtain ⟨hlow, hhigh⟩ := length_whole_bounds (num_pos hx) (not_le.mp hone).le
    have hinv : (x.den / x.num : Rat)⁻¹ = x.toRat := by rw [toRat_eq_div, inv_div]
    have hpos : (0 : Rat) < x.den / x.num := by
      rw [← inv_pos, hinv]
      exact hx
    have hlow := inv_anti₀ (ten_zpow_pos _) hlow
    have hhigh := inv_anti₀ hpos hhigh
    rw [hinv, ← zpow_neg] at hlow hhigh
    exact ⟨(zpow_le_zpow_right₀ (by norm_num) (by omega)).trans hhigh,
      hlow.trans (zpow_le_zpow_right₀ (by norm_num) (by omega))⟩

/-- The search finds a decimal that the number stands for, and not behind the power of another one
within its reach. -/
lemma shortest_spec (hx : 0 < x.significand) (hle : p ≤ x.startPower) (hlt : x.startPower < p + 20)
    (h : x.contains k p = true) :
    p ≤ x.shortest.2 ∧ x.contains x.shortest.1 x.shortest.2 = true := by
  obtain ⟨i, hi⟩ : ∃ i : Nat, x.startPower - i = p := ⟨(x.startPower - p).toNat, by omega⟩
  have hsplit : List.range 20 = List.range (i + 1) ++
      (List.range (20 - (i + 1))).map fun j => i + 1 + j := by
    rw [← List.range_add]
    congr 1
    omega
  have hsome : ((List.range (i + 1)).findSome? fun (i : Nat) =>
      (x.nearestMultiple? (x.startPower - i)).map (·, x.startPower - i)).isSome = true := by
    rw [List.findSome?_isSome_iff]
    refine ⟨i, List.mem_range.mpr (by omega), ?_⟩
    rw [hi, Option.isSome_map]
    exact isSome_nearestMultiple? hx h
  obtain ⟨⟨k', p'⟩, hfind⟩ := Option.isSome_iff_exists.mp hsome
  have hshortest : x.shortest = (k', p') := by
    rw [shortest, hsplit, List.findSome?_append, hfind]
    rfl
  obtain ⟨j, hj, hfound⟩ := List.exists_of_findSome?_eq_some hfind
  obtain ⟨k'', hk, heq⟩ := Option.map_eq_some_iff.mp hfound
  cases heq
  rw [hshortest]
  have hj := List.mem_range.mp hj
  exact ⟨by omega, contains_of_nearestMultiple? hk⟩

/-! ### Decimals of 15 digits -/

lemma lower_bounds (x : Binary64) :
    (x.significand - 1 / 2 : Rat) * 2 ^ x.exponent ≤ x.lower := by
  refine mul_le_mul_of_nonneg_right ?_ (two_zpow_pos _).le
  split_ifs <;> linarith

/-- Decimals in the interval are less than one unit apart, if they have less than `2 ^ 52` units. -/
lemma exponent_lt (hx : 2 ^ 52 ≤ x.significand) (hlt : k < 2 ^ 52) (h : x.Covers (k * 10 ^ p)) :
    (2 : Rat) ^ x.exponent < 10 ^ p := by
  have hpos := ten_zpow_pos p
  have hsig : (2 ^ 52 : Rat) ≤ x.significand := mod_cast hx
  have hk : (k + 1 : Rat) ≤ 2 ^ 52 := mod_cast hlt
  have hlow : (2 ^ 52 - 1 / 2 : Rat) * 2 ^ x.exponent ≤ (2 ^ 52 - 1) * 10 ^ p :=
    calc (2 ^ 52 - 1 / 2 : Rat) * 2 ^ x.exponent ≤ (x.significand - 1 / 2) * 2 ^ x.exponent :=
          mul_le_mul_of_nonneg_right (by linarith) (two_zpow_pos _).le
      _ ≤ k * 10 ^ p := (lower_bounds x).trans h.le.1
      _ ≤ (2 ^ 52 - 1) * 10 ^ p := mul_le_mul_of_nonneg_right (by linarith) hpos.le
  by_contra! hge
  linarith

lemma eq_of_covers {k' : Nat} (hx : 2 ^ 52 ≤ x.significand) (hlt : k < 2 ^ 52)
    (h : x.Covers (k * 10 ^ p)) (h' : x.Covers (k' * 10 ^ p)) : k' = k := by
  have hpos := ten_zpow_pos p
  have hunit := exponent_lt hx hlt h
  have hwidth : x.upper - x.lower ≤ 2 ^ x.exponent := by
    rw [upper]
    linarith [lower_bounds x]
  have hnear {m n : Nat} (hm : x.Covers (m * 10 ^ p)) (hn : x.Covers (n * 10 ^ p)) : m ≤ n := by
    have hlt : (m : Rat) < n + 1 := by
      refine lt_of_mul_lt_mul_right ?_ hpos.le
      rw [add_one_mul]
      linarith [hm.le.2, hn.le.1]
    have hlt : m < n + 1 := mod_cast hlt
    omega
  exact le_antisymm (hnear h' h) (hnear h h')

/-- A known decimal of less than `2 ^ 52` units is within the reach of the search. -/
lemma startPower_reaches (hx : 2 ^ 52 ≤ x.significand) (hk : 0 < k) (hlt : k < 2 ^ 52)
    (h : x.Covers (k * 10 ^ p)) : p ≤ x.startPower ∧ x.startPower < p + 20 := by
  have hunit := two_zpow_pos x.exponent
  have hpos := ten_zpow_pos p
  have hsig : (1 : Rat) ≤ x.significand := mod_cast (show 1 ≤ x.significand by omega)
  have hvalue : x.toRat = x.significand * 2 ^ x.exponent := rfl
  have hk1 : (1 : Rat) ≤ k := mod_cast hk
  have hk2 : (k : Rat) ≤ 2 ^ 52 := mod_cast hlt.le
  have htoRat : 0 < x.toRat := by
    rw [hvalue]
    positivity
  obtain ⟨hstart, hstart'⟩ := startPower_bounds htoRat
  constructor
  · have hlt : (10 : Rat) ^ p < 10 ^ (x.startPower + 1) :=
      calc (10 : Rat) ^ p ≤ k * 10 ^ p := le_mul_of_one_le_left hpos.le hk1
        _ ≤ x.upper := h.le.2
        _ ≤ 2 * x.toRat := by
          rw [upper, hvalue, ← mul_assoc]
          exact mul_le_mul_of_nonneg_right (by linarith) hunit.le
        _ < 10 ^ (x.startPower + 1) := by
          rw [zpow_add_one₀ (by norm_num)]
          linarith [ten_zpow_pos x.startPower]
    have hexp := (zpow_lt_zpow_iff_right₀ (by norm_num)).mp hlt
    omega
  · have hlt : (10 : Rat) ^ (x.startPower - 2) < 10 ^ (16 + p) :=
      calc (10 : Rat) ^ (x.startPower - 2) ≤ x.toRat := hstart
        _ ≤ 2 * ((x.significand - 1 / 2) * 2 ^ x.exponent) := by
          rw [hvalue, ← mul_assoc]
          exact mul_le_mul_of_nonneg_right (by linarith) hunit.le
        _ ≤ 2 * (k * 10 ^ p) := by linarith [lower_bounds x, h.le.1]
        _ ≤ 2 ^ 53 * 10 ^ p := by
          rw [← mul_assoc]
          exact mul_le_mul_of_nonneg_right (by linarith) hpos.le
        _ < 10 ^ (16 + p) := by
          rw [zpow_add₀ (by norm_num)]
          exact mul_lt_mul_of_pos_right (by norm_num) hpos
    have hexp := (zpow_lt_zpow_iff_right₀ (by norm_num)).mp hlt
    omega

/-- If a number stands for a decimal of less than `2 ^ 52` units, then its shortest decimal is that
one, perhaps without some zeros at its end. -/
lemma exists_shortest (hx : 2 ^ 52 ≤ x.significand) (hk : 0 < k) (hlt : k < 2 ^ 52)
    (h : x.Covers (k * 10 ^ p)) :
    ∃ j : Nat, x.shortest.2 = p + j ∧ x.shortest.1 * 10 ^ j = k := by
  have hsig : 0 < x.significand := by omega
  obtain ⟨hstart, hstart'⟩ := startPower_reaches hx hk hlt h
  obtain ⟨hle, hcontains⟩ := shortest_spec hsig hstart hstart' ((contains_iff hsig).mpr h)
  have hcovers := (contains_iff hsig).mp hcontains
  obtain ⟨j, hj⟩ : ∃ j : Nat, x.shortest.2 = p + j := ⟨(x.shortest.2 - p).toNat, by omega⟩
  have hmultiple : (x.shortest.1 * 10 ^ x.shortest.2 : Rat) =
      (x.shortest.1 * 10 ^ j : Nat) * 10 ^ p := by
    rw [hj, zpow_add₀ (by norm_num), zpow_natCast]
    push_cast
    ring
  rw [hmultiple] at hcovers
  exact ⟨j, hj, eq_of_covers hx hlt h hcovers⟩

end Cambist.Binary64
