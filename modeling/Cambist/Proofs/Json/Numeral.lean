import Cambist.Json.Numeral
import Cambist.Proofs.Binary64.Shortest
import Cambist.Proofs.Decimal.Numeral
import Cambist.Proofs.Json.Spelling

/-!
# Decimals written as JSON numbers

A decimal can be written as a number, with the same characters as its text. A whole number that 64
bits can hold is read as it stands. With a fraction the number goes through a binary number, and
what is read is equal to the decimal if that has a mantissa below `2 ^ 52` and at most 22 places. It
may have lost zeros at its end.
-/

namespace Cambist

/-! ### Reading a binary number that was written -/

namespace Binary64

variable {x : Binary64} {k s : Nat}

/-- Positional notation is the text of a magnitude. -/
lemma positional_eq_chars {p : Int} {m : Magnitude} (hm : m.mantissa = k * 10 ^ p.toNat)
    (hs : m.scale = (-p).toNat) : positional k p = m.chars := by
  rw [positional, Magnitude.chars, hm, hs]
  by_cases hplaces : (-p).toNat = 0
  · rw [if_pos hplaces, if_pos hplaces]
  · have hzero : p.toNat = 0 := by omega
    rw [if_neg hplaces, if_neg hplaces, hzero, Nat.pow_zero, Nat.mul_one]

/-- A number that stands for a decimal of 15 digits is written as that decimal. -/
lemma exists_readPlain?_chars (hx : 2 ^ 52 ≤ x.significand) (hk : 0 < k) (hlt : k < 2 ^ 52)
    (hs : s ≤ 28) (h : x.Covers (k / 10 ^ s)) :
    ∃ r, Decimal.readPlain? x.chars = some r ∧ r.toRat = k / 10 ^ s := by
  have hcovers : x.Covers (k * 10 ^ (-s : Int)) := by
    rwa [zpow_neg, zpow_natCast, ← div_eq_mul_inv]
  obtain ⟨j, hpower, hdigits⟩ := exists_shortest hx hk hlt hcovers
  have hzero : ¬ x.isZero = true := by
    rw [isZero, beq_iff_eq]
    omega
  rw [chars, if_neg hzero]
  generalize x.shortest.1 = k', x.shortest.2 = p at hpower hdigits ⊢
  have hle : k' * 10 ^ p.toNat ≤ k := by
    rw [← hdigits]
    exact Nat.mul_le_mul_left _ (Nat.pow_le_pow_right (by decide) (by omega))
  have hfits : k' * 10 ^ p.toNat < 2 ^ 96 := by omega
  have hplaces : (-p).toNat ≤ 28 := by omega
  obtain ⟨m, hmantissa, hscale⟩ : ∃ m : Magnitude,
      m.mantissa = k' * 10 ^ p.toNat ∧ m.scale = (-p).toNat := ⟨⟨_, _, hfits, hplaces⟩, rfl, rfl⟩
  refine ⟨.ofNumeral .plus m, ?_, ?_⟩
  · rw [positional_eq_chars hmantissa hscale, m.chars_eq_numeral,
      Decimal.readPlain?_numeral m.wholeDigits_ne_nil m.isDigit_of_mem_wholeDigits,
      m.readSides?_digits]
    rfl
  · -- on both sides the power is the larger one of `s` and `j`
    have hexp : p.toNat + s = j + (-p).toNat := by omega
    rw [Decimal.ofNumeral, Decimal.toRat_unsignZero, Decimal.toRat_eq_div, Sign.toInt_plus,
      Decimal.mantissa, Decimal.scale, hmantissa, hscale, ← hdigits,
      div_eq_div_iff (by positivity) (by positivity)]
    push_cast
    rw [mul_assoc, mul_assoc, ← pow_add, ← pow_add, hexp]

end Binary64

namespace Json.Numeral

/-! ### The digits of a number -/

lemma ofDigitChars_cons_eq (c : Char) (cs : List Char) (n : Nat) :
    Nat.ofDigitChars 10 (c :: cs) n = Nat.ofDigitChars 10 cs (n * 10 + Decimal.digitValue c) := by
  rw [Nat.ofDigitChars_cons, Nat.mul_comm]
  rfl

lemma hasRoom_of_ofDigitChars_lt {c : Char} {cs : List Char} {n : Nat} {e : Int}
    (h : Nat.ofDigitChars 10 (c :: cs) n < 2 ^ 64) : Scaled.hasRoom ⟨n, e⟩ c = true := by
  rw [ofDigitChars_cons_eq] at h
  exact decide_eq_true (lt_of_le_of_lt (Decimal.le_ofDigitChars cs _) h)

/-- Digits are all taken if 64 bits can hold them. -/
lemma takeWhole_eq {ds : List Char} {n : Nat} (h : Nat.ofDigitChars 10 ds n < 2 ^ 64) (e : Int) :
    Scaled.takeWhole ⟨n, e⟩ ds = ⟨Nat.ofDigitChars 10 ds n, e⟩ := by
  induction ds generalizing n with
  | nil => rfl
  | cons d ds ih =>
    rw [Scaled.takeWhole, if_pos (hasRoom_of_ofDigitChars_lt h)]
    rw [ofDigitChars_cons_eq] at h ⊢
    exact ih h

lemma takeFraction_eq {ds : List Char} {n : Nat} (h : Nat.ofDigitChars 10 ds n < 2 ^ 64) (e : Int) :
    Scaled.takeFraction ⟨n, e⟩ ds = ⟨Nat.ofDigitChars 10 ds n, e - ds.length⟩ := by
  induction ds generalizing n e with
  | nil => simp [Scaled.takeFraction]
  | cons d ds ih =>
    rw [Scaled.takeFraction, if_pos (hasRoom_of_ofDigitChars_lt h)]
    rw [ofDigitChars_cons_eq] at h ⊢
    rw [ih h, List.length_cons, Scaled.mk.injEq]
    push_cast
    exact ⟨rfl, by ring⟩

/-! ### The number of a magnitude -/

variable {x : Magnitude}

/-- The number that has the characters of a magnitude. -/
def ofMagnitude (x : Magnitude) : Numeral := Token.plain x.wholeDigits x.fractionDigits

lemma head?_toDigits_ne {n : Nat} (hn : 0 < n) : (Nat.toDigits 10 n).head? ≠ some '0' := by
  induction n using Nat.strongRecOn with
  | ind n ih =>
    rcases Nat.lt_or_ge n 10 with hlt | hge
    · have hdigit : ∀ d < 10, 0 < d → d.digitChar ≠ '0' := by decide
      rw [Nat.toDigits_of_lt_base hlt, List.head?_cons, ne_eq, Option.some.injEq]
      exact hdigit n hlt hn
    · rw [Nat.toDigits_of_base_le (by decide) hge,
        List.head?_append_of_ne_nil _ Nat.toDigits_ne_nil]
      exact ih (n / 10) (by omega) (by omega)

/-- No magnitude is written with a needless zero in front. -/
lemma isPlain_digits (x : Magnitude) : Token.IsPlain x.wholeDigits x.fractionDigits where
  ne_nil := x.wholeDigits_ne_nil
  digits_whole := x.isDigit_of_mem_wholeDigits
  digits_fraction := x.isDigit_of_mem_fractionDigits
  leading d ds h := by
    rw [Magnitude.wholeDigits] at h
    rcases Nat.eq_zero_or_pos (x.mantissa / 10 ^ x.scale) with hzero | hpos
    · rw [hzero, Nat.toDigits_zero] at h
      cases h
    · refine head?_toDigits_ne hpos ?_
      rw [h, List.head?_cons]

/-- A whole number that 64 bits can hold is read as it stands. -/
lemma whole?_ofMagnitude (hs : x.scale = 0) (hx : x.mantissa < 2 ^ 64) :
    (ofMagnitude x).whole? = some ⟨.plus, x⟩ := by
  have hfraction := x.fractionDigits_eq_nil_iff.mpr hs
  have hdigits := x.ofDigitChars_digits
  rw [hfraction, Nat.ofDigitChars_nil] at hdigits
  have hlt : Nat.ofDigitChars 10 x.wholeDigits 0 < 2 ^ 64 := by rwa [hdigits]
  simp only [whole?, ofMagnitude, Token.plain, hfraction, if_true, Option.isNone_none,
    Bool.and_self, dif_pos hlt, Option.some.injEq, Decimal.mk.injEq, true_and]
  exact Magnitude.ext hdigits hs.symm

lemma whole?_ofMagnitude_eq_none (hs : x.scale ≠ 0) : (ofMagnitude x).whole? = none := by
  have hfraction := mt x.fractionDigits_eq_nil_iff.mp hs
  simp [whole?, ofMagnitude, Token.plain, hfraction]

/-- All digits of a mantissa below `2 ^ 64` are taken. -/
lemma scaled_ofMagnitude (hs : x.scale ≠ 0) (hx : x.mantissa < 2 ^ 64) :
    (ofMagnitude x).scaled = ⟨x.mantissa, -x.scale⟩ := by
  have hfraction := mt x.fractionDigits_eq_nil_iff.mp hs
  have hdigits := x.ofDigitChars_digits
  have hlt :
      Nat.ofDigitChars 10 x.fractionDigits (Nat.ofDigitChars 10 x.wholeDigits 0) < 2 ^ 64 := by
    rwa [hdigits]
  have hwhole : Nat.ofDigitChars 10 x.wholeDigits 0 < 2 ^ 64 :=
    lt_of_le_of_lt (Decimal.le_ofDigitChars _ _) hlt
  have hlength : x.fractionDigits.length = x.scale := length_lastDigits _ _
  simp only [scaled, ofMagnitude, Token.plain, if_neg hfraction, Option.getD_some, Option.getD_none]
  rw [takeWhole_eq hwhole, takeFraction_eq hlt, hdigits, hlength, Scaled.mk.injEq]
  exact ⟨rfl, by ring⟩

/-! ### What is safe as a number -/

/-- Is a number with these digits read without a loss? A binary number holds 15 digits, and what
has no fraction needs none. -/
def IsSafe (x : Magnitude) : Prop :=
  x.scale = 0 ∧ x.mantissa < 2 ^ 64 ∨ x.mantissa < 2 ^ 52 ∧ x.scale ≤ 22

instance (x : Magnitude) : Decidable (IsSafe x) := inferInstanceAs (Decidable (_ ∨ _))

/-- What is safe as a number is read as an equal decimal. -/
lemma exists_toDecimal? (hx : 0 < x.mantissa) (hsafe : IsSafe x) :
    ∃ r, (ofMagnitude x).toDecimal? = some r ∧ r.toRat = (⟨.plus, x⟩ : Decimal).toRat := by
  by_cases hs : x.scale = 0
  · have hlt : x.mantissa < 2 ^ 64 := by
      rcases hsafe with hsafe | hsafe <;> omega
    exact ⟨_, by rw [toDecimal?, whole?_ofMagnitude hs hlt]; rfl, rfl⟩
  · obtain ⟨hlt, hscale⟩ : x.mantissa < 2 ^ 52 ∧ x.scale ≤ 22 :=
      hsafe.resolve_left fun h => hs h.1
    obtain ⟨b, hb, hcovers, hbits⟩ :=
      Binary64.exists_ofScaled? hx (by omega) (Nat.pos_of_ne_zero hs) hscale
    obtain ⟨r, hr, hvalue⟩ := Binary64.exists_readPlain?_chars hbits hx hlt (by omega) hcovers
    refine ⟨r, ?_, ?_⟩
    · have hbinary : (ofMagnitude x).toBinary64? = some b := by
        rw [toBinary64?, scaled_ofMagnitude hs (by omega)]
        exact hb
      rw [toDecimal?, whole?_ofMagnitude_eq_none hs, viaBinary64?, hbinary]
      exact hr
    · rw [hvalue, Decimal.toRat_eq_div, Sign.toInt_plus]
      push_cast
      rfl

end Json.Numeral

end Cambist
