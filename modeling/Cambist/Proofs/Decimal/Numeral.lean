import Cambist.Decimal.Reading
import Cambist.Decimal.Text
import Mathlib.Data.List.TakeWhile
import Mathlib.Tactic.Common

/-!
# Numerals

A numeral without a sign is read as a positive decimal, digit by digit. As long as there is room for
the digits behind the point nothing is rounded, so the text of a positive decimal is read as that
decimal, with its scale.
-/

namespace Cambist

/-- A character of a class is none outside it. -/
lemma ne_of_class {p : Char → Bool} {c d : Char} (hc : p c = true) (hd : p d = false) : c ≠ d := by
  rintro rfl
  rw [hc] at hd
  cases hd

namespace Decimal

/-! ### Digits -/

lemma le_ofDigitChars (ds : List Char) (n : Nat) : n ≤ Nat.ofDigitChars 10 ds n := by
  induction ds generalizing n with
  | nil => exact Nat.le_refl n
  | cons d ds ih =>
    rw [Nat.ofDigitChars_cons]
    have h := ih (10 * n + (d.toNat - '0'.toNat))
    omega

lemma isDigit_of_mem_lastDigits {k n : Nat} {c : Char} (h : c ∈ lastDigits k n) :
    c.isDigit = true := by
  induction k generalizing n with
  | zero => cases h
  | succ k ih =>
    rw [lastDigits, List.mem_append, List.mem_singleton] at h
    rcases h with h | rfl
    · exact ih h
    · rw [Nat.isDigit_digitChar, decide_eq_true_eq]
      exact Nat.mod_lt n (by decide)

/-- The last digits of a number are appended to another one. -/
lemma ofDigitChars_lastDigits (k n a : Nat) (h : n < 10 ^ k) :
    Nat.ofDigitChars 10 (lastDigits k n) a = a * 10 ^ k + n := by
  induction k generalizing n with
  | zero =>
    obtain rfl : n = 0 := by
      rw [Nat.pow_zero] at h
      omega
    simp [lastDigits]
  | succ k ih =>
    rw [Nat.pow_succ] at h
    have hdiv : n / 10 < 10 ^ k := by omega
    have hmod : n % 10 < 10 := Nat.mod_lt n (by decide)
    rw [lastDigits, Nat.ofDigitChars_append, ih (n / 10) hdiv,
      Nat.ofDigitChars_cons_digitChar_of_lt_ten hmod, Nat.ofDigitChars_nil, Nat.pow_succ,
      ← Nat.mul_assoc]
    omega

/-! ### The two sides of the point -/

/-- Digits behind the point are all taken if there is room for them. -/
lemma readFraction?_of_room {x : Magnitude} {ds : List Char} (hds : ∀ d ∈ ds, d.isDigit = true)
    (hs : x.scale + ds.length ≤ 28) (hm : Nat.ofDigitChars 10 ds x.mantissa < 2 ^ 96) :
    readFraction? x ds = some ⟨_, _, hm, hs⟩ := by
  induction ds generalizing x with
  | nil => rfl
  | cons d ds ih =>
    obtain ⟨hd, hds⟩ := List.forall_mem_cons.mp hds
    have hne : d ≠ '_' := ne_of_class hd (by decide)
    have hval : Nat.ofDigitChars 10 (d :: ds) x.mantissa =
        Nat.ofDigitChars 10 ds (x.mantissa * 10 + digitValue d) := by
      rw [Nat.ofDigitChars_cons, Nat.mul_comm]
      rfl
    have hroom : x.scale < 28 ∧ x.mantissa * 10 + digitValue d < 2 ^ 96 := by
      have h := le_ofDigitChars ds (x.mantissa * 10 + digitValue d)
      rw [List.length_cons] at hs
      omega
    have hlen : x.scale + 1 + ds.length = x.scale + (d :: ds).length := by
      rw [List.length_cons]
      omega
    rw [readFraction?, dif_pos hroom, ih hds (hlen ▸ hs) (hval ▸ hm)]
    · simp only [Option.some.injEq]
      exact Magnitude.ext hval.symm hlen
    · exact hne

lemma readSides?_of_room {whole fraction : List Char} (hne : whole ≠ [])
    (hwhole : ∀ d ∈ whole, d.isDigit = true) (hfraction : ∀ d ∈ fraction, d.isDigit = true)
    (hs : fraction.length ≤ 28)
    (hm : Nat.ofDigitChars 10 fraction (Nat.ofDigitChars 10 whole 0) < 2 ^ 96) :
    readSides? whole fraction = some ⟨_, _, hm, hs⟩ := by
  have hhead : (whole ++ fraction).head?.any Char.isDigit = true := by
    cases whole with
    | nil => exact absurd rfl hne
    | cons d ds => exact hwhole d List.mem_cons_self
  have hall : (whole ++ fraction).all (fun c => c.isDigit || c = '_') = true := by
    rw [List.all_eq_true]
    intro c hc
    rcases List.mem_append.mp hc with hc | hc
    · rw [hwhole c hc, Bool.true_or]
    · rw [hfraction c hc, Bool.true_or]
  have hn : Nat.ofDigitChars 10 whole 0 < 2 ^ 96 :=
    Nat.lt_of_le_of_lt (le_ofDigitChars fraction _) hm
  have hfilter : whole.filter Char.isDigit = whole := List.filter_eq_self.mpr hwhole
  have hzero : (0 : Nat) + fraction.length ≤ 28 := by omega
  simp only [readSides?, hhead, hall, hfilter, Bool.and_self, if_true, dif_pos hn]
  rw [readFraction?_of_room hfraction hzero hm]
  simp only [Option.some.injEq]
  exact Magnitude.ext rfl (Nat.zero_add _)

/-! ### Whole numerals -/

/-- A numeral without a sign: some digits, and some more behind a point if there are any. -/
def numeral (whole fraction : List Char) : List Char :=
  whole ++ if fraction = [] then [] else '.' :: fraction

lemma mem_numeral {whole fraction : List Char} {c : Char} (h : c ∈ numeral whole fraction) :
    c ∈ whole ∨ c = '.' ∨ c ∈ fraction := by
  rw [numeral] at h
  split_ifs at h with hne
  · rw [List.append_nil] at h
    exact Or.inl h
  · simpa using h

lemma readPlain?.unsigned_numeral {whole fraction : List Char}
    (hwhole : ∀ d ∈ whole, d.isDigit = true) :
    unsigned (numeral whole fraction) = readSides? whole fraction := by
  have hpoint : ∀ d ∈ whole, decide (d ≠ '.') = true := by
    intro d hd
    rw [decide_eq_true_eq]
    exact ne_of_class (hwhole d hd) (by decide)
  rw [unsigned, numeral, List.takeWhile_append_of_pos hpoint, List.dropWhile_append_of_pos hpoint]
  by_cases hne : fraction = []
  · simp [hne]
  · simp [hne]

lemma readPlain?_of_isDigit {c : Char} (hc : c.isDigit = true) (cs : List Char) :
    readPlain? (c :: cs) = (readPlain?.unsigned (c :: cs)).map (ofNumeral .plus) := by
  unfold readPlain?
  split
  case h_1 heq =>
    cases heq
    exact absurd hc (by decide)
  case h_2 heq =>
    cases heq
    exact absurd hc (by decide)
  case h_3 => rfl

lemma readScientific?_eq_none {cs : List Char} (h : ∀ c ∈ cs, isExponentMark c = false) :
    readScientific? cs = none := by
  have hdrop : cs.dropWhile (fun c => !isExponentMark c) = [] := by
    rw [List.dropWhile_eq_nil_iff]
    intro c hc
    rw [h c hc, Bool.not_false]
  rw [readScientific?, hdrop]

lemma isExponentMark_of_isDigit {c : Char} (hc : c.isDigit = true) : isExponentMark c = false := by
  rw [isExponentMark, Bool.or_eq_false_iff, decide_eq_false_iff_not, decide_eq_false_iff_not]
  exact ⟨ne_of_class hc (by decide), ne_of_class hc (by decide)⟩

/-- A numeral without a sign is read by its two sides. -/
lemma readPlain?_numeral {whole fraction : List Char} (hne : whole ≠ [])
    (hwhole : ∀ d ∈ whole, d.isDigit = true) :
    readPlain? (numeral whole fraction) = (readSides? whole fraction).map (ofNumeral .plus) := by
  rw [← readPlain?.unsigned_numeral hwhole]
  cases whole with
  | nil => exact absurd rfl hne
  | cons d ds => exact readPlain?_of_isDigit (hwhole d List.mem_cons_self) _

/-- It is never read in scientific notation. -/
lemma read?_numeral {whole fraction : List Char} (hne : whole ≠ [])
    (hwhole : ∀ d ∈ whole, d.isDigit = true) (hfraction : ∀ d ∈ fraction, d.isDigit = true) :
    read? (.ofList (numeral whole fraction)) =
      (readSides? whole fraction).map (ofNumeral .plus) := by
  have hmark : ∀ c ∈ numeral whole fraction, isExponentMark c = false := by
    intro c hc
    rcases mem_numeral hc with hc | rfl | hc
    · exact isExponentMark_of_isDigit (hwhole c hc)
    · rfl
    · exact isExponentMark_of_isDigit (hfraction c hc)
  rw [read?, String.toList_ofList, readPlain?_numeral hne hwhole, readScientific?_eq_none hmark]
  cases readSides? whole fraction <;> rfl

lemma sign_ofNumeral_plus (x : Magnitude) : (ofNumeral .plus x).sign = .plus := by
  unfold ofNumeral unsignZero
  split <;> rfl

end Decimal

/-! ### Reading what was written -/

namespace Magnitude

variable (x : Magnitude)

/-- The digits in front of the point. -/
def wholeDigits : List Char := Nat.toDigits 10 (x.mantissa / 10 ^ x.scale)

/-- The digits behind the point. -/
def fractionDigits : List Char := lastDigits x.scale (x.mantissa % 10 ^ x.scale)

lemma fractionDigits_eq_nil_iff : x.fractionDigits = [] ↔ x.scale = 0 := by
  rw [fractionDigits, ← List.length_eq_zero_iff, length_lastDigits]

lemma chars_eq_numeral : x.chars = Decimal.numeral x.wholeDigits x.fractionDigits := by
  simp only [chars, Decimal.numeral, x.fractionDigits_eq_nil_iff]
  rfl

lemma wholeDigits_ne_nil : x.wholeDigits ≠ [] := Nat.toDigits_ne_nil

lemma isDigit_of_mem_wholeDigits : ∀ d ∈ x.wholeDigits, d.isDigit = true := by
  intro d hd
  exact Nat.isDigit_of_mem_toDigits (by decide) (by decide) hd

lemma isDigit_of_mem_fractionDigits : ∀ d ∈ x.fractionDigits, d.isDigit = true := by
  intro d hd
  exact Decimal.isDigit_of_mem_lastDigits hd

lemma ofDigitChars_digits :
    Nat.ofDigitChars 10 x.fractionDigits (Nat.ofDigitChars 10 x.wholeDigits 0) = x.mantissa := by
  have hlast : x.mantissa % 10 ^ x.scale < 10 ^ x.scale :=
    Nat.mod_lt x.mantissa (Nat.pow_pos (by decide))
  rw [wholeDigits, Nat.ofDigitChars_ten_toDigits, fractionDigits,
    Decimal.ofDigitChars_lastDigits _ _ _ hlast, Nat.mul_comm]
  exact Nat.div_add_mod x.mantissa (10 ^ x.scale)

lemma readSides?_digits : Decimal.readSides? x.wholeDigits x.fractionDigits = some x := by
  have hscale : x.fractionDigits.length = x.scale := length_lastDigits _ _
  have hs : x.fractionDigits.length ≤ 28 := by
    rw [hscale]
    exact x.scale_le
  have hm :
      Nat.ofDigitChars 10 x.fractionDigits (Nat.ofDigitChars 10 x.wholeDigits 0) < 2 ^ 96 := by
    rw [ofDigitChars_digits]
    exact x.mantissa_lt
  rw [Decimal.readSides?_of_room x.wholeDigits_ne_nil x.isDigit_of_mem_wholeDigits
    x.isDigit_of_mem_fractionDigits hs hm, Option.some.injEq]
  exact Magnitude.ext x.ofDigitChars_digits hscale

end Magnitude

/-- A positive decimal is read back from its text with its scale. -/
lemma Decimal.read?_text {x : Decimal} (hx : x.sign = .plus) : read? x.text = some x := by
  obtain ⟨sign, x⟩ := x
  cases hx
  rw [text, chars, x.chars_eq_numeral, read?_numeral x.wholeDigits_ne_nil
    x.isDigit_of_mem_wholeDigits x.isDigit_of_mem_fractionDigits, x.readSides?_digits,
    Option.map_some, Option.some.injEq]
  exact Decimal.ext (sign_ofNumeral_plus x) (magnitude_unsignZero _)

end Cambist
