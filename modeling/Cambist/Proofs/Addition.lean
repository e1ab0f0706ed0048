import Cambist.Proofs.Decimal.Sign
import Cambist.Proofs.Evaluation.Negation

/-!
# Adding two amounts

Amounts are added as decimals with a sign. Taken case by case, this comes to the sum or the
difference of the absolute values, whichever the two signs call for, and the operands may change
places: rounding neither knows the sign of a number nor the order in which it was added up.
-/

namespace Cambist

/-! ### The table of signs -/

/-- The sum of two decimals `l` and `r` that are taken with signs, put down case by case. -/
def Sign.tabledSum? : Sign → Sign → Decimal → Decimal → Option Decimal
  | .plus, .plus, l, r   => l.add? r
  | .minus, .minus, l, r => (l.add? r).map (- ·)
  | .minus, .plus, l, r  => r.add? (-l)
  | .plus, .minus, l, r  => l.add? (-r)

namespace Decimal

variable {x y v w : Decimal}

/-- The operands of a sum may change places. Of two zeros, the sum is the one on the right. -/
lemma add?_comm (h : ¬ (x.isZero = true ∧ y.isZero = true)) : x.add? y = y.add? x := by
  by_cases hx : x.isZero = true
  · have hy : ¬ y.isZero = true := fun hy => h ⟨hx, hy⟩
    rw [add?_of_isZero_left hx, add?_of_isZero_right hy hx]
  by_cases hy : y.isZero = true
  · rw [add?_of_isZero_right hx hy, add?_of_isZero_left hy]
  · rw [add?_eq_map hx hy rfl, add?_eq_map hy hx (max_comm _ _), Int.add_comm]

/-- Two sums denote one number, and are written with the same digits unless both terms are zero. -/
structure SameSum (x y v w : Decimal) : Prop where
  toRat : w.toRat = v.toRat
  magnitude : w.magnitude = v.magnitude ∨ x.isZero = true ∧ y.isZero = true

/-- Changing places changes at most the digits after the point of zero. -/
lemma add?_swap (x y : Decimal) : Option.Rel (SameSum x y) (y.add? x) (x.add? y) := by
  by_cases h : x.isZero = true ∧ y.isZero = true
  · obtain ⟨hx, hy⟩ := h
    rw [add?_of_isZero_left hx, add?_of_isZero_left hy]
    exact .some ⟨by rw [toRat_of_isZero hx, toRat_of_isZero hy], .inr ⟨hx, hy⟩⟩
  · rw [add?_comm h]
    cases y.add? x with
    | none => exact .none
    | some v => exact .some ⟨rfl, .inl rfl⟩

lemma add?_neg_neg (x y : Decimal) :
    Option.Rel (SameSum (-x) (-y)) ((x.add? y).map (- ·)) ((-x).add? (-y)) := by
  have hopp := add?_opposite x.opposite_neg y.opposite_neg
  generalize x.add? y = sum at hopp ⊢
  generalize (-x).add? (-y) = sum' at hopp ⊢
  cases hopp with
  | none => exact .none
  | some h => exact .some ⟨by rw [h.toRat_eq, toRat_neg], .inl h.magnitude⟩

/-- A sum is what the table says. -/
lemma add?_tabled (x y : Decimal) : Option.Rel (SameSum x y)
    (Sign.tabledSum? x.sign y.sign ⟨.plus, x.magnitude⟩ ⟨.plus, y.magnitude⟩) (x.add? y) := by
  obtain ⟨sx, l⟩ := x
  obtain ⟨sy, r⟩ := y
  have hrefl (x y : Decimal) : Option.Rel (SameSum x y) (x.add? y) (x.add? y) := by
    cases x.add? y with
    | none => exact .none
    | some v => exact .some ⟨rfl, .inl rfl⟩
  cases sx with
  | plus =>
    cases sy with
    | plus => exact hrefl _ _
    | minus => exact hrefl ⟨.plus, l⟩ ⟨.minus, r⟩
  | minus =>
    cases sy with
    | plus => exact add?_swap ⟨.minus, l⟩ ⟨.plus, r⟩
    | minus => exact add?_neg_neg ⟨.plus, l⟩ ⟨.plus, r⟩

end Decimal

/-! ### Sums of amounts -/

namespace Amount

variable {a b s : Amount} {v w : Decimal}

/-- A value is held with a minus sign if it is negative, and with a plus sign otherwise, also if it
is zero. -/
structure Holds (a : Amount) (v : Decimal) : Prop where
  sign : a.sign = if v.toRat < 0 then .minus else .plus
  toRat : a.magnitude.toRat = |v.toRat|

lemma holds_ofValue (v : Decimal) (u : String) : (ofValue v u).Holds v where
  sign := by
    by_cases hzero : v.isZero = true
    · rw [Decimal.toRat_of_isZero hzero, if_neg (lt_irrefl 0)]
      exact sign_signed (.inl hzero) .plus u
    · have hsign : (ofValue v u).sign = v.sign := by
        rw [ofValue, signed, Decimal.unsignZero_of_not_isZero (Bool.eq_false_iff.mpr hzero)]
        rfl
      rw [hsign]
      split_ifs with hneg
      · exact (Decimal.toRat_neg_iff.mp hneg).1
      · rw [Decimal.toRat_neg_iff] at hneg
        cases hv : v.sign with
        | plus => rfl
        | minus => exact absurd ⟨hv, hzero⟩ hneg
  toRat := by
    rw [Decimal.abs_toRat, ofValue, magnitude_signed]

/-- Amounts in one currency that hold one number do not differ, except in their digits. -/
lemma equals_of_holds (ha : a.Holds v) (hb : b.Holds w) (hvw : v.toRat = w.toRat)
    (heq : a.currency = b.currency) : a.equals b = true := by
  have hsign : a.sign = b.sign := by rw [ha.sign, hb.sign, hvw]
  have htoRat : a.magnitude.toRat = b.magnitude.toRat := by rw [ha.toRat, hb.toRat, hvw]
  rw [equals, decide_eq_true hsign, decide_eq_true heq, decide_eq_true htoRat]
  rfl

lemma add_eq_ok_iff (heq : a.currency = b.currency) :
    a.add b = .ok s ↔ ∃ v, a.value.add? b.value = some v ∧ s = .ofValue v a.currency := by
  rw [add, if_pos heq]
  cases a.value.add? b.value with
  | none => simp
  | some v => simp [eq_comm]

/-- The sum of two amounts in one currency, in whichever order, is what the table of signs says, and
overflows just if the table does. Amounts in different currencies are not added. -/
theorem add_eq_tabledSum (a b : Amount) :
    (a.currency = b.currency →
      let sum := Sign.tabledSum? a.sign b.sign ⟨.plus, a.magnitude⟩ ⟨.plus, b.magnitude⟩
      (∀ v, sum = some v → ∃ s, a.add b = .ok s ∧ s.currency = a.currency ∧ s.Holds v ∧
        (s.magnitude = v.magnitude ∨ a.value.isZero = true ∧ b.value.isZero = true)) ∧
      (∀ e, a.add b = .error e ↔ sum = none ∧ e = .overflow (.sum a.value b.value)) ∧
      ∀ s, a.add b = .ok s → ∃ s', b.add a = .ok s' ∧ s'.equals s = true) ∧
    (a.currency ≠ b.currency → a.add b = .error (.currencyMismatch a.currency b.currency)) := by
  refine ⟨fun heq => ?_, fun hne => if_neg hne⟩
  have htabled := Decimal.add?_tabled a.value b.value
  have hswap := Decimal.add?_swap b.value a.value
  simp only [add_eq_error_iff heq, add_eq_ok_iff heq, add_eq_ok_iff heq.symm]
  generalize Sign.tabledSum? _ _ _ _ = sum at htabled ⊢
  generalize a.value.add? b.value = forth at htabled hswap ⊢
  generalize b.value.add? a.value = back at hswap ⊢
  cases htabled with
  | none => exact ⟨nofun, fun e => Iff.rfl, nofun⟩
  | @some v w hsame =>
    cases hswap with
    | @some _ w' hswap =>
      have hw := holds_ofValue w a.currency
      have hw' := holds_ofValue w' b.currency
      refine ⟨?_, fun e => by simp, ?_⟩
      · rintro v' ⟨⟩
        refine ⟨_, ⟨w, rfl, rfl⟩, rfl, ⟨?_, ?_⟩, ?_⟩
        · rw [hw.sign, hsame.toRat]
        · rw [hw.toRat, hsame.toRat]
        · rw [ofValue, magnitude_signed]
          exact hsame.magnitude
      · rintro s ⟨_, ⟨⟩, rfl⟩
        exact ⟨_, ⟨w', rfl, rfl⟩, equals_of_holds hw' hw hswap.toRat heq.symm⟩

/-- Half a dollar less than the largest amount is rounded, in either order and to the even
neighbour. -/
theorem add_eq_tabledSum_sample :
    let a : Amount := ⟨-.ofUnits 79228162514264337593543950335 0, "USD"⟩
    let b : Amount := ⟨.ofUnits 5 1, "USD"⟩
    let v : Decimal := -.ofUnits 79228162514264337593543950334 0
    a.currency = b.currency ∧
      Sign.tabledSum? a.sign b.sign ⟨.plus, a.magnitude⟩ ⟨.plus, b.magnitude⟩ = some v ∧
      ∃ s s', a.add b = .ok s ∧ s.Holds v ∧ b.add a = .ok s' ∧ s'.equals s = true := by
  intro a b v
  have hsum : Sign.tabledSum? a.sign b.sign ⟨.plus, a.magnitude⟩ ⟨.plus, b.magnitude⟩ = some v := by
    decide +kernel
  obtain ⟨htable, -, hswap⟩ := (add_eq_tabledSum a b).1 rfl
  obtain ⟨s, hs, -, hholds, -⟩ := htable v hsum
  obtain ⟨s', hs', hequals⟩ := hswap s hs
  exact ⟨rfl, hsum, s, s', hs, hholds, hs', hequals⟩

end Amount

end Cambist
