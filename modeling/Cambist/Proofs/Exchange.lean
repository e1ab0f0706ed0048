import Cambist.Proofs.Conversion
import Cambist.Proofs.Decimal.Closeness
import Mathlib.Tactic.Ring

/-!
# There and back

Converting an amount by a positive rate keeps its sign and comes near the exact product, and it is
exact if that product is a decimal. Converting the result back does the same, so that the amount
that comes back differs from the first one by what the two rates do, and by what two roundings may
have lost.
-/

namespace Cambist

variable {t : RateTable} {a b c : Amount} {u : String} {r : Decimal} {e : EvaluationError}

lemma Amount.abs_magnitude_mul (a : Amount) (hr : 0 ≤ r.toRat) :
    |(⟨.plus, a.magnitude⟩ : Decimal).toRat * r.toRat| = a.magnitude.toRat * r.toRat :=
  abs_of_nonneg (mul_nonneg a.magnitude.toRat_nonneg hr)

/-- The amount `b` in the currency `u` is what `a` comes to at the rate `r`, up to rounding. -/
structure Amount.ExchangedAt (a : Amount) (r : Decimal) (u : String) (b : Amount) : Prop where
  currency : b.currency = u
  sign : b.sign = a.sign
  near : |b.magnitude.toRat - a.magnitude.toRat * r.toRat| ≤
    Magnitude.tolerance (a.magnitude.toRat * r.toRat)
  /-- A product that is a decimal is not rounded. -/
  exact : ∀ m : Magnitude, a.magnitude.toRat * r.toRat = m.toRat →
    b.magnitude.toRat = a.magnitude.toRat * r.toRat

namespace RateTable

/-! ### One conversion -/

/-- The sign stays, also when the amount vanishes. -/
lemma sign_of_convert (hpos : ∀ r, t.rate? a.currency u = some r → r.isPositive = true)
    (h : t.convert a u = .ok b) : b.sign = a.sign := by
  by_cases hne : a.currency = u
  · subst hne
    rw [convert_self] at h
    cases h
    rfl
  · obtain ⟨r, p, hr, hp, rfl⟩ := (convert_eq_ok_iff_of_ne hne).mp h
    have hsign := Decimal.sign_of_mul? hp
    rw [Decimal.sign_of_isPositive (hpos r hr)] at hsign
    exact Amount.sign_signed hsign a.sign u

lemma exchangedAt_of_convert (hne : a.currency ≠ u) (hr : t.rate? a.currency u = some r)
    (hpos : 0 < r.toRat) (h : t.convert a u = .ok b) : a.ExchangedAt r u b := by
  obtain ⟨r', p, hr', hp, rfl⟩ := (convert_eq_ok_iff_of_ne hne).mp h
  obtain rfl : r = r' := Option.some.inj (hr.symm.trans hr')
  have hfitted := Decimal.fitted_of_mul? hp
  rw [a.abs_magnitude_mul hpos.le] at hfitted
  refine ⟨rfl, sign_of_convert (fun r' hr' => ?_) h, ?_, fun m hm => ?_⟩
  · rw [hr] at hr'
    cases hr'
    exact Decimal.toRat_pos_iff.mp hpos
  · rw [Amount.magnitude_signed]
    exact hfitted.abs_sub_le
  · rw [Amount.magnitude_signed, hm]
    rw [hm] at hfitted
    exact hfitted.eq_of_toRat

/-- With a rate for it, a conversion can only overflow, and only if the exact product is not below
`2 ^ 96 - 1 / 2`. -/
lemma convert_eq_error_iff_of_rate (hne : a.currency ≠ u) (hr : t.rate? a.currency u = some r)
    (hpos : 0 < r.toRat) : t.convert a u = .error e ↔
      e = .overflow (.product ⟨.plus, a.magnitude⟩ r) ∧
        2 ^ 96 - 1 / 2 ≤ a.magnitude.toRat * r.toRat := by
  rw [convert_eq_error_iff, ← a.abs_magnitude_mul hpos.le, ← Decimal.mul?_eq_none_iff]
  constructor
  · intro h
    cases h with
    | missingRate _ hnone =>
      rw [hr] at hnone
      cases hnone
    | overflow _ hr' hp =>
      rw [hr] at hr'
      cases hr'
      exact ⟨rfl, hp⟩
  · rintro ⟨rfl, hp⟩
    exact .overflow hne hr hp

end RateTable

/-! ### Two conversions -/

/-- What is lost on the way there is multiplied by the rate of the way back. -/
lemma abs_sub_le_of_near {x y z r q d d' : Rat} (hx : 0 ≤ x) (hq : 0 ≤ q)
    (hy : |y - x * r| ≤ d) (hz : |z - y * q| ≤ d') :
    |z - x| ≤ x * |r * q - 1| + q * d + d' := by
  have hsplit : z - x = x * (r * q - 1) + q * (y - x * r) + (z - y * q) := by ring
  calc |z - x|
      = |x * (r * q - 1) + q * (y - x * r) + (z - y * q)| := by rw [hsplit]
    _ ≤ |x * (r * q - 1)| + |q * (y - x * r)| + |z - y * q| := abs_add_three _ _ _
    _ = x * |r * q - 1| + q * |y - x * r| + |z - y * q| := by
      rw [abs_mul, abs_mul, abs_of_nonneg hx, abs_of_nonneg hq]
    _ ≤ x * |r * q - 1| + q * d + d' :=
      add_le_add (add_le_add le_rfl (mul_le_mul_of_nonneg_left hy hq)) hz

/-- An amount is exchanged at a positive rate, or the exact product is out of range. If it is
exchanged back, then the sign is the same again, and the absolute value has changed by no more than
the rates and the two roundings account for. -/
theorem RateTable.convert_convert_near {home abroad : String} {r q : Decimal} (hne : home ≠ abroad)
    (hr : t.rate? home abroad = some r) (hq : t.rate? abroad home = some q) (hr0 : 0 < r.toRat)
    (hq0 : 0 < q.toRat) (ha : a.currency = home) :
    (∀ b, t.convert a abroad = .ok b → a.ExchangedAt r abroad b ∧
      ∀ c, t.convert b home = .ok c → b.ExchangedAt q home c ∧ c.sign = a.sign ∧
        |c.magnitude.toRat - a.magnitude.toRat| ≤
          a.magnitude.toRat * |r.toRat * q.toRat - 1| +
            q.toRat * Magnitude.tolerance (a.magnitude.toRat * r.toRat) +
            Magnitude.tolerance (b.magnitude.toRat * q.toRat)) ∧
    ∀ e, t.convert a abroad = .error e ↔ e = .overflow (.product ⟨.plus, a.magnitude⟩ r) ∧
      2 ^ 96 - 1 / 2 ≤ a.magnitude.toRat * r.toRat := by
  subst ha
  refine ⟨fun b hb => ?_, fun e => convert_eq_error_iff_of_rate hne hr hr0⟩
  have hthere := exchangedAt_of_convert hne hr hr0 hb
  refine ⟨hthere, fun c hc => ?_⟩
  obtain rfl := hthere.currency
  have hback := exchangedAt_of_convert hne.symm hq hq0 hc
  exact ⟨hback, hback.sign.trans hthere.sign,
    abs_sub_le_of_near a.magnitude.toRat_nonneg hq0.le hthere.near hback.near⟩

/-- A table with rates in both directions, for examples. -/
def RateTable.sampleBothWays : RateTable :=
  (empty.withRate "EUR" "USD" (.ofUnits 9 1)).withRate "USD" "EUR"
    (.ofUnits 11111111111111111111111111111 28)

/-- Of five units of the last place half a one is lost on the way there, and nearly half a one on
the way back. -/
theorem RateTable.convert_convert_near_sample :
    let a : Amount := ⟨-.ofUnits 5 28, "EUR"⟩
    let b : Amount := ⟨-.ofUnits 4 28, "USD"⟩
    let c : Amount := ⟨-.ofUnits 4 28, "EUR"⟩
    let r : Decimal := .ofUnits 9 1
    let q : Decimal := .ofUnits 11111111111111111111111111111 28
    "EUR" ≠ "USD" ∧ sampleBothWays.rate? "EUR" "USD" = some r ∧
      sampleBothWays.rate? "USD" "EUR" = some q ∧ 0 < r.toRat ∧ 0 < q.toRat ∧
      sampleBothWays.convert a "USD" = .ok b ∧ sampleBothWays.convert b "EUR" = .ok c ∧
      a.ExchangedAt r "USD" b ∧ b.ExchangedAt q "EUR" c ∧ c.sign = a.sign ∧
      |c.magnitude.toRat - a.magnitude.toRat| ≤
        a.magnitude.toRat * |r.toRat * q.toRat - 1| +
          q.toRat * Magnitude.tolerance (a.magnitude.toRat * r.toRat) +
          Magnitude.tolerance (b.magnitude.toRat * q.toRat) := by
  intro a b c r q
  have hne : "EUR" ≠ "USD" := by decide
  have hr : sampleBothWays.rate? "EUR" "USD" = some r := by decide +kernel
  have hq : sampleBothWays.rate? "USD" "EUR" = some q := by decide +kernel
  have hr0 : 0 < r.toRat := by decide +kernel
  have hq0 : 0 < q.toRat := by decide +kernel
  have hb : sampleBothWays.convert a "USD" = .ok b := by decide +kernel
  have hc : sampleBothWays.convert b "EUR" = .ok c := by decide +kernel
  obtain ⟨hthere, hback⟩ := (convert_convert_near hne hr hq hr0 hq0 rfl).1 b hb
  exact ⟨hne, hr, hq, hr0, hq0, hb, hc, hthere, hback c hc⟩

end Cambist
