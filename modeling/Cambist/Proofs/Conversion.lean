import Cambist.RateTable
import Mathlib.Tactic.Common

/-!
# Converting an amount

What `RateTable.convert` comes to. A result is always in the currency that was asked for, and there
are exactly two reasons for having none: a pair without a rate, and a product that is no decimal.
-/

namespace Cambist.RateTable

variable {t : RateTable} {a b : Amount} {u : String} {e : EvaluationError}

/-- Why an amount cannot be converted. In its own currency it always can. -/
inductive Refuses (t : RateTable) (a : Amount) (u : String) : EvaluationError → Prop where
  | missingRate (hne : a.currency ≠ u) (hr : t.rate? a.currency u = none) :
      Refuses t a u (.missingRate a.currency u)
  | overflow {r : Decimal} (hne : a.currency ≠ u) (hr : t.rate? a.currency u = some r)
      (hp : Decimal.mul? ⟨.plus, a.magnitude⟩ r = none) :
      Refuses t a u (.overflow (.product ⟨.plus, a.magnitude⟩ r))

@[simp] lemma convert_self (t : RateTable) (a : Amount) : t.convert a a.currency = .ok a := by
  simp [convert]

lemma convert_of_rate {r p : Decimal} (hne : a.currency ≠ u)
    (hr : t.rate? a.currency u = some r) (hp : Decimal.mul? ⟨.plus, a.magnitude⟩ r = some p) :
    t.convert a u = .ok (.signed a.sign p u) := by
  simp only [convert, if_neg hne, rate, hr, bind, Except.bind, hp]
  rfl

lemma convert_of_refuses (h : t.Refuses a u e) : t.convert a u = .error e := by
  cases h with
  | missingRate hne hr =>
    simp only [convert, if_neg hne, rate, hr]
    rfl
  | overflow hne hr hp =>
    simp only [convert, if_neg hne, rate, hr, bind, Except.bind, hp]
    rfl

/-- Between two currencies either the product with the rate is a decimal, or there is a reason
against the conversion. -/
lemma exists_product_or_refuses (t : RateTable) (hne : a.currency ≠ u) :
    (∃ r p, t.rate? a.currency u = some r ∧ Decimal.mul? ⟨.plus, a.magnitude⟩ r = some p) ∨
      ∃ e, t.Refuses a u e := by
  cases hr : t.rate? a.currency u with
  | none => exact Or.inr ⟨_, .missingRate hne hr⟩
  | some r =>
    cases hp : Decimal.mul? ⟨.plus, a.magnitude⟩ r with
    | none => exact Or.inr ⟨_, .overflow hne hr hp⟩
    | some p => exact Or.inl ⟨r, p, rfl, hp⟩

/-- Into another currency, the absolute value of an amount is multiplied by the rate. -/
lemma convert_eq_ok_iff_of_ne (hne : a.currency ≠ u) :
    t.convert a u = .ok b ↔ ∃ r p, t.rate? a.currency u = some r ∧
      Decimal.mul? ⟨.plus, a.magnitude⟩ r = some p ∧ b = .signed a.sign p u := by
  constructor
  · intro h
    rcases t.exists_product_or_refuses hne with ⟨r, p, hr, hp⟩ | ⟨e, he⟩
    · rw [convert_of_rate hne hr hp] at h
      cases h
      exact ⟨r, p, hr, hp, rfl⟩
    · rw [convert_of_refuses he] at h
      cases h
  · rintro ⟨r, p, hr, hp, rfl⟩
    exact convert_of_rate hne hr hp

lemma convert_eq_error_iff : t.convert a u = .error e ↔ t.Refuses a u e := by
  refine ⟨fun h => ?_, convert_of_refuses⟩
  by_cases hne : a.currency = u
  · rw [← hne, convert_self] at h
    cases h
  · rcases t.exists_product_or_refuses hne with ⟨r, p, hr, hp⟩ | ⟨e', he⟩
    · rw [convert_of_rate hne hr hp] at h
      cases h
    · rw [convert_of_refuses he] at h
      cases h
      exact he

lemma currency_of_convert (h : t.convert a u = .ok b) : b.currency = u := by
  by_cases hne : a.currency = u
  · rw [← hne, convert_self] at h
    cases h
    exact hne
  · obtain ⟨r, p, -, -, rfl⟩ := (convert_eq_ok_iff_of_ne hne).mp h
    rfl

end Cambist.RateTable
