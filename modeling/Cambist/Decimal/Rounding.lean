import Cambist.Decimal.Basic

/-!
# Fitting a number into a decimal

The exact result of an addition or a multiplication may need more digits than a magnitude holds.
`Magnitude.fit?` drops the fewest digits that bring the scale to at most 28 and the mantissa below
`2 ^ 96`, and rounds what is left once, a half going to the even neighbour. There is no result when
digits before the point would have to go.
-/

namespace Cambist

namespace Magnitude

/-- Does dropping `d` of the `s` digits after the point make room for the number `n / 10 ^ s`? -/
def Fits (n s d : Nat) : Bool := s ≤ d + 28 && n / 10 ^ d < 2 ^ 96

/-- The fewest digits whose dropping makes room for `n / 10 ^ s`, if digits after the point are
enough. -/
def excess? (n s : Nat) : Option Nat := (List.range (s + 1)).find? (Fits n s)

theorem excess?_eq_some_iff {n s d : Nat} :
    excess? n s = some d ↔ Fits n s d = true ∧ d ≤ s ∧ ∀ e < d, Fits n s e = false := by
  rw [excess?, List.find?_range_eq_some, List.mem_range, Nat.lt_succ_iff]
  simp only [Bool.not_eq_true']

/-- The magnitude closest to `n / 10 ^ s` among those that need the fewest digits dropped. If
rounding carries into a mantissa of `2 ^ 96`, one digit more is dropped. -/
def fit? (n s : Nat) : Option Magnitude :=
  match h : excess? n s with
  | none => none
  | some d =>
    have fits : Fits n s d = true := (excess?_eq_some_iff.mp h).1
    have scale_le : s - d ≤ 28 := by simp [Fits] at fits; omega
    let m := roundHalfEven n (10 ^ d)
    if mantissa_lt : m < 2 ^ 96 then
      some ⟨m, s - d, mantissa_lt, scale_le⟩
    else if d < s then
      some ⟨roundHalfEven (2 ^ 96) 10, s - d - 1, by decide, by omega⟩
    else
      none

end Magnitude

end Cambist
