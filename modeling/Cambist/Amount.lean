import Cambist.Decimal.Arithmetic
import Cambist.EvaluationError

/-!
# Amounts

An amount is a decimal in a currency. The sign of its decimal is the sign of the amount, so that
the zeros `+0` and `-0` stay apart: a term `-0USD` keeps its minus until it is added to another.
-/

namespace Cambist

/-- A decimal in a currency. -/
structure Amount where
  value : Decimal
  currency : String
deriving DecidableEq

namespace Amount

/-- The sign of an amount. -/
abbrev sign (a : Amount) : Sign := a.value.sign

/-- The absolute value of an amount. -/
abbrev magnitude (a : Amount) : Magnitude := a.value.magnitude

/-- A value taken with a sign. A negative value turns the sign around, a zero keeps it. -/
def signed (s : Sign) (x : Decimal) (currency : String) : Amount :=
  ⟨s.apply x.unsignZero, currency⟩

/-- The amount of a value that carries its own sign; a zero is positive. -/
def ofValue (x : Decimal) (currency : String) : Amount := signed .plus x currency

/-- The sum of two amounts in one currency. A sum of zero is positive. -/
def add (a b : Amount) : Except EvaluationError Amount :=
  if a.currency = b.currency then
    match a.value.add? b.value with
    | some total => .ok (.ofValue total a.currency)
    | none       => .error (.overflow (.sum a.value b.value))
  else .error (.currencyMismatch a.currency b.currency)

/-- Do two amounts have the same sign and currency and the same number of units? -/
def equals (a b : Amount) : Bool :=
  a.sign = b.sign && a.currency = b.currency && a.magnitude.toRat = b.magnitude.toRat

/-- An amount as the account of an evaluation shows it. -/
def text (a : Amount) : String :=
  "Sign:" ++ a.sign.text ++ ", Value:" ++ a.magnitude.text ++ ", Currency:" ++ a.currency

@[simp] theorem currency_signed (s : Sign) (x : Decimal) (c : String) :
    (signed s x c).currency = c := rfl

@[simp] theorem magnitude_signed (s : Sign) (x : Decimal) (c : String) :
    (signed s x c).magnitude = x.magnitude := by simp [signed, magnitude]

@[simp] theorem currency_ofValue (x : Decimal) (c : String) : (ofValue x c).currency = c := rfl

end Amount

end Cambist
