import Cambist.Decimal.Text

/-!
# Evaluation errors

Why a request has no answer. An error keeps its cause as data; `EvaluationError.message` puts it
into words.
-/

namespace Cambist

/-- An operation on decimals whose result does not fit. -/
inductive Operation where
  | sum (left right : Decimal)
  | product (value rate : Decimal)
deriving DecidableEq

/-- An operation as it would be written. -/
def Operation.text : Operation → String
  | sum left right     => left.text ++ " + " ++ right.text
  | product value rate => value.text ++ " * " ++ rate.text

/-- Why a request has no answer. -/
inductive EvaluationError where
  /-- A term in the currency of the answer has a directive of its own. -/
  | selfConversion (currency : String) (position : Nat)
  /-- A directive that stands for no currency. -/
  | unknownDirective (name : String) (position : Nat)
  | missingRate (source target : String)
  | currencyMismatch (left right : String)
  | overflow (operation : Operation)
  /-- No currency has been settled for the answer. -/
  | missingTarget
deriving DecidableEq

/-- The message of an evaluation error. -/
def EvaluationError.message : EvaluationError → String
  | selfConversion c p =>
    "Can't convert the amount at position " ++ p.repr ++ ", because " ++ c ++
      " is the destination currency."
  | unknownDirective d p =>
    "Unknown conversion directive '" ++ d ++ "' at position " ++ p.repr ++ "."
  | missingRate s t      => "No conversion rate from " ++ s ++ " to " ++ t ++ "."
  | currencyMismatch l r => "Can't add an amount in " ++ r ++ " to an amount in " ++ l ++ "."
  | overflow o           => "Decimal overflow while computing " ++ o.text ++ "."
  | missingTarget        => "No target currency has been resolved for this evaluation."

end Cambist
