import Cambist.Decimal.Text

/-!
# Tokens

What a line is made of: numbers, currencies, conversion directives, and the marks `:`, `+` and `-`.
A token that was found in a line comes with its position, the number of characters before it.
-/

namespace Cambist

/-- A token of a line. -/
inductive Token where
  | number (value : Decimal)
  | currency (code : String)
  | directive (name : String)
  | colon
  | plus
  | minus
deriving DecidableEq

namespace Token

/-- A token as messages show it. A number is written anew from its value. -/
def text : Token → String
  | number value   => value.text
  | currency code  => code
  | directive name => name
  | colon          => ":"
  | plus           => "+"
  | minus          => "-"

/-- A token and the place where it stands. -/
structure Placed where
  token : Token
  position : Nat
deriving DecidableEq

end Token

end Cambist
