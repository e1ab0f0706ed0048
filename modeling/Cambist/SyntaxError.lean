import Cambist.Token

/-!
# Syntax errors

Why a line is not a request, and at which character that shows. An error keeps its cause as data;
`SyntaxError.message` puts it into words.
-/

namespace Cambist

/-- What a request may need at some place. -/
inductive Expected where
  | directive
  | colon
  | amount
  | currency
  | number
deriving DecidableEq

namespace Expected

/-- The name of what is missing at the end of a line. -/
def noun : Expected → String
  | directive => "a conversion directive"
  | colon     => "':'"
  | amount    => "an amount"
  | currency  => "a currency"
  | number    => "a number"

/-- The name of what is missing where something else stands. -/
def phrase : Expected → String
  | colon => "':' after the conversion directive"
  | e     => e.noun

end Expected

/-- Why a line is not a request. -/
inductive SyntaxError.Cause where
  /-- A character that starts no token. -/
  | unrecognized (char : Char)
  /-- A number that is no decimal. -/
  | numberTooLarge (lexeme : String)
  /-- The line stops where something is needed. -/
  | unexpectedEnd (expected : Expected)
  /-- A token stands where something else is needed. -/
  | unexpected (expected : Expected) (found : Token)
  /-- An amount written with its currency in front has another one behind it. -/
  | secondCurrency (currency : String) (value : Decimal)
  /-- A token after the end of the expression. -/
  | extraneous (found : Token)
deriving DecidableEq

/-- A cause and the position where it shows. -/
structure SyntaxError where
  cause : SyntaxError.Cause
  position : Nat
deriving DecidableEq

namespace SyntaxError

/-- A cause in words. -/
def Cause.text : Cause → String
  | unrecognized c        => "Token recognition error at: '" ++ c.toString ++ "'"
  | numberTooLarge lexeme => "Number '" ++ lexeme ++ "' is too large"
  | unexpectedEnd e       => "Unexpected end of input, expected " ++ e.noun
  | unexpected e t        => "Expected " ++ e.phrase ++ ", found '" ++ t.text ++ "'"
  | secondCurrency c v    => "Amount " ++ c ++ " " ++ v.text ++ " already has a currency"
  | extraneous t          => "Extraneous input '" ++ t.text ++ "' after the expression"

/-- The message of a syntax error. -/
def message (e : SyntaxError) : String :=
  e.cause.text ++ ". Position: " ++ e.position.repr ++ "."

end SyntaxError

end Cambist
