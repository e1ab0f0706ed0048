import Cambist.Json.Token

/-!
# Reading a JSON value

The tokens of a text are taken one after the other by a machine whose stack holds the arrays and
objects that are still open. Nesting may therefore be as deep as the text makes it, and reading is a
fold over the tokens.
-/

namespace Cambist.Json

/-! ### The machine -/

/-- An open array or object, with what it holds so far in reverse order. The value that an object
waits for belongs to a key. -/
inductive Frame where
  | array (items : List Json)
  | object (members : List (Option String × Json)) (key : Option String)

/-- What the text has come to. -/
inductive Progress where
  /-- A value must follow. -/
  | value (stack : List Frame)
  /-- An array has just been opened. -/
  | firstItem (stack : List Frame)
  /-- An object has just been opened. -/
  | firstKey (stack : List Frame)
  /-- The key of another member must follow. -/
  | nextKey (members : List (Option String × Json)) (stack : List Frame)
  /-- A colon must follow. -/
  | colon (members : List (Option String × Json)) (key : Option String) (stack : List Frame)
  /-- A value is complete. -/
  | done (value : Json) (stack : List Frame)

namespace Progress

/-- Takes the first token of a value. -/
def startValue (stack : List Frame) : Token → Option Progress
  | .null        => some (.done .null stack)
  | .bool b      => some (.done (.bool b) stack)
  | .number n    => some (.done (.number n) stack)
  | .text s      => some (.done (.text s) stack)
  | .openBracket => some (.firstItem stack)
  | .openBrace   => some (.firstKey stack)
  | _            => none

/-- Takes the token behind a value that is complete. -/
def continueFrom (v : Json) : List Frame → Token → Option Progress
  | .array items :: stack, .comma        => some (.value (.array (v :: items) :: stack))
  | .array items :: stack, .closeBracket => some (.done (.array (v :: items).reverse) stack)
  | .object ms key :: stack, .comma      => some (.nextKey ((key, v) :: ms) stack)
  | .object ms key :: stack, .closeBrace => some (.done (.object ((key, v) :: ms).reverse) stack)
  | _, _ => none

/-- Takes a token. -/
def step : Progress → Token → Option Progress
  | value stack, t                 => startValue stack t
  | firstItem stack, .closeBracket => some (.done (.array []) stack)
  | firstItem stack, t             => startValue (.array [] :: stack) t
  | firstKey stack, .closeBrace    => some (.done (.object []) stack)
  | firstKey stack, .text key      => some (.colon [] key stack)
  | nextKey ms stack, .text key    => some (.colon ms key stack)
  | colon ms key stack, .colon     => some (.value (.object ms key :: stack))
  | done v stack, t                => continueFrom v stack t
  | _, _ => none

/-- Takes tokens until one is out of place. -/
def run (p : Progress) (ts : List Token) : Option Progress := ts.foldlM step p

end Progress

/-! ### Reading -/

/-- The value that a list of tokens makes. -/
def ofTokens? (ts : List Token) : Option Json :=
  match Progress.run (.value []) ts with
  | some (.done v []) => some v
  | _ => none

/-- The value that a text holds. -/
def read? (s : String) : Option Json := (Token.tokenize? s).bind ofTokens?

end Cambist.Json
