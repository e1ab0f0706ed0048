import Cambist.Sign

/-!
# JSON values

Values as their text gives them. A number stays a numeral, since what it comes to depends on what
it is read as. A string may hold an escape for half of a surrogate pair without the other half; it
then stands for no text.
-/

namespace Cambist

/-- A number as it is written: `-12.50e3` has the digits `12` and `50` and the exponent 3. Without a
fraction or an exponent there is none, which is not the same as an empty fraction. -/
structure Json.Numeral where
  sign : Sign
  whole : List Char
  fraction : Option (List Char)
  exponent : Option Int
deriving DecidableEq

/-- A JSON value. -/
inductive Json where
  | null
  | bool (value : Bool)
  | number (numeral : Json.Numeral)
  | text (value : Option String)
  | array (items : List Json)
  | object (members : List (Option String × Json))

namespace Json

/-- The members of an object that are read one by one, each with its key. There are none if the
value is no object, if a key is no text or if a member cannot be read. -/
def members? {α : Type} (read : Json → Option α) : Json → Option (List (String × α))
  | object ms => ms.mapM fun (key, value) => do return (← key, ← read value)
  | _ => none

/-- The text of a string. -/
def text? : Json → Option String
  | text value => value
  | _ => none

end Json

end Cambist
