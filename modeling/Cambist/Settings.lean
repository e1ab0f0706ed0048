import Cambist.Json.Numeral
import Cambist.Json.Reader
import Cambist.RateTable
import Cambist.Text.Lines

/-!
# Settings

A rate table is written as a JSON object with two fields: the rates, as an object of objects of
decimals, and the currencies of directives, as an object of strings. Either may be missing, and
other fields are passed over. The two fields may also stand in an array, in this order.

A settings text is accepted only if all of its rates are positive.
-/

namespace Cambist

open Std (ExtTreeMap)

namespace Settings

/-! ### From JSON to a table -/

/-- The field of the rates. -/
def ratesField : String := "conversionCosts"

/-- The field of the currencies that directives stand for. -/
def directivesField : String := "conversionToCurrencyConventions"

/-- An object as a map. Of members with the same key the last one counts. -/
def map? {α : Type} (read : Json → Option α) (j : Json) : Option (ExtTreeMap String α) :=
  (j.members? read).map fun ms => .ofList ms

/-- The rates that a value holds. -/
def rates? : Json → Option (ExtTreeMap String (ExtTreeMap String Decimal)) :=
  map? (map? Json.decimal?)

/-- The currencies of directives that a value holds. -/
def directives? : Json → Option (ExtTreeMap String String) := map? Json.text?

/-- The value of a field, which may be missing but must not occur twice. -/
def field? (name : String) (ms : List (String × Json)) : Option (Option Json) :=
  match ms.filter (·.1 = name) with
  | []       => some none
  | [(_, j)] => some (some j)
  | _        => none

/-- The table of two fields, either of which may be missing. -/
def ofFields? (rates directives : Option Json) : Option RateTable := do
  return ⟨← rates.elim (some ∅) rates?, ← directives.elim (some ∅) directives?⟩

/-- The table that a value holds. -/
def table? : Json → Option RateTable
  | .array []                  => ofFields? none none
  | .array [rates]             => ofFields? (some rates) none
  | .array [rates, directives] => ofFields? (some rates) (some directives)
  | j => do
    let ms ← j.members? some
    ofFields? (← field? ratesField ms) (← field? directivesField ms)

/-! ### Errors -/

/-- Why settings are not accepted. -/
inductive Error where
  | unreadable (path : String) (reason : ReadError)
  /-- The text is no JSON or does not have the form of settings. -/
  | malformed
  | nonPositiveRate (source target : String) (rate : Decimal)
deriving DecidableEq

/-- The message of a settings error. -/
def Error.message : Error → String
  | unreadable path reason => "Failed to read settings file '" ++ path ++ "': " ++ reason.message
  | malformed => "Malformed settings"
  | nonPositiveRate s t r =>
    "Rate from " ++ s ++ " to " ++ t ++ " must be positive, found " ++ r.text

/-- The texts of an error and of what lies behind it. The reader of JSON gives no reason. -/
def Error.causes : Error → List String
  | unreadable path reason => [message (unreadable path reason), reason.message]
  | e                      => [e.message]

/-! ### Reading settings -/

/-- The table itself, if all its rates are positive. -/
def validate (t : RateTable) : Except Error RateTable :=
  match t.entries.find? fun (_, _, rate) => !rate.isPositive with
  | some (source, target, rate) => .error (.nonPositiveRate source target rate)
  | none => .ok t

/-- The table that a settings text holds. -/
def read (s : String) : Except Error RateTable :=
  match (Json.read? s).bind table? with
  | some t => validate t
  | none   => .error .malformed

/-- The table of the settings file at a path, given the bytes of the file or the reason why there
are none. -/
def load (path : String) (file : Except ReadError (List UInt8)) : Except Error RateTable :=
  match file with
  | .error reason => .error (.unreadable path reason)
  | .ok bytes =>
    match decodeUtf8? bytes with
    | some s => read s
    | none   => .error (.unreadable path .notUtf8)

end Settings

end Cambist
