import Cambist.CommandLine
import Cambist.Proofs.Session
import Cambist.Proofs.Settings
import Cambist.Proofs.Text.Encoding

/-!
# One expression, two ways to ask

An expression can be given among the arguments, or it can be the only line of a session. Both ways
read the settings and compute the trimmed expression alike. They differ in what they make of it: a
session prints an answer with its line between two prompts, and it does not fail with an expression
that has no answer.
-/

namespace Cambist

/-! ### Arguments -/

namespace CommandLine.Arguments

variable {opts : List String}

end CommandLine.Arguments

/-! ### Settings -/

namespace Session

variable {t : RateTable} {line text : String} {added : List Event}

end Session

/-! ### Runs -/

namespace CommandLine

variable {s : Surroundings} {args opts : List String} {envPath : Option String}
  {path text : String} {verbose : Bool} {expression : Option String} {t : RateTable}

open Session (prompt)

/-- A directory whose files all have the same text, for examples. -/
def Surroundings.sample (text : String) : Surroundings := ⟨none, fun _ => .ok (encodeUtf8 text), []⟩

end CommandLine

end Cambist
