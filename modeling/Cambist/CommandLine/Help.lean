import Cambist.Text
import Cambist.Text.Terminal

/-!
# What the program says about itself

The help names every option with its description. It is written for a terminal and printed plain.
The description of the option for the settings file shows the variable as it is set, whatever that
is: its lines are indented, and what a terminal would not show is not printed.
-/

namespace Cambist.CommandLine

open Terminal

/-! ### Names -/

/-- The settings file if none is named. -/
def defaultPath : String := "app.settings.json"

/-- The name of the variable that names the settings file. -/
def pathVariable : String := "FXCALC_CONFIG"

/-! ### Texts -/

/-- The answer to a request for the version. -/
def versionText : String := "fxcalc 0.1.0\n"

/-- The column in which the descriptions of the options start. -/
def descriptionColumn : Nat := 25

/-- The entry of an option: its names, what follows them, and its description. -/
def optionEntry (short long value description : String) : String :=
  let width := 2 + short.length + 2 + long.length + value.length
  "  " ++ bold short ++ ", " ++ bold long ++ value ++
    .ofList (.replicate (descriptionColumn - width) ' ') ++
    indented descriptionColumn description ++ "\n"

/-- The help with its styles. -/
def styledHelp (envPath : Option String) : String :=
  "Evaluates signed multi-currency expressions and normalizes them to one target currency\n\n" ++
  underlined "Usage:" ++ " " ++ bold "fxcalc" ++ " [OPTIONS] [EXPRESSION]\n\n" ++
  underlined "Arguments:" ++ "\n" ++
  "  [EXPRESSION]  Expression to evaluate, e.g. `usd: 10USD + 5EUR`. Starts an interactive " ++
  "session when omitted\n\n" ++
  underlined "Options:" ++ "\n" ++
  optionEntry "-c" "--config" " <CONFIG>"
    ("JSON settings file holding the rates and directives [env: " ++ pathVariable ++ "=" ++
      envPath.getD "" ++ "] [default: " ++ defaultPath ++ "]") ++
  optionEntry "-v" "--verbose" "" "Logs every conversion and accumulation step" ++
  optionEntry "-h" "--help" "" "Print help" ++
  optionEntry "-V" "--version" "" "Print version"

/-- The answer to a request for help. -/
def helpText (envPath : Option String) : String := plain (styledHelp envPath)

end Cambist.CommandLine
