/-!
# Command line arguments

The program takes an option for the settings file, a flag, and at most one expression. Options may
stand anywhere, short ones may be joined (`-vc FILE`), and a value may be attached (`-cFILE`,
`-c=FILE`, `--config=FILE`). After `--` everything is an expression.

Arguments are read from left to right; the first mistake ends the reading, and so does a request for
the version or for help.
-/

namespace Cambist.CommandLine

/-- What the arguments have said so far. -/
structure Arguments where
  settings : Option String := none
  verbose : Bool := false
  expression : Option String := none
deriving DecidableEq

/-- What ends the reading of arguments. -/
inductive Stop where
  | version
  | help
  /-- The arguments make no sense. -/
  | usage
deriving DecidableEq

namespace Arguments

/-! ### Single arguments -/

/-- Names the settings file. The name must not be empty, and it must not have been given before. -/
def setSettings (a : Arguments) (path : String) : Except Stop Arguments :=
  if a.settings.isSome || path.isEmpty then .error .usage
  else .ok { a with settings := some path }

/-- Asks for a log of every step. The flag must not have been given before. -/
def setVerbose (a : Arguments) : Except Stop Arguments :=
  if a.verbose then .error .usage else .ok { a with verbose := true }

/-- Gives the expression. There must be only one. -/
def setExpression (a : Arguments) (s : String) : Except Stop Arguments :=
  if a.expression.isSome then .error .usage else .ok { a with expression := some s }

/-- Does this argument start an option? A single hyphen does not. -/
def startsOption (s : String) : Bool :=
  match s.toList with
  | '-' :: _ :: _ => true
  | _ => false

/-- How the next argument is to be read: by itself, or as the name of the settings file. -/
inductive Next where
  | argument
  | path
deriving DecidableEq

/-- Reads short options that are joined behind one hyphen. -/
def readShort (a : Arguments) : List Char → Except Stop (Arguments × Next)
  | [] => .ok (a, .argument)
  | 'v' :: cs => do readShort (← a.setVerbose) cs
  | 'V' :: _ => .error .version
  | 'h' :: _ => .error .help
  | ['c'] => .ok (a, .path)
  | 'c' :: '=' :: cs => do return (← a.setSettings (.ofList cs), .argument)
  | 'c' :: cs => do return (← a.setSettings (.ofList cs), .argument)
  | _ => .error .usage

/-- Reads a long option without its hyphens. -/
def readLong (a : Arguments) (cs : List Char) : Except Stop (Arguments × Next) :=
  let name := cs.takeWhile (· ≠ '=')
  match String.ofList name, cs.dropWhile (· ≠ '=') with
  | "config", []         => .ok (a, .path)
  | "config", _ :: value => do return (← a.setSettings (.ofList value), .argument)
  | "verbose", []        => do return (← a.setVerbose, .argument)
  | "version", []        => .error .version
  | "help", []           => .error .help
  | _, _                 => .error .usage

/-! ### All arguments -/

/-- Reads arguments of which none is an option. -/
def readExpressions (a : Arguments) : List String → Except Stop Arguments
  | [] => .ok a
  | s :: rest => do readExpressions (← a.setExpression s) rest

/-- Reads arguments from left to right, the first of which may be the name of the settings file. -/
def readAll (a : Arguments) : Next → List String → Except Stop Arguments
  | .argument, [] => .ok a
  | .path, [] => .error .usage
  | .path, s :: rest =>
    if startsOption s then .error .usage
    else do readAll (← a.setSettings s) .argument rest
  | .argument, s :: rest =>
    match s.toList with
    | ['-', '-'] => readExpressions a rest
    | '-' :: '-' :: cs => do
      let (a, next) ← readLong a cs
      readAll a next rest
    | '-' :: c :: cs => do
      let (a, next) ← readShort a (c :: cs)
      readAll a next rest
    | _ => do readAll (← a.setExpression s) .argument rest

/-- Reads a whole command line. -/
def read (args : List String) : Except Stop Arguments := readAll {} .argument args

end Arguments

end Cambist.CommandLine
