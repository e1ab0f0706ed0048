import Cambist.CommandLine.Arguments
import Cambist.CommandLine.Help
import Cambist.Session
import Cambist.Settings

/-!
# The command line

With an expression among the arguments its answer is printed; without one a session is run on
standard input. In both cases the settings are loaded first. Whatever goes wrong with the settings
or the expression is reported in one error text and the exit code 1, arguments that make no sense by
the exit code 2.

`launch` is what the program does before it takes any input, for every way in which files are read.
`run` is the whole program on surroundings that are given.
-/

namespace Cambist.CommandLine

/-- What the program finds around it: the variable that names the settings file, the bytes of files,
and its input. -/
structure Surroundings where
  envPath : Option String
  file : String → Except ReadError (List UInt8)
  input : List UInt8

/-- What the program leaves behind: its exit code, what it printed, and the error text. -/
structure Report where
  exitCode : UInt32
  output : String
  error : Option String
deriving DecidableEq

/-! ### Plans -/

/-- What the arguments ask for. -/
structure Plan where
  path : String
  verbose : Bool
  expression : Option String
deriving DecidableEq

/-- The plan that the arguments give. An option for the settings file wins over the variable, and
the variable over the default; an empty variable is a mistake unless the option is there. -/
def plan (envPath : Option String) (args : List String) : Except Stop Plan := do
  let a ← Arguments.read args
  match a.settings, envPath with
  | some path, _ => return ⟨path, a.verbose, a.expression⟩
  | none, some path =>
    if path.isEmpty then throw .usage else return ⟨path, a.verbose, a.expression⟩
  | none, none => return ⟨defaultPath, a.verbose, a.expression⟩

/-! ### Reports -/

/-- The report of a program that fails. -/
def Report.failure (output message : String) : Report := ⟨1, output, some ("Error: " ++ message)⟩

/-- The report when there is no plan. -/
def Report.ofStop (envPath : Option String) : Stop → Report
  | .version => ⟨0, versionText, none⟩
  | .help    => ⟨0, helpText envPath, none⟩
  | .usage   => ⟨2, "", none⟩

/-- The report on the outcome of a single expression. -/
def Report.ofOutcome : Except Failure Computation → Report
  | .ok c    => ⟨0, c.answer.text ++ "\n", none⟩
  | .error e => .failure "" e.message

/-- The report on a session. -/
def Report.ofTranscript (t : Session.Transcript) : Report :=
  match t.failure with
  | none        => ⟨0, t.output, none⟩
  | some reason => .failure t.output reason.message

/-- The causes of a failure as they stand below its message. Several causes are numbered. -/
def causedBy : List String → String
  | []      => ""
  | [cause] => "\n\nCaused by:\n    " ++ indented 4 cause
  | causes  => "\n\nCaused by:" ++ .join (causes.mapIdx fun i cause =>
      "\n" ++ .ofList (.replicate (5 - i.repr.length) ' ') ++ i.repr ++ ": " ++ indented 7 cause)

/-- The message that settings cannot be loaded, and why. -/
def settingsMessage (path : String) (e : Settings.Error) : String :=
  "Failed to load settings from '" ++ path ++ "'" ++ causedBy e.causes

/-! ### The program -/

/-- What the program comes to before it takes any input: a report, with the computation whose steps
are logged, or a session. -/
inductive Course where
  | finished (logged : Option Computation) (report : Report)
  | session (table : RateTable) (verbose : Bool)

/-- What a plan comes to with the bytes of its settings file. The expression is taken without the
white space around it. -/
def Plan.course (p : Plan) (file : Except ReadError (List UInt8)) : Course :=
  match Settings.load p.path file, p.expression with
  | .error e, _ => .finished none (.failure "" (settingsMessage p.path e))
  | .ok t, some expression =>
    let outcome := t.compute (trim expression)
    .finished (if p.verbose then outcome.toOption else none) (.ofOutcome outcome)
  | .ok t, none => .session t p.verbose

/-- Does what there is to do before any input is taken. -/
def launch {m : Type → Type} [Monad m] (file : String → m (Except ReadError (List UInt8)))
    (envPath : Option String) (args : List String) : m Course :=
  match plan envPath args with
  | .error stop => return .finished none (.ofStop envPath stop)
  | .ok p => return p.course (← file p.path)

/-- Runs the program. -/
def run (s : Surroundings) (args : List String) : Report :=
  match (launch (m := Id) s.file s.envPath args).run with
  | .finished _ report => report
  | .session t _       => .ofTranscript (Session.run t s.input)

end Cambist.CommandLine
