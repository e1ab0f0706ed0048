import Cambist.Computation
import Cambist.Text
import Cambist.Text.Lines

/-!
# Interactive sessions

A session asks for a line, answers it, and asks again until the input ends. A line that has no
answer leaves an event in the log instead: a warning if the line itself is at fault, an error if
the table cannot answer it. Lines do not depend on each other.
-/

namespace Cambist

namespace Session

/-- The text in front of every line. -/
def prompt : String := "Enter expression: "

/-- How serious an event is. -/
inductive Level where
  | warn
  | error
deriving DecidableEq

/-- The name of a level in the log. -/
def Level.text : Level → String
  | warn  => "WARN"
  | error => "ERROR"

/-- A line without an answer, and why it has none. -/
structure Event where
  level : Level
  line : String
  message : String
deriving DecidableEq

/-- How serious a failure is. It is the fault of the line if that is no request, or converts an
amount that needs no conversion. -/
def level : Failure → Level
  | .syntactic _                       => .warn
  | .evaluation (.selfConversion _ _)  => .warn
  | .evaluation _                      => .error

/-! ### Answering a line -/

/-- What a line leads to. -/
inductive Reply where
  | silence
  | answer (line : String) (computation : Computation)
  | log (event : Event)
deriving DecidableEq

/-- Answers a line, leaving out the white space around it. A blank line leads to nothing. -/
def respond (t : RateTable) (line : String) : Reply :=
  let line := trim line
  if line.isEmpty then .silence
  else
    match t.compute line with
    | .ok c    => .answer line c
    | .error e => .log ⟨level e, line, e.message⟩

/-! ### Turns -/

/-- What follows a prompt: what a line leads to, or the end of the session, with the reason if it
breaks off. -/
inductive Turn where
  | reply (reply : Reply)
  | ended (failure : Option ReadError)
deriving DecidableEq

/-- Takes a turn with a line, or with the end of the input. A line that is no text ends the session.
-/
def turn (t : RateTable) : Option (List UInt8) → Turn
  | none => .ended none
  | some bytes =>
    match decodeUtf8? bytes with
    | some line => .reply (respond t line)
    | none      => .ended (some .notUtf8)

namespace Turn

/-- What a turn writes behind its prompt. -/
def text : Turn → String
  | reply (.answer line c) => line ++ " = " ++ c.answer.text ++ ".\n"
  | reply _                => ""
  | ended none             => "\n"
  | ended (some _)         => ""

/-- The event that a turn leaves in the log. -/
def event? : Turn → Option Event
  | reply (.log e) => some e
  | _              => none

/-- The computation that a turn is about. -/
def computation? : Turn → Option Computation
  | reply (.answer _ c) => some c
  | _                   => none

end Turn

/-! ### Whole sessions -/

/-- What a session has written and logged, and the reason if it broke off. -/
structure Transcript where
  output : String := ""
  events : Array Event := #[]
  failure : Option ReadError := none
deriving DecidableEq

namespace Transcript

/-- Adds a prompt and the turn behind it. -/
def add (t : Transcript) (next : Turn) : Transcript where
  output := t.output ++ prompt ++ next.text
  events := t.events ++ next.event?.toArray
  failure :=
    match next with
    | .reply _       => t.failure
    | .ended failure => failure

end Transcript

/-- Goes on with the lines that are left, turn by turn until the session is over. -/
def continueWith (t : RateTable) (done : Transcript) : List (List UInt8) → Transcript
  | [] => done.add (turn t none)
  | bytes :: rest =>
    match turn t (some bytes) with
    | .reply r       => continueWith t (done.add (.reply r)) rest
    | .ended failure => done.add (.ended failure)

/-- Runs a session on its whole input. -/
def run (t : RateTable) (input : List UInt8) : Transcript := continueWith t {} (lines input)

end Session

end Cambist
