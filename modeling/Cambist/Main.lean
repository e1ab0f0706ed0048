import Cambist.CommandLine

/-!
# The program

Carries out at a terminal what `CommandLine.run` does on given surroundings. Both launch the program
alike, and a session takes the turns that `Session.run` takes, one line at a time. The log goes to
standard error.
-/

open Cambist

/-- The bytes of a file. -/
def readFile (path : String) : IO (Except ReadError (List UInt8)) := do
  try
    let bytes ← IO.FS.readBinFile path
    return .ok bytes.data.toList
  catch _ => return .error .notFound

/-- The bytes of the next line of the input, behind those that are `taken` already, in reverse
order. There are none at the end. -/
partial def readLine (input : IO.FS.Stream) (taken : List UInt8) : IO (Option (List UInt8)) := do
  match (← input.read 1).data.toList with
  | [] => return if taken.isEmpty then none else some taken.reverse
  | b :: _ => if b = lineFeed then return some taken.reverse else readLine input (b :: taken)

/-- Prints a report and gives its exit code. -/
def deliver (r : CommandLine.Report) : IO UInt32 := do
  IO.print r.output
  if let some e := r.error then IO.eprintln e
  return r.exitCode

/-- Logs the steps of a computation. -/
def logSteps (c : Computation) : IO Unit := do
  for s in c.steps do IO.eprintln ("DEBUG " ++ s.text)

/-- Takes one turn after the other until the session is over. -/
partial def converse (t : RateTable) (verbose : Bool) : IO UInt32 := do
  IO.print Session.prompt
  (← IO.getStdout).flush
  let next := Session.turn t (← readLine (← IO.getStdin) [])
  if verbose then next.computation?.forM logSteps
  if let some e := next.event? then
    IO.eprintln (e.level.text ++ " " ++ e.line ++ ": " ++ e.message)
  IO.print next.text
  match next with
  | .reply _       => converse t verbose
  | .ended failure => deliver (.ofTranscript { failure })

/-- Runs the program with the arguments of the command line. -/
def main (args : List String) : IO UInt32 := do
  match ← CommandLine.launch readFile (← IO.getEnv CommandLine.pathVariable) args with
  | .finished logged report =>
    logged.forM logSteps
    deliver report
  | .session t verbose => converse t verbose
