import Cambist.Evaluation
import Cambist.Request.Parser

/-!
# Computing a line

The way from the text of a line to its answer: tokens, request, evaluation. Each stage can fail, and
the first failure is the outcome.
-/

namespace Cambist

/-- Why a line has no answer. -/
inductive Failure where
  | syntactic (error : SyntaxError)
  | evaluation (error : EvaluationError)
deriving DecidableEq

/-- The message of a failure. -/
def Failure.message : Failure → String
  | syntactic e  => e.message
  | evaluation e => e.message

/-- Evaluates a request against a table. -/
def RateTable.evaluate (t : RateTable) (r : Request) : Except EvaluationError Computation :=
  (Evaluation.request r { table := t }).1

/-- Computes the answer to a line. -/
def RateTable.compute (t : RateTable) (source : String) : Except Failure Computation :=
  match Request.parse source with
  | .error e => .error (.syntactic e)
  | .ok r    =>
    match t.evaluate r with
    | .error e => .error (.evaluation e)
    | .ok c    => .ok c

end Cambist
