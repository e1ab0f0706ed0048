import Cambist.Evaluation.Step
import Cambist.RateTable
import Cambist.Request

/-!
# Evaluating a request

The directive in front of a request settles the target, the currency of the answer. Then every
term, from left to right, is converted by its own directive if it has one, and to the target; a
term already in the target currency must not have a directive. Only when all terms are converted
are they added, from right to left.

An evaluation keeps its state in a context. When it fails, the steps recorded until then stay.
-/

namespace Cambist

/-! ### Contexts and answers -/

/-- The state of an evaluation: its rates, the currency of the answer once it is settled, and the
steps so far. -/
structure Context where
  table : RateTable
  target : Option String := none
  steps : Array Step := #[]

/-- What a request comes to: a value in the target currency. -/
structure Answer where
  value : Decimal
  currency : String
deriving DecidableEq

namespace Answer

/-- The answer that an amount gives. Zero is written without a sign or digits after the point. -/
def ofAmount (a : Amount) : Answer :=
  ⟨if a.value.isZero then .zero else a.value, a.currency⟩

/-- An answer as it is shown. -/
def text (a : Answer) : String := a.value.text ++ "," ++ a.currency

end Answer

/-- An answer with the steps that led to it. -/
structure Computation where
  answer : Answer
  steps : Array Step
deriving DecidableEq

/-- An entry as an amount. -/
def Entry.amount (e : Entry) : Amount := .signed e.sign e.literal.value e.literal.currency

/-- Evaluations change a context, also when they fail. -/
abbrev Evaluation (α : Type) := ExceptT EvaluationError (StateM Context) α

namespace Evaluation

/-! ### Conversions -/

/-- Goes on with a result or fails with an error. -/
def ofExcept {α : Type} : Except EvaluationError α → Evaluation α
  | .ok a    => pure a
  | .error e => throw e

/-- Records a step at the end of the account. -/
def record (step : Nat → Step) : Evaluation Unit :=
  modify fun c => { c with steps := c.steps.push (step c.steps.size) }

/-- The currency of the answer. -/
def target : Evaluation String := do
  match (← get).target with
  | some currency => return currency
  | none => throw .missingTarget

/-- Settles the currency of the answer without a directive. -/
def setTarget (currency : String) : Evaluation Unit :=
  modify fun c => { c with target := some currency }

/-- The currency that a directive stands for. -/
def resolve (d : Directive) : Evaluation String := do
  match (← get).table.resolve? d.name with
  | some currency => return currency
  | none => throw (.unknownDirective d.name d.position)

/-- Converts an amount. There is no step if it is in that currency already. -/
def convert (a : Amount) (currency : String) : Evaluation Amount := do
  if a.currency = currency then
    return a
  else
    let converted ← ofExcept ((← get).table.convert a currency)
    record (.converted · a converted)
    return converted

/-- Converts an amount to the currency of the answer. -/
def convertToTarget (a : Amount) : Evaluation Amount := do convert a (← target)

/-- Converts an entry by a directive of its own. -/
def convertible (e : Entry) (d : Directive) : Evaluation Amount := do
  if e.amount.currency = (← target) then
    throw (.selfConversion e.amount.currency e.position)
  else
    convert e.amount (← resolve d)

/-! ### Terms and sums -/

/-- Evaluates a term in the currency that it comes to by itself. -/
def term (t : Term) : Evaluation Amount :=
  match t.conversion with
  | none   => return t.entry.amount
  | some d => convertible t.entry d

/-- Evaluates a term in the currency of the answer. -/
def settle (t : Term) : Evaluation Amount := do convertToTarget (← term t)

/-- Adds amounts to a total, one after the other, each to the left of the total so far. -/
def addUp (total : Amount) : List Amount → Evaluation Amount
  | [] => return total
  | left :: lefts => do
    let sum ← ofExcept (left.add total)
    record (.accumulated · left total sum)
    addUp sum lefts

/-- Evaluates the terms that are left, and then adds everything up. The amounts of the terms before
are given as the last of them and the others in reverse order. -/
def sum (last : Amount) (others : List Amount) : List Term → Evaluation Amount
  | [] => addUp last others
  | t :: ts => do sum (← settle t) (last :: others) ts

/-- Evaluates an expression in the currency of the answer. -/
def expression (e : Expression) : Evaluation Amount := do sum (← settle e.first) [] e.rest

/-! ### Requests -/

/-- Evaluates a request from the start, forgetting the target and the steps that the context held.
The steps of a successful evaluation move into its result. -/
def request (r : Request) : Evaluation Computation := do
  modify fun c => { c with target := none, steps := #[] }
  let currency ← resolve r.target
  modify fun c => { c with target := some currency }
  let total ← expression r.expression
  let steps ← modifyGet fun c => (c.steps, { c with steps := #[] })
  return ⟨.ofAmount total, steps⟩

end Evaluation

end Cambist
