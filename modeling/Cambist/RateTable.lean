import Std.Data.ExtTreeMap
import Cambist.Amount

/-!
# Rate tables

A rate table says what a unit of one currency costs in another, and which currency a directive
stands for. A rate is given for an ordered pair: a table never turns a rate around and never
chains two of them.

Rates are grouped by the currency they convert from. A currency with no rate at all may still be in
the table; that shows only when two tables are compared.
-/

namespace Cambist

open Std (ExtTreeMap)

/-- Rates between currencies, and the currencies that directives stand for. -/
structure RateTable where
  rates : ExtTreeMap String (ExtTreeMap String Decimal)
  directives : ExtTreeMap String String

namespace RateTable

/-- The table without any rate or directive. -/
def empty : RateTable := ⟨∅, ∅⟩

instance : EmptyCollection RateTable := ⟨empty⟩

instance : Inhabited RateTable := ⟨empty⟩

/-! ### Building a table -/

/-- Sets the rate of an ordered pair of currencies. -/
def withRate (t : RateTable) (source target : String) (rate : Decimal) : RateTable :=
  { t with rates := t.rates.alter source fun row => some ((row.getD ∅).insert target rate) }

/-- Sets the currency that a directive stands for. -/
def withDirective (t : RateTable) (name currency : String) : RateTable :=
  { t with directives := t.directives.insert name currency }

/-! ### Looking up -/

/-- The rate of an ordered pair of currencies. -/
def rate? (t : RateTable) (source target : String) : Option Decimal :=
  t.rates[source]?.bind (·[target]?)

/-- The currency that a directive stands for. -/
def resolve? (t : RateTable) (name : String) : Option String := t.directives[name]?

/-- All rates, in the order of their currencies. -/
def entries (t : RateTable) : List (String × String × Decimal) :=
  t.rates.toList.flatMap fun (source, row) =>
    row.toList.map fun (target, rate) => (source, target, rate)

/-- The number of directives. -/
def directiveCount (t : RateTable) : Nat := t.directives.size

/-- Do two tables have the same currencies, the same rates as numbers and the same directives? -/
def equals (t u : RateTable) : Bool := numbers t = numbers u && t.directives = u.directives
where
  /-- The rates as rational numbers, row by row. -/
  numbers (t : RateTable) : List (String × List (String × Rat)) :=
    t.rates.toList.map fun (source, row) =>
      (source, row.toList.map fun (target, rate) => (target, rate.toRat))

/-- A rate that was set is found for its own pair of currencies only. -/
theorem rate?_withRate (t : RateTable) (source target a b : String) (rate : Decimal) :
    (t.withRate source target rate).rate? a b =
      if source = a ∧ target = b then some rate else t.rate? a b := by
  simp only [rate?, withRate, ExtTreeMap.getElem?_alter]
  by_cases hs : source = a
  · subst hs
    by_cases ht : target = b
    · simp [ht]
    · cases h : t.rates[source]? with
      | none => simp [ht]
      | some row => simp [ht, ExtTreeMap.getElem?_insert]
  · simp [hs]

/-! ### Converting -/

/-- The rate of an ordered pair of currencies, or the error that there is none. -/
def rate (t : RateTable) (source target : String) : Except EvaluationError Decimal :=
  match t.rate? source target with
  | some r => .ok r
  | none   => .error (.missingRate source target)

/-- An amount in another currency. In its own currency it stays as it is, whatever the table says.
The sign stays unless the rate is negative. -/
def convert (t : RateTable) (a : Amount) (target : String) : Except EvaluationError Amount :=
  if a.currency = target then .ok a
  else do
    let r ← t.rate a.currency target
    let units : Decimal := ⟨.plus, a.magnitude⟩
    match units.mul? r with
    | some product => return .signed a.sign product target
    | none         => throw (.overflow (.product units r))

end RateTable

end Cambist
