import Cambist.Decimal.Basic

/-!
# Requests

What a line such as `usd: 10EUR + $5 - 3GBP to_eur` asks for: a directive in front, which settles
the currency of the answer, and a sum of terms. A term is an amount with a sign, and it may end in
a directive of its own, by which it is converted first. Nodes keep the positions that messages
need.
-/

namespace Cambist

/-- A conversion directive and the place where it is written. -/
structure Directive where
  name : String
  position : Nat
deriving DecidableEq

/-- A number and the currency written next to it, on either side. -/
structure Literal where
  value : Decimal
  currency : String
deriving DecidableEq

/-- A literal with its sign, a plus if none is written. The position is that of the sign, or of the
literal if there is none. -/
structure Entry where
  sign : Sign
  literal : Literal
  position : Nat
deriving DecidableEq

/-- An entry, with the directive that it ends in if there is one. -/
structure Term where
  entry : Entry
  conversion : Option Directive
deriving DecidableEq

/-- A sum of one term or more. -/
structure Expression where
  first : Term
  rest : List Term
deriving DecidableEq

namespace Expression

/-- The terms in the order in which they are written. -/
def terms (e : Expression) : List Term := e.first :: e.rest

@[simp] theorem terms_ne_nil (e : Expression) : e.terms ≠ [] := by simp [terms]

end Expression

/-- A line that has been understood. -/
structure Request where
  target : Directive
  expression : Expression
deriving DecidableEq

end Cambist
