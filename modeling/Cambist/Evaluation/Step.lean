import Cambist.Amount

/-!
# Steps

The account of an evaluation is a list of steps, each with its place in the list: an amount was
converted, or two amounts were added.
-/

namespace Cambist

/-- A step of an evaluation. -/
inductive Step where
  | converted (index : Nat) (source target : Amount)
  | accumulated (index : Nat) (left right result : Amount)
deriving DecidableEq

namespace Step

/-- The number of steps before this one. -/
def index : Step → Nat
  | converted i _ _     => i
  | accumulated i _ _ _ => i

/-- A step as the account shows it. -/
def text : Step → String
  | converted i source target =>
    i.repr ++ ":Converted from " ++ source.text ++ " to " ++ target.text ++ "."
  | accumulated i left right result =>
    i.repr ++ ":Result " ++ result.text ++ " from left " ++ left.text ++ " and right " ++
      right.text ++ " tokens."

end Step

end Cambist
