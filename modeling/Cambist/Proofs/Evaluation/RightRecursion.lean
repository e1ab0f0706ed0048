import Cambist.Evaluation
import Mathlib.Tactic.Common

/-!
# Evaluating from the right

An expression is evaluated in two passes: all terms are settled from left to right, and only then
are their amounts added, from right to left. The same can be said by one recursion without a list
of settled amounts: settle the first term, evaluate the others, add the two. The passes and the
recursion do the same to every context, also when they fail on the way.
-/

namespace Cambist.Evaluation

/-- Settles a term, evaluates the terms behind it in the same way, and adds the two results. A last
term is only settled. -/
def recursiveSum : Term → List Term → Evaluation Amount
  | t, [] => do convertToTarget (← term t)
  | t, next :: ts => do
    let left ← convertToTarget (← term t)
    let right ← recursiveSum next ts
    let total ← ofExcept (left.add right)
    record (.accumulated · left right total)
    return total

lemma recursiveSum_nil (t : Term) : recursiveSum t [] = settle t := rfl

lemma recursiveSum_cons (t next : Term) (ts : List Term) :
    recursiveSum t (next :: ts) = settle t >>= fun left => recursiveSum next ts >>= fun right =>
      ofExcept (left.add right) >>= fun total =>
        record (.accumulated · left right total) >>= fun _ => pure total := by
  simp only [recursiveSum, settle, bind_assoc]

@[simp] lemma addUp_nil (total : Amount) : addUp total [] = pure total := rfl

/-- The amounts that wait to the left are added after everything that the recursion adds. -/
lemma settle_bind_sum (t : Term) (ts : List Term) (others : List Amount) :
    (settle t >>= fun a => sum a others ts) =
      recursiveSum t ts >>= fun total => addUp total others := by
  induction ts generalizing t others with
  | nil => rfl
  | cons next ts ih =>
    calc (settle t >>= fun a => sum a others (next :: ts))
        = settle t >>= fun a => settle next >>= fun b => sum b (a :: others) ts := rfl
      _ = settle t >>= fun a =>
            recursiveSum next ts >>= fun total => addUp total (a :: others) := by
        simp only [ih]
      _ = recursiveSum t (next :: ts) >>= fun total => addUp total others := by
        simp only [recursiveSum_cons, addUp, bind_assoc, pure_bind]

/-- At the start no amounts wait, so an expression is evaluated by the recursion. -/
lemma expression_eq_recursiveSum (e : Expression) :
    expression e = recursiveSum e.first e.rest := by
  rw [expression, settle_bind_sum]
  simp only [addUp_nil, bind_pure]

/-- The two passes have the outcome of the recursion and leave the context that it leaves. -/
theorem expression_apply_eq_recursiveSum (e : Expression) (c : Context) :
    expression e c = recursiveSum e.first e.rest c := by
  calc expression e c
      = (settle e.first >>= fun a => sum a [] e.rest) c := rfl
    _ = (recursiveSum e.first e.rest >>= fun total => addUp total []) c := by
      rw [settle_bind_sum]
    _ = recursiveSum e.first e.rest c := by
      simp only [addUp_nil, bind_pure]

end Cambist.Evaluation
