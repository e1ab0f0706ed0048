import Cambist.Proofs.Decimal.Value
import Cambist.Proofs.Evaluation.Outcome

/-!
# The steps behind an answer

The steps of a computation explain its answer without a gap: they are the changes of currency of all
terms, term by term, and then the additions, from right to left, each of which takes up the result
of the one before. `Computation.ExplainedBy` says so place by place, and `explainedBy_of_compute`
says it of every line that has an answer.
-/

namespace Cambist

variable {t : RateTable} {target : String} {xs : List Term} {routes : List Route}
  {additions : List Addition} {total : Amount} {comp : Computation}

/-- The steps of a computation are the changes of currency on the routes of some terms followed by
some additions, and explain its answer. -/
structure Computation.ExplainedBy (t : RateTable) (target : String) (xs : List Term)
    (routes : List Route) (additions : List Addition) (total : Amount) (comp : Computation) :
    Prop where
  takes : List.Forall₂ (Term.Takes t target) xs routes
  reached : List.Forall₂
    (fun x r => ∀ d ∈ x.conversion, t.resolve? d.name = some r.reached.currency) xs routes
  steps : comp.steps.toList =
    Move.numbered 0 (routes.flatMap Route.moves ++ additions.map Addition.move)
  index : ∀ k (h : k < comp.steps.size), comp.steps[k].index = k
  length : additions.length + 1 = xs.length
  /-- The first addition adds the last settled amount but one, the next ones go on to the left. -/
  left : ∀ j (h : j < additions.length),
    (routes[xs.length - 2 - j]?).map Route.settled = some additions[j].left
  right_zero : ∀ h : 0 < additions.length,
    routes.getLast?.map Route.settled = some additions[0].right
  right_succ : ∀ j (h : j + 1 < additions.length), additions[j + 1].right = additions[j].result
  add_eq : ∀ s ∈ additions, s.left.add s.right = .ok s.result
  currency : ∀ s ∈ additions,
    s.left.currency = target ∧ s.right.currency = target ∧ s.result.currency = target
  /-- The total is the result of the last addition, or the settled amount of the only term. -/
  total_eq : additions.getLast?.map Addition.result = some total ∨
    additions = [] ∧ routes.map Route.settled = [total]
  answer_currency : comp.answer.currency = target
  answer_toRat : comp.answer.value.toRat = total.value.toRat
  /-- Zero is answered without its sign and the digits after its point. -/
  answer_value : comp.answer.value = if total.value.isZero then .zero else total.value

lemma Answer.toRat_ofAmount (a : Amount) : (Answer.ofAmount a).value.toRat = a.value.toRat := by
  by_cases h : a.value.isZero
  · rw [Answer.ofAmount, if_pos h, Decimal.toRat_of_isZero h]
    exact Decimal.toRat_of_isZero rfl
  · rw [Answer.ofAmount, if_neg h]

lemma explainedBy_of_sums (hr : List.Forall₂ (Term.Takes t target) xs routes)
    (hs : Sums (routes.map Route.settled) additions total) :
    Computation.ExplainedBy t target xs routes additions total ⟨.ofAmount total,
      (Move.numbered 0 (routes.flatMap Route.moves ++ additions.map Addition.move)).toArray⟩ where
  takes := hr
  reached := hr.imp fun _ _ h => h.reached.resolve_eq
  steps := rfl
  index k hk := by
    rw [List.getElem_toArray, Move.index_getElem_numbered, Nat.zero_add]
  length := by
    rw [hs.length_additions, List.length_map, hr.length_eq]
  left j hj := by
    rw [hr.length_eq, ← List.getElem?_map, ← hs.left_getElem hj, List.length_map]
  right_zero hpos := by
    rw [← List.getLast?_map, hs.right_getElem_zero hpos]
  right_succ _ hj := hs.right_getElem_succ hj
  add_eq := hs.add_eq_ok
  currency := hs.currency_additions (Term.currency_settled_of_takes hr)
  total_eq := hs.total_eq
  answer_currency := hs.currency_total (Term.currency_settled_of_takes hr)
  answer_toRat := Answer.toRat_ofAmount total
  answer_value := rfl

lemma RateTable.compute_eq_ok_iff {source : String} : t.compute source = .ok comp ↔
    ∃ r, Request.parse source = .ok r ∧ t.evaluate r = .ok comp := by
  rw [compute]
  cases Request.parse source with
  | error e => simp
  | ok r => cases h : t.evaluate r <;> simp [h]

lemma exists_ok_of_any {ε α : Type} {x : Except ε α} {p : α → Bool}
    (h : x.toOption.any p = true) : ∃ a, x = .ok a ∧ p a = true := by
  cases x with
  | error e => cases h
  | ok a => exact ⟨a, rfl, h⟩

/-- A line with an answer is a request, its first directive stands for the currency of the answer,
and the steps of the answer explain it. -/
theorem explainedBy_of_compute {source : String} (h : t.compute source = .ok comp) :
    ∃ r target routes additions total, Request.parse source = .ok r ∧
      t.resolve? r.target.name = some target ∧
      comp.ExplainedBy t target r.expression.terms routes additions total := by
  obtain ⟨r, hparse, heval⟩ := RateTable.compute_eq_ok_iff.mp h
  cases Evaluation.request_eq_ok_iff.mp heval with
  | intro hT hr hs => exact ⟨r, _, _, _, _, hparse, hT, explainedBy_of_sums hr hs⟩

/-- A table with two rates, for examples. -/
def RateTable.sample : RateTable :=
  (((empty.withRate "EUR" "USD" ⟨.plus, 9, 1, by decide, by decide⟩).withRate "RUB" "EUR"
    ⟨.plus, 1, 2, by decide, by decide⟩).withDirective "usd" "USD").withDirective "eur" "EUR"

/-- Three terms, with a detour through another currency and a directive that converts nothing. -/
theorem explainedBy_of_compute_sample :
    ∃ comp, RateTable.sample.compute "usd: 300RUB eur + 1USD - 2EUR eur" = .ok comp ∧
      comp.answer = ⟨.ofUnits 1900 3, "USD"⟩ ∧ comp.steps.size = 5 ∧
      comp.steps[0]? = some (.converted 0 ⟨.ofUnits 300 0, "RUB"⟩ ⟨.ofUnits 300 2, "EUR"⟩) ∧
      comp.steps[4]? = some (.accumulated 4 ⟨.ofUnits 2700 3, "USD"⟩ ⟨-.ofUnits 8 1, "USD"⟩
        ⟨.ofUnits 1900 3, "USD"⟩) ∧
      ∃ r target routes additions total,
        Request.parse "usd: 300RUB eur + 1USD - 2EUR eur" = .ok r ∧
        RateTable.sample.resolve? r.target.name = some target ∧
        comp.ExplainedBy RateTable.sample target r.expression.terms routes additions total := by
  have hany : (RateTable.sample.compute "usd: 300RUB eur + 1USD - 2EUR eur").toOption.any
      (fun comp => comp.answer = ⟨.ofUnits 1900 3, "USD"⟩ ∧ comp.steps.size = 5 ∧
        comp.steps[0]? = some (.converted 0 ⟨.ofUnits 300 0, "RUB"⟩ ⟨.ofUnits 300 2, "EUR"⟩) ∧
        comp.steps[4]? = some (.accumulated 4 ⟨.ofUnits 2700 3, "USD"⟩ ⟨-.ofUnits 8 1, "USD"⟩
          ⟨.ofUnits 1900 3, "USD"⟩)) = true := by
    decide +kernel
  obtain ⟨comp, h, hpinned⟩ := exists_ok_of_any hany
  obtain ⟨hanswer, hsize, hfirst, hlast⟩ := of_decide_eq_true hpinned
  exact ⟨comp, h, hanswer, hsize, hfirst, hlast, explainedBy_of_compute h⟩

end Cambist
