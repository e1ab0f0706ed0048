import Cambist.Computation
import Cambist.Proofs.Evaluation.RightRecursion
import Cambist.Proofs.Evaluation.Route
import Cambist.Proofs.Evaluation.Total
import Mathlib.Data.List.Forall2

/-!
# Outcomes of requests

A request evaluates to a computation, or fails with an error, by rules that do not mention contexts:
`Request.Evaluates` and `Request.Fails`. Every request does one of the two, and the evaluation of a
request, whatever context it starts from, does the same.
-/

namespace Cambist

variable {t : RateTable} {target : String} {x y : Term} {xs before after : List Term}
  {routes : List Route} {additions : List Addition} {total : Amount} {e : EvaluationError}

/-- The move that an addition is. -/
def Addition.move (s : Addition) : Move := .accumulated s.left s.right s.result

lemma Term.currency_settled_of_takes (h : List.Forall₂ (Term.Takes t target) xs routes) :
    ∀ a ∈ routes.map Route.settled, a.currency = target := by
  induction h with
  | nil => simp
  | cons hr _ ih => exact List.forall_mem_cons.mpr ⟨hr.currency_settled, ih⟩

/-! ### Expressions -/

namespace Evaluation

variable {c c' : Context}

lemma recursiveSum_of_sums (hT : c.target = some target)
    (hr : List.Forall₂ (Term.Takes c.table target) (x :: xs) routes)
    (hs : Sums (routes.map Route.settled) additions total) :
    recursiveSum x xs c =
      (.ok total, c.log (routes.flatMap Route.moves ++ additions.map Addition.move)) := by
  induction xs generalizing x c routes additions total with
  | nil =>
    obtain ⟨r, rs, hx, hnil, rfl⟩ := List.forall₂_cons_left_iff.mp hr
    rw [List.forall₂_nil_left_iff.mp hnil] at hs ⊢
    obtain ⟨rfl, rfl⟩ := Sums.singleton_iff.mp hs
    rw [recursiveSum_nil, settle_of_takes hT hx]
    simp
  | cons next xs ih =>
    obtain ⟨r, rs, hx, hrs, rfl⟩ := List.forall₂_cons_left_iff.mp hr
    have hne : rs.map Route.settled ≠ [] := by
      cases hrs
      simp
    obtain ⟨others, right, hsum, hadd, rfl⟩ := (Sums.cons_iff hne).mp hs
    rw [recursiveSum_cons, bind_of_ok (settle_of_takes hT hx),
      bind_of_ok (ih (c := c.log r.moves) hT hrs hsum), hadd, ofExcept_ok, pure_bind,
      bind_of_ok (record_accumulated ..), pure_apply]
    simp [Addition.move]

/-- The leftmost failing term settles the error, whatever the terms behind it come to. -/
lemma recursiveSum_of_fails (hT : c.target = some target) (heq : x :: xs = before ++ y :: after)
    (hbefore : ∀ z ∈ before, ∃ r, z.Takes c.table target r) (hy : y.Fails c.table target e) :
    ∃ ms, recursiveSum x xs c = (.error e, c.log ms) := by
  induction before generalizing x xs c with
  | nil =>
    cases heq
    obtain ⟨ms, hms⟩ := settle_of_fails hT hy
    refine ⟨ms, ?_⟩
    cases after with
    | nil => exact hms
    | cons next xs => rw [recursiveSum_cons, bind_of_error hms]
  | cons z before ih =>
    obtain ⟨⟨r, hz⟩, hothers⟩ := List.forall_mem_cons.mp hbefore
    cases xs with
    | nil => simp at heq
    | cons next xs =>
      obtain ⟨rfl, hxs⟩ : x = z ∧ next :: xs = before ++ y :: after := by simpa using heq
      obtain ⟨ms, hms⟩ := ih (c := c.log r.moves) hT hxs hothers hy
      refine ⟨r.moves ++ ms, ?_⟩
      rw [recursiveSum_cons, bind_of_ok (settle_of_takes hT hz), bind_of_error hms,
        Context.log_log]

/-- The first addition that overflows settles the error, if all terms are settled. -/
lemma recursiveSum_of_overflows (hT : c.target = some target)
    (hr : List.Forall₂ (Term.Takes c.table target) (x :: xs) routes)
    (ho : Overflows (routes.map Route.settled) e) :
    ∃ ms, recursiveSum x xs c = (.error e, c.log ms) := by
  induction xs generalizing x c routes with
  | nil =>
    obtain ⟨r, rs, hx, hnil, rfl⟩ := List.forall₂_cons_left_iff.mp hr
    rw [List.forall₂_nil_left_iff.mp hnil] at ho
    rcases overflows_cons_iff.mp ho with h | ⟨additions, right, hsum, -⟩
    · exact absurd h not_overflows_nil
    · exact absurd rfl hsum.ne_nil
  | cons next xs ih =>
    obtain ⟨r, rs, hx, hrs, rfl⟩ := List.forall₂_cons_left_iff.mp hr
    rcases overflows_cons_iff.mp ho with h | ⟨additions, right, hsum, hover⟩
    · obtain ⟨ms, hms⟩ := ih (c := c.log r.moves) hT hrs h
      refine ⟨r.moves ++ ms, ?_⟩
      rw [recursiveSum_cons, bind_of_ok (settle_of_takes hT hx), bind_of_error hms,
        Context.log_log]
    · have heq : r.settled.currency = right.currency := by
        rw [hx.currency_settled, hsum.currency_total (Term.currency_settled_of_takes hrs)]
      have hadd : r.settled.add right = .error e := (Amount.add_eq_error_iff heq).mpr hover
      have hrest := recursiveSum_of_sums (c := c.log r.moves) hT hrs hsum
      rw [recursiveSum_cons, bind_of_ok (settle_of_takes hT hx), bind_of_ok hrest, hadd,
        ofExcept_error, bind_of_error (throw_apply ..), Context.log_log]
      exact ⟨_, rfl⟩

end Evaluation

/-! ### Rules for requests -/

namespace Request

variable {r : Request} {comp : Computation}

/-- What a request evaluates to: the total of its settled terms, and all changes of currency before
all additions as its steps. -/
inductive Evaluates (t : RateTable) (r : Request) : Computation → Prop where
  | intro {target : String} {routes : List Route} {additions : List Addition} {total : Amount}
      (hT : t.resolve? r.target.name = some target)
      (hr : List.Forall₂ (Term.Takes t target) r.expression.terms routes)
      (hs : Sums (routes.map Route.settled) additions total) :
      Evaluates t r ⟨.ofAmount total,
        (Move.numbered 0 (routes.flatMap Route.moves ++ additions.map Addition.move)).toArray⟩

/-- Why a request has no answer: its directive is unknown, or a term fails and none to the left of
it does, or all terms are settled and an addition overflows. -/
inductive Fails (t : RateTable) (r : Request) : EvaluationError → Prop where
  | directive (hT : t.resolve? r.target.name = none) :
      Fails t r (.unknownDirective r.target.name r.target.position)
  | term {target : String} {before after : List Term} {x : Term} {e : EvaluationError}
      (hT : t.resolve? r.target.name = some target)
      (heq : r.expression.terms = before ++ x :: after)
      (hbefore : ∀ y ∈ before, ∀ e', ¬ y.Fails t target e') (hx : x.Fails t target e) :
      Fails t r e
  | sum {target : String} {routes : List Route} {e : EvaluationError}
      (hT : t.resolve? r.target.name = some target)
      (hr : List.Forall₂ (Term.Takes t target) r.expression.terms routes)
      (ho : Overflows (routes.map Route.settled) e) : Fails t r e

end Request

/-- No term has both a route and a reason to fail. -/
lemma Term.not_fails_of_takes {r : Route} (h : x.Takes t target r) : ¬ x.Fails t target e := by
  intro hf
  let c : Context := { table := t, target := some target }
  obtain ⟨ms, hms⟩ := Evaluation.settle_of_fails (c := c) rfl hf
  rw [Evaluation.settle_of_takes (c := c) rfl h] at hms
  cases hms

/-- All terms are settled, or there is a leftmost one that is not. -/
lemma Term.takes_or_leftmost_fails (t : RateTable) (target : String) (xs : List Term) :
    (∃ routes, List.Forall₂ (Term.Takes t target) xs routes) ∨
      ∃ before x after e, xs = before ++ x :: after ∧
        (∀ y ∈ before, ∀ e', ¬ y.Fails t target e') ∧ x.Fails t target e := by
  induction xs with
  | nil => exact Or.inl ⟨[], .nil⟩
  | cons x xs ih =>
    rcases x.takes_or_fails t target with ⟨r, hr⟩ | ⟨e, he⟩
    · rcases ih with ⟨routes, hrs⟩ | ⟨before, y, after, e, rfl, hbefore, hy⟩
      · exact Or.inl ⟨r :: routes, .cons hr hrs⟩
      · refine Or.inr ⟨x :: before, y, after, e, rfl, ?_, hy⟩
        exact List.forall_mem_cons.mpr ⟨fun e' => Term.not_fails_of_takes hr, hbefore⟩
    · exact Or.inr ⟨[], x, xs, e, rfl, by simp, he⟩

lemma Request.evaluates_or_fails (t : RateTable) (r : Request) :
    (∃ comp, r.Evaluates t comp) ∨ ∃ e, r.Fails t e := by
  cases hT : t.resolve? r.target.name with
  | none => exact Or.inr ⟨_, .directive hT⟩
  | some target =>
    rcases Term.takes_or_leftmost_fails t target r.expression.terms with
      ⟨routes, hr⟩ | ⟨before, x, after, e, heq, hbefore, hx⟩
    · have hne : routes.map Route.settled ≠ [] := by
        cases hr
        simp
      rcases sums_or_overflows hne (Term.currency_settled_of_takes hr) with
        ⟨additions, total, hs⟩ | ⟨e, ho⟩
      · exact Or.inl ⟨_, .intro hT hr hs⟩
      · exact Or.inr ⟨e, .sum hT hr ho⟩
    · exact Or.inr ⟨e, .term hT heq hbefore hx⟩

/-! ### Evaluating a request -/

/-- A context at the start of a request whose target is settled. -/
def Context.start (c : Context) (target : String) : Context :=
  { c with target := some target, steps := #[] }

namespace Evaluation

variable {c c' : Context} {r : Request} {comp : Computation}

lemma modify_apply (f : Context → Context) (c : Context) :
    (modify f : Evaluation Unit) c = (.ok (), f c) := rfl

lemma request_of_unknown (hT : c.table.resolve? r.target.name = none) :
    request r c = (.error (.unknownDirective r.target.name r.target.position),
      { c with target := none, steps := #[] }) := by
  rw [request, bind_of_ok (modify_apply _ c)]
  exact bind_of_error (resolve_of_none hT)

/-- Once its directive is resolved, a request evaluates its expression from the start. -/
lemma request_of_known (hT : c.table.resolve? r.target.name = some target) :
    request r c = (recursiveSum r.expression.first r.expression.rest >>= fun total =>
      modifyGet (fun c => (c.steps, { c with steps := #[] })) >>= fun steps =>
        pure ⟨.ofAmount total, steps⟩) (c.start target) := by
  have hresolve : resolve r.target { c with target := none, steps := #[] } =
      (.ok target, { c with target := none, steps := #[] }) := resolve_of_some hT
  rw [request, bind_of_ok (modify_apply _ c), bind_of_ok hresolve, expression, settle_bind_sum]
  simp only [addUp_nil, bind_pure]
  exact bind_of_ok (modify_apply _ _)

lemma request_of_recursiveSum (hT : c.table.resolve? r.target.name = some target)
    (h : recursiveSum r.expression.first r.expression.rest (c.start target) = (.ok total, c')) :
    request r c = (.ok ⟨.ofAmount total, c'.steps⟩, { c' with steps := #[] }) := by
  rw [request_of_known hT, bind_of_ok h]
  rfl

lemma request_of_evaluates (h : r.Evaluates c.table comp) : (request r c).1 = .ok comp := by
  cases h with
  | intro hT hr hs =>
    have hsum := recursiveSum_of_sums (c := c.start _) rfl hr hs
    rw [request_of_recursiveSum hT hsum]
    simp [Context.log, Context.start]

lemma request_of_fails (h : r.Fails c.table e) : (request r c).1 = .error e := by
  cases h with
  | directive hT => rw [request_of_unknown hT]
  | @term target before after x e hT heq hbefore hx =>
    have htakes : ∀ y ∈ before, ∃ r, y.Takes c.table target r := fun y hy =>
      Term.exists_takes_of_not_fails (hbefore y hy)
    obtain ⟨ms, hms⟩ := recursiveSum_of_fails (c := c.start target) rfl heq htakes hx
    rw [request_of_known hT, bind_of_error hms]
  | @sum target routes e hT hr ho =>
    obtain ⟨ms, hms⟩ := recursiveSum_of_overflows (c := c.start target) rfl hr ho
    rw [request_of_known hT, bind_of_error hms]

lemma request_eq_ok_iff : (request r c).1 = .ok comp ↔ r.Evaluates c.table comp := by
  refine ⟨fun h => ?_, request_of_evaluates⟩
  rcases r.evaluates_or_fails c.table with ⟨comp', h'⟩ | ⟨e, he⟩
  · rw [request_of_evaluates h'] at h
    cases h
    exact h'
  · rw [request_of_fails he] at h
    cases h

/-- The evaluation of a request fails for the reasons of `Request.Fails` and with their errors, and
in every other case it succeeds. -/
theorem request_error_iff_fails (r : Request) (c : Context) :
    (∀ e, (request r c).1 = .error e ↔ r.Fails c.table e) ∧
      ((∃ comp, (request r c).1 = .ok comp) ↔ ∀ e, ¬ r.Fails c.table e) := by
  constructor
  · intro e
    refine ⟨fun h => ?_, request_of_fails⟩
    rcases r.evaluates_or_fails c.table with ⟨comp, h'⟩ | ⟨e', he⟩
    · rw [request_of_evaluates h'] at h
      cases h
    · rw [request_of_fails he] at h
      cases h
      exact he
  · constructor
    · rintro ⟨comp, h⟩ e he
      rw [request_of_fails he] at h
      cases h
    · intro h
      obtain ⟨comp, hcomp⟩ := (r.evaluates_or_fails c.table).resolve_right fun ⟨e, he⟩ => h e he
      exact ⟨comp, request_of_evaluates hcomp⟩

end Evaluation

namespace Request

variable {r : Request} {comp : Computation}

lemma Evaluates.evaluate_eq (h : r.Evaluates t comp) : t.evaluate r = .ok comp :=
  Evaluation.request_of_evaluates h

lemma Fails.evaluate_eq (h : r.Fails t e) : t.evaluate r = .error e :=
  Evaluation.request_of_fails h

end Request

end Cambist
