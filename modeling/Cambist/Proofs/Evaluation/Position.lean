import Cambist.Proofs.Evaluation.Outcome

/-!
# Positions

Positions are for messages only. When the nodes of a request are moved to other positions, its
evaluation against every table comes to the same answer by the same steps, or to the same error at
the position moved to.
-/

namespace Cambist

/-! ### Moving to other positions -/

def Directive.relocate (f : Nat → Nat) (d : Directive) : Directive := ⟨d.name, f d.position⟩

def Entry.relocate (f : Nat → Nat) (e : Entry) : Entry := ⟨e.sign, e.literal, f e.position⟩

def Term.relocate (f : Nat → Nat) (x : Term) : Term :=
  ⟨x.entry.relocate f, x.conversion.map (Directive.relocate f)⟩

def Expression.relocate (f : Nat → Nat) (e : Expression) : Expression :=
  ⟨e.first.relocate f, e.rest.map (Term.relocate f)⟩

/-- The same request with all its nodes at other positions. -/
def Request.relocate (f : Nat → Nat) (r : Request) : Request :=
  ⟨r.target.relocate f, r.expression.relocate f⟩

/-- The same error at another position, if it has one. -/
def EvaluationError.relocate (f : Nat → Nat) : EvaluationError → EvaluationError
  | selfConversion currency position => selfConversion currency (f position)
  | unknownDirective name position   => unknownDirective name (f position)
  | e => e

/-- The same failure at another position, if it has one. -/
def Failure.relocate (f : Nat → Nat) : Failure → Failure
  | syntactic e  => syntactic ⟨e.cause, f e.position⟩
  | evaluation e => evaluation (e.relocate f)

@[simp] lemma Expression.terms_relocate (f : Nat → Nat) (e : Expression) :
    (e.relocate f).terms = e.terms.map (Term.relocate f) := rfl

/-! ### Evaluation elsewhere -/

variable {t : RateTable} {target : String} {x : Term} {a : Amount} {r : Route}
  {xs : List Term} {routes : List Route} {e : EvaluationError} {q : Request} {comp : Computation}
  {f : Nat → Nat}

lemma EvaluationError.relocate_of_refuses {u : String} (h : t.Refuses a u e) :
    e.relocate f = e := by
  cases h with
  | missingRate => rfl
  | overflow => rfl

lemma EvaluationError.relocate_of_overflows {as : List Amount} (h : Overflows as e) :
    e.relocate f = e := by
  obtain ⟨before, left, after, additions, right, -, -, -, rfl⟩ := h
  rfl

namespace Term

lemma conversion_relocate {o : Option Directive} (h : x.conversion = o) :
    (x.relocate f).conversion = o.map (Directive.relocate f) := by
  rw [Term.relocate, h]

lemma Reaches.relocate (h : x.Reaches t target a) : (x.relocate f).Reaches t target a := by
  cases h with
  | written hd => exact .written (conversion_relocate hd)
  | converted hd hne hu hb => exact .converted (conversion_relocate hd) hne hu hb

lemma Takes.relocate (h : x.Takes t target r) : (x.relocate f).Takes t target r :=
  ⟨h.written, h.reached.relocate, h.settled⟩

lemma takes_relocate (h : List.Forall₂ (Term.Takes t target) xs routes) :
    List.Forall₂ (Term.Takes t target) (xs.map (Term.relocate f)) routes := by
  rw [List.forall₂_map_left_iff]
  exact h.imp fun _ _ h => h.relocate

lemma Fails.relocate (h : x.Fails t target e) :
    (x.relocate f).Fails t target (e.relocate f) := by
  cases h with
  | selfConversion hd heq => exact .selfConversion (conversion_relocate hd) heq
  | unknownDirective hd hne hu => exact .unknownDirective (conversion_relocate hd) hne hu
  | refusedByDirective hd hne hu he =>
    rw [EvaluationError.relocate_of_refuses he]
    exact .refusedByDirective (conversion_relocate hd) hne hu he
  | refusedByTarget ha he =>
    rw [EvaluationError.relocate_of_refuses he]
    exact .refusedByTarget ha.relocate he

/-- A term that does not fail does not fail elsewhere. -/
lemma not_fails_relocate (h : ∀ e, ¬ x.Fails t target e) (e : EvaluationError) :
    ¬ (x.relocate f).Fails t target e := by
  obtain ⟨r, hr⟩ := exists_takes_of_not_fails h
  exact not_fails_of_takes hr.relocate

end Term

namespace Request

lemma Evaluates.relocate (h : q.Evaluates t comp) : (q.relocate f).Evaluates t comp := by
  cases h with
  | intro hT hr hs => exact .intro hT (Term.takes_relocate hr) hs

lemma Fails.relocate (h : q.Fails t e) : (q.relocate f).Fails t (e.relocate f) := by
  cases h with
  | directive hT => exact .directive hT
  | @term target before after x e hT heq hbefore hx =>
    have hterms : (q.relocate f).expression.terms =
        before.map (Term.relocate f) ++ x.relocate f :: after.map (Term.relocate f) := by
      rw [Request.relocate, Expression.terms_relocate, heq, List.map_append, List.map_cons]
    refine .term hT hterms ?_ hx.relocate
    intro y' hy'
    obtain ⟨y, hy, rfl⟩ := List.mem_map.mp hy'
    exact Term.not_fails_relocate (hbefore y hy)
  | sum hT hr ho =>
    rw [EvaluationError.relocate_of_overflows ho]
    exact .sum hT (Term.takes_relocate hr) ho

/-- A request that is moved evaluates as before, up to the position of its error. -/
lemma evaluate_relocate (f : Nat → Nat) (t : RateTable) (q : Request) :
    t.evaluate (q.relocate f) = (t.evaluate q).mapError (EvaluationError.relocate f) := by
  rcases q.evaluates_or_fails t with ⟨comp, h⟩ | ⟨e, h⟩
  · rw [h.evaluate_eq, h.relocate.evaluate_eq]
    rfl
  · rw [h.evaluate_eq, h.relocate.evaluate_eq]
    rfl

end Request

/-! ### Forgetting positions -/

/-- A request of which only the positions are forgotten. -/
def Request.unplaced (r : Request) : Request := r.relocate fun _ => 0

/-- A failure of which only the position is forgotten. -/
def Failure.unplaced (e : Failure) : Failure := e.relocate fun _ => 0

lemma RateTable.compute_of_parse {source : String} (h : Request.parse source = .ok q) :
    t.compute source = (t.evaluate q).mapError .evaluation := by
  rw [compute, h]
  cases heval : t.evaluate q <;> simp only [heval] <;> rfl

/-- Lines whose requests differ in positions only have the same answer with the same steps, or the
same failure up to its position. -/
lemma RateTable.compute_unplaced {source source' : String} {q q' : Request} (t : RateTable)
    (h : Request.parse source = .ok q) (h' : Request.parse source' = .ok q')
    (heq : q'.unplaced = q.unplaced) :
    (t.compute source').mapError Failure.unplaced =
      (t.compute source).mapError Failure.unplaced := by
  have hcompute {source : String} {q : Request} (h : Request.parse source = .ok q) :
      (t.compute source).mapError Failure.unplaced =
        (t.evaluate q.unplaced).mapError .evaluation := by
    rw [compute_of_parse h, Request.unplaced, Request.evaluate_relocate]
    cases t.evaluate q <;> rfl
  rw [hcompute h, hcompute h', heq]

end Cambist
