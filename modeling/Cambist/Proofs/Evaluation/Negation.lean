import Cambist.Proofs.Evaluation.Explanation

/-!
# Negated requests

When the signs of all terms are turned around, a request comes to the opposite answer by the
opposite steps, or it fails for the same reason. Conversions turn around exactly. Additions do so
only up to the sign of zero: a sum of zero is positive whatever the signs of its terms are. So two
decimals are taken to be opposite also when both of them are zero.
-/

namespace Cambist

/-! ### Negation -/

/-- The amount of the opposite sign. -/
def Amount.negated (a : Amount) : Amount := ⟨-a.value, a.currency⟩

def Entry.negated (e : Entry) : Entry := ⟨e.sign.flip, e.literal, e.position⟩

def Term.negated (x : Term) : Term := ⟨x.entry.negated, x.conversion⟩

def Expression.negated (e : Expression) : Expression := ⟨e.first.negated, e.rest.map Term.negated⟩

/-- The same request with the signs of all its terms turned around. -/
def Request.negated (r : Request) : Request := ⟨r.target, r.expression.negated⟩

/-- The route by which the opposite amount is settled. -/
def Route.negated (r : Route) : Route := ⟨r.written.negated, r.reached.negated, r.settled.negated⟩

lemma Request.terms_negated (r : Request) :
    r.negated.expression.terms = r.expression.terms.map Term.negated := rfl

lemma Amount.currency_negated (a : Amount) : a.negated.currency = a.currency := rfl

lemma Sign.ofInt_neg {n : Int} (h : n ≠ 0) : ofInt (-n) = (ofInt n).flip := by
  unfold ofInt
  split_ifs
  all_goals first | rfl | omega

lemma Sign.apply_flip (s : Sign) (x : Decimal) : s.flip.apply x = -s.apply x := by
  cases s <;> simp

lemma Amount.signed_flip (s : Sign) (x : Decimal) (u : String) :
    signed s.flip x u = (signed s x u).negated := by
  rw [signed, Sign.apply_flip]
  rfl

lemma Term.amount_negated (x : Term) : x.negated.entry.amount = x.entry.amount.negated :=
  Amount.signed_flip ..

/-! ### Terms -/

variable {t : RateTable} {target u : String} {x : Term} {a b left right s : Amount} {r : Route}
  {xs : List Term} {as bs : List Amount} {routes : List Route} {e : EvaluationError}

namespace RateTable

/-- The rate is multiplied by the absolute value, so that the opposite amount is converted to the
opposite result, also when that vanishes. -/
lemma convert_negated (h : t.convert a u = .ok b) : t.convert a.negated u = .ok b.negated := by
  by_cases hne : a.currency = u
  · subst hne
    rw [convert_self] at h
    cases h
    exact convert_self t a.negated
  · obtain ⟨r, p, hr, hp, rfl⟩ := (convert_eq_ok_iff_of_ne hne).mp h
    rw [← Amount.signed_flip]
    exact convert_of_rate (a := a.negated) hne hr hp

lemma Refuses.negated (h : t.Refuses a u e) : t.Refuses a.negated u e := by
  cases h with
  | missingRate hne hr => exact .missingRate (a := a.negated) hne hr
  | overflow hne hr hp => exact .overflow (a := a.negated) hne hr hp

end RateTable

namespace Term

lemma Reaches.negated (h : x.Reaches t target a) : x.negated.Reaches t target a.negated := by
  cases h with
  | written hd =>
    rw [← amount_negated]
    exact .written (x := x.negated) hd
  | converted hd hne hu hb =>
    refine .converted (x := x.negated) hd hne hu ?_
    rw [amount_negated]
    exact RateTable.convert_negated hb

lemma Takes.negated (h : x.Takes t target r) : x.negated.Takes t target r.negated where
  written := by
    rw [Route.negated, h.written, amount_negated]
  reached := h.reached.negated
  settled := RateTable.convert_negated h.settled

lemma takes_negated (h : List.Forall₂ (Term.Takes t target) xs routes) :
    List.Forall₂ (Term.Takes t target) (xs.map Term.negated) (routes.map Route.negated) := by
  rw [List.forall₂_map_left_iff, List.forall₂_map_right_iff]
  exact h.imp fun _ _ h => h.negated

lemma Fails.negated (h : x.Fails t target e) : x.negated.Fails t target e := by
  cases h with
  | selfConversion hd heq => exact .selfConversion (x := x.negated) hd heq
  | unknownDirective hd hne hu => exact .unknownDirective (x := x.negated) hd hne hu
  | refusedByDirective hd hne hu he =>
    refine .refusedByDirective (x := x.negated) hd hne hu ?_
    rw [amount_negated]
    exact he.negated
  | refusedByTarget ha he => exact .refusedByTarget ha.negated he.negated

/-- A term that does not fail does not fail when it is negated. -/
lemma not_fails_negated (h : ∀ e, ¬ x.Fails t target e) (e : EvaluationError) :
    ¬ x.negated.Fails t target e := by
  obtain ⟨r, hr⟩ := exists_takes_of_not_fails h
  exact not_fails_of_takes hr.negated

end Term

/-! ### Opposite decimals -/

/-- Opposite decimals have the same digits and opposite signs; the signs of zeros do not matter. -/
structure Decimal.Opposite (x y : Decimal) : Prop where
  magnitude : y.magnitude = x.magnitude
  sign : y.sign = x.sign.flip ∨ x.isZero = true

namespace Decimal

variable {x x' y y' : Decimal}

lemma opposite_neg (x : Decimal) : x.Opposite (-x) := ⟨rfl, .inl rfl⟩

lemma Opposite.isZero_eq (h : x.Opposite x') : x'.isZero = x.isZero := by
  rw [isZero, isZero, mantissa, h.magnitude]

/-- Opposite decimals are the same up to the sign, or both are zero. -/
lemma Opposite.eq_neg (h : x.Opposite x') (hx : ¬ x.isZero = true) : x' = -x :=
  Decimal.ext (h.sign.resolve_right hx) h.magnitude

lemma Opposite.toRat_eq (h : x.Opposite x') : x'.toRat = -x.toRat := by
  by_cases hx : x.isZero = true
  · rw [toRat_of_isZero hx, toRat_of_isZero (h.isZero_eq.trans hx), Rat.neg_zero]
  · rw [h.eq_neg hx, toRat_neg]

lemma Opposite.unsignZero (h : x.Opposite x') : x.unsignZero.Opposite x'.unsignZero := by
  by_cases hx : x.isZero = true
  · rw [unsignZero_of_isZero hx, unsignZero_of_isZero (h.isZero_eq.trans hx)]
    exact ⟨h.magnitude, .inr hx⟩
  · have hx' : x'.isZero = false := h.isZero_eq.trans (Bool.eq_false_iff.mpr hx)
    rwa [unsignZero_of_not_isZero (Bool.eq_false_iff.mpr hx), unsignZero_of_not_isZero hx']

lemma atScale_neg (x : Decimal) (s : Nat) : (-x).atScale s = -x.atScale s :=
  Sign.toInt_flip x.sign _

/-- When both operands turn around, so does a sum, except that a sum of zero stays positive. -/
lemma add?_opposite (hx : x.Opposite x') (hy : y.Opposite y') :
    Option.Rel Opposite (x.add? y) (x'.add? y') := by
  by_cases hx0 : x.isZero = true
  · rw [add?_of_isZero_left hx0, add?_of_isZero_left (hx.isZero_eq.trans hx0)]
    exact .some hy
  rw [hx.eq_neg hx0]
  by_cases hy0 : y.isZero = true
  · rw [add?_of_isZero_right hx0 hy0, add?_of_isZero_right (x := -x) hx0 (hy.isZero_eq.trans hy0)]
    exact .some (opposite_neg x)
  rw [hy.eq_neg hy0]
  obtain ⟨s, hs⟩ : ∃ s, max x.scale y.scale = s := ⟨_, rfl⟩
  have hs28 : s ≤ 28 := hs ▸ max_le x.magnitude.scale_le y.magnitude.scale_le
  rw [add?_eq_map hx0 hy0 hs, add?_eq_map (x := -x) (y := -y) hx0 hy0 hs, atScale_neg,
    atScale_neg, ← Int.neg_add, Int.natAbs_neg]
  generalize x.atScale s + y.atScale s = total
  by_cases htotal : total = 0
  · rw [htotal, Int.natAbs_zero, Magnitude.fit?_of_lt (by decide) hs28]
    exact .some ⟨rfl, .inr rfl⟩
  · rw [Sign.ofInt_neg htotal]
    cases Magnitude.fit? total.natAbs s with
    | none => exact .none
    | some m => exact .some (opposite_neg ⟨_, m⟩)

lemma exists_add?_of_opposite {v : Decimal} (hx : x.Opposite x') (hy : y.Opposite y')
    (h : x.add? y = some v) : ∃ v', x'.add? y' = some v' ∧ v.Opposite v' := by
  have hadd := add?_opposite hx hy
  generalize x'.add? y' = sum at hadd ⊢
  rw [h] at hadd
  cases hadd with
  | some hv => exact ⟨_, rfl, hv⟩

lemma add?_eq_none_of_opposite (hx : x.Opposite x') (hy : y.Opposite y')
    (h : x.add? y = none) : x'.add? y' = none := by
  have hadd := add?_opposite hx hy
  generalize x'.add? y' = sum at hadd ⊢
  rw [h] at hadd
  cases hadd
  rfl

end Decimal

/-! ### Opposite amounts -/

/-- Opposite amounts are in the same currency. -/
structure Amount.Opposite (a b : Amount) : Prop where
  currency : b.currency = a.currency
  value : a.value.Opposite b.value

/-- Opposite additions have opposite operands and opposite results. -/
structure Addition.Opposite (s s' : Addition) : Prop where
  left : s.left.Opposite s'.left
  right : s.right.Opposite s'.right
  result : s.result.Opposite s'.result

/-- The same error, or overflows of two sums with opposite operands. -/
inductive EvaluationError.Opposite : EvaluationError → EvaluationError → Prop where
  | same (e : EvaluationError) : Opposite e e
  | sum {x x' y y' : Decimal} (hx : x.Opposite x') (hy : y.Opposite y') :
      Opposite (.overflow (.sum x y)) (.overflow (.sum x' y'))

variable {left' right' : Amount}

lemma Amount.opposite_negated (a : Amount) : a.Opposite a.negated := ⟨rfl, a.value.opposite_neg⟩

lemma Amount.add_opposite (hl : left.Opposite left') (hr : right.Opposite right')
    (h : left.add right = .ok s) : ∃ s', left'.add right' = .ok s' ∧ s.Opposite s' := by
  have heq : left.currency = right.currency := currency_eq_of_add h
  have heq' : left'.currency = right'.currency := by rw [hl.currency, hr.currency, heq]
  rw [add, if_pos heq] at h
  cases hsum : left.value.add? right.value with
  | none =>
    rw [hsum] at h
    cases h
  | some v =>
    rw [hsum] at h
    cases h
    obtain ⟨v', hsum', hv⟩ := Decimal.exists_add?_of_opposite hl.value hr.value hsum
    refine ⟨.ofValue v' left'.currency, ?_, hl.currency, hv.unsignZero⟩
    rw [add, if_pos heq', hsum']

/-! ### Totals -/

lemma Sums.opposite {additions : List Addition} {total : Amount} (h : Sums as additions total)
    (has : List.Forall₂ Amount.Opposite as bs) : ∃ additions' total', Sums bs additions' total' ∧
      List.Forall₂ Addition.Opposite additions additions' ∧ total.Opposite total' := by
  induction h generalizing bs with
  | last a =>
    obtain ⟨b, bs, hab, hbs, rfl⟩ := List.forall₂_cons_left_iff.mp has
    rw [List.forall₂_nil_left_iff.mp hbs]
    exact ⟨[], b, .last b, .nil, hab⟩
  | add h hs ih =>
    obtain ⟨b, bs, hab, hbs, rfl⟩ := List.forall₂_cons_left_iff.mp has
    obtain ⟨additions', right', hsums, hadditions, hright⟩ := ih hbs
    obtain ⟨s', hs', hopp⟩ := Amount.add_opposite hab hright hs
    exact ⟨_, s', hsums.add hs', List.rel_append hadditions (.cons ⟨hab, hright, hopp⟩ .nil), hopp⟩

lemma Overflows.opposite (h : Overflows as e) (has : List.Forall₂ Amount.Opposite as bs) :
    ∃ e', Overflows bs e' ∧ e.Opposite e' := by
  induction has with
  | nil => exact absurd h not_overflows_nil
  | @cons a b as bs hab has ih =>
    rcases overflows_cons_iff.mp h with h | ⟨additions, right, hsums, hover, rfl⟩
    · obtain ⟨e', he', hopp⟩ := ih h
      exact ⟨e', overflows_cons_iff.mpr (.inl he'), hopp⟩
    · obtain ⟨additions', right', hsums', -, hright⟩ := hsums.opposite has
      have hover' := Decimal.add?_eq_none_of_opposite hab.value hright.value hover
      exact ⟨_, overflows_cons_iff.mpr (.inr ⟨additions', right', hsums', hover', rfl⟩),
        .sum hab.value hright.value⟩

/-! ### Steps -/

/-- Opposite moves are of one kind and have opposite amounts. -/
inductive Move.Opposite : Move → Move → Prop where
  | converted {a a' b b' : Amount} (ha : a.Opposite a') (hb : b.Opposite b') :
      Opposite (.converted a b) (.converted a' b')
  | accumulated {left left' right right' s s' : Amount} (hl : left.Opposite left')
      (hr : right.Opposite right') (hs : s.Opposite s') :
      Opposite (.accumulated left right s) (.accumulated left' right' s')

/-- Opposite steps are of one kind, have the same number and have opposite amounts. -/
inductive Step.Opposite : Step → Step → Prop where
  | converted {i : Nat} {a a' b b' : Amount} (ha : a.Opposite a') (hb : b.Opposite b') :
      Opposite (.converted i a b) (.converted i a' b')
  | accumulated {i : Nat} {left left' right right' s s' : Amount} (hl : left.Opposite left')
      (hr : right.Opposite right') (hs : s.Opposite s') :
      Opposite (.accumulated i left right s) (.accumulated i left' right' s')

namespace Move

variable {m m' : Move} {ms ms' : List Move}

lemma Opposite.step (h : m.Opposite m') (i : Nat) : (m.step i).Opposite (m'.step i) := by
  cases h with
  | converted ha hb => exact .converted ha hb
  | accumulated hl hr hs => exact .accumulated hl hr hs

lemma numbered_opposite (h : List.Forall₂ Move.Opposite ms ms') (i : Nat) :
    List.Forall₂ Step.Opposite (numbered i ms) (numbered i ms') := by
  induction h generalizing i with
  | nil => exact .nil
  | cons hm _ ih =>
    rw [numbered_cons, numbered_cons]
    exact .cons (hm.step i) (ih (i + 1))

lemma hop_negated (a b : Amount) :
    List.Forall₂ Move.Opposite (a.hop b) (a.negated.hop b.negated) := by
  rw [Amount.hop, Amount.hop, Amount.currency_negated, Amount.currency_negated]
  split_ifs
  · exact .nil
  · exact .cons (.converted a.opposite_negated b.opposite_negated) .nil

end Move

lemma Route.moves_negated (routes : List Route) : List.Forall₂ Move.Opposite
    (routes.flatMap Route.moves) ((routes.map Route.negated).flatMap Route.moves) := by
  induction routes with
  | nil => exact .nil
  | cons r routes ih =>
    exact List.rel_append (List.rel_append (Move.hop_negated ..) (Move.hop_negated ..)) ih

lemma Route.settled_negated (routes : List Route) : List.Forall₂ Amount.Opposite
    (routes.map Route.settled) ((routes.map Route.negated).map Route.settled) := by
  induction routes with
  | nil => exact .nil
  | cons r routes ih => exact .cons r.settled.opposite_negated ih

/-! ### Answers -/

variable {q : Request} {comp comp' : Computation}

/-- Opposite computations have opposite numbers in the same currency for an answer, and opposite
steps. In both an answer of zero is written without a sign. -/
structure Computation.Opposite (comp comp' : Computation) : Prop where
  currency : comp'.answer.currency = comp.answer.currency
  value : comp'.answer.value.toRat = -comp.answer.value.toRat
  zero : comp.answer.value.isZero = true → comp.answer.value = .zero
  zero' : comp'.answer.value.isZero = true → comp'.answer.value = .zero
  steps : List.Forall₂ Step.Opposite comp.steps.toList comp'.steps.toList

/-- Both succeed with opposite computations, or both fail with the same error up to the operands of
a sum. -/
inductive OppositeOutcomes : Except EvaluationError Computation →
    Except EvaluationError Computation → Prop where
  | ok {comp comp' : Computation} (h : comp.Opposite comp') :
      OppositeOutcomes (.ok comp) (.ok comp')
  | error {e e' : EvaluationError} (h : e.Opposite e') : OppositeOutcomes (.error e) (.error e')

/-- A zero answer has a plus sign, which is not written, and no digits after the point. -/
lemma Answer.value_eq_zero (a : Amount) (h : (ofAmount a).value.isZero = true) :
    (ofAmount a).value = .zero := by
  by_cases ha : a.value.isZero = true
  · exact if_pos ha
  · rw [ofAmount, if_neg ha] at h
    exact absurd h ha

namespace Request

lemma Evaluates.negated (h : q.Evaluates t comp) :
    ∃ comp', q.negated.Evaluates t comp' ∧ comp.Opposite comp' := by
  cases h with
  | @intro target routes additions total hT hr hs =>
    obtain ⟨additions', total', hs', hadditions, htotal⟩ :=
      hs.opposite (Route.settled_negated routes)
    refine ⟨_, .intro (r := q.negated) hT (Term.takes_negated hr) hs', ?_⟩
    refine ⟨htotal.currency, ?_, Answer.value_eq_zero total, Answer.value_eq_zero total', ?_⟩
    · rw [Answer.toRat_ofAmount, Answer.toRat_ofAmount, htotal.value.toRat_eq]
    · refine Move.numbered_opposite (List.rel_append (Route.moves_negated routes) ?_) 0
      rw [List.forall₂_map_left_iff, List.forall₂_map_right_iff]
      exact hadditions.imp fun _ _ h => .accumulated h.left h.right h.result

lemma Fails.negated (h : q.Fails t e) : ∃ e', q.negated.Fails t e' ∧ e.Opposite e' := by
  cases h with
  | directive hT => exact ⟨_, .directive (r := q.negated) hT, .same _⟩
  | @term target before after x e hT heq hbefore hx =>
    have hterms : q.negated.expression.terms =
        before.map Term.negated ++ x.negated :: after.map Term.negated := by
      rw [terms_negated, heq, List.map_append, List.map_cons]
    refine ⟨e, .term (r := q.negated) hT hterms ?_ hx.negated, .same e⟩
    intro y' hy'
    obtain ⟨y, hy, rfl⟩ := List.mem_map.mp hy'
    exact Term.not_fails_negated (hbefore y hy)
  | @sum target routes e hT hr ho =>
    obtain ⟨e', ho', hopp⟩ := ho.opposite (Route.settled_negated routes)
    exact ⟨e', .sum (r := q.negated) hT (Term.takes_negated hr) ho', hopp⟩

end Request

/-- A request and the same request with the signs of all terms turned around have opposite
outcomes against every table. -/
theorem RateTable.evaluate_negated (t : RateTable) (q : Request) :
    OppositeOutcomes (t.evaluate q) (t.evaluate q.negated) := by
  rcases q.evaluates_or_fails t with ⟨comp, h⟩ | ⟨e, h⟩
  · obtain ⟨comp', h', hopp⟩ := h.negated
    rw [h.evaluate_eq, h'.evaluate_eq]
    exact .ok hopp
  · obtain ⟨e', h', hopp⟩ := h.negated
    rw [h.evaluate_eq, h'.evaluate_eq]
    exact .error hopp

end Cambist
