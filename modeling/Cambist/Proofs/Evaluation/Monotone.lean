import Cambist.Proofs.Decimal.Fitting
import Cambist.Proofs.Evaluation.Explanation

/-!
# Larger terms

With positive rates, rounding never turns the order of two answers around: when one term of a
request is made larger, the answer does not become smaller, and not larger if the term is taken
away. Conversions and additions round their exact results, and rounding is monotone.
-/

namespace Cambist

variable {t : RateTable} {target u : String} {x x' : Term} {a a' b b' left left' right right' s s' :
  Amount} {r r' : Route} {as bs : List Amount} {xs xs' : List Term} {routes routes' : List Route}

/-! ### Amounts in order -/

/-- An amount that is not larger than another one in the same currency. -/
structure Amount.Below (a b : Amount) : Prop where
  currency : b.currency = a.currency
  value : a.value.toRat ≤ b.value.toRat

namespace Amount

lemma below_refl (a : Amount) : a.Below a := ⟨rfl, le_rfl⟩

lemma toRat_signed_plus (v : Decimal) (u : String) : (signed .plus v u).value.toRat = v.toRat :=
  v.toRat_unsignZero

lemma toRat_signed_minus (v : Decimal) (u : String) :
    (signed .minus v u).value.toRat = -v.toRat := by
  rw [← v.toRat_unsignZero, ← Decimal.toRat_neg]
  rfl

/-- A sum of amounts is rounded. -/
lemma roundsTo_of_add (h : left.add right = .ok s) :
    RoundsTo (left.value.toRat + right.value.toRat) s.value.toRat := by
  rw [add, if_pos (currency_eq_of_add h)] at h
  cases hsum : left.value.add? right.value with
  | none =>
    rw [hsum] at h
    cases h
  | some v =>
    rw [hsum] at h
    cases h
    rw [ofValue, toRat_signed_plus]
    exact Decimal.roundsTo_of_add? hsum

lemma add_mono (hl : left.Below left') (hr : right.Below right') (h : left.add right = .ok s)
    (h' : left'.add right' = .ok s') : s.Below s' where
  currency := by rw [currency_add h', currency_add h, hl.currency]
  value := (roundsTo_of_add h).mono (roundsTo_of_add h') (add_le_add hl.value hr.value)

end Amount

lemma Sums.mono {additions additions' : List Addition} {total total' : Amount}
    (h : Sums as additions total) (h' : Sums bs additions' total')
    (has : List.Forall₂ Amount.Below as bs) : total.Below total' := by
  induction h generalizing bs additions' total' with
  | last a =>
    obtain ⟨b, bs, hab, hbs, rfl⟩ := List.forall₂_cons_left_iff.mp has
    rw [List.forall₂_nil_left_iff.mp hbs] at h'
    obtain ⟨-, rfl⟩ := Sums.singleton_iff.mp h'
    exact hab
  | add h hs ih =>
    obtain ⟨b, bs, hab, hbs, rfl⟩ := List.forall₂_cons_left_iff.mp has
    have hne : bs ≠ [] := by
      rintro rfl
      exact h.ne_nil (List.forall₂_nil_right_iff.mp hbs)
    obtain ⟨others, right', hsums, hs', -⟩ := (Sums.cons_iff hne).mp h'
    exact Amount.add_mono hab (ih hsums hbs) hs hs'

/-! ### Conversions -/

/-- Is every rate of the table strictly greater than zero? -/
def RateTable.HasPositiveRates (t : RateTable) : Prop :=
  ∀ a b r, t.rate? a b = some r → r.isPositive = true

lemma Decimal.toRat_nonneg_of_isPositive {x : Decimal} (h : x.isPositive = true) : 0 ≤ x.toRat := by
  obtain ⟨sign, m⟩ := x
  cases sign with
  | plus => exact m.toRat_nonneg
  | minus => cases h

namespace RateTable

lemma hasPositiveRates_empty : empty.HasPositiveRates := by
  intro a b r h
  simp [rate?, empty] at h

lemma HasPositiveRates.withRate {rate : Decimal} (ht : t.HasPositiveRates)
    (hr : rate.isPositive = true) (a b : String) : (t.withRate a b rate).HasPositiveRates := by
  intro a' b' r h
  rw [rate?_withRate] at h
  split_ifs at h
  · cases h
    exact hr
  · exact ht a' b' r h

lemma hasPositiveRates_sample : sample.HasPositiveRates :=
  (hasPositiveRates_empty.withRate rfl "EUR" "USD").withRate rfl "RUB" "EUR"

/-- Between two currencies, the product with the rate is rounded. -/
lemma roundsTo_of_convert {rate : Decimal} (hne : a.currency ≠ u)
    (hr : t.rate? a.currency u = some rate) (h : t.convert a u = .ok b) :
    RoundsTo (a.value.toRat * rate.toRat) b.value.toRat := by
  obtain ⟨rate', p, hr', hp, rfl⟩ := (convert_eq_ok_iff_of_ne hne).mp h
  obtain rfl : rate = rate' := Option.some.inj (hr.symm.trans hr')
  have hround := Decimal.roundsTo_of_mul? hp
  obtain ⟨⟨sign, m⟩, currency⟩ := a
  cases sign with
  | plus =>
    rw [Amount.toRat_signed_plus]
    exact hround
  | minus =>
    have hneg : (⟨.minus, m⟩ : Decimal).toRat = -(⟨.plus, m⟩ : Decimal).toRat :=
      Decimal.toRat_neg ⟨.plus, m⟩
    rw [Amount.toRat_signed_minus, hneg, neg_mul]
    exact hround.neg

lemma convert_mono (ht : t.HasPositiveRates) (ha : a.Below a') (h : t.convert a u = .ok b)
    (h' : t.convert a' u = .ok b') : b.Below b' := by
  by_cases hne : a.currency = u
  · subst hne
    rw [convert_self] at h
    rw [← ha.currency, convert_self] at h'
    cases h
    cases h'
    exact ha
  · obtain ⟨rate, -, hr, -⟩ := (convert_eq_ok_iff_of_ne hne).mp h
    have hround := roundsTo_of_convert hne hr h
    rw [← ha.currency] at hne hr
    have hround' := roundsTo_of_convert hne hr h'
    refine ⟨(currency_of_convert h').trans (currency_of_convert h).symm, ?_⟩
    exact hround.mono hround'
      (mul_le_mul_of_nonneg_right ha.value (Decimal.toRat_nonneg_of_isPositive (ht _ _ _ hr)))

end RateTable

/-! ### Terms -/

namespace Term

/-- A term that is not larger than another one with the same directive. -/
structure Below (x x' : Term) : Prop where
  conversion : x'.conversion = x.conversion
  amount : x.entry.amount.Below x'.entry.amount

lemma below_refl (x : Term) : x.Below x := ⟨rfl, x.entry.amount.below_refl⟩

lemma Reaches.mono (ht : t.HasPositiveRates) (hx : x.Below x') (h : x.Reaches t target a)
    (h' : x'.Reaches t target a') : a.Below a' := by
  cases h with
  | written hd =>
    rw [← hx.conversion] at hd
    cases h' with
    | written hd' => exact hx.amount
    | converted hd' hne' hu' hb' =>
      rw [hd] at hd'
      cases hd'
  | converted hd hne hu hb =>
    rw [← hx.conversion] at hd
    cases h' with
    | written hd' =>
      rw [hd] at hd'
      cases hd'
    | converted hd' hne' hu' hb' =>
      rw [hd] at hd'
      cases hd'
      rw [hu] at hu'
      cases hu'
      exact RateTable.convert_mono ht hx.amount hb hb'

lemma Takes.mono (ht : t.HasPositiveRates) (hx : x.Below x') (h : x.Takes t target r)
    (h' : x'.Takes t target r') : r.settled.Below r'.settled :=
  RateTable.convert_mono ht (h.reached.mono ht hx h'.reached) h.settled h'.settled

lemma takes_mono (ht : t.HasPositiveRates) (hxs : List.Forall₂ Below xs xs')
    (h : List.Forall₂ (Takes t target) xs routes)
    (h' : List.Forall₂ (Takes t target) xs' routes') :
    List.Forall₂ Amount.Below (routes.map Route.settled) (routes'.map Route.settled) := by
  induction hxs generalizing routes routes' with
  | nil =>
    rw [List.forall₂_nil_left_iff.mp h, List.forall₂_nil_left_iff.mp h']
    exact .nil
  | cons hx _ ih =>
    obtain ⟨r, routes, hr, hroutes, rfl⟩ := List.forall₂_cons_left_iff.mp h
    obtain ⟨r', routes', hr', hroutes', rfl⟩ := List.forall₂_cons_left_iff.mp h'
    exact .cons (hr.mono ht hx hr') (ih hroutes hroutes')

/-- The same term with another value. -/
def withValue (x : Term) (v : Decimal) : Term :=
  ⟨⟨x.entry.sign, ⟨v, x.entry.literal.currency⟩, x.entry.position⟩, x.conversion⟩

variable {v : Decimal}

lemma below_withValue (hsign : x.entry.sign = .plus) (hv : x.entry.literal.value.toRat ≤ v.toRat) :
    x.Below (x.withValue v) := by
  refine ⟨rfl, rfl, ?_⟩
  rw [withValue, Entry.amount, Entry.amount]
  simp only [hsign, Amount.toRat_signed_plus]
  exact hv

lemma withValue_below (hsign : x.entry.sign = .minus)
    (hv : x.entry.literal.value.toRat ≤ v.toRat) : (x.withValue v).Below x := by
  refine ⟨rfl, rfl, ?_⟩
  rw [withValue, Entry.amount, Entry.amount]
  simp only [hsign, Amount.toRat_signed_minus]
  exact neg_le_neg hv

end Term

/-! ### Requests -/

namespace Request

variable {q q' : Request} {comp comp' : Computation}

/-- If no term is larger than in another request, then the answer is not larger. -/
lemma Evaluates.mono (ht : t.HasPositiveRates) (htarget : q'.target = q.target)
    (hterms : List.Forall₂ Term.Below q.expression.terms q'.expression.terms)
    (h : q.Evaluates t comp) (h' : q'.Evaluates t comp') :
    comp.answer.value.toRat ≤ comp'.answer.value.toRat := by
  cases h with
  | intro hT hr hs =>
    cases h' with
    | intro hT' hr' hs' =>
      rw [htarget, hT] at hT'
      cases hT'
      have htotal := hs.mono hs' (Term.takes_mono ht hterms hr hr')
      rw [Answer.toRat_ofAmount, Answer.toRat_ofAmount]
      exact htotal.value

end Request

namespace RateTable

variable {q q' : Request} {comp comp' : Computation} {before after : List Term} {v : Decimal}

/-- If two requests differ in the value of one term only, and both have an answer, then the one
with the larger value does not have the smaller answer, and not the larger one if the term has a
minus sign. -/
theorem evaluate_mono (ht : t.HasPositiveRates) (htarget : q'.target = q.target)
    (hq : q.expression.terms = before ++ x :: after)
    (hq' : q'.expression.terms = before ++ x.withValue v :: after)
    (hv : x.entry.literal.value.toRat ≤ v.toRat)
    (h : t.evaluate q = .ok comp) (h' : t.evaluate q' = .ok comp') :
    (x.entry.sign = .plus → comp.answer.value.toRat ≤ comp'.answer.value.toRat) ∧
      (x.entry.sign = .minus → comp'.answer.value.toRat ≤ comp.answer.value.toRat) := by
  have heval : q.Evaluates t comp := Evaluation.request_eq_ok_iff.mp h
  have heval' : q'.Evaluates t comp' := Evaluation.request_eq_ok_iff.mp h'
  have hrefl (xs : List Term) : List.Forall₂ Term.Below xs xs :=
    List.forall₂_same.mpr fun x _ => x.below_refl
  constructor
  · intro hsign
    refine heval.mono ht htarget ?_ heval'
    rw [hq, hq']
    exact List.rel_append (hrefl before) (.cons (Term.below_withValue hsign hv) (hrefl after))
  · intro hsign
    refine heval'.mono ht htarget.symm ?_ heval
    rw [hq, hq']
    exact List.rel_append (hrefl before) (.cons (Term.withValue_below hsign hv) (hrefl after))

/-- Euros that come to almost as many dollars as there is room for with one digit after the point,
for examples. -/
def sampleFortune : Term := ⟨⟨.plus, ⟨.ofUnits 8803129168251593065949327814 0, "EUR"⟩, 5⟩, none⟩

/-- Five cents that make the sum round, for examples. -/
def sampleCents : Term := ⟨⟨.plus, ⟨.ofUnits 5 2, "USD"⟩, 40⟩, none⟩

/-- With one euro more, the sum is rounded up to `2 ^ 96` tenths of a dollar, and loses its only
digit after the point. It is larger all the same. -/
theorem evaluate_mono_sample :
    let q : Request := ⟨⟨"usd", 0⟩, ⟨sampleFortune, [sampleCents]⟩⟩
    let q' : Request :=
      ⟨⟨"usd", 0⟩, ⟨sampleFortune.withValue (.ofUnits 8803129168251593065949327815 0),
        [sampleCents]⟩⟩
    ∃ comp comp', sample.evaluate q = .ok comp ∧ sample.evaluate q' = .ok comp' ∧
      comp.answer.value = .ofUnits 79228162514264337593543950326 1 ∧
      comp'.answer.value = .ofUnits 7922816251426433759354395034 0 ∧
      comp.answer.value.toRat ≤ comp'.answer.value.toRat := by
  intro q q'
  have hany : (sample.evaluate q).toOption.any
      (fun comp => comp.answer.value = .ofUnits 79228162514264337593543950326 1) = true := by
    decide +kernel
  have hany' : (sample.evaluate q').toOption.any
      (fun comp => comp.answer.value = .ofUnits 7922816251426433759354395034 0) = true := by
    decide +kernel
  obtain ⟨comp, h, hvalue⟩ := exists_ok_of_any hany
  obtain ⟨comp', h', hvalue'⟩ := exists_ok_of_any hany'
  have hq : q.expression.terms = [] ++ sampleFortune :: [sampleCents] := rfl
  have hq' : q'.expression.terms = [] ++ sampleFortune.withValue _ :: [sampleCents] := rfl
  have htarget : q'.target = q.target := rfl
  obtain ⟨hplus, -⟩ :=
    evaluate_mono hasPositiveRates_sample htarget hq hq' (by decide +kernel) h h'
  exact ⟨comp, comp', h, h', of_decide_eq_true hvalue, of_decide_eq_true hvalue', hplus rfl⟩

end RateTable

end Cambist
