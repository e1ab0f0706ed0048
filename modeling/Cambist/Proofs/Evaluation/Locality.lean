import Cambist.Proofs.Evaluation.Explanation
import Cambist.Proofs.Request.Acceptance

/-!
# What an answer depends on

An answer depends on the directives of its line and on the rates behind its steps, and on nothing
else in the table. No evaluation, whether it succeeds or fails, looks at the rate from a currency to
itself.
-/

namespace Cambist

variable {t t' : RateTable} {target : String} {x : Term} {a : Amount} {r : Route}
  {e : EvaluationError} {comp : Computation} {source : String}

/-! ### Conversions and terms -/

/-- A conversion looks at one rate, and only if the currency changes. -/
lemma RateTable.convert_congr {u : String}
    (h : a.currency ≠ u → t'.rate? a.currency u = t.rate? a.currency u) :
    t'.convert a u = t.convert a u := by
  by_cases hne : a.currency = u
  · subst hne
    rw [convert_self, convert_self]
  · simp only [convert, rate, h hne]

namespace Term

/-- A term takes the same route by every table that has the rates of its moves. -/
lemma Takes.congr (h : x.Takes t target r)
    (hd : ∀ d ∈ x.conversion, t'.resolve? d.name = t.resolve? d.name)
    (hr : ∀ a b, .converted a b ∈ r.moves →
      t'.rate? a.currency b.currency = t.rate? a.currency b.currency) : x.Takes t' target r := by
  obtain ⟨written, reached, settled⟩ := r
  obtain ⟨rfl, hreached, hsettled⟩ := h
  dsimp only at hreached hsettled
  refine ⟨rfl, ?_, ?_⟩
  · cases hreached with
    | written hnone => exact .written hnone
    | converted hsome hne hu hb =>
      have hcur := RateTable.currency_of_convert hb
      refine .converted hsome hne ((hd _ hsome).trans hu) ?_
      rw [← hb]
      apply RateTable.convert_congr
      intro hne'
      rw [← hcur] at hne' ⊢
      exact hr _ _ (List.mem_append_left _ (Amount.mem_hop_iff.mpr ⟨hne', rfl⟩))
  · have hcur := RateTable.currency_of_convert hsettled
    rw [← hsettled]
    apply RateTable.convert_congr
    intro hne'
    rw [← hcur] at hne' ⊢
    exact hr _ _ (List.mem_append_right _ (Amount.mem_hop_iff.mpr ⟨hne', rfl⟩))

end Term

/-! ### Tables that agree -/

/-- Do two tables give the same rates between different currencies, and the same currencies for all
directives? -/
structure RateTable.Agrees (t t' : RateTable) : Prop where
  resolve : ∀ name, t'.resolve? name = t.resolve? name
  rate : ∀ a b, a ≠ b → t'.rate? a b = t.rate? a b

lemma RateTable.Agrees.symm (h : t.Agrees t') : t'.Agrees t where
  resolve name := (h.resolve name).symm
  rate a b hne := (h.rate a b hne).symm

lemma RateTable.Agrees.convert (h : t.Agrees t') (a : Amount) (u : String) :
    t'.convert a u = t.convert a u :=
  convert_congr (h.rate a.currency u)

namespace Term

lemma Takes.of_agrees (ht : t.Agrees t') (h : x.Takes t target r) : x.Takes t' target r := by
  refine h.congr (fun d _ => ht.resolve d.name) ?_
  intro a b hmem
  obtain ⟨a', b', hne, heq⟩ := Route.converted_of_mem_moves hmem
  cases heq
  exact ht.rate _ _ hne

lemma Reaches.of_agrees (ht : t.Agrees t') (h : x.Reaches t target a) : x.Reaches t' target a := by
  cases h with
  | written hd => exact .written hd
  | converted hd hne hu hb =>
    exact .converted hd hne ((ht.resolve _).trans hu) ((ht.convert _ _).trans hb)

lemma Fails.of_agrees (ht : t.Agrees t') (h : x.Fails t target e) : x.Fails t' target e := by
  have refuses {a : Amount} {u : String} (he : t.Refuses a u e) : t'.Refuses a u e := by
    rw [← RateTable.convert_eq_error_iff] at he ⊢
    rw [ht.convert, he]
  cases h with
  | selfConversion hd heq => exact .selfConversion hd heq
  | unknownDirective hd hne hu => exact .unknownDirective hd hne ((ht.resolve _).trans hu)
  | refusedByDirective hd hne hu he =>
    exact .refusedByDirective hd hne ((ht.resolve _).trans hu) (refuses he)
  | refusedByTarget ha he => exact .refusedByTarget (ha.of_agrees ht) (refuses he)

end Term

namespace Request

variable {q : Request}

lemma Evaluates.of_agrees (ht : t.Agrees t') (h : q.Evaluates t comp) : q.Evaluates t' comp := by
  cases h with
  | intro hT hr hs =>
    exact .intro ((ht.resolve _).trans hT) (hr.imp fun _ _ h => h.of_agrees ht) hs

lemma Fails.of_agrees (ht : t.Agrees t') (h : q.Fails t e) : q.Fails t' e := by
  cases h with
  | directive hT => exact .directive ((ht.resolve _).trans hT)
  | term hT heq hbefore hx =>
    refine .term ((ht.resolve _).trans hT) heq ?_ (hx.of_agrees ht)
    intro y hy e' he'
    exact hbefore y hy e' (he'.of_agrees ht.symm)
  | sum hT hr ho =>
    exact .sum ((ht.resolve _).trans hT) (hr.imp fun _ _ h => h.of_agrees ht) ho

/-- Tables that agree evaluate every request alike. -/
lemma evaluate_of_agrees (ht : t.Agrees t') (q : Request) : t'.evaluate q = t.evaluate q := by
  rcases q.evaluates_or_fails t with ⟨comp, h⟩ | ⟨e, h⟩
  · rw [h.evaluate_eq, (h.of_agrees ht).evaluate_eq]
  · rw [h.evaluate_eq, (h.of_agrees ht).evaluate_eq]

end Request

/-! ### Directives of a line -/

/-- Does a directive with this name occur in a line? -/
def Token.Mentions (source name : String) : Prop :=
  ∃ ts i, Token.tokenize source = .ok ts ∧ (⟨.directive name, i⟩ : Token.Placed) ∈ ts

/-- The directives of a request are those that occur in its line. -/
lemma Request.mentions_of_parse {q : Request} (h : Request.parse source = .ok q) :
    Token.Mentions source q.target.name ∧
      ∀ x ∈ q.expression.terms, ∀ d ∈ x.conversion, Token.Mentions source d.name := by
  obtain ⟨s, htok, -, rfl⟩ := Request.parse_eq_ok_iff.mp h
  constructor
  · exact ⟨s.tokens, s.target.position, htok, List.mem_cons_self⟩
  · intro x hx d hd
    obtain ⟨p, hp, rfl⟩ : ∃ p ∈ s.phrases, p.term = x := List.mem_map.mp hx
    have hmem : d.placed ∈ Phrase.spelling s.phrases :=
      List.mem_flatMap.mpr ⟨p, hp, Phrase.placed_mem_tokens hd⟩
    exact ⟨s.tokens, d.position, htok, List.mem_cons_of_mem _ (List.mem_cons_of_mem _ hmem)⟩

/-! ### Answers -/

namespace RateTable

lemma takes_congr {xs : List Term} {routes : List Route}
    (h : List.Forall₂ (Term.Takes t target) xs routes)
    (hd : ∀ x ∈ xs, ∀ d ∈ x.conversion, t'.resolve? d.name = t.resolve? d.name)
    (hr : ∀ a b, .converted a b ∈ routes.flatMap Route.moves →
      t'.rate? a.currency b.currency = t.rate? a.currency b.currency) :
    List.Forall₂ (Term.Takes t' target) xs routes := by
  induction h with
  | nil => exact .nil
  | @cons x r xs routes hx _ ih =>
    obtain ⟨hdx, hd⟩ := List.forall_mem_cons.mp hd
    rw [List.flatMap_cons] at hr
    refine .cons (hx.congr hdx ?_) (ih hd ?_)
    · intro a b hmem
      exact hr a b (List.mem_append_left _ hmem)
    · intro a b hmem
      exact hr a b (List.mem_append_right _ hmem)

/-- An answer with its steps stays if the directives of the line and the rates of the conversions
among the steps do. Every outcome stays if all directives and all rates between different currencies
do. -/
theorem compute_eq_of_agrees (t t' : RateTable) (source : String) :
    (∀ comp, t.compute source = .ok comp →
      (∀ name, Token.Mentions source name → t'.resolve? name = t.resolve? name) →
      (∀ i a b, .converted i a b ∈ comp.steps →
        t'.rate? a.currency b.currency = t.rate? a.currency b.currency) →
      t'.compute source = .ok comp) ∧
    ((∀ name, t'.resolve? name = t.resolve? name) →
      (∀ a b, a ≠ b → t'.rate? a b = t.rate? a b) →
      t'.compute source = t.compute source) := by
  constructor
  · intro comp h hd hr
    obtain ⟨q, hparse, heval⟩ := compute_eq_ok_iff.mp h
    obtain ⟨htarget, hterms⟩ := Request.mentions_of_parse hparse
    refine compute_eq_ok_iff.mpr ⟨q, hparse, ?_⟩
    cases Evaluation.request_eq_ok_iff.mp heval with
    | @intro target routes additions total hT htakes hs =>
      apply Evaluation.request_of_evaluates
      refine .intro ((hd _ htarget).trans hT) (takes_congr htakes ?_ ?_) hs
      · intro x hx d hmem
        exact hd _ (hterms x hx d hmem)
      · intro a b hmem
        obtain ⟨k, hk⟩ := Move.exists_step_mem_numbered 0 (List.mem_append_left _ hmem)
        exact hr k a b (List.mem_toArray.mpr hk)
  · intro hd hr
    have ht : t.Agrees t' := ⟨hd, hr⟩
    simp only [compute, Request.evaluate_of_agrees ht]

/-- Do two tables have the same rates for the conversions among some steps? -/
def sameRates (t t' : RateTable) (steps : Array Step) : Bool :=
  steps.all fun
    | .converted _ a b => t'.rate? a.currency b.currency = t.rate? a.currency b.currency
    | .accumulated .. => true

lemma rate?_eq_of_sameRates {steps : Array Step} (h : t.sameRates t' steps = true) (i : Nat)
    (a b : Amount) (hmem : .converted i a b ∈ steps) :
    t'.rate? a.currency b.currency = t.rate? a.currency b.currency := by
  have hstep := Array.all_eq_true_iff_forall_mem.mp h _ hmem
  exact of_decide_eq_true hstep

/-- A line with three conversions does not depend on a rate that none of them uses, and a failing
one not on a rate from a currency to itself. -/
theorem compute_eq_of_agrees_sample :
    let unused := sample.withRate "USD" "EUR" (.ofUnits 11 1)
    let reflexive := sample.withRate "EUR" "EUR" (.ofUnits 2 0)
    (∃ comp, sample.compute "usd: 300RUB eur + 1USD - 2EUR eur" = .ok comp ∧
      sample.sameRates unused comp.steps = true ∧
      unused.compute "usd: 300RUB eur + 1USD - 2EUR eur" = .ok comp) ∧
    reflexive.compute "usd: 1EUR eur + 1USD eur" = sample.compute "usd: 1EUR eur + 1USD eur" := by
  intro unused reflexive
  constructor
  · have hrates : (sample.compute "usd: 300RUB eur + 1USD - 2EUR eur").toOption.any
        (fun comp => sample.sameRates unused comp.steps) = true := by decide +kernel
    obtain ⟨hsome, -⟩ := compute_eq_of_agrees sample unused "usd: 300RUB eur + 1USD - 2EUR eur"
    obtain ⟨comp, h, hsame⟩ := exists_ok_of_any hrates
    exact ⟨comp, h, hsame, hsome comp h (fun _ _ => rfl) (rate?_eq_of_sameRates hsame)⟩
  · obtain ⟨-, hall⟩ := compute_eq_of_agrees sample reflexive "usd: 1EUR eur + 1USD eur"
    apply hall (fun _ => rfl)
    intro a b hne
    have hpair : ¬ ("EUR" = a ∧ "EUR" = b) := by
      rintro ⟨rfl, rfl⟩
      exact hne rfl
    rw [rate?_withRate, if_neg hpair]

end RateTable

end Cambist
