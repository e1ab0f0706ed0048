import Cambist.Proofs.Evaluation.Explanation
import Cambist.Proofs.Evaluation.Position
import Cambist.Proofs.Request.Acceptance
import Cambist.Proofs.Token.Scan

/-!
# Canonical texts

Every request has a canonical text, with every sign written, every currency behind its number and
single spaces. It is parsed to the same request at new positions, whichever way the request was
written before.
-/

namespace Cambist

open Token (Placed Spells isCurrencyCode isDirectiveName)

/-! ### Writing requests -/

namespace Term

/-- The end of a term: a space and its directive, if it has one. -/
def conversionText : Option Directive → String
  | none   => ""
  | some d => " " ++ d.name

/-- The canonical text of a term. -/
def text (x : Term) : String :=
  " " ++ x.entry.sign.text ++ x.entry.literal.value.text ++ x.entry.literal.currency ++
    conversionText x.conversion

/-- A term that can be written: its number has no minus sign of its own, and its currency and
directive are made of the right characters. -/
structure WellFormed (x : Term) : Prop where
  value : x.entry.literal.value.sign = .plus
  currency : isCurrencyCode x.entry.literal.currency = true
  conversion : ∀ d ∈ x.conversion, isDirectiveName d.name = true

instance (x : Term) : Decidable x.WellFormed :=
  decidable_of_iff (x.entry.literal.value.sign = .plus ∧
      isCurrencyCode x.entry.literal.currency = true ∧
        ∀ d ∈ x.conversion, isDirectiveName d.name = true)
    ⟨fun ⟨hv, hc, hd⟩ => ⟨hv, hc, hd⟩, fun ⟨hv, hc, hd⟩ => ⟨hv, hc, hd⟩⟩

end Term

namespace Request

/-- The canonical text of a request. -/
def text (r : Request) : String :=
  r.target.name ++ ":" ++ String.join (r.expression.terms.map Term.text)

/-- A request that can be written. -/
structure WellFormed (r : Request) : Prop where
  target : isDirectiveName r.target.name = true
  terms : ∀ x ∈ r.expression.terms, x.WellFormed

instance (r : Request) : Decidable r.WellFormed :=
  decidable_of_iff (isDirectiveName r.target.name = true ∧
      ∀ x ∈ r.expression.terms, x.WellFormed)
    ⟨fun ⟨htarget, hterms⟩ => ⟨htarget, hterms⟩, fun ⟨htarget, hterms⟩ => ⟨htarget, hterms⟩⟩

end Request

/-! ### Scanning a canonical text -/

variable {x : Term} {xs : List Term} {r : Request} {cs : List Char} {us : List Token}
  {ts : List Placed}

/-- A space keeps every token apart from what follows. -/
lemma Token.stops_of_space (t : Token) (h : ∀ c ∈ cs.head?, c = ' ') : Stops t.runsInto cs := by
  intro c hc
  rw [h c hc]
  exact t.runsInto_space

/-- A number does not run into a currency. -/
lemma Token.stops_of_isCurrencyCode {value : Decimal} {code : String}
    (h : isCurrencyCode code = true) : Stops (number value).runsInto (code.toList ++ cs) := by
  have apart {c : Char} (hdigit : c.isDigit = false) (hpoint : c ≠ '.') :
      (number value).runsInto c = false := by
    rw [runsInto, hdigit, decide_eq_false hpoint, Bool.or_false]
  rcases Token.isCurrencyCode_iff.mp h with ⟨c, code', hcode, hc, -⟩ | ⟨c, hcode, hc⟩
  · rw [hcode, List.cons_append, stops_cons]
    exact apart (isDigit_of_isUpper hc) (ne_of_class hc (by decide))
  · rw [hcode, List.cons_append, stops_cons]
    exact apart (class_of_isCurrencySymbol hc).1 (ne_of_class hc (by decide))

namespace Sign

lemma text_token (s : Sign) : s.token.text = s.text := by
  cases s <;> rfl

lemma wellFormed_token (s : Sign) : s.token.WellFormed := by
  cases s <;> trivial

lemma stops_token (s : Sign) : Stops s.token.runsInto cs := by
  intro c _
  cases s <;> rfl

end Sign

namespace Term

def conversionTokens : Option Directive → List Token
  | none   => []
  | some d => [.directive d.name]

/-- The tokens in the canonical text of a term. -/
def tokens (x : Term) : List Token :=
  x.entry.sign.token :: .number x.entry.literal.value :: .currency x.entry.literal.currency ::
    conversionTokens x.conversion

lemma spells_conversionText {o : Option Directive} (h : Spells cs us)
    (ho : ∀ d ∈ o, isDirectiveName d.name = true) (hcs : ∀ c ∈ cs.head?, c = ' ') :
    Spells ((conversionText o).toList ++ cs) (conversionTokens o ++ us) := by
  cases o with
  | none => exact h
  | some d =>
    have hd : (Token.directive d.name).WellFormed := ho d rfl
    rw [conversionText, String.toList_append, List.append_assoc]
    exact (h.token hd (Token.stops_of_space _ hcs)).space

lemma head?_conversionText {o : Option Directive} (hcs : ∀ c ∈ cs.head?, c = ' ') :
    ∀ c ∈ ((conversionText o).toList ++ cs).head?, c = ' ' := by
  cases o with
  | none => exact hcs
  | some d =>
    rw [conversionText, String.toList_append]
    intro c hc
    exact (Option.some.inj hc).symm

lemma spells_text (hx : x.WellFormed) (h : Spells cs us) (hcs : ∀ c ∈ cs.head?, c = ' ') :
    Spells (x.text.toList ++ cs) (x.tokens ++ us) := by
  have hend := spells_conversionText h hx.conversion hcs
  have hcurrency : (Token.currency x.entry.literal.currency).WellFormed := hx.currency
  have hcode := hend.token hcurrency (Token.stops_of_space _ (head?_conversionText hcs))
  have hvalue : (Token.number x.entry.literal.value).WellFormed := hx.value
  have hnumber := hcode.token hvalue (Token.stops_of_isCurrencyCode hx.currency)
  have hsign := hnumber.token (Sign.wellFormed_token x.entry.sign) (Sign.stops_token _)
  have htext : x.text.toList ++ cs = ' ' :: (x.entry.sign.token.text.toList ++
      (x.entry.literal.value.text.toList ++ (x.entry.literal.currency.toList ++
        ((conversionText x.conversion).toList ++ cs)))) := by
    rw [Sign.text_token]
    simp [text]
  rw [htext]
  exact hsign.space

lemma head?_text (x : Term) : x.text.toList.head? = some ' ' := by
  simp [text]

end Term

namespace Request

/-- The tokens in the canonical text of a request. -/
def tokens (r : Request) : List Token :=
  .directive r.target.name :: .colon :: r.expression.terms.flatMap Term.tokens

lemma spells_terms (h : ∀ x ∈ xs, x.WellFormed) :
    Spells (xs.flatMap fun x => x.text.toList) (xs.flatMap Term.tokens) ∧
      ∀ c ∈ (xs.flatMap fun x => x.text.toList).head?, c = ' ' := by
  induction xs with
  | nil => exact ⟨Token.spells_nil, nofun⟩
  | cons x xs ih =>
    obtain ⟨hx, h⟩ := List.forall_mem_cons.mp h
    obtain ⟨hspells, hspace⟩ := ih h
    refine ⟨Term.spells_text hx hspells hspace, ?_⟩
    intro c hc
    rw [List.flatMap_cons, List.head?_append, x.head?_text] at hc
    exact (Option.some.inj hc).symm

/-- The canonical text of a request is scanned as the tokens that it is written from. -/
lemma spells_text (h : r.WellFormed) : Spells r.text.toList r.tokens := by
  obtain ⟨hterms, -⟩ := spells_terms h.terms
  have htarget : (Token.directive r.target.name).WellFormed := h.target
  have hcolon := hterms.token (t := .colon) trivial (fun _ _ => rfl)
  have hall := hcolon.token htarget (stops_cons.mpr rfl)
  have htext : r.text.toList = (Token.directive r.target.name).text.toList ++
      (Token.colon.text.toList ++ r.expression.terms.flatMap fun x => x.text.toList) := by
    simp [text, Token.text, String.toList_join, List.flatMap_map]
  rw [htext]
  exact hall

end Request

/-! ### Sentences of a request -/

namespace Phrase

lemma exists_directiveTokens_eq {o : Option Directive}
    (h : ts.map Placed.token = Term.conversionTokens o) : ∃ o' : Option Directive,
      directiveTokens o' = ts ∧ o'.map (Directive.relocate fun _ => 0) =
        o.map (Directive.relocate fun _ => 0) := by
  cases o with
  | none => exact ⟨none, (List.map_eq_nil_iff.mp h).symm, rfl⟩
  | some d =>
    obtain ⟨⟨_, i⟩, rest, rfl, rfl, hrest⟩ := List.map_eq_cons_iff.mp h
    cases List.map_eq_nil_iff.mp hrest
    exact ⟨some ⟨d.name, i⟩, rfl, rfl⟩

/-- Wherever the tokens of a term stand, they spell a phrase that means this term. -/
lemma exists_tokens_eq (h : ts.map Placed.token = x.tokens) :
    ∃ p : Phrase, p.tokens = ts ∧ p.order = .numberFirst ∧
      p.term.relocate (fun _ => 0) = x.relocate fun _ => 0 := by
  obtain ⟨⟨_, i⟩, us, rfl, rfl, hamount⟩ := List.map_eq_cons_iff.mp h
  obtain ⟨⟨_, j⟩, vs, rfl, rfl, hcurrency⟩ := List.map_eq_cons_iff.mp hamount
  obtain ⟨⟨_, k⟩, ws, rfl, rfl, hconversion⟩ := List.map_eq_cons_iff.mp hcurrency
  obtain ⟨o, rfl, ho⟩ := exists_directiveTokens_eq hconversion
  refine ⟨⟨some (x.entry.sign, i), .numberFirst, x.entry.literal, j, k, o⟩, rfl, rfl, ?_⟩
  exact congrArg (Term.mk _) ho

lemma exists_spelling_eq (h : ts.map Placed.token = xs.flatMap Term.tokens) :
    ∃ ps : List Phrase, spelling ps = ts ∧ (∀ p ∈ ps, p.order = .numberFirst) ∧
      (ps.map Phrase.term).map (Term.relocate fun _ => 0) =
        xs.map (Term.relocate fun _ => 0) := by
  induction xs generalizing ts with
  | nil => exact ⟨[], (List.map_eq_nil_iff.mp h).symm, nofun, rfl⟩
  | cons x xs ih =>
    obtain ⟨us, vs, rfl, hx, hxs⟩ := List.map_eq_append_iff.mp h
    obtain ⟨p, rfl, hp, hterm⟩ := exists_tokens_eq hx
    obtain ⟨ps, rfl, hps, hterms⟩ := ih hxs
    exact ⟨p :: ps, rfl, List.forall_mem_cons.mpr ⟨hp, hps⟩, congrArg₂ List.cons hterm hterms⟩

lemma noSecondCurrency_of_numberFirst {ps : List Phrase} (h : ∀ p ∈ ps, p.order = .numberFirst) :
    NoSecondCurrency ps := by
  induction ps with
  | nil => trivial
  | cons p ps ih =>
    obtain ⟨hp, hps⟩ := List.forall_mem_cons.mp h
    refine ⟨?_, ih hps⟩
    rw [hp]
    nofun

end Phrase

namespace Request

/-- The canonical text of a request holds that request, at new positions. -/
lemma exists_parse_text (h : r.WellFormed) :
    ∃ r', Request.parse r.text = .ok r' ∧ r'.unplaced = r.unplaced := by
  obtain ⟨ts, hts, htokens⟩ := spells_text h 0
  obtain ⟨⟨_, i⟩, us, rfl, rfl, hcolon⟩ := List.map_eq_cons_iff.mp htokens
  obtain ⟨⟨_, j⟩, vs, rfl, rfl, hspelling⟩ := List.map_eq_cons_iff.mp hcolon
  obtain ⟨ps, rfl, horder, hterms⟩ := Phrase.exists_spelling_eq hspelling
  cases ps with
  | nil => simp [Expression.terms] at hterms
  | cons p ps =>
    let s : Sentence := ⟨⟨r.target.name, i⟩, j, p, ps⟩
    refine ⟨s.request, parse_eq_ok_iff.mpr ⟨s, Token.tokenize_eq_ok_iff.mpr hts,
      Phrase.noSecondCurrency_of_numberFirst horder, rfl⟩, ?_⟩
    obtain ⟨hfirst, hrest⟩ := List.cons_eq_cons.mp hterms
    exact congrArg (Request.mk _) (congrArg₂ Expression.mk hfirst hrest)

end Request

/-! ### Requests of a line -/

lemma Phrase.wellFormed_term {p : Phrase} (h : ∀ t ∈ p.tokens, t.token.WellFormed) :
    p.term.WellFormed := by
  obtain ⟨i, hi⟩ := p.number_mem_tokens
  obtain ⟨j, hj⟩ := p.currency_mem_tokens
  exact ⟨h _ hi, h _ hj, fun d hd => h _ (placed_mem_tokens hd)⟩

namespace Request

variable {source : String}

/-- The request that a line holds can be written. -/
lemma wellFormed_of_parse (h : Request.parse source = .ok r) : r.WellFormed := by
  obtain ⟨s, hscan, -, rfl⟩ := parse_eq_ok_iff.mp h
  have htokens := (Token.tokenize_eq_ok_iff.mp hscan).wellFormed
  refine ⟨htokens _ List.mem_cons_self, ?_⟩
  intro x hx
  obtain ⟨p, hp, rfl⟩ : ∃ p ∈ s.phrases, p.term = x := List.mem_map.mp hx
  apply Phrase.wellFormed_term
  intro t ht
  have hmem : t ∈ Phrase.spelling s.phrases := List.mem_flatMap.mpr ⟨p, hp, ht⟩
  exact htokens t (List.mem_cons_of_mem _ (List.mem_cons_of_mem _ hmem))

/-- A request whose names and values can be written is parsed back from its canonical text, up to
positions. The request of every line is such a request, and its canonical text computes as the line
does: to the same answer by the same steps, or to the same failure up to its position. -/
theorem parse_text_round_trip :
    (∀ r : Request, r.WellFormed →
      ∃ r', Request.parse r.text = .ok r' ∧ r'.unplaced = r.unplaced) ∧
    ∀ (source : String) (r : Request), Request.parse source = .ok r →
      r.WellFormed ∧ (∃ r', Request.parse r.text = .ok r' ∧ r'.unplaced = r.unplaced) ∧
        ∀ t : RateTable, (t.compute r.text).mapError Failure.unplaced =
          (t.compute source).mapError Failure.unplaced := by
  refine ⟨fun r h => exists_parse_text h, ?_⟩
  intro source r h
  have hr := wellFormed_of_parse h
  obtain ⟨r', hparse, hunplaced⟩ := exists_parse_text hr
  exact ⟨hr, ⟨r', hparse, hunplaced⟩, fun t => t.compute_unplaced h hparse hunplaced⟩

/-- The largest number at the largest scale is read back, and so is a line with the currency in
front of a number and no sign. -/
theorem parse_text_round_trip_sample :
    let r : Request := ⟨⟨"eur_2", 3⟩,
      ⟨⟨⟨.minus, ⟨⟨.plus, ⟨2 ^ 96 - 1, 28, by decide, by decide⟩⟩, "$"⟩, 7⟩, some ⟨"usd", 9⟩⟩, []⟩⟩
    r.WellFormed ∧ (∃ r', Request.parse r.text = .ok r' ∧ r'.unplaced = r.unplaced) ∧
      ∃ q, Request.parse "usd:€1.50 to - 3GBP" = .ok q ∧ q.WellFormed ∧
        (∃ q', Request.parse q.text = .ok q' ∧ q'.unplaced = q.unplaced) ∧
          ∀ t : RateTable, (t.compute q.text).mapError Failure.unplaced =
            (t.compute "usd:€1.50 to - 3GBP").mapError Failure.unplaced := by
  intro r
  obtain ⟨hwritten, hread⟩ := parse_text_round_trip
  have hr : r.WellFormed := by decide +kernel
  have hany : (Request.parse "usd:€1.50 to - 3GBP").toOption.any
      (fun q => q.expression.rest.length = 1) = true := by decide +kernel
  obtain ⟨q, hq, -⟩ := exists_ok_of_any hany
  exact ⟨hr, hwritten r hr, q, hq, hread _ q hq⟩

end Request

end Cambist
