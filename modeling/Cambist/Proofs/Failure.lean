import Cambist.Proofs.Evaluation.Explanation
import Cambist.Proofs.Evaluation.Position
import Cambist.Proofs.Request.Acceptance
import Cambist.Proofs.Request.Viability
import Cambist.Proofs.Token.MaximalMunch

/-!
# Where failures point

The position in a failure is that of what it complains of, counted in characters of the line: an
unknown directive stands there as a lexeme of its own, a term that is to be changed into its own
currency starts there, and a syntax error is within the line unless something is missing at its end.
-/

namespace Cambist

open Lexeme (IsLongest Munches)

/-! ### Tokens in the text of a line -/

/-- At this position of a line, which is made of lexemes throughout, this is the lexeme. -/
structure Lexeme.StandsAt (source : String) (i : Nat) (l : Lexeme) : Prop where
  longest : IsLongest (source.toList.drop i) l
  cut : ∃ ls, Munches source.toList 0 ls [] source.length ∧ ⟨l, i⟩ ∈ ls

/-- Where a phrase starts: at its sign, or if none is written at the number or the currency in
front. -/
def Phrase.start (p : Phrase) : Nat := (p.sign.map Prod.snd).getD p.first

/-- The line holds this sentence: its tokens are those of the sentence, and each of them is what a
lexeme stands for, just where its position says. -/
structure Sentence.StandsIn (s : Sentence) (source : String) : Prop where
  tokens : Token.tokenize source = .ok s.tokens
  request : Request.parse source = .ok s.request
  stands : ∀ t ∈ s.tokens, ∃ l : Lexeme, l.token? = some t.token ∧ l.StandsAt source t.position

/-- Is the position of a failure, if it has one, that of what the failure complains of? -/
def Failure.Truthful (t : RateTable) (source : String) : Failure → Prop
  | syntactic e =>
    e.position ≤ source.length ∧ (e.position = source.length ↔ ∃ x, e.cause = .unexpectedEnd x)
  | evaluation (.unknownDirective name i) =>
    Lexeme.StandsAt source i ⟨.directive, name.toList⟩ ∧ t.resolve? name = none
  | evaluation (.selfConversion currency i) =>
    ∃ s : Sentence, s.StandsIn source ∧ t.resolve? s.target.name = some currency ∧
      ∃ p ∈ s.phrases, p.start = i ∧ p.literal.currency = currency ∧ p.conversion.isSome
  | evaluation _ => True

variable {t : RateTable} {source : String} {i : Nat} {l : Lexeme} {s : Sentence} {p : Phrase}

lemma Lexeme.StandsAt.lt_length (h : l.StandsAt source i) : i < source.length := by
  have hlen := h.longest.starts.length_le
  have hpos := List.length_pos_iff.mpr h.longest.shape.chars_ne_nil
  rw [List.length_drop, String.length_toList] at hlen
  omega

lemma Lexeme.eq_of_token?_directive {name : String} (h : l.token? = some (.directive name)) :
    l = ⟨.directive, name.toList⟩ := by
  obtain ⟨kind, chars⟩ := l
  cases kind with
  | number =>
    obtain ⟨value, -, hvalue⟩ := Option.map_eq_some_iff.mp h
    cases hvalue
  | directive =>
    cases h
    rw [Lexeme.text, String.toList_ofList]
  | currency | colon | plus | minus => cases h

lemma Token.exists_standsAt {ts : List Token.Placed} (h : Token.tokenize source = .ok ts) :
    ∀ t ∈ ts, ∃ l : Lexeme, l.token? = some t.token ∧ l.StandsAt source t.position := by
  obtain ⟨ls, hmunches, hls⟩ := (Token.tokenize_eq_ok_iff.mp h).exists_munches
  rw [Nat.zero_add, String.length_toList] at hmunches
  intro t ht
  obtain ⟨k, hk, rfl⟩ := List.getElem_of_mem ht
  have hk' : k < ls.length := hls.length_eq ▸ hk
  have hmeans : ls[k].Means ts[k] := hls.get hk' hk
  have hmem : ls[k] ∈ ls := List.getElem_mem hk'
  refine ⟨ls[k].lexeme, hmeans.token, ?_, ls, hmunches, ?_⟩
  · rw [hmeans.position]
    exact Lexeme.isLongest_of_munches hmunches List.drop_zero.symm _ hmem
  · rw [hmeans.position]
    exact hmem

lemma Sentence.standsIn_of_tokenize (h : Token.tokenize source = .ok s.tokens)
    (hs : Phrase.NoSecondCurrency s.phrases) : s.StandsIn source where
  tokens := h
  request := Request.parse_eq_ok_iff.mpr ⟨s, h, hs, rfl⟩
  stands := Token.exists_standsAt h

/-! ### Syntax errors -/

lemma Token.position_of_scan_error {cs : List Char} {found : List Token.Placed} {e : SyntaxError}
    (h : Token.scan cs i found = .error e) :
    e.position < i + cs.length ∧ ∀ x, e.cause ≠ .unexpectedEnd x := by
  fun_induction Token.scan cs i found with
  | case1 => cases h
  | case2 i found c rest hc ih =>
    obtain ⟨hlt, hcause⟩ := ih h
    rw [List.length_cons]
    exact ⟨by omega, hcause⟩
  | case3 i found c rest hc hl =>
    cases h
    exact ⟨by simp, by simp⟩
  | case4 i found c rest hc l hl ht =>
    cases h
    exact ⟨by simp, by simp⟩
  | case5 i found c rest hc l hl t ht hpos ih =>
    have hle := (Lexeme.matches_of_first? hl).2.length_le
    obtain ⟨hlt, hcause⟩ := ih h
    rw [List.length_drop] at hlt
    exact ⟨by omega, hcause⟩

/-- A syntax error is within the line, or at its end and then because something is missing there. -/
lemma Request.position_of_parse_error {e : SyntaxError} (h : Request.parse source = .error e) :
    e.position ≤ source.length ∧
      (e.position = source.length ↔ ∃ x, e.cause = .unexpectedEnd x) := by
  have hwithin (hlt : e.position < source.length) (hcause : ∀ x, e.cause ≠ .unexpectedEnd x) :
      e.position ≤ source.length ∧
        (e.position = source.length ↔ ∃ x, e.cause = .unexpectedEnd x) :=
    ⟨hlt.le, fun heq => absurd heq hlt.ne, fun ⟨x, hx⟩ => absurd hx (hcause x)⟩
  rw [Request.parse] at h
  cases htok : Token.tokenize source with
  | error e' =>
    rw [htok] at h
    cases h
    rw [Token.tokenize_eq_scan] at htok
    obtain ⟨hlt, hcause⟩ := Token.position_of_scan_error htok
    rw [Nat.zero_add, String.length_toList] at hlt
    exact hwithin hlt hcause
  | ok ts =>
    rw [htok] at h
    rcases Parser.position_of_error h with ⟨t, ht, hposition, hcause⟩ | ⟨x, rfl⟩
    · obtain ⟨l, -, hl⟩ := Token.exists_standsAt htok t ht
      exact hwithin (hposition ▸ hl.lt_length) hcause
    · exact ⟨Nat.le_refl _, fun _ => ⟨x, rfl⟩, fun _ => rfl⟩

/-! ### Evaluation errors -/

lemma RateTable.Refuses.truthful {a : Amount} {u : String} {e : EvaluationError}
    (h : t.Refuses a u e) : (Failure.evaluation e).Truthful t source := by
  cases h <;> trivial

lemma Overflows.truthful {as : List Amount} {e : EvaluationError} (h : Overflows as e) :
    (Failure.evaluation e).Truthful t source := by
  obtain ⟨before, left, after, additions, right, -, -, -, rfl⟩ := h
  trivial

lemma Phrase.position_term (p : Phrase) : p.term.entry.position = p.start := by
  obtain ⟨_ | ⟨s, i⟩, _ | _, l, j, k, d⟩ := p <;> rfl

/-- A directive that the table does not know is found where it stands. -/
lemma Sentence.StandsIn.unknownDirective_truthful {d : Directive} (h : s.StandsIn source)
    (hd : d.placed ∈ s.tokens) (hu : t.resolve? d.name = none) :
    (Failure.evaluation (.unknownDirective d.name d.position)).Truthful t source := by
  obtain ⟨l, hl, hstands⟩ := h.stands d.placed hd
  cases Lexeme.eq_of_token?_directive hl
  exact ⟨hstands, hu⟩

lemma Sentence.placed_mem_tokens {d : Directive} (hp : p ∈ s.phrases) (hd : p.conversion = some d) :
    d.placed ∈ s.tokens := by
  refine List.mem_cons_of_mem _ (List.mem_cons_of_mem _ ?_)
  exact List.mem_flatMap.mpr ⟨p, hp, Phrase.placed_mem_tokens hd⟩

lemma Sentence.StandsIn.truthful_of_fails {e : EvaluationError} (h : s.StandsIn source)
    (he : s.request.Fails t e) : (Failure.evaluation e).Truthful t source := by
  cases he with
  | directive hT => exact h.unknownDirective_truthful List.mem_cons_self hT
  | @term target before after x e hT heq hbefore hx =>
    have hmem : x ∈ s.phrases.map Phrase.term := by
      have hterms : s.phrases.map Phrase.term = before ++ x :: after := heq
      rw [hterms]
      exact List.mem_append_right _ List.mem_cons_self
    obtain ⟨p, hp, rfl⟩ := List.mem_map.mp hmem
    cases hx with
    | selfConversion hd heq =>
      exact ⟨s, h, heq ▸ hT, p, hp, p.position_term.symm, rfl,
        Option.isSome_iff_exists.mpr ⟨_, hd⟩⟩
    | unknownDirective hd hne hu =>
      exact h.unknownDirective_truthful (placed_mem_tokens hp hd) hu
    | refusedByDirective hd hne hu he => exact he.truthful
    | refusedByTarget ha he => exact he.truthful
  | sum hT hr ho => exact ho.truthful

/-- The position of every failure is truthful. -/
theorem RateTable.compute_error_truthful {e : Failure} (h : t.compute source = .error e) :
    e.Truthful t source := by
  cases hparse : Request.parse source with
  | error e' =>
    rw [compute, hparse] at h
    cases h
    exact Request.position_of_parse_error hparse
  | ok r =>
    obtain ⟨s, htokens, hs, rfl⟩ := Request.parse_eq_ok_iff.mp hparse
    rw [compute_of_parse hparse] at h
    rcases s.request.evaluates_or_fails t with ⟨comp, hcomp⟩ | ⟨e', he'⟩
    · rw [hcomp.evaluate_eq] at h
      cases h
    · rw [he'.evaluate_eq] at h
      cases h
      exact (Sentence.standsIn_of_tokenize htokens hs).truthful_of_fails he'

/-- Symbols count as one character each, a sign belongs to its term, and a term may have its
currency in front. -/
theorem RateTable.compute_error_truthful_sample :
    let t := sample.withRate "₽" "USD" ⟨.plus, 1, 2, by decide, by decide⟩
    (Failure.evaluation (.selfConversion "USD" 10)).Truthful t "usd: ₽300 - USD 2 eur" ∧
    (Failure.evaluation (.unknownDirective "gbp" 13)).Truthful t "usd: ₽3 + €5 gbp" ∧
    (Failure.syntactic ⟨.unexpected .number .plus, 11⟩).Truthful t "usd: ₽3 + €+5" := by
  refine ⟨compute_error_truthful ?_, compute_error_truthful ?_, compute_error_truthful ?_⟩
  · decide +kernel
  · decide +kernel
  · decide +kernel

end Cambist
