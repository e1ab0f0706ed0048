import Cambist.Proofs.Request.Phrase
import Mathlib.Data.List.Basic

/-!
# Accepted lines

What each parser reads, and from which tokens: a parser that reads something has taken a spelling
of it, and from such a spelling it reads just that, as long as the tokens behind do not belong to
it. For `Parser.request` nothing may stand behind, so it reads the sentences and no other lines.
-/

namespace Cambist

open Token (Placed)

/-! ### Where a phrase ends -/

namespace Phrase

/-- Does a phrase end here, when these tokens stand behind it? -/
structure EndsBefore (p : Phrase) (us : List Placed) : Prop where
  not_currency : p.order = .currencyFirst →
    ¬ StartsWith Token.isCurrency (directiveTokens p.conversion ++ us)
  not_directive : p.conversion = none → ¬ StartsWith Token.isDirective us

/-- Do phrases end where the next one starts, and the last of them before these tokens? -/
def AllEndBefore : List Phrase → List Placed → Prop
  | [], us => ¬ StartsWith Parser.startsTerm us
  | p :: ps, us => p.EndsBefore (spelling ps ++ us) ∧ AllEndBefore ps us

lemma allEndBefore_nil_iff {ps : List Phrase} : AllEndBefore ps [] ↔ NoSecondCurrency ps := by
  induction ps with
  | nil => simp [AllEndBefore, NoSecondCurrency]
  | cons p ps ih =>
    rw [AllEndBefore, NoSecondCurrency, ih, List.append_nil]
    exact and_congr_left fun _ =>
      ⟨fun h => h.not_currency, fun h => ⟨h, fun _ => not_startsWith_isDirective_spelling ps⟩⟩

end Phrase

namespace Parser

open Phrase

variable {α β : Type} {ts : List Placed} {finish : Nat} {c c' c'' : Cursor}

/-! ### Reading -/

/-- From one cursor, a parser reads this and leaves that cursor. -/
def Reads (p : Parser α) (c : Cursor) (a : α) (c' : Cursor) : Prop := p c = (.ok a, c')

lemma bind_reads_iff {p : Parser α} {k : α → Parser β} {b : β} :
    Reads (p >>= k) c b c'' ↔ ∃ a c', Reads p c a c' ∧ Reads (k a) c' b c'' := by
  simp only [Reads, bind_apply]
  constructor
  · intro h
    split at h
    case h_1 a c' hp => exact ⟨a, c', hp, h⟩
    case h_2 => cases h
  · rintro ⟨a, c', hp, hk⟩
    rw [hp]
    exact hk

@[simp] lemma pure_reads_iff {a b : α} : Reads (pure a) c b c' ↔ b = a ∧ c' = c := by
  constructor
  · intro h
    cases h
    exact ⟨rfl, rfl⟩
  · rintro ⟨rfl, rfl⟩
    rfl

@[simp] lemma not_throw_reads {e : SyntaxError} {a : α} : ¬ Reads (throw e) c a c' := by
  intro h
  cases h

@[simp] lemma not_reject_reads {e : Expected} {t : Option Placed} {a : α} :
    ¬ Reads (reject e t) c a c' := by
  intro h
  cases t <;> cases h

lemma get_bind_reads_iff {k : Cursor → Parser β} {b : β} :
    Reads (get >>= k) c b c' ↔ Reads (k c) c b c' := Iff.rfl

lemma peek?_bind_reads_iff {k : Option Placed → Parser β} {b : β} :
    Reads (peek? >>= k) ⟨ts, finish⟩ b c ↔ Reads (k ts.head?) ⟨ts, finish⟩ b c := Iff.rfl

lemma next?_bind_reads_iff {k : Option Placed → Parser β} {b : β} :
    Reads (next? >>= k) ⟨ts, finish⟩ b c ↔ Reads (k ts.head?) ⟨ts.tail, finish⟩ b c := Iff.rfl

/-! ### Single tokens -/

lemma directive_reads_iff {d : Directive} :
    Reads directive ⟨ts, finish⟩ d c ↔ ∃ us, ts = d.placed :: us ∧ c = ⟨us, finish⟩ := by
  rw [directive, next?_bind_reads_iff]
  constructor
  · intro h
    split at h
    case h_1 name i ht =>
      obtain ⟨rfl, rfl⟩ := pure_reads_iff.mp h
      exact ⟨ts.tail, List.eq_cons_of_mem_head? ht, rfl⟩
    case h_2 => exact absurd h not_reject_reads
  · rintro ⟨us, rfl, rfl⟩
    rfl

lemma colon_reads_iff :
    Reads colon ⟨ts, finish⟩ () c ↔ ∃ i us, ts = ⟨.colon, i⟩ :: us ∧ c = ⟨us, finish⟩ := by
  rw [colon, next?_bind_reads_iff]
  constructor
  · intro h
    split at h
    case h_1 i ht =>
      obtain ⟨-, rfl⟩ := pure_reads_iff.mp h
      exact ⟨i, ts.tail, List.eq_cons_of_mem_head? ht, rfl⟩
    case h_2 => exact absurd h not_reject_reads
  · rintro ⟨i, us, rfl, rfl⟩
    rfl

lemma currency_reads_iff {code : String} :
    Reads currency ⟨ts, finish⟩ code c ↔
      ∃ i us, ts = ⟨.currency code, i⟩ :: us ∧ c = ⟨us, finish⟩ := by
  rw [currency, next?_bind_reads_iff]
  constructor
  · intro h
    split at h
    case h_1 code i ht =>
      obtain ⟨rfl, rfl⟩ := pure_reads_iff.mp h
      exact ⟨i, ts.tail, List.eq_cons_of_mem_head? ht, rfl⟩
    case h_2 => exact absurd h not_reject_reads
  · rintro ⟨i, us, rfl, rfl⟩
    rfl

lemma number_reads_iff {value : Decimal} :
    Reads number ⟨ts, finish⟩ value c ↔
      ∃ i us, ts = ⟨.number value, i⟩ :: us ∧ c = ⟨us, finish⟩ := by
  rw [number, next?_bind_reads_iff]
  constructor
  · intro h
    split at h
    case h_1 value i ht =>
      obtain ⟨rfl, rfl⟩ := pure_reads_iff.mp h
      exact ⟨i, ts.tail, List.eq_cons_of_mem_head? ht, rfl⟩
    case h_2 => exact absurd h not_reject_reads
  · rintro ⟨i, us, rfl, rfl⟩
    rfl

/-! ### Terms -/

lemma sign_reads_iff {s : Sign} :
    Reads sign ⟨ts, finish⟩ s c ↔ ∃ o us, ts = signTokens o ++ us ∧
      (o = none → ¬ StartsWith Token.isSign us) ∧ s = (o.map Prod.fst).getD .plus ∧
        c = ⟨us, finish⟩ := by
  rw [sign, peek?_bind_reads_iff]
  constructor
  · intro h
    rcases ts with _ | ⟨⟨t, i⟩, ts⟩
    · exact ⟨none, [], rfl, by simp, pure_reads_iff.mp h⟩
    · cases t
      case plus => exact ⟨some (.plus, i), ts, rfl, by simp, pure_reads_iff.mp h⟩
      case minus => exact ⟨some (.minus, i), ts, rfl, by simp, pure_reads_iff.mp h⟩
      all_goals exact ⟨none, _, rfl, by simp [Token.isSign], pure_reads_iff.mp h⟩
  · rintro ⟨o, us, h, hf, rfl, rfl⟩
    subst h
    rcases o with _ | ⟨_ | _, i⟩
    · -- no sign was taken, so none stands there
      rcases us with _ | ⟨⟨t, i⟩, us⟩
      · rfl
      · cases t <;> first | rfl | simp [Token.isSign] at hf
    · rfl
    · rfl

lemma literal_reads_iff {l : Literal} :
    Reads literal ⟨ts, finish⟩ l c ↔ ∃ i j order us, ts = amountTokens l i j order ++ us ∧
      (order = .currencyFirst → ¬ StartsWith Token.isCurrency us) ∧ c = ⟨us, finish⟩ := by
  rw [literal, next?_bind_reads_iff]
  constructor
  · intro h
    split at h
    case h_1 value i ht =>
      obtain ⟨code, c', hc, h⟩ := bind_reads_iff.mp h
      obtain ⟨j, us, hts, rfl⟩ := currency_reads_iff.mp hc
      obtain ⟨rfl, rfl⟩ := pure_reads_iff.mp h
      refine ⟨i, j, .numberFirst, us, ?_, nofun, rfl⟩
      rw [List.eq_cons_of_mem_head? ht, hts]
      rfl
    case h_2 code i ht =>
      obtain ⟨value, c', hv, h⟩ := bind_reads_iff.mp h
      obtain ⟨j, us, hts, rfl⟩ := number_reads_iff.mp hv
      rw [peek?_bind_reads_iff] at h
      split at h
      case h_1 => exact absurd h not_throw_reads
      case h_2 hne =>
        obtain ⟨rfl, rfl⟩ := pure_reads_iff.mp h
        refine ⟨i, j, .currencyFirst, us, ?_, fun _ hc => ?_, rfl⟩
        · rw [List.eq_cons_of_mem_head? ht, hts]
          rfl
        · obtain ⟨code', k, us', rfl⟩ := startsWith_isCurrency_iff.mp hc
          exact hne _ _ rfl
    case h_3 => exact absurd h not_reject_reads
  · rintro ⟨i, j, order, us, rfl, hf, rfl⟩
    cases order with
    | numberFirst => rfl
    | currencyFirst =>
      rcases us with _ | ⟨⟨t, k⟩, us⟩
      · rfl
      · cases t <;> first | rfl | simp [Token.isCurrency] at hf

lemma entry_reads_iff {e : Entry} :
    Reads entry ⟨ts, finish⟩ e c ↔ ∃ o l i j order us,
      ts = signTokens o ++ (amountTokens l i j order ++ us) ∧
        (order = .currencyFirst → ¬ StartsWith Token.isCurrency us) ∧
          e = ⟨(o.map Prod.fst).getD .plus, l, Cursor.position ⟨ts, finish⟩⟩ ∧
            c = ⟨us, finish⟩ := by
  rw [entry, get_bind_reads_iff]
  simp only [bind_reads_iff, pure_reads_iff]
  constructor
  · rintro ⟨s, c', hs, l, c'', hl, rfl, rfl⟩
    obtain ⟨o, us, rfl, -, rfl, rfl⟩ := sign_reads_iff.mp hs
    obtain ⟨i, j, order, us, rfl, hf, rfl⟩ := literal_reads_iff.mp hl
    exact ⟨o, l, i, j, order, us, rfl, hf, rfl, rfl⟩
  · rintro ⟨o, l, i, j, order, us, rfl, hf, rfl, rfl⟩
    have hs : Reads sign ⟨signTokens o ++ (amountTokens l i j order ++ us), finish⟩ _ _ :=
      sign_reads_iff.mpr ⟨o, _, rfl, fun _ => not_startsWith_isSign_amountTokens _ _ _ _, rfl, rfl⟩
    have hl : Reads literal ⟨amountTokens l i j order ++ us, finish⟩ l ⟨us, finish⟩ :=
      literal_reads_iff.mpr ⟨i, j, order, us, rfl, hf, rfl⟩
    exact ⟨_, _, hs, l, _, hl, rfl, rfl⟩

lemma position_append {us : List Placed} (h : ts ≠ []) :
    Cursor.position ⟨ts ++ us, finish⟩ = (ts.head h).position := by
  cases ts with
  | nil => exact absurd rfl h
  | cons t ts => rfl

/-- A phrase means its parts, at the position of the cursor in front of it. -/
lemma term_eq (p : Phrase) (us : List Placed) (finish : Nat) :
    p.term = ⟨⟨(p.sign.map Prod.fst).getD .plus, p.literal,
      Cursor.position ⟨p.tokens ++ us, finish⟩⟩, p.conversion⟩ := by
  rw [position_append p.tokens_ne_nil, Phrase.term]

lemma term_reads_iff {t : Term} :
    Reads term ⟨ts, finish⟩ t c ↔ ∃ (p : Phrase) (us : List Placed),
      ts = p.tokens ++ us ∧ p.EndsBefore us ∧ t = p.term ∧ c = ⟨us, finish⟩ := by
  rw [term, bind_reads_iff]
  constructor
  · rintro ⟨e, c', he, h⟩
    obtain ⟨o, l, i, j, order, us, rfl, hf, rfl, rfl⟩ := entry_reads_iff.mp he
    rw [peek?_bind_reads_iff] at h
    split at h
    case h_1 =>
      obtain ⟨d, c', hd, h⟩ := bind_reads_iff.mp h
      obtain ⟨us, rfl, rfl⟩ := directive_reads_iff.mp hd
      obtain ⟨rfl, rfl⟩ := pure_reads_iff.mp h
      let p : Phrase := ⟨o, order, l, i, j, some d⟩
      refine ⟨p, us, (p.tokens_append us).symm, ⟨hf, nofun⟩, ?_, rfl⟩
      rw [term_eq p us finish, tokens_append]
      rfl
    case h_2 hne =>
      obtain ⟨rfl, rfl⟩ := pure_reads_iff.mp h
      let p : Phrase := ⟨o, order, l, i, j, none⟩
      refine ⟨p, us, (p.tokens_append us).symm, ⟨hf, fun _ hd => ?_⟩, ?_, rfl⟩
      · obtain ⟨name, k, us', rfl⟩ := startsWith_isDirective_iff.mp hd
        exact hne _ _ rfl
      · rw [term_eq p us finish, tokens_append]
        rfl
  · rintro ⟨p, us, rfl, hp, rfl, rfl⟩
    refine ⟨_, _, entry_reads_iff.mpr ⟨p.sign, p.literal, p.first, p.second, p.order, _,
      p.tokens_append us, hp.not_currency, rfl, rfl⟩, ?_⟩
    rw [term_eq p us finish, peek?_bind_reads_iff]
    cases hd : p.conversion with
    | some d => exact bind_reads_iff.mpr ⟨d, _, directive_reads_iff.mpr ⟨us, rfl, rfl⟩, rfl⟩
    | none =>
      have hf := hp.not_directive hd
      rcases us with _ | ⟨⟨t, k⟩, us⟩
      · rfl
      · cases t <;> first | rfl | simp [Token.isDirective] at hf

/-! ### Expressions and requests -/

lemma terms_of_not_startsWith {found : List Term} (h : ¬ StartsWith startsTerm ts) :
    terms found ⟨ts, finish⟩ = (.ok found.reverse, ⟨ts, finish⟩) := by
  rw [terms]
  exact if_neg h

lemma terms_of_reads {found : List Term} {t : Term} (h : StartsWith startsTerm ts)
    (ht : Reads term ⟨ts, finish⟩ t c) : terms found ⟨ts, finish⟩ = terms (t :: found) c := by
  rw [terms]
  refine (if_pos h).trans ?_
  split
  case h_1 heq =>
    rw [ht] at heq
    cases heq
    rfl
  case h_2 heq =>
    rw [ht] at heq
    cases heq

lemma terms_reads_iff {found l : List Term} :
    Reads (terms found) ⟨ts, finish⟩ l c ↔ ∃ (ps : List Phrase) (us : List Placed),
      ts = spelling ps ++ us ∧ AllEndBefore ps us ∧
        l = found.reverse ++ ps.map Phrase.term ∧ c = ⟨us, finish⟩ := by
  constructor
  · intro h
    rw [Reads] at h
    generalize hc : (⟨ts, finish⟩ : Cursor) = c₀ at h
    fun_induction terms found c₀ generalizing ts with
    | case1 found c₀ hs t c' ht _ ih =>
      subst hc
      obtain ⟨p, us, rfl, hp, rfl, rfl⟩ := term_reads_iff.mp ht
      obtain ⟨ps, us, rfl, hps, rfl, rfl⟩ := ih rfl h
      exact ⟨p :: ps, us, by simp, ⟨hp, hps⟩, by simp, rfl⟩
    | case2 => cases h
    | case3 found c₀ hs =>
      subst hc
      cases h
      exact ⟨[], ts, rfl, hs, by simp, rfl⟩
  · rintro ⟨ps, us, rfl, hps, rfl, rfl⟩
    induction ps generalizing found with
    | nil =>
      rw [Reads, spelling_nil, List.nil_append, terms_of_not_startsWith hps]
      simp
    | cons p ps ih =>
      have ht : Reads term ⟨p.tokens ++ (spelling ps ++ us), finish⟩ _ _ :=
        term_reads_iff.mpr ⟨p, _, rfl, hps.1, rfl, rfl⟩
      have ih := @ih (p.term :: found) hps.2
      rw [Reads, spelling_cons, List.append_assoc, terms_of_reads (startsWith_tokens p _) ht]
      simpa [Reads] using ih

lemma expression_reads_iff {e : Expression} :
    Reads expression ⟨ts, finish⟩ e c ↔ ∃ (p : Phrase) (ps : List Phrase) (us : List Placed),
      ts = spelling (p :: ps) ++ us ∧ AllEndBefore (p :: ps) us ∧
        e = ⟨p.term, ps.map Phrase.term⟩ ∧ c = ⟨us, finish⟩ := by
  simp only [expression, bind_reads_iff, pure_reads_iff]
  constructor
  · rintro ⟨t, c', ht, l, c'', hl, rfl, rfl⟩
    obtain ⟨p, us, rfl, hp, rfl, rfl⟩ := term_reads_iff.mp ht
    obtain ⟨ps, us, rfl, hps, rfl, rfl⟩ := terms_reads_iff.mp hl
    exact ⟨p, ps, us, by simp, ⟨hp, hps⟩, rfl, rfl⟩
  · rintro ⟨p, ps, us, rfl, ⟨hp, hps⟩, rfl, rfl⟩
    rw [spelling_cons, List.append_assoc]
    exact ⟨_, _, term_reads_iff.mpr ⟨p, _, rfl, hp, rfl, rfl⟩,
      _, _, terms_reads_iff.mpr ⟨ps, us, rfl, hps, rfl, rfl⟩, rfl, rfl⟩

lemma request_reads_iff {r : Request} :
    Reads request ⟨ts, finish⟩ r c ↔ ∃ s : Sentence,
      ts = s.tokens ∧ AllEndBefore s.phrases [] ∧ r = s.request ∧ c = ⟨[], finish⟩ := by
  simp only [request, bind_reads_iff]
  constructor
  · rintro ⟨d, c', hd, _, c', hc, e, c', he, h⟩
    obtain ⟨us, rfl, rfl⟩ := directive_reads_iff.mp hd
    obtain ⟨i, us, rfl, rfl⟩ := colon_reads_iff.mp hc
    obtain ⟨p, ps, us, rfl, hps, rfl, rfl⟩ := expression_reads_iff.mp he
    obtain ⟨_, _, ⟨rfl, rfl⟩, h⟩ := h
    cases us with
    | nil =>
      obtain ⟨rfl, rfl⟩ := pure_reads_iff.mp h
      exact ⟨⟨d, i, p, ps⟩, by simp [Sentence.tokens, Sentence.phrases], hps, rfl, rfl⟩
    | cons t us => exact absurd h not_throw_reads
  · rintro ⟨⟨d, i, p, ps⟩, rfl, hps, rfl, rfl⟩
    refine ⟨d, _, directive_reads_iff.mpr ⟨_, rfl, rfl⟩, (), _,
      colon_reads_iff.mpr ⟨i, _, rfl, rfl⟩, _, _,
      expression_reads_iff.mpr ⟨p, ps, [], ?_, hps, rfl, rfl⟩, _, _, rfl, rfl⟩
    rw [List.append_nil]
    rfl

/-- A line is accepted just if it is a sentence in which no second currency follows an amount. Then
it is no other sentence, and the request is what the sentence means. -/
theorem request_accepts_sentences (tokens : List Placed) (finish : Nat) :
    ((∃ r, (request ⟨tokens, finish⟩).1 = .ok r) ↔
      ∃ s : Sentence, s.tokens = tokens ∧ NoSecondCurrency s.phrases) ∧
    ∀ s : Sentence, s.tokens = tokens → NoSecondCurrency s.phrases →
      (request ⟨tokens, finish⟩).1 = .ok s.request ∧
        ∀ s' : Sentence, s'.tokens = tokens → s' = s := by
  have accepted (s : Sentence) (hs : s.tokens = tokens) (hc : NoSecondCurrency s.phrases) :
      (request ⟨tokens, finish⟩).1 = .ok s.request := by
    have hr : Reads request ⟨tokens, finish⟩ s.request ⟨[], finish⟩ :=
      request_reads_iff.mpr ⟨s, hs.symm, allEndBefore_nil_iff.mpr hc, rfl, rfl⟩
    rw [hr]
  constructor
  · constructor
    · rintro ⟨r, hr⟩
      obtain ⟨s, hs, hc, -, -⟩ := request_reads_iff.mp (Prod.ext hr rfl)
      exact ⟨s, hs.symm, allEndBefore_nil_iff.mp hc⟩
    · rintro ⟨s, hs, hc⟩
      exact ⟨s.request, accepted s hs hc⟩
  · intro s hs hc
    exact ⟨accepted s hs hc, fun s' hs' => Sentence.tokens_injective (hs'.trans hs.symm)⟩

end Parser

/-- The text of a line holds a request just if its tokens spell a sentence that means it. -/
lemma Request.parse_eq_ok_iff {source : String} {r : Request} :
    Request.parse source = .ok r ↔ ∃ s : Sentence, Token.tokenize source = .ok s.tokens ∧
      Phrase.NoSecondCurrency s.phrases ∧ r = s.request := by
  rw [Request.parse]
  cases htok : Token.tokenize source with
  | error e =>
    constructor
    · intro h
      cases h
    · rintro ⟨s, h, -⟩
      cases h
  | ok tokens =>
    constructor
    · intro h
      obtain ⟨s, hs, hc, hr, -⟩ := Parser.request_reads_iff.mp (Prod.ext h rfl)
      exact ⟨s, congrArg _ hs, Phrase.allEndBefore_nil_iff.mp hc, hr⟩
    · rintro ⟨s, hs, hc, rfl⟩
      cases hs
      have h : Parser.Reads Parser.request ⟨s.tokens, source.length⟩ s.request
          ⟨[], source.length⟩ :=
        Parser.request_reads_iff.mpr ⟨s, rfl, Phrase.allEndBefore_nil_iff.mpr hc, rfl, rfl⟩
      exact congrArg Prod.fst h

end Cambist
