import Cambist.Proofs.Request.Acceptance
import Mathlib.Data.List.Forall2

/-!
# What a parser takes

A parser gives no token back and passes none over. When it succeeds, the tokens that it has taken
spell what it has read, and of those behind it has seen no more than the first one: with other
tokens behind, it reads the same, as long as these begin with the same token or are none either.
What can stand behind an expression is limited, as an expression goes on wherever it can.
-/

namespace Cambist

open Token (Placed)

/-! ### Spellings -/

/-- Do these tokens spell a directive? -/
def Directive.IsSpelled (d : Directive) (ts : List Placed) : Prop := ts = [d.placed]

/-- Do these tokens spell an amount, in one order or the other? -/
def Literal.IsSpelled (l : Literal) (ts : List Placed) : Prop :=
  ∃ i j order, ts = Phrase.amountTokens l i j order

/-- Do these tokens spell an entry? A plus may be left out, and the entry is where they begin. -/
def Entry.IsSpelled (e : Entry) (ts : List Placed) : Prop :=
  ∃ sign us, ts = Phrase.signTokens sign ++ us ∧ (sign.map Prod.fst).getD .plus = e.sign ∧
    e.literal.IsSpelled us ∧ ts.head?.map Placed.position = some e.position

/-- Do these tokens spell a term? -/
def Term.IsSpelled (t : Term) (ts : List Placed) : Prop :=
  ∃ us, t.entry.IsSpelled us ∧ ts = us ++ Phrase.directiveTokens t.conversion

/-- Do these tokens spell the terms of an expression, one behind the other? -/
def Expression.IsSpelled (e : Expression) (ts : List Placed) : Prop :=
  ∃ parts, List.Forall₂ Term.IsSpelled e.terms parts ∧ ts = parts.flatten

/-- Do these tokens spell a whole line? -/
def Request.IsSpelled (r : Request) (ts : List Placed) : Prop :=
  ∃ i us, r.expression.IsSpelled us ∧ ts = r.target.placed :: ⟨.colon, i⟩ :: us

namespace Phrase

variable {us vs : List Placed}

lemma isSpelled_entry (sign : Option (Sign × Nat)) (l : Literal) (i j : Nat) (order : Order)
    (us : List Placed) (finish : Nat) :
    Entry.IsSpelled ⟨(sign.map Prod.fst).getD .plus, l,
      Cursor.position ⟨signTokens sign ++ amountTokens l i j order ++ us, finish⟩⟩
        (signTokens sign ++ amountTokens l i j order) := by
  refine ⟨sign, _, rfl, rfl, ⟨i, j, order, rfl⟩, ?_⟩
  rcases sign with _ | ⟨s, k⟩
  · cases order <;> rfl
  · rfl

/-- The tokens of a phrase spell the term that it means. -/
lemma isSpelled_term (p : Phrase) : p.term.IsSpelled p.tokens := by
  refine ⟨signTokens p.sign ++ amountTokens p.literal p.first p.second p.order, ?_, ?_⟩
  · rw [Parser.term_eq p [] 0, tokens_append, ← List.append_assoc]
    exact isSpelled_entry _ _ _ _ _ _ _
  · rw [tokens, List.append_assoc]
    rfl

lemma isSpelled_expression (p : Phrase) (ps : List Phrase) :
    Expression.IsSpelled ⟨p.term, ps.map term⟩ (spelling (p :: ps)) := by
  have hterms : List.Forall₂ Term.IsSpelled ((p :: ps).map term) ((p :: ps).map tokens) := by
    rw [List.forall₂_map_left_iff, List.forall₂_map_right_iff, List.forall₂_same]
    exact fun q _ => q.isSpelled_term
  exact ⟨_, hterms, rfl⟩

/-! ### The next token -/

/-- Do these tokens begin with the same token, wherever it stands, or not at all? -/
def BeginAlike (us vs : List Placed) : Prop :=
  us.head?.map Placed.token = vs.head?.map Placed.token

lemma BeginAlike.append (h : BeginAlike us vs) (ts : List Placed) :
    BeginAlike (ts ++ us) (ts ++ vs) := by
  cases ts with
  | nil => exact h
  | cons t ts => rfl

lemma BeginAlike.startsWith_iff (h : BeginAlike us vs) (kind : Token → Bool) :
    StartsWith kind us ↔ StartsWith kind vs := by
  have hany := congrArg (·.any kind) h
  simp only [Option.any_map] at hany
  rw [StartsWith, StartsWith]
  exact Iff.of_eq (congrArg (· = true) hany)

lemma EndsBefore.congr {p : Phrase} (h : BeginAlike us vs) (hp : p.EndsBefore us) :
    p.EndsBefore vs where
  not_currency horder := by
    rw [← (h.append _).startsWith_iff]
    exact hp.not_currency horder
  not_directive hnone := by
    rw [← h.startsWith_iff]
    exact hp.not_directive hnone

lemma AllEndBefore.congr (h : BeginAlike us vs) {ps : List Phrase} (hps : AllEndBefore ps us) :
    AllEndBefore ps vs := by
  induction ps with
  | nil =>
    rw [AllEndBefore, ← h.startsWith_iff]
    exact hps
  | cons p ps ih => exact ⟨hps.1.congr (h.append _), ih hps.2⟩

/-- Behind phrases that end there no term can begin. -/
lemma AllEndBefore.not_startsTerm {ps : List Phrase} (hps : AllEndBefore ps us) :
    ¬ StartsWith Parser.startsTerm us := by
  induction ps with
  | nil => exact hps
  | cons p ps ih => exact ih hps.2

/-- Phrases end before a directive only if the term of the last one has a directive already. -/
lemma AllEndBefore.conversion_getLast {ps : List Phrase} (hps : AllEndBefore ps us)
    (hd : StartsWith Token.isDirective us) (hne : ps.map term ≠ []) :
    ((ps.map term).getLast hne).conversion ≠ none := by
  induction ps with
  | nil => exact absurd rfl hne
  | cons p ps ih =>
    cases ps with
    | nil => exact fun hnone => hps.1.not_directive hnone hd
    | cons q ps => exact ih hps.2 (List.cons_ne_nil _ _)

end Phrase

namespace Parser

open Phrase

variable {α β : Type}

/-! ### What is left -/

/-- Whether it succeeds or fails, a parser leaves an end of the tokens in front of it. -/
def LeavesSuffix (p : Parser α) : Prop := ∀ c, (p c).2.ahead <:+ c.ahead

lemma leavesSuffix_of_unchanged {p : Parser α} (h : ∀ c, (p c).2 = c) : LeavesSuffix p := by
  intro c
  simp only [h c, List.suffix_rfl]

lemma LeavesSuffix.bind {p : Parser α} {k : α → Parser β} (hp : LeavesSuffix p)
    (hk : ∀ a, LeavesSuffix (k a)) : LeavesSuffix (p >>= k) := by
  intro c
  have hfirst := hp c
  rw [bind_apply]
  cases hout : p c with
  | mk out c' =>
    rw [hout] at hfirst
    cases out with
    | ok a => exact (hk a c').trans hfirst
    | error e => exact hfirst

lemma leavesSuffix_pure (a : α) : LeavesSuffix (pure a) := leavesSuffix_of_unchanged fun _ => rfl

lemma leavesSuffix_throw (e : SyntaxError) : LeavesSuffix (throw e : Parser α) :=
  leavesSuffix_of_unchanged fun _ => rfl

lemma leavesSuffix_reject (e : Expected) (t : Option Placed) :
    LeavesSuffix (reject e t : Parser α) := by
  cases t with
  | none => exact leavesSuffix_of_unchanged fun _ => rfl
  | some t => exact leavesSuffix_throw _

lemma leavesSuffix_get : LeavesSuffix get := leavesSuffix_of_unchanged fun _ => rfl

lemma leavesSuffix_peek? : LeavesSuffix peek? := leavesSuffix_of_unchanged fun _ => rfl

lemma leavesSuffix_next? : LeavesSuffix next? := fun c => List.tail_suffix c.ahead

lemma leavesSuffix_directive : LeavesSuffix directive := by
  refine leavesSuffix_next?.bind fun t => ?_
  split
  · exact leavesSuffix_pure _
  · exact leavesSuffix_reject _ _

lemma leavesSuffix_colon : LeavesSuffix colon := by
  refine leavesSuffix_next?.bind fun t => ?_
  split
  · exact leavesSuffix_pure _
  · exact leavesSuffix_reject _ _

lemma leavesSuffix_currency : LeavesSuffix currency := by
  refine leavesSuffix_next?.bind fun t => ?_
  split
  · exact leavesSuffix_pure _
  · exact leavesSuffix_reject _ _

lemma leavesSuffix_number : LeavesSuffix number := by
  refine leavesSuffix_next?.bind fun t => ?_
  split
  · exact leavesSuffix_pure _
  · exact leavesSuffix_reject _ _

/-- Also where a second currency is refused, which stays in front. -/
lemma leavesSuffix_literal : LeavesSuffix literal := by
  refine leavesSuffix_next?.bind fun t => ?_
  split
  · exact leavesSuffix_currency.bind fun code => leavesSuffix_pure _
  · refine leavesSuffix_number.bind fun value => leavesSuffix_peek?.bind fun t => ?_
    split
    · exact leavesSuffix_throw _
    · exact leavesSuffix_pure _
  · exact leavesSuffix_reject _ _

lemma leavesSuffix_sign : LeavesSuffix sign := by
  refine leavesSuffix_peek?.bind fun t => ?_
  split
  · exact leavesSuffix_next?.bind fun _ => leavesSuffix_pure _
  · exact leavesSuffix_next?.bind fun _ => leavesSuffix_pure _
  · exact leavesSuffix_pure _

lemma leavesSuffix_entry : LeavesSuffix entry :=
  leavesSuffix_get.bind fun _ => leavesSuffix_sign.bind fun _ =>
    leavesSuffix_literal.bind fun _ => leavesSuffix_pure _

lemma leavesSuffix_term : LeavesSuffix term := by
  refine leavesSuffix_entry.bind fun e => leavesSuffix_peek?.bind fun t => ?_
  split
  · exact leavesSuffix_directive.bind fun d => leavesSuffix_pure _
  · exact leavesSuffix_pure _

lemma leavesSuffix_terms (found : List Term) : LeavesSuffix (terms found) := by
  intro c
  have hfirst := leavesSuffix_term
  fun_induction terms found c with
  | case1 found c hs t c' ht _ ih =>
    have hc := hfirst c
    rw [ht] at hc
    exact ih.trans hc
  | case2 found c hs e c' ht =>
    have hc := hfirst c
    rw [ht] at hc
    exact hc
  | case3 found c hs => exact List.suffix_rfl

lemma leavesSuffix_expression : LeavesSuffix expression :=
  leavesSuffix_term.bind fun _ => (leavesSuffix_terms []).bind fun _ => leavesSuffix_pure _

lemma leavesSuffix_request : LeavesSuffix request := by
  refine leavesSuffix_directive.bind fun d => leavesSuffix_colon.bind fun _ =>
    leavesSuffix_expression.bind fun e => leavesSuffix_next?.bind fun t => ?_
  split
  · exact leavesSuffix_throw _
  · exact leavesSuffix_pure _

/-! ### What is taken -/

/-- A parser only moves forward, and when it succeeds, it has taken a spelling of what it reads. The
next token is all that it has seen of those behind. -/
structure TakesSpelling (p : Parser α) (IsSpelled : α → List Placed → Prop) : Prop where
  leavesSuffix : LeavesSuffix p
  taken : ∀ ts finish a c, Reads p ⟨ts, finish⟩ a c → ∃ taken us, taken ≠ [] ∧
    IsSpelled a taken ∧ ts = taken ++ us ∧ c = ⟨us, finish⟩ ∧
      ∀ vs finish', BeginAlike us vs → Reads p ⟨taken ++ vs, finish'⟩ a ⟨vs, finish'⟩

lemma directive_takesSpelling : TakesSpelling directive Directive.IsSpelled where
  leavesSuffix := leavesSuffix_directive
  taken ts finish d c h := by
    obtain ⟨us, rfl, rfl⟩ := directive_reads_iff.mp h
    refine ⟨[d.placed], us, List.cons_ne_nil _ _, rfl, rfl, rfl, fun vs finish' _ => ?_⟩
    exact directive_reads_iff.mpr ⟨vs, rfl, rfl⟩

lemma literal_takesSpelling : TakesSpelling literal Literal.IsSpelled where
  leavesSuffix := leavesSuffix_literal
  taken ts finish l c h := by
    obtain ⟨i, j, order, us, rfl, hus, rfl⟩ := literal_reads_iff.mp h
    refine ⟨amountTokens l i j order, us, ?_, ⟨i, j, order, rfl⟩, rfl, rfl, ?_⟩
    · cases order <;> exact List.cons_ne_nil _ _
    · intro vs finish' hvs
      refine literal_reads_iff.mpr ⟨i, j, order, vs, rfl, ?_, rfl⟩
      rwa [← hvs.startsWith_iff]

lemma entry_takesSpelling : TakesSpelling entry Entry.IsSpelled where
  leavesSuffix := leavesSuffix_entry
  taken ts finish e c h := by
    obtain ⟨sign, l, i, j, order, us, rfl, hus, rfl, rfl⟩ := entry_reads_iff.mp h
    rw [← List.append_assoc]
    have hne : signTokens sign ++ amountTokens l i j order ≠ [] := by
      cases order <;> simp [amountTokens]
    refine ⟨_, us, hne, isSpelled_entry _ _ _ _ _ _ _, rfl, rfl, ?_⟩
    intro vs finish' hvs
    refine entry_reads_iff.mpr
      ⟨sign, l, i, j, order, vs, List.append_assoc _ _ _, ?_, ?_, rfl⟩
    · rwa [← hvs.startsWith_iff]
    · rw [position_append hne, position_append hne]

lemma term_takesSpelling : TakesSpelling term Term.IsSpelled where
  leavesSuffix := leavesSuffix_term
  taken ts finish t c h := by
    obtain ⟨p, us, rfl, hp, rfl, rfl⟩ := term_reads_iff.mp h
    refine ⟨p.tokens, us, p.tokens_ne_nil, p.isSpelled_term, rfl, rfl, fun vs finish' hvs => ?_⟩
    exact term_reads_iff.mpr ⟨p, vs, rfl, hp.congr hvs, rfl, rfl⟩

lemma expression_takesSpelling : TakesSpelling expression Expression.IsSpelled where
  leavesSuffix := leavesSuffix_expression
  taken ts finish e c h := by
    obtain ⟨p, ps, us, rfl, hps, rfl, rfl⟩ := expression_reads_iff.mp h
    refine ⟨spelling (p :: ps), us, ?_, isSpelled_expression p ps, rfl, rfl, ?_⟩
    · simp [p.tokens_ne_nil]
    · intro vs finish' hvs
      exact expression_reads_iff.mpr ⟨p, ps, vs, rfl, hps.congr hvs, rfl, rfl⟩

/-- Behind a request nothing is left, and the next token is the end of the line. -/
lemma request_takesSpelling : TakesSpelling request Request.IsSpelled where
  leavesSuffix := leavesSuffix_request
  taken ts finish r c h := by
    obtain ⟨s, rfl, hs, rfl, rfl⟩ := request_reads_iff.mp h
    refine ⟨s.tokens, [], List.cons_ne_nil _ _, ?_, (List.append_nil _).symm, rfl, ?_⟩
    · exact ⟨s.colon, _, isSpelled_expression s.first s.rest, rfl⟩
    · intro vs finish' hvs
      obtain rfl : vs = [] := by
        cases vs with
        | nil => rfl
        | cons t vs => cases hvs
      exact request_reads_iff.mpr ⟨s, List.append_nil _, hs, rfl, rfl⟩

/-- An expression goes on wherever it can: it ends only at the end of the line, before a colon, or
before a directive if its last term has one already. -/
lemma next_of_expression_reads {c c' : Cursor} {e : Expression} (h : Reads expression c e c') :
    ∀ next ∈ c'.peek?, next.token = .colon ∨ (∃ name, next.token = .directive name) ∧
      (e.terms.getLast e.terms_ne_nil).conversion ≠ none := by
  obtain ⟨ts, finish⟩ := c
  obtain ⟨p, ps, us, rfl, hps, rfl, rfl⟩ := expression_reads_iff.mp h
  intro next hnext
  obtain ⟨rest, rfl⟩ : ∃ rest, us = next :: rest := ⟨us.tail, List.eq_cons_of_mem_head? hnext⟩
  have hstarts := hps.not_startsTerm
  obtain ⟨token, i⟩ := next
  cases token with
  | colon => exact .inl rfl
  | directive name =>
    refine .inr ⟨⟨name, rfl⟩, ?_⟩
    exact hps.conversion_getLast (by simp [Token.isDirective]) (List.cons_ne_nil _ _)
  | number | currency | plus | minus => simp [startsTerm] at hstarts

/-- Every parser takes a spelling of what it reads, without a look at more than the next token, and
never gives a token back. Behind an expression stands nothing, or a colon, or a second directive. -/
theorem parsers_takeSpelling :
    TakesSpelling directive Directive.IsSpelled ∧
      TakesSpelling literal Literal.IsSpelled ∧
      TakesSpelling entry Entry.IsSpelled ∧
      TakesSpelling term Term.IsSpelled ∧
      TakesSpelling expression Expression.IsSpelled ∧
      TakesSpelling request Request.IsSpelled ∧
      ∀ c e c', Reads expression c e c' → ∀ next ∈ c'.peek?, next.token = .colon ∨
        (∃ name, next.token = .directive name) ∧
          (e.terms.getLast e.terms_ne_nil).conversion ≠ none :=
  ⟨directive_takesSpelling, literal_takesSpelling, entry_takesSpelling, term_takesSpelling,
    expression_takesSpelling, request_takesSpelling, fun _ _ _ => next_of_expression_reads⟩

/-- The term `0EUR usd`, for examples. -/
def sampleTerm : List Placed :=
  [⟨.number .zero, 0⟩, ⟨.currency "EUR", 1⟩, ⟨.directive "usd", 5⟩]

/-- What `sampleTerm` is as an expression. -/
def sampleExpression : Expression :=
  ⟨⟨⟨.plus, ⟨.zero, "EUR"⟩, 0⟩, some ⟨"usd", 5⟩⟩, []⟩

/-- An expression ends before a second directive, wherever that stands and whatever follows. -/
theorem parsers_takeSpelling_sample :
    Reads expression ⟨sampleTerm ++ [⟨.directive "usd", 9⟩], 12⟩ sampleExpression
        ⟨[⟨.directive "usd", 9⟩], 12⟩ ∧
      (sampleExpression.terms.getLast sampleExpression.terms_ne_nil).conversion ≠ none ∧
      sampleExpression.IsSpelled sampleTerm ∧
      Reads expression ⟨sampleTerm ++ [⟨.directive "usd", 11⟩, ⟨.plus, 14⟩], 15⟩ sampleExpression
        ⟨[⟨.directive "usd", 11⟩, ⟨.plus, 14⟩], 15⟩ := by
  have hreads : Reads expression ⟨sampleTerm ++ [⟨.directive "usd", 9⟩], 12⟩ sampleExpression
      ⟨[⟨.directive "usd", 9⟩], 12⟩ := by
    change @Eq (Except SyntaxError Expression × Cursor) _ _
    decide +kernel
  obtain ⟨-, -, -, -, hexpression, -, hnext⟩ := parsers_takeSpelling
  have hlast := hnext _ _ _ hreads _ rfl
  obtain ⟨taken, us, -, hspelled, hts, hc, hothers⟩ := hexpression.taken _ _ _ _ hreads
  cases hc
  obtain rfl : sampleTerm = taken := List.append_cancel_right hts
  refine ⟨hreads, ?_, hspelled, hothers _ 15 rfl⟩
  rcases hlast with hcolon | ⟨-, hconversion⟩
  · cases hcolon
  · exact hconversion

end Parser

end Cambist
