import Cambist.Request.Parser
import Mathlib.Tactic.Common

/-!
# Phrases and sentences

The grammar of lines, told without a parser. A phrase is a term as it stands in a line, with
everything that the term itself forgets: whether a sign was written, which side the currency stands
on, and where each token is. A sentence is a whole line. `Sentence.tokens` spells a sentence and
`Sentence.request` is what it means; no two sentences are spelled alike.
-/

namespace Cambist

open Token (Placed)

/-! ### Kinds of tokens -/

namespace Token

def isSign : Token → Bool
  | plus | minus => true
  | _ => false

def isCurrency : Token → Bool
  | currency _ => true
  | _ => false

def isDirective : Token → Bool
  | directive _ => true
  | _ => false

end Token

/-- Is the first of some tokens of this kind? -/
def StartsWith (kind : Token → Bool) (ts : List Placed) : Prop := ts.head?.any (kind ·.token) = true

@[simp] lemma not_startsWith_nil (kind : Token → Bool) : ¬ StartsWith kind [] := by
  simp [StartsWith]

@[simp] lemma startsWith_cons (kind : Token → Bool) (t : Placed) (ts : List Placed) :
    StartsWith kind (t :: ts) ↔ kind t.token = true := by
  simp [StartsWith]

lemma startsWith_isCurrency_iff {ts : List Placed} :
    StartsWith Token.isCurrency ts ↔ ∃ code i us, ts = ⟨.currency code, i⟩ :: us := by
  rcases ts with _ | ⟨⟨_ | _ | _ | _ | _ | _, i⟩, ts⟩ <;> simp [Token.isCurrency]

lemma startsWith_isDirective_iff {ts : List Placed} :
    StartsWith Token.isDirective ts ↔ ∃ name i us, ts = ⟨.directive name, i⟩ :: us := by
  rcases ts with _ | ⟨⟨_ | _ | _ | _ | _ | _, i⟩, ts⟩ <;> simp [Token.isDirective]

/-! ### Phrases -/

/-- The two ways to write an amount. -/
inductive Order where
  | numberFirst
  | currencyFirst
deriving DecidableEq

/-- A term as it stands in a line. The sign has its position, and the two tokens of the amount have
theirs. -/
structure Phrase where
  sign : Option (Sign × Nat)
  order : Order
  literal : Literal
  first : Nat
  second : Nat
  conversion : Option Directive
deriving DecidableEq

/-- The token of a sign. -/
def Sign.token : Sign → Token
  | plus  => .plus
  | minus => .minus

/-- A directive as a token. -/
def Directive.placed (d : Directive) : Placed := ⟨.directive d.name, d.position⟩

namespace Phrase

def signTokens : Option (Sign × Nat) → List Placed
  | none        => []
  | some (s, i) => [⟨s.token, i⟩]

def amountTokens (l : Literal) (i j : Nat) : Order → List Placed
  | .numberFirst   => [⟨.number l.value, i⟩, ⟨.currency l.currency, j⟩]
  | .currencyFirst => [⟨.currency l.currency, i⟩, ⟨.number l.value, j⟩]

def directiveTokens : Option Directive → List Placed
  | none   => []
  | some d => [d.placed]

/-- The spelling of a phrase. -/
def tokens (p : Phrase) : List Placed :=
  signTokens p.sign ++ (amountTokens p.literal p.first p.second p.order ++
    directiveTokens p.conversion)

lemma tokens_ne_nil (p : Phrase) : p.tokens ≠ [] := by
  simp only [tokens]
  cases p.order <;> simp [amountTokens]

/-- The term that a phrase means. A term without a sign is positive, and its position is that of its
first token. -/
def term (p : Phrase) : Term :=
  ⟨⟨(p.sign.map Prod.fst).getD .plus, p.literal, (p.tokens.head p.tokens_ne_nil).position⟩,
    p.conversion⟩

/-- The spelling of phrases, one behind the other. -/
def spelling (ps : List Phrase) : List Placed := ps.flatMap tokens

@[simp] lemma spelling_nil : spelling [] = [] := rfl

@[simp] lemma spelling_cons (p : Phrase) (ps : List Phrase) :
    spelling (p :: ps) = p.tokens ++ spelling ps := rfl

/-- No amount that is written with its currency in front has another currency right behind it. -/
def NoSecondCurrency : List Phrase → Prop
  | [] => True
  | p :: ps =>
    (p.order = .currencyFirst →
      ¬ StartsWith Token.isCurrency (directiveTokens p.conversion ++ spelling ps)) ∧
    NoSecondCurrency ps

lemma tokens_append (p : Phrase) (ts : List Placed) :
    p.tokens ++ ts = signTokens p.sign ++ (amountTokens p.literal p.first p.second p.order ++
      (directiveTokens p.conversion ++ ts)) := by
  simp only [tokens, List.append_assoc]

lemma number_mem_tokens (p : Phrase) : ∃ i, (⟨.number p.literal.value, i⟩ : Placed) ∈ p.tokens := by
  rw [tokens]
  cases p.order with
  | numberFirst => exact ⟨p.first, by simp [amountTokens]⟩
  | currencyFirst => exact ⟨p.second, by simp [amountTokens]⟩

lemma currency_mem_tokens (p : Phrase) :
    ∃ i, (⟨.currency p.literal.currency, i⟩ : Placed) ∈ p.tokens := by
  rw [tokens]
  cases p.order with
  | numberFirst => exact ⟨p.second, by simp [amountTokens]⟩
  | currencyFirst => exact ⟨p.first, by simp [amountTokens]⟩

lemma placed_mem_tokens {p : Phrase} {d : Directive} (h : d ∈ p.conversion) :
    d.placed ∈ p.tokens := by
  have h : p.conversion = some d := h
  rw [tokens, h]
  simp [directiveTokens]

/-- A phrase starts with a token that starts a term. -/
lemma startsWith_tokens (p : Phrase) (ts : List Placed) :
    StartsWith Parser.startsTerm (p.tokens ++ ts) := by
  obtain ⟨_ | ⟨s, i⟩, order, l, i, j, d⟩ := p
  · cases order <;> simp [tokens, signTokens, amountTokens, Parser.startsTerm]
  · cases s <;> simp [tokens, signTokens, Sign.token, Parser.startsTerm]

end Phrase

/-! ### Sentences -/

/-- A whole line: a directive, a colon with its position, and one phrase or more. -/
structure Sentence where
  target : Directive
  colon : Nat
  first : Phrase
  rest : List Phrase
deriving DecidableEq

namespace Sentence

/-- The phrases of a sentence. -/
def phrases (s : Sentence) : List Phrase := s.first :: s.rest

/-- The spelling of a sentence. -/
def tokens (s : Sentence) : List Placed :=
  s.target.placed :: ⟨.colon, s.colon⟩ :: Phrase.spelling s.phrases

/-- The request that a sentence means. -/
def request (s : Sentence) : Request := ⟨s.target, s.first.term, s.rest.map Phrase.term⟩

end Sentence

/-! ### Spellings are unambiguous -/

namespace Phrase

variable {ts us : List Placed}

lemma signTokens_append_inj {s s' : Option (Sign × Nat)}
    (h : signTokens s ++ ts = signTokens s' ++ us) (hts : ¬ StartsWith Token.isSign ts)
    (hus : ¬ StartsWith Token.isSign us) : s = s' ∧ ts = us := by
  rcases s with _ | ⟨s, i⟩ <;> rcases s' with _ | ⟨s', j⟩
  case none.none => exact ⟨rfl, h⟩
  case none.some =>
    subst h
    cases s' <;> simp [signTokens, Sign.token, Token.isSign] at hts
  case some.none =>
    subst h
    cases s <;> simp [signTokens, Sign.token, Token.isSign] at hus
  case some.some => cases s <;> cases s' <;> simp_all [signTokens, Sign.token]

lemma amountTokens_append_inj {l l' : Literal} {i j i' j' : Nat} {o o' : Order}
    (h : amountTokens l i j o ++ ts = amountTokens l' i' j' o' ++ us) :
    o = o' ∧ l = l' ∧ i = i' ∧ j = j' ∧ ts = us := by
  obtain ⟨v, code⟩ := l
  obtain ⟨v', code'⟩ := l'
  cases o <;> cases o' <;> simp_all [amountTokens]

lemma directiveTokens_append_inj {d d' : Option Directive}
    (h : directiveTokens d ++ ts = directiveTokens d' ++ us)
    (hts : d = none → ¬ StartsWith Token.isDirective ts)
    (hus : d' = none → ¬ StartsWith Token.isDirective us) : d = d' ∧ ts = us := by
  rcases d with _ | ⟨name, i⟩ <;> rcases d' with _ | ⟨name', i'⟩
  case none.none => exact ⟨rfl, h⟩
  case none.some =>
    subst h
    simp [directiveTokens, Directive.placed, Token.isDirective] at hts
  case some.none =>
    subst h
    simp [directiveTokens, Directive.placed, Token.isDirective] at hus
  case some.some => simp_all [directiveTokens, Directive.placed]

/-- An amount does not start with a sign. -/
lemma not_startsWith_isSign_amountTokens (l : Literal) (i j : Nat) (o : Order) :
    ¬ StartsWith Token.isSign (amountTokens l i j o ++ ts) := by
  cases o <;> simp [amountTokens, Token.isSign]

lemma tokens_append_inj {p q : Phrase} (h : p.tokens ++ ts = q.tokens ++ us)
    (hts : p.conversion = none → ¬ StartsWith Token.isDirective ts)
    (hus : q.conversion = none → ¬ StartsWith Token.isDirective us) : p = q ∧ ts = us := by
  rw [tokens_append, tokens_append] at h
  obtain ⟨hs, h⟩ := signTokens_append_inj h (not_startsWith_isSign_amountTokens _ _ _ _)
    (not_startsWith_isSign_amountTokens _ _ _ _)
  obtain ⟨ho, hl, hi, hj, h⟩ := amountTokens_append_inj h
  obtain ⟨hd, h⟩ := directiveTokens_append_inj h hts hus
  cases p
  cases q
  simp_all

/-- No phrase starts with a directive, so where a phrase ends is never in doubt. -/
lemma not_startsWith_isDirective_spelling (ps : List Phrase) :
    ¬ StartsWith Token.isDirective (spelling ps) := by
  cases ps with
  | nil => exact not_startsWith_nil _
  | cons p ps =>
    intro hd
    obtain ⟨name, i, us, h⟩ := startsWith_isDirective_iff.mp hd
    have hs := startsWith_tokens p (spelling ps)
    rw [← spelling_cons, h, startsWith_cons] at hs
    cases hs

lemma spelling_injective : Function.Injective spelling := by
  intro ps
  induction ps with
  | nil =>
    intro qs h
    cases qs with
    | nil => rfl
    | cons q qs => simp [q.tokens_ne_nil] at h
  | cons p ps ih =>
    intro qs h
    cases qs with
    | nil => simp [p.tokens_ne_nil] at h
    | cons q qs =>
      obtain ⟨rfl, hrest⟩ := tokens_append_inj h (fun _ => not_startsWith_isDirective_spelling ps)
        (fun _ => not_startsWith_isDirective_spelling qs)
      rw [ih hrest]

end Phrase

/-- No two sentences are spelled alike. -/
theorem Sentence.tokens_injective : Function.Injective Sentence.tokens := by
  rintro ⟨⟨name, i⟩, j, p, ps⟩ ⟨⟨name', i'⟩, j', q, qs⟩ h
  simp only [tokens, Directive.placed, List.cons.injEq, Placed.mk.injEq, Token.directive.injEq,
    true_and] at h
  obtain ⟨⟨rfl, rfl⟩, rfl, h⟩ := h
  obtain ⟨rfl, rfl⟩ := List.cons_eq_cons.mp (Phrase.spelling_injective h)
  rfl

end Cambist
