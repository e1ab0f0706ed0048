import Cambist.Proofs.Request.Phrase

/-!
# Where a line goes wrong

A line is read in stages, and at every stage the next token settles the next one or is impossible.
The parsers go through these stages: they fail at the first impossible token, or at the end of a
line that stops on the way. As every stage leads on to the end of some line, the position of a
syntax error is that of the first token that no accepted line has behind the tokens before it.
-/

namespace Cambist

open Token (Placed)

/-! ### Stages of a line -/

/-- How far a line has come. -/
inductive Stage where
  /-- At the start of the line. -/
  | start
  /-- Behind the directive in front. -/
  | target
  /-- Behind the colon. -/
  | colon
  /-- Behind the sign of a term. -/
  | sign
  /-- Behind a number that its currency follows. -/
  | number
  /-- Behind a currency that its number follows. -/
  | currency
  /-- Behind an amount with its number in front. -/
  | numberFirst
  /-- Behind an amount with its currency in front. -/
  | currencyFirst
  /-- Behind a directive that ends a term. -/
  | converted
deriving DecidableEq

namespace Stage

/-- The stage behind the first token of an amount. -/
def beginAmount : Token → Option Stage
  | .number _   => some number
  | .currency _ => some currency
  | _ => none

/-- The stage behind the first token of a term. -/
def beginTerm : Token → Option Stage
  | .plus | .minus => some sign
  | t => beginAmount t

/-- The stage behind one more token, if the token is possible there. -/
def next? : Stage → Token → Option Stage
  | start, .directive _         => some target
  | target, .colon              => some colon
  | colon, t                    => beginTerm t
  | sign, t                     => beginAmount t
  | number, .currency _         => some numberFirst
  | currency, .number _         => some currencyFirst
  | numberFirst, .directive _   => some converted
  | numberFirst, t              => beginTerm t
  | currencyFirst, .directive _ => some converted
  | currencyFirst, .currency _  => none
  | currencyFirst, t            => beginTerm t
  | converted, t                => beginTerm t
  | _, _ => none

/-- May the line end here? -/
def finishes : Stage → Bool
  | numberFirst | currencyFirst | converted => true
  | _ => false

/-- The stage behind some tokens, if all of them are possible. -/
def after? : Stage → List Placed → Option Stage
  | s, []      => some s
  | s, t :: ts => (s.next? t.token).bind (after? · ts)

variable {s s' : Stage} {ts us : List Placed}

@[simp] lemma after?_nil (s : Stage) : s.after? [] = some s := rfl

lemma after?_cons (s : Stage) (t : Placed) (ts : List Placed) :
    s.after? (t :: ts) = (s.next? t.token).bind (after? · ts) := rfl

lemma after?_append (s : Stage) (ts us : List Placed) :
    s.after? (ts ++ us) = (s.after? ts).bind (after? · us) := by
  induction ts generalizing s with
  | nil => rfl
  | cons t ts ih =>
    rw [List.cons_append, after?_cons, after?_cons]
    cases s.next? t.token with
    | none => rfl
    | some s' => exact ih s'

lemma after?_singleton (s : Stage) (t : Placed) : s.after? [t] = s.next? t.token := by
  rw [after?_cons]
  cases s.next? t.token <;> rfl

/-- From every stage a line can be brought to an end. -/
lemma exists_completion (s : Stage) : ∃ us s', s.after? us = some s' ∧ s'.finishes = true := by
  let directive : Placed := ⟨.directive "usd", 0⟩
  let colon : Placed := ⟨.colon, 0⟩
  let number : Placed := ⟨.number .zero, 0⟩
  let currency : Placed := ⟨.currency "USD", 0⟩
  cases s with
  | start => exact ⟨[directive, colon, number, currency], .numberFirst, rfl, rfl⟩
  | target => exact ⟨[colon, number, currency], .numberFirst, rfl, rfl⟩
  | colon => exact ⟨[number, currency], .numberFirst, rfl, rfl⟩
  | sign => exact ⟨[number, currency], .numberFirst, rfl, rfl⟩
  | number => exact ⟨[currency], .numberFirst, rfl, rfl⟩
  | currency => exact ⟨[number], .currencyFirst, rfl, rfl⟩
  | numberFirst => exact ⟨[], .numberFirst, rfl, rfl⟩
  | currencyFirst => exact ⟨[], .currencyFirst, rfl, rfl⟩
  | converted => exact ⟨[], .converted, rfl, rfl⟩

/-- Can a term begin with the next token, and with no other? -/
def BeginsTerm (s : Stage) (ts : List Placed) : Prop :=
  ∀ t ∈ ts.head?, s.next? t.token = beginTerm t.token

/-- Can an amount begin with the next token, and with no other? -/
def BeginsAmount (s : Stage) (ts : List Placed) : Prop :=
  ∀ t ∈ ts.head?, s.next? t.token = beginAmount t.token

@[simp] lemma beginsTerm_cons {t : Placed} :
    s.BeginsTerm (t :: ts) ↔ s.next? t.token = beginTerm t.token := by
  simp [BeginsTerm]

@[simp] lemma beginsAmount_cons {t : Placed} :
    s.BeginsAmount (t :: ts) ↔ s.next? t.token = beginAmount t.token := by
  simp [BeginsAmount]

/-- Is this behind an amount, and not in front of a second currency? -/
def EndsAmount (s : Stage) (ts : List Placed) : Prop :=
  s = .numberFirst ∨ s = .currencyFirst ∧ ¬ StartsWith Token.isCurrency ts

/-- Is this behind a term? Here a line may end, or another term begins. -/
def EndsTerm (s : Stage) (ts : List Placed) : Prop := s.finishes = true ∧ s.BeginsTerm ts

end Stage

namespace Parser

open Stage (BeginsTerm BeginsAmount EndsAmount EndsTerm)

variable {α β : Type} {finish : Nat} {s s' : Stage} {ts us : List Placed}
  {Q Q' : Stage → List Placed → Prop} {e : SyntaxError}

/-! ### Parsers and stages -/

/-- A line cannot go on with these tokens, and this error says where: the first of them is
impossible, or there is none and the line may not end. Only then is the end what the error blames.
-/
inductive Stuck (finish : Nat) (s : Stage) : List Placed → SyntaxError → Prop where
  | token {t : Placed} {us : List Placed} {cause : SyntaxError.Cause}
      (h : s.next? t.token = none) (hcause : ∀ x, cause ≠ .unexpectedEnd x) :
      Stuck finish s (t :: us) ⟨cause, t.position⟩
  | finish {x : Expected} (h : s.finishes = false) : Stuck finish s [] ⟨.unexpectedEnd x, finish⟩

/-- The outcome of a parser on some tokens goes with the stages: it takes tokens that are possible
and leaves the others, or it fails where the line is stuck. -/
inductive Follows (finish : Nat) (s : Stage) (ts : List Placed) (Q : Stage → List Placed → Prop) :
    Except SyntaxError α × Cursor → Prop where
  | ok {a : α} {s' : Stage} {taken us : List Placed} (hts : ts = taken ++ us)
      (hs : s.after? taken = some s') (hQ : Q s' us) : Follows finish s ts Q (.ok a, ⟨us, finish⟩)
  | error {e : SyntaxError} {c : Cursor} {s' : Stage} {before rest : List Placed}
      (hts : ts = before ++ rest) (hs : s.after? before = some s')
      (hstuck : Stuck finish s' rest e) : Follows finish s ts Q (.error e, c)

/-- Some tokens are taken first. -/
lemma Follows.after {out : Except SyntaxError α × Cursor} {taken : List Placed}
    (hs : s.after? taken = some s') (h : Follows finish s' us Q out) :
    Follows finish s (taken ++ us) Q out := by
  have hafter (vs : List Placed) : s.after? (taken ++ vs) = s'.after? vs := by
    rw [Stage.after?_append, hs]
    rfl
  cases h with
  | ok hus hs' hQ => exact .ok (hus ▸ (List.append_assoc ..).symm) ((hafter _).trans hs') hQ
  | error hus hs' hstuck =>
    exact .error (hus ▸ (List.append_assoc ..).symm) ((hafter _).trans hs') hstuck

/-- A parser goes on where another has stopped. -/
lemma Follows.andThen {a : α} {c : Cursor} {out : Except SyntaxError β × Cursor}
    (h : Follows finish s ts Q (.ok a, c))
    (hnext : ∀ s' us, c = ⟨us, finish⟩ → Q s' us → Follows finish s' us Q' out) :
    Follows finish s ts Q' out := by
  cases h with
  | ok hts hs hQ =>
    rw [hts]
    exact (hnext _ _ rfl hQ).after hs

/-- A failure is one of whatever the parser was to read. -/
lemma Follows.fail {c : Cursor} (h : Follows finish s ts Q ((.error e, c) : Except _ α × Cursor)) :
    Follows finish s ts Q' ((.error e, c) : Except _ β × Cursor) := by
  cases h with
  | error hts hs hstuck => exact .error hts hs hstuck

lemma Follows.bind {p : Parser α} {k : α → Parser β}
    (hp : Follows finish s ts Q (p ⟨ts, finish⟩))
    (hk : ∀ a s' us, Q s' us → Follows finish s' us Q' (k a ⟨us, finish⟩)) :
    Follows finish s ts Q' ((p >>= k) ⟨ts, finish⟩) := by
  rw [bind_apply]
  cases hout : p ⟨ts, finish⟩ with
  | mk out c =>
    rw [hout] at hp
    cases out with
    | ok a =>
      refine hp.andThen ?_
      rintro s' us rfl hQ
      exact hk a s' us hQ
    | error e => exact hp.fail

lemma Follows.halt {c : Cursor} (h : Stuck finish s ts e) :
    Follows finish s ts Q ((.error e, c) : Except SyntaxError α × Cursor) :=
  .error (List.nil_append ts).symm (Stage.after?_nil s) h

lemma Follows.stay {a : α} (hQ : Q s ts) : Follows finish s ts Q (.ok a, ⟨ts, finish⟩) :=
  .ok (List.nil_append ts).symm (Stage.after?_nil s) hQ

lemma Follows.go {t : Placed} {out : Except SyntaxError α × Cursor}
    (hs : s.next? t.token = some s') (h : Follows finish s' us Q out) :
    Follows finish s (t :: us) Q out := h.after ((Stage.after?_singleton s t).trans hs)

lemma Follows.take {a : α} {t : Placed} (hs : s.next? t.token = some s') (hQ : Q s' us) :
    Follows finish s (t :: us) Q (.ok a, ⟨us, finish⟩) := .go hs (.stay hQ)

/-! ### Single tokens -/

lemma next?_cons (t : Placed) (ts : List Placed) (finish : Nat) :
    next? ⟨t :: ts, finish⟩ = (.ok (some t), ⟨ts, finish⟩) := rfl

lemma directive_follows :
    Follows finish .start ts (fun s _ => s = .target) (directive ⟨ts, finish⟩) := by
  rcases ts with _ | ⟨⟨t, i⟩, ts⟩
  · exact .halt (.finish rfl)
  · cases t
    case directive => exact .take rfl rfl
    all_goals exact .halt (.token rfl (by simp))

lemma colon_follows :
    Follows finish .target ts (fun s _ => s = .colon) (colon ⟨ts, finish⟩) := by
  rcases ts with _ | ⟨⟨t, i⟩, ts⟩
  · exact .halt (.finish rfl)
  · cases t
    case colon => exact .take rfl rfl
    all_goals exact .halt (.token rfl (by simp))

lemma currency_follows :
    Follows finish .number ts (fun s _ => s = .numberFirst) (currency ⟨ts, finish⟩) := by
  rcases ts with _ | ⟨⟨t, i⟩, ts⟩
  · exact .halt (.finish rfl)
  · cases t
    case currency => exact .take rfl rfl
    all_goals exact .halt (.token rfl (by simp))

lemma number_follows :
    Follows finish .currency ts (fun s _ => s = .currencyFirst) (number ⟨ts, finish⟩) := by
  rcases ts with _ | ⟨⟨t, i⟩, ts⟩
  · exact .halt (.finish rfl)
  · cases t
    case number => exact .take rfl rfl
    all_goals exact .halt (.token rfl (by simp))

/-! ### Terms -/

/-- Behind a number its currency must follow, and behind a currency its number. A second currency is
impossible behind the amount. -/
lemma literal_follows (hs : s.BeginsAmount ts) (hend : ts = [] → s.finishes = false) :
    Follows finish s ts EndsAmount (literal ⟨ts, finish⟩) := by
  rcases ts with _ | ⟨⟨t, i⟩, ts⟩
  · exact .halt (.finish (hend rfl))
  · have hnext := Stage.beginsAmount_cons.mp hs
    cases t
    case number value =>
      rw [literal, bind_apply, next?_cons]
      exact .go hnext (currency_follows.bind fun _ _ _ h => .stay (.inl h))
    case currency code =>
      rw [literal, bind_apply, next?_cons]
      refine .go hnext (number_follows.bind ?_)
      rintro value _ us rfl
      rcases us with _ | ⟨⟨t, j⟩, us⟩
      · exact .stay (.inr ⟨rfl, not_startsWith_nil _⟩)
      · cases t
        case currency => exact .halt (.token rfl (by simp))
        all_goals exact .stay (.inr ⟨rfl, by simp [Token.isCurrency]⟩)
    all_goals exact .halt (.token hnext (by simp))

lemma sign_follows (hs : s.BeginsTerm ts) (hend : ts = [] → s.finishes = false) :
    Follows finish s ts (fun s' us => s'.BeginsAmount us ∧ (us = [] → s'.finishes = false))
      (sign ⟨ts, finish⟩) := by
  rcases ts with _ | ⟨⟨t, i⟩, ts⟩
  · exact .stay ⟨nofun, hend⟩
  · have hnext := Stage.beginsTerm_cons.mp hs
    have hsign : Stage.BeginsAmount .sign ts := fun _ _ => rfl
    cases t
    case plus => exact .take hnext ⟨hsign, fun _ => rfl⟩
    case minus => exact .take hnext ⟨hsign, fun _ => rfl⟩
    all_goals exact .stay ⟨Stage.beginsAmount_cons.mpr hnext, hend⟩

lemma entry_follows (hs : s.BeginsTerm ts) (hend : ts = [] → s.finishes = false) :
    Follows finish s ts EndsAmount (entry ⟨ts, finish⟩) := by
  have hget : entry ⟨ts, finish⟩ = (sign >>= fun g => literal >>= fun l =>
      pure ⟨g, l, Cursor.position ⟨ts, finish⟩⟩) ⟨ts, finish⟩ := rfl
  rw [hget]
  refine (sign_follows hs hend).bind fun _ _ _ ⟨hs', hend'⟩ => ?_
  exact (literal_follows hs' hend').bind fun _ _ _ h => .stay h

lemma term_follows (hs : s.BeginsTerm ts) (hend : ts = [] → s.finishes = false) :
    Follows finish s ts EndsTerm (term ⟨ts, finish⟩) := by
  rw [term]
  refine (entry_follows hs hend).bind ?_
  rintro e s' us (rfl | ⟨rfl, hcurrency⟩)
  · rcases us with _ | ⟨⟨t, i⟩, us⟩
    · exact .stay ⟨rfl, nofun⟩
    · cases t
      case directive => exact .take rfl ⟨rfl, fun _ _ => rfl⟩
      all_goals exact .stay ⟨rfl, Stage.beginsTerm_cons.mpr rfl⟩
  · rcases us with _ | ⟨⟨t, i⟩, us⟩
    · exact .stay ⟨rfl, nofun⟩
    · cases t
      case directive => exact .take rfl ⟨rfl, fun _ _ => rfl⟩
      case currency => simp [Token.isCurrency] at hcurrency
      all_goals exact .stay ⟨rfl, Stage.beginsTerm_cons.mpr rfl⟩

/-! ### Lines -/

lemma beginTerm_eq_none {t : Token} (h : ¬ startsTerm t = true) : Stage.beginTerm t = none := by
  cases t <;> simp_all [startsTerm, Stage.beginTerm, Stage.beginAmount]

/-- Behind the last term the line may end, and no other token is possible. -/
def Ended (s : Stage) (ts : List Placed) : Prop :=
  s.finishes = true ∧ ∀ t ∈ ts.head?, s.next? t.token = none

lemma terms_follows (found : List Term) (hs : s.finishes = true) (hterm : s.BeginsTerm ts) :
    Follows finish s ts Ended (terms found ⟨ts, finish⟩) := by
  -- a token that starts a term is there to be taken
  have hfollows {s : Stage} {ts : List Placed} (hterm : s.BeginsTerm ts)
      (hstart : (Cursor.peek? ⟨ts, finish⟩).any (startsTerm ·.token) = true) :
      Follows finish s ts EndsTerm (term ⟨ts, finish⟩) := by
    refine term_follows hterm ?_
    rintro rfl
    cases hstart
  generalize hc : (⟨ts, finish⟩ : Cursor) = c
  fun_induction terms found c generalizing s ts with
  | case1 found c hstart t c' ht _ ih =>
    subst hc
    have hfirst := hfollows hterm hstart
    rw [ht] at hfirst
    refine hfirst.andThen ?_
    rintro s' us rfl ⟨hs', hterm'⟩
    exact ih hs' hterm' rfl
  | case2 found c hstart e c' ht =>
    subst hc
    have hfirst := hfollows hterm hstart
    rw [ht] at hfirst
    exact hfirst.fail
  | case3 found c hstart =>
    subst hc
    refine .stay ⟨hs, ?_⟩
    intro t ht
    rw [hterm t ht]
    apply beginTerm_eq_none
    intro hstarts
    apply hstart
    rw [Cursor.peek?, Option.mem_def.mp ht]
    exact hstarts

lemma expression_follows : Follows finish .colon ts Ended (expression ⟨ts, finish⟩) := by
  rw [expression]
  refine (term_follows (fun _ _ => rfl) (fun _ => rfl)).bind ?_
  rintro t s us ⟨hs, hterm⟩
  exact (terms_follows [] hs hterm).bind fun _ _ _ h => .stay h

/-- A whole line goes through the stages from the start to a place where it may end. -/
lemma request_follows :
    Follows finish .start ts (fun s us => s.finishes = true ∧ us = []) (request ⟨ts, finish⟩) := by
  rw [request]
  refine directive_follows.bind ?_
  rintro d _ us rfl
  refine colon_follows.bind ?_
  rintro _ _ us rfl
  refine expression_follows.bind ?_
  rintro x s us ⟨hs, hnext⟩
  cases us with
  | nil => exact .stay ⟨hs, rfl⟩
  | cons t us => exact .halt (.token (hnext t rfl) (by simp))

/-! ### Accepted lines -/

/-- Is this the beginning of an accepted line, whatever stands behind it and wherever that ends? -/
def Viable (ts : List Placed) : Prop :=
  ∃ us finish r, (request ⟨ts ++ us, finish⟩).1 = .ok r

/-- A line is accepted just if the stages lead through it to a place where it may end. -/
lemma request_accepts_iff :
    (∃ r, (request ⟨ts, finish⟩).1 = .ok r) ↔
      ∃ s, Stage.start.after? ts = some s ∧ s.finishes = true := by
  have hfollows : Follows finish .start ts _ (request ⟨ts, finish⟩) := request_follows
  cases hout : request ⟨ts, finish⟩ with
  | mk out c =>
    rw [hout] at hfollows
    cases hfollows with
    | @ok r s taken us hts hs hQ =>
      obtain ⟨hfinishes, rfl⟩ := hQ
      rw [List.append_nil] at hts
      subst hts
      exact ⟨fun _ => ⟨s, hs, hfinishes⟩, fun _ => ⟨r, rfl⟩⟩
    | @error e c s before rest hts hs hstuck =>
      constructor
      · rintro ⟨r, hr⟩
        cases hr
      · rintro ⟨s', hs', hfinishes⟩
        rw [hts, Stage.after?_append, hs] at hs'
        cases hstuck with
        | token hnext =>
          rw [Option.bind_some, Stage.after?_cons, hnext] at hs'
          cases hs'
        | finish hend =>
          cases hs'
          rw [hend] at hfinishes
          cases hfinishes

/-- Tokens are the beginning of an accepted line as long as they are possible. -/
lemma viable_iff : Viable ts ↔ ∃ s, Stage.start.after? ts = some s := by
  constructor
  · rintro ⟨us, finish, hr⟩
    obtain ⟨s, hs, -⟩ := request_accepts_iff.mp hr
    rw [Stage.after?_append] at hs
    obtain ⟨s', hs', -⟩ := Option.bind_eq_some_iff.mp hs
    exact ⟨s', hs'⟩
  · rintro ⟨s, hs⟩
    obtain ⟨us, s', hs', hfinishes⟩ := s.exists_completion
    refine ⟨us, 0, request_accepts_iff.mpr ⟨s', ?_, hfinishes⟩⟩
    rw [Stage.after?_append, hs]
    exact hs'

/-! ### The position of an error -/

/-- This is where a line that is not accepted goes wrong: at its first token that no accepted line
has there, or at its end if the whole line is the beginning of an accepted one. -/
inductive GoesWrong (finish : Nat) (ts : List Placed) : SyntaxError → Prop where
  | token {before after : List Placed} {t : Placed} {cause : SyntaxError.Cause}
      (hts : ts = before ++ t :: after) (hbefore : Viable before)
      (ht : ¬ Viable (before ++ [t])) : GoesWrong finish ts ⟨cause, t.position⟩
  | finish {x : Expected} (hts : Viable ts) : GoesWrong finish ts ⟨.unexpectedEnd x, finish⟩

lemma exists_stuck_of_error (h : (request ⟨ts, finish⟩).1 = .error e) :
    ∃ s before rest, ts = before ++ rest ∧ Stage.start.after? before = some s ∧
      Stuck finish s rest e := by
  have hfollows : Follows finish .start ts _ (request ⟨ts, finish⟩) := request_follows
  have hrequest : request ⟨ts, finish⟩ = (.error e, _) := Prod.ext h rfl
  rw [hrequest] at hfollows
  cases hfollows with
  | error hts hs hstuck => exact ⟨_, _, _, hts, hs, hstuck⟩

lemma goesWrong_of_error (h : (request ⟨ts, finish⟩).1 = .error e) : GoesWrong finish ts e := by
  obtain ⟨s, before, rest, hts, hs, hstuck⟩ := exists_stuck_of_error h
  have hbefore : Viable before := viable_iff.mpr ⟨s, hs⟩
  cases hstuck with
  | @token t us cause hnext =>
    refine .token hts hbefore ?_
    rw [viable_iff]
    rintro ⟨s', hs'⟩
    rw [Stage.after?_append, hs, Option.bind_some, Stage.after?_singleton, hnext] at hs'
    cases hs'
  | finish hend =>
    rw [List.append_nil] at hts
    exact .finish (hts ▸ hbefore)

/-- An error blames one of the tokens, at its place, or the end of the line, where something is
missing. -/
lemma position_of_error (h : (request ⟨ts, finish⟩).1 = .error e) :
    (∃ t ∈ ts, e.position = t.position ∧ ∀ x, e.cause ≠ .unexpectedEnd x) ∨
      ∃ x, e = ⟨.unexpectedEnd x, finish⟩ := by
  obtain ⟨s, before, rest, hts, -, hstuck⟩ := exists_stuck_of_error h
  cases hstuck with
  | token hnext hcause => exact .inl ⟨_, by simp [hts], rfl, hcause⟩
  | finish hend => exact .inr ⟨_, rfl⟩

/-- An error of the tokens of a line is at the first of them that no accepted line has there, or at
the end of the line if nothing but its rest is missing. A line whose characters are not all made
into tokens has the error of the first that is not, whatever is wrong with the tokens before. -/
theorem syntax_error_goesWrong :
    (∀ ts finish e, (request ⟨ts, finish⟩).1 = .error e → GoesWrong finish ts e) ∧
    ∀ source e, Request.parse source = .error e ↔ Token.tokenize source = .error e ∨
      ∃ ts, Token.tokenize source = .ok ts ∧ (request ⟨ts, source.length⟩).1 = .error e ∧
        GoesWrong source.length ts e := by
  refine ⟨fun ts finish e => goesWrong_of_error, ?_⟩
  intro source e
  rw [Request.parse]
  cases htok : Token.tokenize source with
  | error e' =>
    constructor
    · intro h
      cases h
      exact .inl rfl
    · rintro (h | ⟨ts, h, -⟩)
      · cases h
        rfl
      · cases h
  | ok ts =>
    constructor
    · intro h
      exact .inr ⟨ts, rfl, h, goesWrong_of_error h⟩
    · rintro (h | ⟨ts', h, herror, -⟩)
      · cases h
      · cases h
        exact herror

/-- A second currency, which could begin another term if it were not in this place, is the first
impossible token. -/
theorem syntax_error_goesWrong_sample :
    ∃ ts e, Token.tokenize "usd: €10 EUR 5" = .ok ts ∧
      Request.parse "usd: €10 EUR 5" = .error e ∧ e.position = 9 ∧ GoesWrong 14 ts e := by
  have herror : Request.parse "usd: €10 EUR 5" =
      .error ⟨.secondCurrency "€" ⟨.plus, 10, 0, by decide, by decide⟩, 9⟩ := by decide +kernel
  have htokens : (Token.tokenize "usd: €10 EUR 5").toOption.isSome = true := by decide +kernel
  obtain ⟨-, hsource⟩ := syntax_error_goesWrong
  rcases (hsource _ _).mp herror with htok | ⟨ts, htok, -, hwrong⟩
  · rw [htok] at htokens
    cases htokens
  · exact ⟨ts, _, htok, herror, rfl, hwrong⟩

end Parser

end Cambist
