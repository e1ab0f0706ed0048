import Cambist.Request
import Cambist.Token.Lexer

/-!
# Reading requests

A request is a directive, a colon and one term or more; a term is an optional sign, a number and a
currency in either order, and an optional directive. No choice needs more than the next token, so
a parser walks over the tokens once and never goes back: what a failed parser has taken stays
taken.

`Parser.request` reads a whole line, and `Request.parse` starts from its text.
-/

namespace Cambist

/-! ### Cursors -/

/-- The tokens that lie ahead, and the position where the line ends. -/
structure Cursor where
  ahead : List Token.Placed
  finish : Nat
deriving DecidableEq

namespace Cursor

/-- The next token. -/
def peek? (c : Cursor) : Option Token.Placed := c.ahead.head?

/-- The position of the next token, or the end of the line. -/
def position (c : Cursor) : Nat :=
  match c.peek? with
  | some t => t.position
  | none   => c.finish

/-- The cursor behind the next token. -/
def advance (c : Cursor) : Cursor := { c with ahead := c.ahead.tail }

end Cursor

/-- A parser moves the cursor, also when it fails. -/
abbrev Parser (α : Type) := ExceptT SyntaxError (StateM Cursor) α

namespace Parser

/-! ### Single tokens -/

/-- The next token, which stays ahead. -/
def peek? : Parser (Option Token.Placed) := return (← get).peek?

/-- The next token, which is taken. -/
def next? : Parser (Option Token.Placed) := modifyGet fun c => (c.peek?, c.advance)

/-- Fails because something else was needed in place of a token, or of the end of the line. -/
def reject {α : Type} (e : Expected) : Option Token.Placed → Parser α
  | some t => throw ⟨.unexpected e t.token, t.position⟩
  | none   => do throw ⟨.unexpectedEnd e, (← get).finish⟩

/-- Takes a directive. -/
def directive : Parser Directive := do
  match ← next? with
  | some ⟨.directive name, position⟩ => return ⟨name, position⟩
  | found => reject .directive found

/-- Takes a colon. -/
def colon : Parser Unit := do
  match ← next? with
  | some ⟨.colon, _⟩ => return ()
  | found => reject .colon found

/-- Takes a currency. -/
def currency : Parser String := do
  match ← next? with
  | some ⟨.currency code, _⟩ => return code
  | found => reject .currency found

/-- Takes a number. -/
def number : Parser Decimal := do
  match ← next? with
  | some ⟨.number value, _⟩ => return value
  | found => reject .number found

/-! ### Terms -/

/-- Takes a number and a currency, in either order. After a currency and a number another currency
is refused. -/
def literal : Parser Literal := do
  match ← next? with
  | some ⟨.number value, _⟩ => return ⟨value, ← currency⟩
  | some ⟨.currency code, _⟩ =>
    let value ← number
    match ← peek? with
    | some ⟨.currency _, position⟩ => throw ⟨.secondCurrency code value, position⟩
    | _ => return ⟨value, code⟩
  | found => reject .amount found

/-- Takes a sign if there is one. -/
def sign : Parser Sign := do
  match ← peek? with
  | some ⟨.plus, _⟩  => let _ ← next?; return .plus
  | some ⟨.minus, _⟩ => let _ ← next?; return .minus
  | _ => return .plus

/-- Takes an optional sign and a literal. -/
def entry : Parser Entry := do
  let position := (← get).position
  let s ← sign
  return ⟨s, ← literal, position⟩

/-- Takes an entry and a directive if one follows. -/
def term : Parser Term := do
  let e ← entry
  match ← peek? with
  | some ⟨.directive _, _⟩ => return ⟨e, some (← directive)⟩
  | _ => return ⟨e, none⟩

/-! ### Every parser moves forward -/

/-- A parser that succeeds only after taking a token. -/
def Consumes {α : Type} (p : Parser α) : Prop :=
  ∀ c, ∀ a c', p c = (.ok a, c') → c'.ahead.length < c.ahead.length

/-- A parser that gives no token back. -/
def Keeps {α : Type} (p : Parser α) : Prop :=
  ∀ c, ∀ a c', p c = (.ok a, c') → c'.ahead.length ≤ c.ahead.length

theorem bind_apply {α β : Type} (p : Parser α) (f : α → Parser β) (c : Cursor) :
    (p >>= f) c = match p c with
      | (.ok a, c')    => f a c'
      | (.error e, c') => (.error e, c') := by
  simp only [bind, ExceptT.bind, ExceptT.mk, StateT.bind]
  rcases p c with ⟨_ | _, _⟩ <;> rfl

theorem pure_apply {α : Type} (a : α) (c : Cursor) : (pure a : Parser α) c = (.ok a, c) := rfl

theorem Consumes.keeps {α : Type} {p : Parser α} (h : Consumes p) : Keeps p :=
  fun c a c' eq => Nat.le_of_lt (h c a c' eq)

theorem Keeps.pure {α : Type} (a : α) : Keeps (pure a : Parser α) := by
  intro c b c' eq
  cases eq
  exact Nat.le_refl _

theorem Keeps.bind {α β : Type} {p : Parser α} {f : α → Parser β} (hp : Keeps p)
    (hf : ∀ a, Keeps (f a)) : Keeps (p >>= f) := by
  intro c b c'' eq
  rw [bind_apply] at eq
  split at eq
  · rename_i a c' h
    exact Nat.le_trans (hf a c' b c'' eq) (hp c a c' h)
  · cases eq

theorem Consumes.bind {α β : Type} {p : Parser α} {f : α → Parser β} (hp : Consumes p)
    (hf : ∀ a, Keeps (f a)) : Consumes (p >>= f) := by
  intro c b c'' eq
  rw [bind_apply] at eq
  split at eq
  · rename_i a c' h
    exact Nat.lt_of_le_of_lt (hf a c' b c'' eq) (hp c a c' h)
  · cases eq

theorem Keeps.bind_consumes {α β : Type} {p : Parser α} {f : α → Parser β} (hp : Keeps p)
    (hf : ∀ a, Consumes (f a)) : Consumes (p >>= f) := by
  intro c b c'' eq
  rw [bind_apply] at eq
  split at eq
  · rename_i a c' h
    exact Nat.lt_of_lt_of_le (hf a c' b c'' eq) (hp c a c' h)
  · cases eq

theorem keeps_get : Keeps (get : Parser Cursor) := by
  intro c a c' eq
  cases eq
  exact Nat.le_refl _

theorem keeps_peek? : Keeps peek? := keeps_get.bind fun _ => .pure _

theorem keeps_next? : Keeps next? := by
  intro c a c' eq
  cases eq
  simp [Cursor.advance]

/-- A parser that always fails satisfies whatever is asked of its successes. -/
theorem consumes_reject {α : Type} (e : Expected) (t : Option Token.Placed) :
    Consumes (reject e t : Parser α) := by
  intro c a c' eq
  cases t <;> cases eq

theorem consumes_throw {α : Type} (e : SyntaxError) : Consumes (throw e : Parser α) := by
  intro c a c' eq
  cases eq

/-- Taking a token and going on makes progress, unless the end of the line is accepted. -/
theorem consumes_next? {α : Type} {f : Option Token.Placed → Parser α} (hn : Consumes (f none))
    (hs : ∀ t, Keeps (f (some t))) : Consumes (next? >>= f) := by
  rintro ⟨_ | ⟨t, ts⟩, finish⟩ b c'' eq
  · exact hn _ b c'' eq
  · exact Nat.lt_succ_of_le (hs t ⟨ts, finish⟩ b c'' eq)

theorem consumes_directive : Consumes directive := by
  refine consumes_next? (consumes_reject _ _) fun t => ?_
  split
  · exact .pure _
  · exact (consumes_reject _ _).keeps

theorem consumes_currency : Consumes currency := by
  refine consumes_next? (consumes_reject _ _) fun t => ?_
  split
  · exact .pure _
  · exact (consumes_reject _ _).keeps

theorem consumes_number : Consumes number := by
  refine consumes_next? (consumes_reject _ _) fun t => ?_
  split
  · exact .pure _
  · exact (consumes_reject _ _).keeps

theorem consumes_literal : Consumes literal := by
  refine consumes_next? (consumes_reject _ _) fun t => ?_
  split
  · exact consumes_currency.keeps.bind fun _ => .pure _
  · refine consumes_number.keeps.bind fun _ => keeps_peek?.bind fun _ => ?_
    split
    · exact (consumes_throw _).keeps
    · exact .pure _
  · exact (consumes_reject _ _).keeps

theorem keeps_sign : Keeps sign := by
  refine keeps_peek?.bind fun _ => ?_
  split
  · exact keeps_next?.bind fun _ => .pure _
  · exact keeps_next?.bind fun _ => .pure _
  · exact .pure _

theorem consumes_entry : Consumes entry :=
  keeps_get.bind_consumes fun _ => keeps_sign.bind_consumes fun _ =>
    consumes_literal.bind fun _ => .pure _

theorem consumes_term : Consumes term := by
  refine consumes_entry.bind fun _ => keeps_peek?.bind fun _ => ?_
  split
  · exact consumes_directive.keeps.bind fun _ => .pure _
  · exact .pure _

/-! ### Expressions and requests -/

/-- Can this token be the first of a term? -/
def startsTerm : Token → Bool
  | .plus | .minus | .number _ | .currency _ => true
  | .colon | .directive _ => false

/-- Takes terms as long as the next token starts one, behind those found before in reverse order. -/
def terms (found : List Term) (c : Cursor) : Except SyntaxError (List Term) × Cursor :=
  if c.peek?.any (startsTerm ·.token) then
    match h : term c with
    | (.ok t, c')    =>
      have := consumes_term c t c' h
      terms (t :: found) c'
    | (.error e, c') => (.error e, c')
  else (.ok found.reverse, c)
termination_by c.ahead.length
decreasing_by assumption

/-- Takes one term or more. -/
def expression : Parser Expression := do
  let first ← term
  return ⟨first, ← terms []⟩

/-- Takes a whole line. -/
def request : Parser Request := do
  let target ← directive
  colon
  let e ← expression
  match ← next? with
  | some t => throw ⟨.extraneous t.token, t.position⟩
  | none => return ⟨target, e⟩

end Parser

/-- The request that a line holds. -/
def Request.parse (source : String) : Except SyntaxError Request := do
  let tokens ← Token.tokenize source
  (Parser.request ⟨tokens, source.length⟩).1

end Cambist
