import Cambist.Decimal.Reading
import Cambist.SyntaxError

/-!
# Cutting a line into tokens

From left to right the longest lexeme is cut off at each place, after blanks have been skipped. A
lexeme is a number (digits, perhaps with a point and digits), a currency (a run of capital letters,
or one of eight symbols), a directive (a small letter, then small letters, digits and underscores)
or a mark.

A `Lexer` knows the places of a line by their bytes. The position of a token counts characters, so
`Token.collect` keeps one place in both counts, and counts the characters on the way to the next.

`Token.tokenize` goes through the whole line. It fails at a character that starts no lexeme, and at
a number that is too large for a decimal.
-/

namespace Cambist

/-! ### Classes of characters -/

/-- Space, tab, carriage return, line feed and form feed separate tokens. -/
def isBlank (c : Char) : Bool := c = ' ' || c = '\t' || c = '\r' || c = '\n' || c = '\x0c'

/-- A currency that is written as one symbol. -/
def isCurrencySymbol (c : Char) : Bool := ['$', '€', '£', '¥', '₽', '₴', '₸', '₹'].contains c

/-- A character of a directive after the first one. -/
def isDirectiveChar (c : Char) : Bool := c.isLower || c.isDigit || c = '_'

/-! ### Lexemes -/

/-- The kinds of lexeme. -/
inductive Lexeme.Kind where
  | number
  | currency
  | directive
  | colon
  | plus
  | minus
deriving DecidableEq

/-- A piece of a line that makes one token. -/
structure Lexeme where
  kind : Lexeme.Kind
  chars : List Char
deriving DecidableEq

namespace Lexeme

/-- The digits of a number that the characters start with. A point belongs to the number only
between digits. -/
def numberChars (cs : List Char) : List Char :=
  let whole := cs.takeWhile Char.isDigit
  match cs.dropWhile Char.isDigit with
  | '.' :: rest =>
    if rest.head?.any Char.isDigit then whole ++ '.' :: rest.takeWhile Char.isDigit else whole
  | _ => whole

/-- The longest lexeme that the characters start with. -/
def first? : List Char → Option Lexeme
  | [] => none
  | c :: cs =>
    if c.isDigit then some ⟨.number, numberChars (c :: cs)⟩
    else if c.isUpper then some ⟨.currency, c :: cs.takeWhile Char.isUpper⟩
    else if isCurrencySymbol c then some ⟨.currency, [c]⟩
    else if c.isLower then some ⟨.directive, c :: cs.takeWhile isDirectiveChar⟩
    else match c with
      | ':' => some ⟨.colon, [c]⟩
      | '+' => some ⟨.plus, [c]⟩
      | '-' => some ⟨.minus, [c]⟩
      | _   => none

theorem numberChars_ne_nil {c : Char} (h : c.isDigit = true) (cs : List Char) :
    numberChars (c :: cs) ≠ [] := by
  simp only [numberChars, List.takeWhile_cons, h, if_true]
  split
  · split <;> simp
  · simp

theorem chars_ne_nil_of_first? {cs : List Char} {l : Lexeme} (h : first? cs = some l) :
    l.chars ≠ [] := by
  cases cs with
  | nil => simp [first?] at h
  | cons c cs =>
    simp only [first?] at h
    split at h
    · rename_i digit
      cases h
      exact numberChars_ne_nil digit cs
    · repeat' split at h
      all_goals simp_all only [Option.some.injEq, reduceCtorEq]
      all_goals (subst h; simp)

/-- A lexeme as a string. -/
def text (l : Lexeme) : String := .ofList l.chars

/-- The token that a lexeme stands for. Only a number that is too large stands for none. -/
def token? (l : Lexeme) : Option Token :=
  match l.kind with
  | .number    => (Decimal.read? l.text).map .number
  | .currency  => some (.currency l.text)
  | .directive => some (.directive l.text)
  | .colon     => some .colon
  | .plus      => some .plus
  | .minus     => some .minus

/-- The token that a lexeme stands for, or why it stands for none. -/
def read (l : Lexeme) : Except SyntaxError.Cause Token :=
  match l.token? with
  | some t => .ok t
  | none   => .error (.numberTooLarge l.text)

end Lexeme

/-! ### Lexers -/

/-- A lexer on its way through a line: the characters that it has not read, and the byte of the line
at which these start. -/
structure Lexer where
  rest : List Char
  offset : String.Pos.Raw

namespace Lexer

/-- What a lexer cuts off: the token that is there or why there is none, and the byte at which it
starts. -/
structure Cut where
  result : Except SyntaxError.Cause Token
  start : String.Pos.Raw

/-- Skips blanks and cuts off the longest lexeme, or else the character that starts none. At the end
of the line nothing is left to cut off. -/
def next? (l : Lexer) : Option (Cut × Lexer) :=
  let start := l.offset + String.ofList (l.rest.takeWhile isBlank)
  match l.rest.dropWhile isBlank with
  | [] => none
  | c :: cs =>
    match Lexeme.first? (c :: cs) with
    | some lexeme => some (⟨lexeme.read, start⟩,
        ⟨(c :: cs).drop lexeme.chars.length, start + lexeme.text⟩)
    | none => some (⟨.error (.unrecognized c), start⟩, ⟨cs, start + c⟩)

/-- A lexer gets on with every cut. -/
theorem length_lt_of_next? {l l' : Lexer} {cut : Cut} (h : l.next? = some (cut, l')) :
    l'.rest.length < l.rest.length := by
  have hle := (List.dropWhile_suffix (l := l.rest) isBlank).length_le
  rw [next?] at h
  split at h
  case h_1 => cases h
  case h_2 c cs hrest =>
    rw [hrest, List.length_cons] at hle
    split at h
    case h_1 lexeme hfirst =>
      have hpos := List.length_pos_iff.mpr (Lexeme.chars_ne_nil_of_first? hfirst)
      cases h
      rw [List.length_drop, List.length_cons]
      omega
    case h_2 =>
      cases h
      exact hle

end Lexer

/-! ### The tokens of a line -/

namespace Token

/-- A place in a line, counted in bytes and in characters. -/
structure Offset where
  bytes : String.Pos.Raw
  chars : Nat

/-- The place at a later byte of the line. Only the characters on the way to it are counted. -/
def Offset.advance (source : String) (o : Offset) (byte : String.Pos.Raw) : Offset :=
  ⟨byte, o.chars + (o.bytes.extract source byte).length⟩

/-- Collects the tokens that a lexer cuts off, up to the first failure. The place is that of the cut
before; the tokens found so far are in reverse order. -/
def collect (source : String) (lexer : Lexer) (place : Offset) (found : List Placed) :
    Except SyntaxError (List Placed) :=
  match h : lexer.next? with
  | none => .ok found.reverse
  | some (cut, lexer') =>
    have := Lexer.length_lt_of_next? h
    let place := place.advance source cut.start
    match cut.result with
    | .ok token    => collect source lexer' place (⟨token, place.chars⟩ :: found)
    | .error cause => .error ⟨cause, place.chars⟩
termination_by lexer.rest.length

/-- The tokens of a line with their positions. -/
def tokenize (source : String) : Except SyntaxError (List Placed) :=
  collect source ⟨source.toList, 0⟩ ⟨0, 0⟩ []

end Token

end Cambist
