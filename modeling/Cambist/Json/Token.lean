import Cambist.Json

/-!
# JSON tokens

The text of a JSON value is cut into brackets, commas, colons, words, numbers and strings, with
blanks between them. Each step takes at least one character and gives back the rest.
-/

namespace Cambist.Json

/-- A token of a JSON text. -/
inductive Token where
  | openBrace
  | closeBrace
  | openBracket
  | closeBracket
  | comma
  | colon
  | null
  | bool (value : Bool)
  | number (numeral : Numeral)
  | text (value : Option String)
deriving DecidableEq

namespace Token

/-- Space, tab, line feed and carriage return may stand between tokens. -/
def isBlank (c : Char) : Bool := c = ' ' || c = '\t' || c = '\n' || c = '\r'

/-! ### Numbers -/

/-- The sign of a number, which is a minus or nothing. -/
def sign : List Char → Sign × List Char
  | '-' :: cs => (.minus, cs)
  | cs        => (.plus, cs)

/-- One digit or more. -/
def digits? (cs : List Char) : Option (List Char × List Char) :=
  match cs.takeWhile Char.isDigit with
  | [] => none
  | ds => some (ds, cs.dropWhile Char.isDigit)

/-- The whole part of a number. It starts with a zero only if it is zero. -/
def whole? (cs : List Char) : Option (List Char × List Char) := do
  match ← digits? cs with
  | ('0' :: _ :: _, _) => none
  | found => return found

/-- The fraction of a number, if there is one. A point must be followed by a digit. -/
def fraction? : List Char → Option (Option (List Char) × List Char)
  | '.' :: cs => (digits? cs).map fun (ds, rest) => (some ds, rest)
  | cs        => some (none, cs)

/-- The digits of an exponent behind its letter, with an optional sign. -/
def signedDigits? : List Char → Option (Int × List Char)
  | '-' :: cs => (digits? cs).map fun (ds, rest) => (-(Nat.ofDigitChars 10 ds 0 : Int), rest)
  | '+' :: cs => (digits? cs).map fun (ds, rest) => ((Nat.ofDigitChars 10 ds 0 : Int), rest)
  | cs        => (digits? cs).map fun (ds, rest) => ((Nat.ofDigitChars 10 ds 0 : Int), rest)

/-- The exponent of a number, if there is one. -/
def exponent? : List Char → Option (Option Int × List Char)
  | 'e' :: cs => (signedDigits? cs).map fun (e, rest) => (some e, rest)
  | 'E' :: cs => (signedDigits? cs).map fun (e, rest) => (some e, rest)
  | cs        => some (none, cs)

/-- A number. -/
def numeral? (cs : List Char) : Option (Numeral × List Char) := do
  let (s, cs) := sign cs
  let (whole, cs) ← whole? cs
  let (fraction, cs) ← fraction? cs
  let (exponent, cs) ← exponent? cs
  return (⟨s, whole, fraction, exponent⟩, cs)

/-! ### Strings -/

/-- A piece of a string: a character, or an escaped number of 16 bits. -/
inductive Piece where
  | char (c : Char)
  | unit (n : Nat)
deriving DecidableEq

/-- The value of a hexadecimal digit. -/
def hexValue? (c : Char) : Option Nat :=
  if c.isDigit then some (c.toNat - '0'.toNat)
  else if 'a' ≤ c ∧ c ≤ 'f' then some (c.toNat - 'a'.toNat + 10)
  else if 'A' ≤ c ∧ c ≤ 'F' then some (c.toNat - 'A'.toNat + 10)
  else none

/-- The number of four hexadecimal digits. -/
def unit? (a b c d : Char) : Option Nat := do
  return ((((← hexValue? a) * 16 + (← hexValue? b)) * 16 + (← hexValue? c)) * 16 + (← hexValue? d))

/-- The character that a letter behind a backslash stands for. -/
def escaped? : Char → Option Char
  | '"'  => some '"'
  | '\\' => some '\\'
  | '/'  => some '/'
  | 'b'  => some '\x08'
  | 'f'  => some '\x0c'
  | 'n'  => some '\n'
  | 'r'  => some '\r'
  | 't'  => some '\t'
  | _    => none

/-- The pieces of a string up to the quote that ends it, behind those found before in reverse order.
Control characters must be escaped. -/
def pieces? : List Char → List Piece → Option (List Piece × List Char)
  | [], _ => none
  | '"' :: cs, found => some (found.reverse, cs)
  | '\\' :: 'u' :: a :: b :: c :: d :: cs, found => do
    let n ← unit? a b c d
    pieces? cs (.unit n :: found)
  | '\\' :: c :: cs, found => do
    let e ← escaped? c
    pieces? cs (.char e :: found)
  | c :: cs, found =>
    if c = '\\' || c.toNat < 32 then none else pieces? cs (.char c :: found)

/-- Is this the first half of a surrogate pair? -/
def isHighSurrogate (n : Nat) : Bool := 0xD800 ≤ n && n < 0xDC00

/-- Is this the second half of a surrogate pair? -/
def isLowSurrogate (n : Nat) : Bool := 0xDC00 ≤ n && n < 0xE000

/-- The text of the pieces of a string, behind the characters found before in reverse order. Two
halves of a surrogate pair make one character, and neither may stand alone. -/
def textOf? : List Piece → List Char → Option String
  | [], found => some (.ofList found.reverse)
  | .char c :: ps, found => textOf? ps (c :: found)
  | .unit high :: .unit low :: ps, found =>
    if isHighSurrogate high then
      if isLowSurrogate low then
        textOf? ps (.ofNat (0x10000 + (high - 0xD800) * 0x400 + (low - 0xDC00)) :: found)
      else none
    else if isLowSurrogate high then none
    else textOf? (.unit low :: ps) (.ofNat high :: found)
  | .unit n :: ps, found =>
    if isHighSurrogate n || isLowSurrogate n then none else textOf? ps (.ofNat n :: found)

/-! ### Tokens -/

/-- The token that the characters start with. -/
def first? : List Char → Option (Token × List Char)
  | '\x7b' :: cs => some (.openBrace, cs)
  | '\x7d' :: cs => some (.closeBrace, cs)
  | '[' :: cs => some (.openBracket, cs)
  | ']' :: cs => some (.closeBracket, cs)
  | ',' :: cs => some (.comma, cs)
  | ':' :: cs => some (.colon, cs)
  | 'n' :: 'u' :: 'l' :: 'l' :: cs => some (.null, cs)
  | 't' :: 'r' :: 'u' :: 'e' :: cs => some (.bool true, cs)
  | 'f' :: 'a' :: 'l' :: 's' :: 'e' :: cs => some (.bool false, cs)
  | '"' :: cs => (pieces? cs []).map fun (ps, rest) => (.text (textOf? ps []), rest)
  | cs => (numeral? cs).map fun (n, rest) => (.number n, rest)

theorem length_sign (cs : List Char) : (sign cs).2.length ≤ cs.length := by
  unfold sign
  split <;> simp

theorem length_of_digits? {cs ds rest : List Char} (h : digits? cs = some (ds, rest)) :
    rest.length < cs.length := by
  have split := congrArg List.length (List.takeWhile_append_dropWhile (p := Char.isDigit) (l := cs))
  simp only [digits?] at h
  split at h
  · cases h
  · rename_i ne_nil
    cases h
    have := List.length_pos_iff.mpr ne_nil
    simp only [List.length_append] at split
    omega

theorem length_of_whole? {cs ds rest : List Char} (h : whole? cs = some (ds, rest)) :
    rest.length < cs.length := by
  simp only [whole?, Option.bind_eq_bind, Option.bind_eq_some_iff] at h
  obtain ⟨⟨ds', rest'⟩, digits, h⟩ := h
  split at h
  · cases h
  · cases h
    exact length_of_digits? digits

theorem length_of_fraction? {cs rest : List Char} {f : Option (List Char)}
    (h : fraction? cs = some (f, rest)) : rest.length ≤ cs.length := by
  unfold fraction? at h
  split at h
  · simp only [Option.map_eq_some_iff] at h
    obtain ⟨⟨ds, rest'⟩, digits, eq⟩ := h
    cases eq
    have := length_of_digits? digits
    simp only [List.length_cons]
    omega
  · cases h
    exact Nat.le_refl _

theorem length_of_signedDigits? {cs rest : List Char} {e : Int}
    (h : signedDigits? cs = some (e, rest)) : rest.length ≤ cs.length := by
  unfold signedDigits? at h
  split at h
  all_goals
    simp only [Option.map_eq_some_iff] at h
    obtain ⟨⟨ds, rest'⟩, digits, eq⟩ := h
    cases eq
    have := length_of_digits? digits
    simp only [List.length_cons]
    omega

theorem length_of_exponent? {cs rest : List Char} {e : Option Int}
    (h : exponent? cs = some (e, rest)) : rest.length ≤ cs.length := by
  unfold exponent? at h
  split at h
  case h_3 => cases h; exact Nat.le_refl _
  all_goals
    simp only [Option.map_eq_some_iff] at h
    obtain ⟨⟨ds, rest'⟩, digits, eq⟩ := h
    cases eq
    have := length_of_signedDigits? digits
    simp only [List.length_cons]
    omega

theorem length_of_numeral? {cs rest : List Char} {n : Numeral}
    (h : numeral? cs = some (n, rest)) : rest.length < cs.length := by
  simp only [numeral?, Option.bind_eq_bind, Option.bind_eq_some_iff] at h
  obtain ⟨⟨ds, rest₁⟩, whole, ⟨f, rest₂⟩, fraction, ⟨e, rest₃⟩, exponent, eq⟩ := h
  cases eq
  change rest₃.length < cs.length
  have := length_sign cs
  have : rest₁.length < (sign cs).2.length := length_of_whole? whole
  have : rest₂.length ≤ rest₁.length := length_of_fraction? fraction
  have : rest₃.length ≤ rest₂.length := length_of_exponent? exponent
  omega

theorem length_of_pieces? {cs rest : List Char} {found ps : List Piece}
    (h : pieces? cs found = some (ps, rest)) : rest.length < cs.length := by
  fun_induction pieces? cs found with
  | case1 => cases h
  | case2 => cases h; simp
  | case3 a b c d cs found ih =>
    simp only [Option.bind_eq_bind, Option.bind_eq_some_iff] at h
    obtain ⟨n, _, h⟩ := h
    have := ih n h
    simp only [List.length_cons]
    omega
  | case4 found c cs _ ih =>
    simp only [Option.bind_eq_bind, Option.bind_eq_some_iff] at h
    obtain ⟨e, _, h⟩ := h
    have := ih e h
    simp only [List.length_cons]
    omega
  | case5 => cases h
  | case6 found c cs _ _ _ _ ih =>
    have := ih h
    simp only [List.length_cons]
    omega

theorem length_of_first? {cs rest : List Char} {t : Token} (h : first? cs = some (t, rest)) :
    rest.length < cs.length := by
  unfold first? at h
  split at h
  case h_10 =>
    simp only [Option.map_eq_some_iff] at h
    obtain ⟨⟨ps, rest'⟩, pieces, eq⟩ := h
    cases eq
    have := length_of_pieces? pieces
    simp only [List.length_cons]
    omega
  case h_11 =>
    simp only [Option.map_eq_some_iff] at h
    obtain ⟨⟨n, rest'⟩, numeral, eq⟩ := h
    cases eq
    exact length_of_numeral? numeral
  all_goals
    cases h
    simp only [List.length_cons]
    omega

/-- The tokens of the characters, behind those found before in reverse order. -/
def scan? (cs : List Char) (found : List Token) : Option (List Token) :=
  match cs with
  | [] => some found.reverse
  | c :: rest =>
    if isBlank c then scan? rest found
    else
      match h : first? (c :: rest) with
      | none => none
      | some (t, rest') =>
        have := length_of_first? h
        scan? rest' (t :: found)
termination_by cs.length
decreasing_by
  all_goals
    simp only [List.length_cons] at *
    omega

/-- The tokens of a JSON text. -/
def tokenize? (s : String) : Option (List Token) := scan? s.toList []

end Token

end Cambist.Json
