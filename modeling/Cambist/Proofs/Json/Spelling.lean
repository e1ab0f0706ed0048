import Cambist.Json.Token
import Cambist.Proofs.Token.Lexeme

/-!
# Spellings of JSON tokens

How JSON tokens may be written, told without a scanner: a character of a string stands for itself or
is escaped in one of several ways, a number is a numeral without needless zeros, and any blanks may
stand between two tokens. Whatever way is chosen, the scan finds the tokens that were written.
-/

namespace Cambist.Json.Token

/-! ### Characters of strings -/

/-- The letters that stand for a character behind a backslash. -/
def letters : List (Char × Char) :=
  [('"', '"'), ('\\', '\\'), ('/', '/'), ('b', '\x08'), ('f', '\x0c'), ('n', '\n'), ('r', '\r'),
    ('t', '\t')]

/-- The hexadecimal digits, small and capital. -/
def IsHexDigit (n : Nat) (c : Char) : Prop :=
  n < 16 ∧ (c = Nat.digitChar n ∨ c = (Nat.digitChar n).toUpper)

/-- A backslash, a `u` and the four hexadecimal digits of a number. -/
inductive SpellsUnit : Nat → List Char → Prop where
  | intro {w x y z : Nat} {a b c d : Char} (ha : IsHexDigit w a) (hb : IsHexDigit x b)
      (hc : IsHexDigit y c) (hd : IsHexDigit z d) :
      SpellsUnit (((w * 16 + x) * 16 + y) * 16 + z) ['\\', 'u', a, b, c, d]

/-- The ways to write a character of a string. A character beyond 16 bits is escaped in two halves.
-/
inductive SpellsChar : Char → List Char → Prop where
  | plain {c : Char} (hc : 32 ≤ c.toNat) (hquote : c ≠ '"') (hslash : c ≠ '\\') :
      SpellsChar c [c]
  | letter {letter c : Char} (h : (letter, c) ∈ letters) : SpellsChar c ['\\', letter]
  | unit {c : Char} {word : List Char} (h : SpellsUnit c.toNat word) : SpellsChar c word
  | halves {c : Char} {high low : List Char} (hc : 0x10000 ≤ c.toNat)
      (hhigh : SpellsUnit (0xD800 + (c.toNat - 0x10000) / 0x400) high)
      (hlow : SpellsUnit (0xDC00 + (c.toNat - 0x10000) % 0x400) low) : SpellsChar c (high ++ low)

/-- The ways to write the characters of a string, one after the other. -/
inductive SpellsChars : List Char → List Char → Prop where
  | nil : SpellsChars [] []
  | cons {c : Char} {cs word body : List Char} (h : SpellsChar c word) (hs : SpellsChars cs body) :
      SpellsChars (c :: cs) (word ++ body)

variable {c : Char} {cs word body : List Char} {n : Nat}

lemma hexValue?_of_isHexDigit (h : IsHexDigit n c) : hexValue? c = some n := by
  have hdigits : ∀ k < 16, hexValue? (Nat.digitChar k) = some k ∧
      hexValue? (Nat.digitChar k).toUpper = some k := by decide
  obtain ⟨hn, rfl | rfl⟩ := h
  · exact (hdigits n hn).1
  · exact (hdigits n hn).2

lemma pieces?_of_spellsUnit (h : SpellsUnit n word) (rest : List Char) (found : List Piece) :
    pieces? (word ++ rest) found = pieces? rest (.unit n :: found) := by
  cases h with
  | intro ha hb hc hd =>
    simp [pieces?, unit?, hexValue?_of_isHexDigit ha, hexValue?_of_isHexDigit hb,
      hexValue?_of_isHexDigit hc, hexValue?_of_isHexDigit hd]

lemma pieces?_of_mem_letters {letter : Char} (h : (letter, c) ∈ letters) (rest : List Char)
    (found : List Piece) :
    pieces? ('\\' :: letter :: rest) found = pieces? rest (.char c :: found) := by
  have hescaped : ∀ p ∈ letters, p.1 ≠ 'u' ∧ escaped? p.1 = some p.2 := by decide
  obtain ⟨hne, hc⟩ := hescaped _ h
  rw [pieces?, hc]
  · rfl
  · intro a b c d cs hu
    exact absurd hu hne

/-- The number of a character is no half of a surrogate pair, so it makes that character. -/
lemma textOf?_unit (c : Char) (ps : List Piece) (front : List Char) :
    textOf? (.unit c.toNat :: ps) front = textOf? ps (c :: front) := by
  have hvalid : c.toNat < 0xD800 ∨ 0xDFFF < c.toNat ∧ c.toNat < 0x110000 := c.valid
  have hhigh : isHighSurrogate c.toNat = false := by
    simp only [isHighSurrogate, Bool.and_eq_false_iff, decide_eq_false_iff_not]
    omega
  have hlow : isLowSurrogate c.toNat = false := by
    simp only [isLowSurrogate, Bool.and_eq_false_iff, decide_eq_false_iff_not]
    omega
  rcases ps with _ | ⟨_ | low, ps⟩
  all_goals simp [textOf?, hhigh, hlow]

/-- The two halves of a character beyond 16 bits make that character. -/
lemma textOf?_halves (hc : 0x10000 ≤ c.toNat) (ps : List Piece) (front : List Char) :
    textOf? (.unit (0xD800 + (c.toNat - 0x10000) / 0x400) ::
      .unit (0xDC00 + (c.toNat - 0x10000) % 0x400) :: ps) front = textOf? ps (c :: front) := by
  have hvalid : c.toNat < 0xD800 ∨ 0xDFFF < c.toNat ∧ c.toNat < 0x110000 := c.valid
  have hhigh : isHighSurrogate (0xD800 + (c.toNat - 0x10000) / 0x400) = true := by
    simp only [isHighSurrogate, Bool.and_eq_true, decide_eq_true_eq]
    omega
  have hlow : isLowSurrogate (0xDC00 + (c.toNat - 0x10000) % 0x400) = true := by
    simp only [isLowSurrogate, Bool.and_eq_true, decide_eq_true_eq]
    omega
  have hsum : 0x10000 + (0xD800 + (c.toNat - 0x10000) / 0x400 - 0xD800) * 0x400 +
      (0xDC00 + (c.toNat - 0x10000) % 0x400 - 0xDC00) = c.toNat := by omega
  rw [textOf?, if_pos hhigh, if_pos hlow, hsum, Char.ofNat_toNat]

/-- A character of a string makes some pieces, and these make the character. -/
lemma exists_pieces_of_spellsChar (h : SpellsChar c word) : ∃ ps,
    (∀ rest found, pieces? (word ++ rest) found = pieces? rest (ps.reverse ++ found)) ∧
      ∀ qs front, textOf? (ps ++ qs) front = textOf? qs (c :: front) := by
  cases h with
  | plain hc hquote hslash =>
    refine ⟨[.char c], fun rest found => ?_, fun qs front => rfl⟩
    have hplain : ¬ (decide (c = '\\') || decide (c.toNat < 32)) = true := by simp [hslash, hc]
    rw [List.singleton_append, pieces?, if_neg hplain]
    · rfl
    · exact hquote
    · intro a b c d cs h
      exact absurd h hslash
    · intro c cs h
      exact absurd h hslash
  | letter h => exact ⟨[.char c], pieces?_of_mem_letters h, fun qs front => rfl⟩
  | unit h => exact ⟨[.unit c.toNat], pieces?_of_spellsUnit h, textOf?_unit c⟩
  | halves hc hhigh hlow =>
    refine ⟨[.unit _, .unit _], fun rest found => ?_, textOf?_halves hc⟩
    rw [List.append_assoc, pieces?_of_spellsUnit hhigh, pieces?_of_spellsUnit hlow]
    rfl

/-- The pieces of a string that is written out make its text. -/
lemma exists_pieces_of_spellsChars (h : SpellsChars cs body) : ∃ ps,
    (∀ rest found, pieces? (body ++ '"' :: rest) found = some (found.reverse ++ ps, rest)) ∧
      ∀ front, textOf? ps front = some (.ofList (front.reverse ++ cs)) := by
  induction h with
  | nil =>
    refine ⟨[], fun rest found => ?_, fun front => ?_⟩
    · rw [List.nil_append, pieces?, List.append_nil]
    · rw [textOf?, List.append_nil]
  | @cons c cs word body h _ ih =>
    obtain ⟨ps, hpieces, htext⟩ := exists_pieces_of_spellsChar h
    obtain ⟨qs, hpieces', htext'⟩ := ih
    refine ⟨ps ++ qs, fun rest found => ?_, fun front => ?_⟩
    · rw [List.append_assoc, hpieces, hpieces', List.reverse_append, List.reverse_reverse,
        List.append_assoc]
    · rw [htext, htext', List.reverse_cons, List.append_assoc, List.singleton_append]

/-! ### Numbers -/

/-- A whole part without a needless zero in front, and a fraction that may be missing. -/
structure IsPlain (whole fraction : List Char) : Prop where
  ne_nil : whole ≠ []
  digits_whole : ∀ d ∈ whole, d.isDigit = true
  digits_fraction : ∀ d ∈ fraction, d.isDigit = true
  leading : ∀ d ds, whole ≠ '0' :: d :: ds

/-- The number with these two sides of the point, without a sign or an exponent. -/
def plain (whole fraction : List Char) : Numeral :=
  ⟨.plus, whole, if fraction = [] then none else some fraction, none⟩

/-- Would this character, right behind a number, belong to the number? -/
def extendsNumber (c : Char) : Bool := c.isDigit || c = '.' || c = 'e' || c = 'E'

variable {ds whole fraction rest : List Char}

lemma stops_isDigit (h : Stops extendsNumber rest) : Stops Char.isDigit rest := by
  intro d hd
  have hnot := h d hd
  simp only [extendsNumber, Bool.or_eq_false_iff] at hnot
  exact hnot.1.1.1

lemma sign_of_isDigit (hc : c.isDigit = true) (cs : List Char) :
    sign (c :: cs) = (.plus, c :: cs) := by
  have hne : c ≠ '-' := ne_of_class hc (by decide)
  rw [sign]
  intro cs' h
  exact hne (List.cons.inj h).1

lemma digits?_append (hne : ds ≠ []) (hds : ∀ d ∈ ds, d.isDigit = true)
    (hstop : Stops Char.isDigit rest) : digits? (ds ++ rest) = some (ds, rest) := by
  rw [digits?, takeWhile_append_of_stops hds hstop, dropWhile_append_of_stops hds hstop]
  cases ds with
  | nil => exact absurd rfl hne
  | cons d ds => rfl

lemma IsPlain.exists_cons (h : IsPlain whole fraction) (rest : List Char) :
    ∃ d ds, Decimal.numeral whole fraction ++ rest = d :: ds ∧ d.isDigit = true := by
  have hne := h.ne_nil
  have hwhole := h.digits_whole
  cases whole with
  | nil => exact absurd rfl hne
  | cons d ds => exact ⟨d, _, rfl, hwhole d List.mem_cons_self⟩

lemma whole?_append (h : IsPlain whole fraction) (hstop : Stops Char.isDigit rest) :
    whole? (whole ++ rest) = some (whole, rest) := by
  rw [whole?, digits?_append h.ne_nil h.digits_whole hstop]
  simp only [Option.bind_eq_bind, Option.bind_some]
  split
  case h_1 heq =>
    cases heq
    exact absurd rfl (h.leading _ _)
  case h_2 => rfl

lemma fraction?_of_stops (h : Stops extendsNumber rest) : fraction? rest = some (none, rest) := by
  rw [fraction?]
  rintro cs rfl
  exact absurd (h '.' rfl) (by decide)

lemma exponent?_of_stops (h : Stops extendsNumber rest) : exponent? rest = some (none, rest) := by
  rw [exponent?]
  · rintro cs rfl
    exact absurd (h 'e' rfl) (by decide)
  · rintro cs rfl
    exact absurd (h 'E' rfl) (by decide)

/-- A plain number is read up to where it ends. -/
lemma numeral?_plain (h : IsPlain whole fraction) (hstop : Stops extendsNumber rest) :
    numeral? (Decimal.numeral whole fraction ++ rest) = some (plain whole fraction, rest) := by
  have hsign : sign (Decimal.numeral whole fraction ++ rest) =
      (.plus, Decimal.numeral whole fraction ++ rest) := by
    obtain ⟨d, ds, hcons, hd⟩ := h.exists_cons rest
    rw [hcons, sign_of_isDigit hd]
  rw [numeral?, hsign]
  by_cases hne : fraction = []
  · subst hne
    rw [Decimal.numeral, if_pos rfl, List.append_nil]
    simp [whole?_append h (stops_isDigit hstop), fraction?_of_stops hstop,
      exponent?_of_stops hstop, plain]
  · have hpoint : Stops Char.isDigit ('.' :: (fraction ++ rest)) := stops_cons.mpr rfl
    have hfraction : fraction? ('.' :: (fraction ++ rest)) = some (some fraction, rest) := by
      rw [fraction?, digits?_append hne h.digits_fraction (stops_isDigit hstop)]
      rfl
    rw [Decimal.numeral, if_neg hne, List.append_assoc, List.cons_append]
    simp [whole?_append h hpoint, hfraction, exponent?_of_stops hstop, plain, hne]

/-! ### Tokens -/

/-- The ways to write a token. -/
inductive Spells : Token → List Char → Prop where
  | openBrace : Spells .openBrace ['\x7b']
  | closeBrace : Spells .closeBrace ['\x7d']
  | openBracket : Spells .openBracket ['[']
  | closeBracket : Spells .closeBracket [']']
  | comma : Spells .comma [',']
  | colon : Spells .colon [':']
  | null : Spells .null ['n', 'u', 'l', 'l']
  | yes : Spells (.bool true) ['t', 'r', 'u', 'e']
  | no : Spells (.bool false) ['f', 'a', 'l', 's', 'e']
  | text {cs body : List Char} (h : SpellsChars cs body) :
      Spells (.text (some (.ofList cs))) ('"' :: (body ++ ['"']))
  | number {whole fraction : List Char} (h : IsPlain whole fraction) :
      Spells (.number (plain whole fraction)) (Decimal.numeral whole fraction)

/-- Does a token end in front of these characters? -/
def EndsBefore : Token → List Char → Prop
  | .number _, rest => Stops extendsNumber rest
  | _, _            => True

/-- The ways to write tokens one after the other, with blanks before, between and behind them. -/
inductive SpellsAll : List Token → List Char → Prop where
  | done : SpellsAll [] []
  | blank {c : Char} {cs : List Char} {ts : List Token} (hc : isBlank c = true)
      (h : SpellsAll ts cs) : SpellsAll ts (c :: cs)
  | token {t : Token} {word rest : List Char} {ts : List Token} (ht : t.Spells word)
      (hend : t.EndsBefore rest) (h : SpellsAll ts rest) : SpellsAll (t :: ts) (word ++ rest)

variable {t : Token} {ts : List Token}

lemma first?_of_isDigit (hc : c.isDigit = true) (cs : List Char) :
    first? (c :: cs) = (numeral? (c :: cs)).map fun (n, rest) => (.number n, rest) := by
  rw [first?.eq_def]
  split
  case h_11 => rfl
  all_goals
    rename_i heq
    cases heq
    exact absurd hc (by decide)

/-- A token that is written is the first one, if it ends where it was meant to. -/
lemma first?_of_spells (ht : t.Spells word) (hend : t.EndsBefore rest) :
    first? (word ++ rest) = some (t, rest) := by
  cases ht with
  | text h =>
    obtain ⟨ps, hpieces, htext⟩ := exists_pieces_of_spellsChars h
    rw [List.cons_append, List.append_assoc, List.singleton_append, first?, hpieces]
    simp [htext]
  | number h =>
    have hnumeral := numeral?_plain h hend
    obtain ⟨d, ds, hcons, hd⟩ := h.exists_cons rest
    rw [hcons] at hnumeral ⊢
    rw [first?_of_isDigit hd, hnumeral]
    rfl
  | openBrace | closeBrace | openBracket | closeBracket | comma | colon | null | yes | no => rfl

lemma first?_of_isBlank (hc : isBlank c = true) (cs : List Char) : first? (c :: cs) = none := by
  have hmem : c ∈ [' ', '\t', '\n', '\r'] := by simpa [isBlank, or_assoc] using hc
  fin_cases hmem <;> rfl

/-- The scan finds the tokens that were written. -/
lemma SpellsAll.scan?_eq (h : SpellsAll ts cs) (found : List Token) :
    scan? cs found = some (found.reverse ++ ts) := by
  induction h generalizing found with
  | done => rw [scan?, List.append_nil]
  | blank hc _ ih => rw [scan?, if_pos hc, ih]
  | @token t word rest ts ht hend _ ih =>
    have hfirst := first?_of_spells ht hend
    cases hword : word ++ rest with
    | nil =>
      rw [hword] at hfirst
      cases hfirst
    | cons c cs =>
      rw [hword] at hfirst
      have hblank : ¬ isBlank c = true := by
        intro hc
        rw [first?_of_isBlank hc] at hfirst
        cases hfirst
      rw [scan?, if_neg hblank]
      split
      case h_1 h =>
        rw [hfirst] at h
        cases h
      case h_2 h =>
        rw [hfirst] at h
        cases h
        rw [ih, List.reverse_cons, List.append_assoc, List.singleton_append]

end Cambist.Json.Token
