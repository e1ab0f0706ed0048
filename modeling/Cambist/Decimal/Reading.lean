import Cambist.Decimal.Arithmetic

/-!
# Reading a decimal

A plain numeral is an optional sign and digits with at most one point among them; after the first
digit underscores may separate the others. Digits after the point are taken as long as they fit,
and the first one that does not decides the rounding, a half going up. Digits before the point must
all fit. An underscore behind the last digit that fits may end the fraction without any rounding.

A numeral in scientific notation is a plain numeral, the letter `e` or `E` and an exponent. The
exponent moves the point where the scale has room for that, so that `1.50e1` is `15.0`; otherwise
the number is rounded (negative exponents) or multiplied (positive ones).
-/

namespace Cambist.Decimal

/-! ### Plain numerals -/

/-- The value of a digit. -/
def digitValue (c : Char) : Nat := c.toNat - 48

/-- The next magnitude above of the same scale, or, if the mantissa has no room for it, the
same with one digit less after the point. -/
def nextUp? (x : Magnitude) : Option Magnitude :=
  if h : x.mantissa + 1 < 2 ^ 96 then some { x with mantissa := x.mantissa + 1, mantissa_lt := h }
  else if x.scale = 0 then none
  else some ⟨(2 ^ 96 + 4) / 10, x.scale - 1, by decide, by have := x.scale_le; omega⟩

/-- Mantissas below this bound are narrow: another digit fits 64 bits with some room to spare. -/
def narrowBound : Nat := (2 ^ 64 - 1) / 10 - 255

/-- Does an underscore end this fraction? It does if all 28 places are taken and the mantissa was
still narrow before the last of them. Anywhere else an underscore is skipped. -/
def endsAtUnderscore (x : Magnitude) : Bool := x.scale == 28 && x.mantissa / 10 < narrowBound

/-- Appends digits after the point until one of them does not fit. That one rounds the result up if
it is five or more. -/
def readFraction? (x : Magnitude) : List Char → Option Magnitude
  | [] => some x
  | '_' :: cs => if endsAtUnderscore x then some x else readFraction? x cs
  | c :: cs =>
    if h : x.scale < 28 ∧ x.mantissa * 10 + digitValue c < 2 ^ 96 then
      readFraction? ⟨x.mantissa * 10 + digitValue c, x.scale + 1, h.2, h.1⟩ cs
    else if 5 ≤ digitValue c then nextUp? x
    else some x

/-- Reads the two sides of the point as a magnitude. Together they must start with a digit and hold
only digits and underscores. -/
def readSides? (whole fraction : List Char) : Option Magnitude :=
  let all := whole ++ fraction
  if (all.head?.any Char.isDigit) && all.all (fun c => c.isDigit || c = '_') then
    let n := Nat.ofDigitChars 10 (whole.filter Char.isDigit) 0
    if h : n < 2 ^ 96 then readFraction? ⟨n, 0, h, Magnitude.zero.scale_le⟩ fraction else none
  else none

/-- The decimal of a sign and a magnitude as a numeral gives it: zero is never negative. -/
def ofNumeral (s : Sign) (x : Magnitude) : Decimal := unsignZero ⟨s, x⟩

/-- Reads a plain numeral. -/
def readPlain? (cs : List Char) : Option Decimal :=
  match cs with
  | '-' :: cs => (unsigned cs).map (ofNumeral .minus)
  | '+' :: cs => (unsigned cs).map (ofNumeral .plus)
  | cs        => (unsigned cs).map (ofNumeral .plus)
where
  /-- Splits the digits at the first point. -/
  unsigned (cs : List Char) : Option Magnitude :=
    readSides? (cs.takeWhile (· ≠ '.')) ((cs.dropWhile (· ≠ '.')).drop 1)

/-! ### Scientific notation -/

/-- Reads a whole number, with an optional plus sign. -/
def readNat? (cs : List Char) : Option Nat :=
  match cs with
  | '+' :: cs => digits cs
  | cs        => digits cs
where
  /-- One digit or more and nothing else. -/
  digits (cs : List Char) : Option Nat :=
    if !cs.isEmpty && cs.all Char.isDigit then some (Nat.ofDigitChars 10 cs 0) else none

/-- Moves the point `e` places to the left. Digits that would come to stand beyond the 28th place
are rounded off. -/
def shiftLeft? (x : Magnitude) (e : Nat) : Option Magnitude :=
  if h : x.scale + e ≤ 28 then some { x with scale := x.scale + e, scale_le := h }
  else if e ≤ 28 then
    let d := x.scale + e - 28
    some ⟨roundHalfUp x.mantissa (10 ^ d), 28,
      roundHalfUp_lt x.mantissa_lt (Nat.pow_pos (by decide)), by decide⟩
  else none

/-- The same number without zeros at the end of its digits after the point. -/
def trimZeros (x : Magnitude) : Magnitude :=
  go x.mantissa x.scale x.mantissa_lt x.scale_le
where
  /-- Drops one zero after the other, as long as digits remain after the point. -/
  go (m : Nat) : (s : Nat) → m < 2 ^ 96 → s ≤ 28 → Magnitude
    | 0, hm, hs => ⟨m, 0, hm, hs⟩
    | s + 1, hm, hs =>
      if m % 10 = 0 then go (m / 10) s (Nat.lt_of_le_of_lt (Nat.div_le_self m 10) hm) (by omega)
      else ⟨m, s + 1, hm, hs⟩

/-- The power `10 ^ e` as a decimal. -/
def powerOfTen? (e : Nat) : Option Decimal :=
  if h : e ≤ 28 then
    some ⟨.plus, 10 ^ e, 0,
      Nat.lt_of_le_of_lt (Nat.pow_le_pow_right (by decide) h) (by decide),
      Magnitude.zero.scale_le⟩
  else none

/-- Moves the point `e` places to the right. Beyond the last digit zeros are filled in. -/
def shiftRight? (x : Decimal) (e : Nat) : Option Decimal :=
  if e ≤ x.scale then
    some ⟨x.sign, { x.magnitude with
      scale := x.scale - e, scale_le := Nat.le_trans (Nat.sub_le ..) x.magnitude.scale_le }⟩
  else do
    let y ← mul? x (← powerOfTen? e)
    some ⟨y.sign, trimZeros y.magnitude⟩

/-- Is this the letter that sets off an exponent? -/
def isExponentMark (c : Char) : Bool := c = 'e' || c = 'E'

/-- Reads a numeral in scientific notation. -/
def readScientific? (cs : List Char) : Option Decimal :=
  match cs.dropWhile (fun c => !isExponentMark c) with
  | [] => none
  | _ :: exponent => do
    let x ← readPlain? (cs.takeWhile (fun c => !isExponentMark c))
    match exponent with
    | '-' :: digits => (shiftLeft? x.magnitude (← readNat? digits)).map (⟨x.sign, ·⟩)
    | digits        => shiftRight? x (← readNat? digits)

/-- Reads a numeral, plain or in scientific notation. -/
def read? (s : String) : Option Decimal := readPlain? s.toList <|> readScientific? s.toList

end Cambist.Decimal
