import Cambist.Proofs.Decimal.Numeral
import Cambist.Token.Lexer
import Mathlib.Tactic.FinCases

/-!
# Where a lexeme ends

What the lexemes are, told without a scanner: numerals, runs of capital letters, single symbols,
directives and marks. A lexeme stands in front of other characters if these cannot make it longer;
this is what `Lexeme.first?` cuts off.
-/

namespace Cambist

/-! ### Classes of characters -/

section Classes

variable {c : Char}

lemma isUpper_iff_toNat : c.isUpper = true ↔ 'A'.toNat ≤ c.toNat ∧ c.toNat ≤ 'Z'.toNat :=
  decide_eq_true_iff

lemma isLower_iff_toNat : c.isLower = true ↔ 'a'.toNat ≤ c.toNat ∧ c.toNat ≤ 'z'.toNat :=
  Bool.and_eq_true_iff.trans (and_congr decide_eq_true_iff decide_eq_true_iff)

lemma isDigit_of_isUpper (h : c.isUpper = true) : c.isDigit = false := by
  rw [Bool.eq_false_iff]
  intro hdigit
  have hle := (isUpper_iff_toNat.mp h).1.trans (Char.isDigit_iff_toNat.mp hdigit).2
  exact absurd hle (by decide)

lemma isDigit_of_isLower (h : c.isLower = true) : c.isDigit = false := by
  rw [Bool.eq_false_iff]
  intro hdigit
  have hle := (isLower_iff_toNat.mp h).1.trans (Char.isDigit_iff_toNat.mp hdigit).2
  exact absurd hle (by decide)

lemma isUpper_of_isLower (h : c.isLower = true) : c.isUpper = false := by
  rw [Bool.eq_false_iff]
  intro hupper
  have hle := (isLower_iff_toNat.mp h).1.trans (isUpper_iff_toNat.mp hupper).2
  exact absurd hle (by decide)

lemma isCurrencySymbol_iff :
    isCurrencySymbol c = true ↔ c ∈ ['$', '€', '£', '¥', '₽', '₴', '₸', '₹'] := by
  rw [isCurrencySymbol, List.contains_iff_mem]

lemma class_of_isCurrencySymbol (h : isCurrencySymbol c = true) :
    c.isDigit = false ∧ c.isUpper = false ∧ c.isLower = false := by
  rw [isCurrencySymbol_iff] at h
  fin_cases h <;> decide

lemma isCurrencySymbol_of_isLower (h : c.isLower = true) : isCurrencySymbol c = false := by
  rw [Bool.eq_false_iff]
  intro hs
  rw [(class_of_isCurrencySymbol hs).2.2] at h
  cases h

lemma isBlank_iff : isBlank c = true ↔ c ∈ [' ', '\t', '\r', '\n', '\x0c'] := by
  simp [isBlank, or_assoc]

end Classes

/-! ### Runs -/

/-- Do these characters not start with one of a class? -/
def Stops (p : Char → Bool) (rest : List Char) : Prop := ∀ c ∈ rest.head?, p c = false

section Runs

variable {p : Char → Bool} {run rest cs : List Char}

@[simp] lemma stops_cons {c : Char} : Stops p (c :: cs) ↔ p c = false := by
  simp [Stops]

lemma takeWhile_append_of_stops (hrun : ∀ c ∈ run, p c = true) (hstop : Stops p rest) :
    (run ++ rest).takeWhile p = run := by
  rw [List.takeWhile_append_of_pos hrun]
  cases rest with
  | nil => simp
  | cons c rest =>
    rw [stops_cons] at hstop
    simp [hstop]

lemma dropWhile_append_of_stops (hrun : ∀ c ∈ run, p c = true) (hstop : Stops p rest) :
    (run ++ rest).dropWhile p = rest := by
  rw [List.dropWhile_append_of_pos hrun]
  cases rest with
  | nil => simp
  | cons c rest =>
    rw [stops_cons] at hstop
    simp [hstop]

lemma takeWhile_cons_ne_nil {c : Char} (hc : p c = true) : (c :: cs).takeWhile p ≠ [] := by
  rw [List.takeWhile_cons_of_pos hc]
  exact List.cons_ne_nil _ _

lemma stops_dropWhile (p : Char → Bool) (cs : List Char) : Stops p (cs.dropWhile p) := by
  intro c hc
  have h := List.head?_dropWhile_not p cs
  rw [Option.mem_def.mp hc] at h
  exact h

end Runs

/-! ### Lexemes -/

open Decimal (numeral)

namespace Lexeme

/-- Do these characters start with a point and a digit? -/
def StartsFraction (rest : List Char) : Prop := ∃ d ds, rest = '.' :: d :: ds ∧ d.isDigit = true

/-- A lexeme stands in front of characters that cannot make it longer. -/
inductive EndsBefore : Lexeme → List Char → Prop where
  | number {whole fraction rest : List Char} (hne : whole ≠ [])
      (hwhole : ∀ d ∈ whole, d.isDigit = true) (hfraction : ∀ d ∈ fraction, d.isDigit = true)
      (hstop : Stops Char.isDigit rest) (hpoint : fraction = [] → ¬ StartsFraction rest) :
      EndsBefore ⟨.number, numeral whole fraction⟩ rest
  | code {c : Char} {cs rest : List Char} (hc : c.isUpper = true)
      (hcs : ∀ d ∈ cs, d.isUpper = true) (hstop : Stops Char.isUpper rest) :
      EndsBefore ⟨.currency, c :: cs⟩ rest
  | symbol {c : Char} (hc : isCurrencySymbol c = true) (rest : List Char) :
      EndsBefore ⟨.currency, [c]⟩ rest
  | directive {c : Char} {cs rest : List Char} (hc : c.isLower = true)
      (hcs : ∀ d ∈ cs, isDirectiveChar d = true) (hstop : Stops isDirectiveChar rest) :
      EndsBefore ⟨.directive, c :: cs⟩ rest
  | colon (rest : List Char) : EndsBefore ⟨.colon, [':']⟩ rest
  | plus (rest : List Char) : EndsBefore ⟨.plus, ['+']⟩ rest
  | minus (rest : List Char) : EndsBefore ⟨.minus, ['-']⟩ rest

variable {l : Lexeme} {rest cs : List Char}

/-! #### Numbers -/

lemma head?_any_isDigit {fraction : List Char} (hne : fraction ≠ [])
    (hfraction : ∀ d ∈ fraction, d.isDigit = true) (rest : List Char) :
    (fraction ++ rest).head?.any Char.isDigit = true := by
  cases fraction with
  | nil => exact absurd rfl hne
  | cons d ds => exact hfraction d List.mem_cons_self

/-- A point between digits belongs to the number. -/
lemma numberChars_of_point {whole : List Char} (hwhole : ∀ d ∈ whole, d.isDigit = true)
    (hcs : cs.head?.any Char.isDigit = true) :
    numberChars (whole ++ '.' :: cs) = whole ++ '.' :: cs.takeWhile Char.isDigit := by
  have hstop : Stops Char.isDigit ('.' :: cs) := stops_cons.mpr (by decide)
  rw [numberChars, takeWhile_append_of_stops hwhole hstop, dropWhile_append_of_stops hwhole hstop]
  exact if_pos hcs

lemma numberChars_numeral {whole fraction : List Char} (hwhole : ∀ d ∈ whole, d.isDigit = true)
    (hfraction : ∀ d ∈ fraction, d.isDigit = true) (hstop : Stops Char.isDigit rest)
    (hpoint : fraction = [] → ¬ StartsFraction rest) :
    numberChars (numeral whole fraction ++ rest) = numeral whole fraction := by
  by_cases hne : fraction = []
  · rw [numeral, if_pos hne, List.append_nil, numberChars, takeWhile_append_of_stops hwhole hstop,
      dropWhile_append_of_stops hwhole hstop]
    split
    case h_1 ds =>
      rw [if_neg]
      intro hany
      apply hpoint hne
      cases ds with
      | nil => cases hany
      | cons d ds => exact ⟨d, ds, rfl, hany⟩
    case h_2 => rfl
  · rw [numeral, if_neg hne, List.append_assoc, List.cons_append,
      numberChars_of_point hwhole (head?_any_isDigit hne hfraction rest),
      takeWhile_append_of_stops hfraction hstop]

lemma numeral_takeWhile_dropWhile {ds : List Char} (hdrop : cs.dropWhile Char.isDigit = '.' :: ds)
    (hne : ds.takeWhile Char.isDigit ≠ []) :
    cs = numeral (cs.takeWhile Char.isDigit) (ds.takeWhile Char.isDigit) ++
      ds.dropWhile Char.isDigit := by
  rw [numeral, if_neg hne, List.append_assoc, List.cons_append, List.takeWhile_append_dropWhile,
    ← hdrop, List.takeWhile_append_dropWhile]

/-- What starts with a digit starts with a numeral. -/
lemma exists_number {c : Char} (hc : c.isDigit = true) (cs : List Char) :
    ∃ whole fraction rest, c :: cs = numeral whole fraction ++ rest ∧
      EndsBefore ⟨.number, numeral whole fraction⟩ rest := by
  have hne : (c :: cs).takeWhile Char.isDigit ≠ [] := takeWhile_cons_ne_nil hc
  have hdigits : ∀ es : List Char, ∀ d ∈ es.takeWhile Char.isDigit, d.isDigit = true :=
    fun _ _ => List.mem_takeWhile_imp
  by_cases hpoint : StartsFraction ((c :: cs).dropWhile Char.isDigit)
  · obtain ⟨d, ds, hdrop, hd⟩ := hpoint
    have hfraction : (d :: ds).takeWhile Char.isDigit ≠ [] := takeWhile_cons_ne_nil hd
    exact ⟨_, _, _, numeral_takeWhile_dropWhile hdrop hfraction,
      .number hne (hdigits _) (hdigits _) (stops_dropWhile _ _) (fun h => absurd h hfraction)⟩
  · refine ⟨(c :: cs).takeWhile Char.isDigit, [], (c :: cs).dropWhile Char.isDigit, ?_,
      .number hne (hdigits _) nofun (stops_dropWhile _ _) (fun _ => hpoint)⟩
    rw [numeral, if_pos rfl, List.append_nil, List.takeWhile_append_dropWhile]

/-! #### What is cut off -/

section FirstCharacter

variable {c : Char}

lemma first?_of_isDigit (hc : c.isDigit = true) (cs : List Char) :
    first? (c :: cs) = some ⟨.number, numberChars (c :: cs)⟩ := by
  exact if_pos hc

lemma first?_of_isUpper (hc : c.isUpper = true) (cs : List Char) :
    first? (c :: cs) = some ⟨.currency, c :: cs.takeWhile Char.isUpper⟩ := by
  simp only [first?, isDigit_of_isUpper hc, hc, Bool.false_eq_true, if_false, if_true]

lemma first?_of_isCurrencySymbol (hc : isCurrencySymbol c = true) (cs : List Char) :
    first? (c :: cs) = some ⟨.currency, [c]⟩ := by
  obtain ⟨hdigit, hupper, -⟩ := class_of_isCurrencySymbol hc
  simp only [first?, hdigit, hupper, hc, Bool.false_eq_true, if_false, if_true]

lemma first?_of_isLower (hc : c.isLower = true) (cs : List Char) :
    first? (c :: cs) = some ⟨.directive, c :: cs.takeWhile isDirectiveChar⟩ := by
  simp only [first?, isDigit_of_isLower hc, isUpper_of_isLower hc, isCurrencySymbol_of_isLower hc,
    hc, Bool.false_eq_true, if_false, if_true]

lemma first?_of_isBlank (hc : isBlank c = true) (cs : List Char) : first? (c :: cs) = none := by
  rw [isBlank_iff] at hc
  fin_cases hc <;> rfl

end FirstCharacter

lemma first?_of_endsBefore (h : l.EndsBefore rest) : first? (l.chars ++ rest) = some l := by
  cases h with
  | @number whole fraction rest hne hwhole hfraction hstop hpoint =>
    have hchars := numberChars_numeral hwhole hfraction hstop hpoint
    cases whole with
    | nil => exact absurd rfl hne
    | cons d ds =>
      refine (first?_of_isDigit (hwhole d List.mem_cons_self) _).trans ?_
      exact congrArg (fun ds => some (Lexeme.mk .number ds)) hchars
  | code hc hcs hstop =>
    rw [List.cons_append, first?_of_isUpper hc, takeWhile_append_of_stops hcs hstop]
  | symbol hc rest => exact first?_of_isCurrencySymbol hc rest
  | directive hc hcs hstop =>
    rw [List.cons_append, first?_of_isLower hc, takeWhile_append_of_stops hcs hstop]
  | colon rest => rfl
  | plus rest => rfl
  | minus rest => rfl

/-- The characters start with a lexeme that is cut off just if it stands there and does not go on
behind its end. -/
lemma first?_eq_some_iff :
    first? cs = some l ↔ ∃ rest, cs = l.chars ++ rest ∧ l.EndsBefore rest := by
  constructor
  · intro h
    cases cs with
    | nil => cases h
    | cons c cs =>
      by_cases hdigit : c.isDigit = true
      · obtain ⟨whole, fraction, rest, heq, hends⟩ := exists_number hdigit cs
        have hfirst := first?_of_endsBefore hends
        rw [← heq, h] at hfirst
        cases hfirst
        exact ⟨rest, heq, hends⟩
      by_cases hupper : c.isUpper = true
      · rw [first?_of_isUpper hupper] at h
        cases h
        refine ⟨cs.dropWhile Char.isUpper, ?_,
          .code hupper (fun _ => List.mem_takeWhile_imp) (stops_dropWhile _ _)⟩
        rw [List.cons_append, List.takeWhile_append_dropWhile]
      by_cases hsymbol : isCurrencySymbol c = true
      · rw [first?_of_isCurrencySymbol hsymbol] at h
        cases h
        exact ⟨cs, rfl, .symbol hsymbol cs⟩
      by_cases hlower : c.isLower = true
      · rw [first?_of_isLower hlower] at h
        cases h
        refine ⟨cs.dropWhile isDirectiveChar, ?_,
          .directive hlower (fun _ => List.mem_takeWhile_imp) (stops_dropWhile _ _)⟩
        rw [List.cons_append, List.takeWhile_append_dropWhile]
      simp only [first?, hdigit, hupper, hsymbol, hlower, Bool.false_eq_true, if_false] at h
      split at h
      case h_1 =>
        cases h
        exact ⟨cs, rfl, .colon cs⟩
      case h_2 =>
        cases h
        exact ⟨cs, rfl, .plus cs⟩
      case h_3 =>
        cases h
        exact ⟨cs, rfl, .minus cs⟩
      case h_4 => cases h
  · rintro ⟨rest, rfl, h⟩
    exact first?_of_endsBefore h

end Lexeme

end Cambist
