import Cambist.Proofs.Decimal.Value
import Cambist.Proofs.Token.Scan

/-!
# Maximal munch

What the lexemes are as pieces of text, whatever stands behind them, and how a line is cut: blanks
are skipped, and of all lexemes that the rest of the line starts with the longest is cut off. The
scan of a line is this cutting, up to the end of the line or to the first place where it comes to a
halt.
-/

namespace Cambist

open Decimal (numeral)

namespace Lexeme

/-! ### The longest lexeme -/

/-- The shapes of lexemes. -/
inductive Matches : Lexeme → Prop where
  | number {whole fraction : List Char} (hne : whole ≠ [])
      (hwhole : ∀ d ∈ whole, d.isDigit = true) (hfraction : ∀ d ∈ fraction, d.isDigit = true) :
      Matches ⟨.number, numeral whole fraction⟩
  | code {cs : List Char} (hne : cs ≠ []) (hcs : ∀ c ∈ cs, c.isUpper = true) :
      Matches ⟨.currency, cs⟩
  | symbol {c : Char} (hc : isCurrencySymbol c = true) : Matches ⟨.currency, [c]⟩
  | directive {c : Char} {cs : List Char} (hc : c.isLower = true)
      (hcs : ∀ d ∈ cs, isDirectiveChar d = true) : Matches ⟨.directive, c :: cs⟩
  | colon : Matches ⟨.colon, [':']⟩
  | plus : Matches ⟨.plus, ['+']⟩
  | minus : Matches ⟨.minus, ['-']⟩

/-- Of all lexemes that the characters start with, this is the longest. -/
structure IsLongest (cs : List Char) (l : Lexeme) : Prop where
  shape : l.Matches
  starts : l.chars <+: cs
  longest : ∀ l' : Lexeme, l'.Matches → l'.chars <+: cs → l'.chars.length ≤ l.chars.length

variable {l : Lexeme} {cs rest : List Char}

lemma EndsBefore.matches (h : l.EndsBefore rest) : l.Matches := by
  cases h with
  | number hne hwhole hfraction => exact .number hne hwhole hfraction
  | code hc hcs => exact .code (List.cons_ne_nil _ _) (List.forall_mem_cons.mpr ⟨hc, hcs⟩)
  | symbol hc => exact .symbol hc
  | directive hc hcs => exact .directive hc hcs
  | colon => exact .colon
  | plus => exact .plus
  | minus => exact .minus

lemma length_le_length_takeWhile {p : Char → Bool} {run : List Char}
    (hrun : ∀ c ∈ run, p c = true) : run.length ≤ ((run ++ rest).takeWhile p).length := by
  rw [List.takeWhile_append_of_pos hrun, List.length_append]
  exact Nat.le_add_right _ _

lemma length_takeWhile_le_length_numberChars (cs : List Char) :
    (cs.takeWhile Char.isDigit).length ≤ (numberChars cs).length := by
  rw [numberChars]
  split
  · split_ifs
    · rw [List.length_append]
      exact Nat.le_add_right _ _
    · exact Nat.le_refl _
  · exact Nat.le_refl _

lemma length_numeral_le {whole fraction : List Char} (hwhole : ∀ d ∈ whole, d.isDigit = true)
    (hfraction : ∀ d ∈ fraction, d.isDigit = true) (rest : List Char) :
    (numeral whole fraction).length ≤ (numberChars (numeral whole fraction ++ rest)).length := by
  by_cases hne : fraction = []
  · rw [numeral, if_pos hne, List.append_nil]
    exact (length_le_length_takeWhile hwhole).trans (length_takeWhile_le_length_numberChars _)
  · rw [numeral, if_neg hne, List.append_assoc, List.cons_append,
      numberChars_of_point hwhole (head?_any_isDigit hne hfraction rest), List.length_append,
      List.length_append, List.length_cons, List.length_cons]
    have h : fraction.length ≤ ((fraction ++ rest).takeWhile Char.isDigit).length :=
      length_le_length_takeWhile hfraction
    omega

/-- What is cut off is of the kind of every lexeme that stands there, and no shorter. -/
lemma Matches.exists_first? (h : l.Matches) (rest : List Char) :
    ∃ l₀, first? (l.chars ++ rest) = some l₀ ∧ l₀.kind = l.kind ∧
      l.chars.length ≤ l₀.chars.length := by
  cases h with
  | @number whole fraction hne hwhole hfraction =>
    have hle := length_numeral_le hwhole hfraction rest
    cases whole with
    | nil => exact absurd rfl hne
    | cons d ds =>
      exact ⟨_, first?_of_isDigit (hwhole d List.mem_cons_self) _, rfl, hle⟩
  | @code cs hne hcs =>
    cases cs with
    | nil => exact absurd rfl hne
    | cons c cs =>
      obtain ⟨hc, hcs⟩ := List.forall_mem_cons.mp hcs
      exact ⟨_, first?_of_isUpper hc _, rfl, Nat.succ_le_succ (length_le_length_takeWhile hcs)⟩
  | symbol hc => exact ⟨_, first?_of_isCurrencySymbol hc _, rfl, Nat.le_refl _⟩
  | directive hc hcs =>
    exact ⟨_, first?_of_isLower hc _, rfl, Nat.succ_le_succ (length_le_length_takeWhile hcs)⟩
  | colon => exact ⟨_, rfl, rfl, Nat.le_refl _⟩
  | plus => exact ⟨_, rfl, rfl, Nat.le_refl _⟩
  | minus => exact ⟨_, rfl, rfl, Nat.le_refl _⟩

lemma matches_of_first? (h : first? cs = some l) : l.Matches ∧ l.chars <+: cs := by
  obtain ⟨rest, rfl, hends⟩ := first?_eq_some_iff.mp h
  exact ⟨hends.matches, List.prefix_append _ _⟩

/-- The lexeme that is cut off is the longest one. -/
lemma first?_eq_some_iff_isLongest : first? cs = some l ↔ IsLongest cs l := by
  constructor
  · intro h
    obtain ⟨hshape, hstarts⟩ := matches_of_first? h
    refine ⟨hshape, hstarts, ?_⟩
    rintro l' hl' ⟨rest, rfl⟩
    obtain ⟨l₀, hl₀, -, hle⟩ := hl'.exists_first? rest
    rw [h] at hl₀
    cases hl₀
    exact hle
  · intro h
    obtain ⟨rest, rfl⟩ := h.starts
    obtain ⟨l₀, hl₀, hkind, hle⟩ := h.shape.exists_first? rest
    obtain ⟨hshape, hstarts⟩ := matches_of_first? hl₀
    have hlen : l₀.chars.length = l.chars.length :=
      Nat.le_antisymm (h.longest l₀ hshape hstarts) hle
    have hchars : l₀.chars = l.chars :=
      (List.prefix_of_prefix_length_le hstarts h.starts hlen.le).eq_of_length hlen
    rw [hl₀]
    cases l₀
    cases l
    cases hkind
    cases hchars
    rfl

lemma isLongest_append_iff : IsLongest (l.chars ++ rest) l ↔ l.EndsBefore rest := by
  rw [← first?_eq_some_iff_isLongest, first?_eq_some_iff]
  constructor
  · rintro ⟨rest', heq, h⟩
    rwa [List.append_cancel_left heq]
  · intro h
    exact ⟨rest, rfl, h⟩

/-- Nothing is cut off just where no lexeme stands. -/
lemma first?_eq_none_iff : first? cs = none ↔ ∀ l : Lexeme, l.Matches → ¬ l.chars <+: cs := by
  constructor
  · rintro h l hl ⟨rest, rfl⟩
    obtain ⟨l₀, hl₀, -⟩ := hl.exists_first? rest
    rw [h] at hl₀
    cases hl₀
  · intro h
    cases hfirst : first? cs with
    | none => rfl
    | some l =>
      obtain ⟨hshape, hstarts⟩ := matches_of_first? hfirst
      exact absurd hstarts (h l hshape)

/-! ### Cutting a line -/

/-- A lexeme and the place where it stands. -/
structure Placed where
  lexeme : Lexeme
  position : Nat
deriving DecidableEq

/-- The place behind a lexeme. -/
def Placed.finish (l : Placed) : Nat := l.position + l.lexeme.chars.length

/-- From the characters at a position, the cutting of longest lexemes leads over these lexemes to
the characters at another position. -/
inductive Munches : List Char → Nat → List Placed → List Char → Nat → Prop where
  | here (cs : List Char) (i : Nat) : Munches cs i [] cs i
  | blank {c : Char} {cs rest : List Char} {i j : Nat} {ls : List Placed} (hc : isBlank c = true)
      (h : Munches cs (i + 1) ls rest j) : Munches (c :: cs) i ls rest j
  | lexeme {l : Lexeme} {cs rest : List Char} {i j : Nat} {ls : List Placed}
      (hl : IsLongest (l.chars ++ cs) l) (h : Munches cs (i + l.chars.length) ls rest j) :
      Munches (l.chars ++ cs) i (⟨l, i⟩ :: ls) rest j

/-- The cutting comes to a halt in front of these characters, for a cause that reads so: the first
of them starts no lexeme, or they start with a number that is no decimal. -/
inductive Halts : List Char → SyntaxError.Cause → String → Prop where
  | unrecognized {c : Char} {cs : List Char} (hc : isBlank c = false)
      (hnone : ∀ l : Lexeme, l.Matches → ¬ l.chars <+: c :: cs) :
      Halts (c :: cs) (.unrecognized c) ("Token recognition error at: '" ++ c.toString ++ "'")
  | numberTooLarge {l : Lexeme} {cs : List Char} (hl : IsLongest cs l) (hkind : l.kind = .number)
      (hread : Decimal.read? l.text = none) :
      Halts cs (.numberTooLarge l.text) ("Number '" ++ l.text ++ "' is too large")

/-- A token is what a lexeme stands for, at the place of the lexeme. -/
structure Placed.Means (l : Placed) (t : Token.Placed) : Prop where
  token : l.lexeme.token? = some t.token
  position : t.position = l.position

/-- Between two places of a line lexemes stand one behind the other, each where its position says,
and everything else there is blank. -/
structure Tiles (chars : List Char) (i j : Nat) (ls : List Placed) : Prop where
  stands : ∀ l ∈ ls, i ≤ l.position ∧ l.finish ≤ j ∧ l.lexeme.chars <+: chars.drop l.position
  apart : ls.Pairwise fun l l' => l.position < l'.position ∧ l.finish ≤ l'.position
  blank : ∀ k c, i ≤ k → k < j → chars[k]? = some c →
    (∀ l ∈ ls, ¬ (l.position ≤ k ∧ k < l.finish)) → isBlank c = true

variable {chars : List Char} {i j : Nat} {ls : List Placed}

lemma Matches.chars_ne_nil (h : l.Matches) : l.chars ≠ [] := by
  obtain ⟨l₀, hl₀, -⟩ := h.exists_first? []
  intro hnil
  rw [hnil] at hl₀
  cases hl₀

lemma length_of_munches (h : Munches cs i ls rest j) : j + rest.length = i + cs.length := by
  induction h with
  | here => rfl
  | blank _ _ ih =>
    rw [ih, List.length_cons]
    omega
  | lexeme _ _ ih =>
    rw [ih, List.length_append]
    omega

lemma Tiles.blank_cons {c : Char} (h : Tiles chars (i + 1) j ls) (hc : isBlank c = true)
    (hget : chars[i]? = some c) : Tiles chars i j ls where
  stands l hl := by
    obtain ⟨hi, hj, hchars⟩ := h.stands l hl
    exact ⟨by omega, hj, hchars⟩
  apart := h.apart
  blank k d hi hj hd hout := by
    rcases Nat.eq_or_lt_of_le hi with rfl | hi
    · rw [hget] at hd
      cases hd
      exact hc
    · exact h.blank k d hi hj hd hout

lemma Tiles.lexeme_cons (h : Tiles chars (i + l.chars.length) j ls) (hne : l.chars ≠ [])
    (hj : i + l.chars.length ≤ j) (hstarts : l.chars <+: chars.drop i) :
    Tiles chars i j (⟨l, i⟩ :: ls) where
  stands := by
    refine List.forall_mem_cons.mpr ⟨⟨Nat.le_refl i, hj, hstarts⟩, ?_⟩
    intro l' hl'
    obtain ⟨hi, hj, hchars⟩ := h.stands l' hl'
    exact ⟨by omega, hj, hchars⟩
  apart := by
    refine List.pairwise_cons.mpr ⟨?_, h.apart⟩
    intro l' hl'
    have hpos : 0 < l.chars.length := List.length_pos_iff.mpr hne
    obtain ⟨hi, -, -⟩ := h.stands l' hl'
    exact ⟨by dsimp only; omega, hi⟩
  blank k d hi hj hd hout := by
    obtain ⟨hfst, hout⟩ := List.forall_mem_cons.mp hout
    have hk : i + l.chars.length ≤ k := Nat.le_of_not_lt fun hlt => hfst ⟨hi, hlt⟩
    exact h.blank k d hk hj hd hout

/-- What the cutting has gone over is tiled by its lexemes. -/
lemma tiles_of_munches (h : Munches cs i ls rest j) (hcs : cs = chars.drop i) :
    i ≤ j ∧ rest = chars.drop j ∧ Tiles chars i j ls := by
  induction h with
  | here cs i => exact ⟨Nat.le_refl i, hcs, nofun, .nil, by omega⟩
  | @blank c cs rest i j ls hc h ih =>
    have hget : chars[i]? = some c := by
      rw [← List.head?_drop, ← hcs, List.head?_cons]
    have hdrop : cs = chars.drop (i + 1) := by
      rw [← List.tail_drop, ← hcs, List.tail_cons]
    obtain ⟨hij, hrest, htiles⟩ := ih hdrop
    exact ⟨by omega, hrest, htiles.blank_cons hc hget⟩
  | @lexeme l cs rest i j ls hl h ih =>
    have hdrop : cs = chars.drop (i + l.chars.length) := by
      rw [← List.drop_drop, ← hcs, List.drop_left]
    obtain ⟨hij, hrest, htiles⟩ := ih hdrop
    refine ⟨by omega, hrest, htiles.lexeme_cons hl.shape.chars_ne_nil hij ?_⟩
    rw [← hcs]
    exact List.prefix_append _ _

lemma isLongest_of_munches (h : Munches cs i ls rest j) (hcs : cs = chars.drop i) :
    ∀ l ∈ ls, IsLongest (chars.drop l.position) l.lexeme := by
  induction h with
  | here => nofun
  | blank hc _ ih =>
    refine ih ?_
    rw [← List.tail_drop, ← hcs, List.tail_cons]
  | @lexeme l cs rest i j ls hl _ ih =>
    refine List.forall_mem_cons.mpr ⟨hcs ▸ hl, ih ?_⟩
    rw [← List.drop_drop, ← hcs, List.drop_left]

end Lexeme

namespace Token

open Lexeme (IsLongest Munches Halts)

variable {l : Lexeme} {cs rest : List Char} {i j : Nat} {ls : List Lexeme.Placed}
  {found ts : List Placed}

/-! ### The scan of a line -/

/-- The scan goes where the cutting goes. -/
lemma scan_of_munches (h : Munches cs i ls rest j)
    (hts : List.Forall₂ Lexeme.Placed.Means ls ts) (found : List Placed) :
    scan cs i found = scan rest j (ts.reverse ++ found) := by
  induction h generalizing ts found with
  | here cs i =>
    cases hts
    rfl
  | blank hc _ ih => rw [scan_of_isBlank hc, ih hts]
  | @lexeme l cs rest i j ls hl _ ih =>
    obtain ⟨⟨t, i'⟩, us, ⟨ht, hi⟩, hus, rfl⟩ := List.forall₂_cons_left_iff.mp hts
    obtain rfl : i' = i := hi
    rw [scan_of_lexeme (Lexeme.isLongest_append_iff.mp hl) ht, ih hus, List.reverse_cons,
      List.append_assoc, List.singleton_append]

lemma token?_eq_none_iff :
    l.token? = none ↔ l.kind = .number ∧ Decimal.read? l.text = none := by
  rw [Lexeme.token?]
  cases l.kind <;> simp

/-- The scan fails where the cutting comes to a halt. -/
lemma scan_of_halts {cause : SyntaxError.Cause} {text : String} (h : Halts cs cause text)
    (i : Nat) (found : List Placed) : scan cs i found = .error ⟨cause, i⟩ := by
  cases h with
  | unrecognized hc hnone =>
    have hfirst := Lexeme.first?_eq_none_iff.mpr hnone
    rw [scan, if_neg (by rw [hc]; decide)]
    split
    case h_1 => rfl
    case h_2 l hl =>
      rw [hfirst] at hl
      cases hl
  | @numberTooLarge l cs hl hkind hread =>
    have hfirst := Lexeme.first?_eq_some_iff_isLongest.mpr hl
    have htoken := token?_eq_none_iff.mpr ⟨hkind, hread⟩
    cases cs with
    | nil => cases hfirst
    | cons c cs =>
      have hblank : ¬ isBlank c = true := by
        intro hc
        rw [Lexeme.first?_of_isBlank hc] at hfirst
        cases hfirst
      rw [scan, if_neg hblank]
      split
      case h_1 hnone =>
        rw [hfirst] at hnone
        cases hnone
      case h_2 l' hl' =>
        rw [hfirst] at hl'
        cases hl'
        rw [htoken]

/-- Characters that are made of tokens are cut into the lexemes that stand for them. -/
lemma Scans.exists_munches (h : Scans cs i ts) :
    ∃ ls, Munches cs i ls [] (i + cs.length) ∧ List.Forall₂ Lexeme.Placed.Means ls ts := by
  induction h with
  | done i => exact ⟨[], .here [] i, .nil⟩
  | @blank c cs i ts hc _ ih =>
    obtain ⟨ls, hmunches, hls⟩ := ih
    rw [Nat.add_right_comm] at hmunches
    exact ⟨ls, .blank hc hmunches, hls⟩
  | @lexeme l t rest i ts hl ht _ ih =>
    obtain ⟨ls, hmunches, hls⟩ := ih
    rw [Nat.add_assoc, ← List.length_append] at hmunches
    exact ⟨⟨l, i⟩ :: ls, .lexeme (Lexeme.isLongest_append_iff.mpr hl) hmunches,
      .cons ⟨ht, rfl⟩ hls⟩

/-- From everywhere the cutting leads to the end of the line or to a halt. -/
lemma exists_munches (cs : List Char) (i : Nat) :
    ∃ ls ts rest j, Munches cs i ls rest j ∧ List.Forall₂ Lexeme.Placed.Means ls ts ∧
      (rest = [] ∨ ∃ cause text, Halts rest cause text) := by
  have found : List Placed := []
  fun_induction scan cs i found with
  | case1 i found => exact ⟨[], [], [], i, .here [] i, .nil, .inl rfl⟩
  | case2 i found c rest hc ih =>
    obtain ⟨ls, ts, rest', j, hmunches, hts, hend⟩ := ih
    exact ⟨ls, ts, rest', j, .blank hc hmunches, hts, hend⟩
  | case3 i found c rest hc hfirst =>
    have hhalts : Halts (c :: rest) _ _ :=
      .unrecognized (Bool.eq_false_iff.mpr hc) (Lexeme.first?_eq_none_iff.mp hfirst)
    exact ⟨[], [], c :: rest, i, .here _ i, .nil, .inr ⟨_, _, hhalts⟩⟩
  | case4 i found c rest hc l hl htoken =>
    obtain ⟨hkind, hread⟩ := token?_eq_none_iff.mp htoken
    have hhalts : Halts (c :: rest) _ _ :=
      .numberTooLarge (Lexeme.first?_eq_some_iff_isLongest.mp hl) hkind hread
    exact ⟨[], [], c :: rest, i, .here _ i, .nil, .inr ⟨_, _, hhalts⟩⟩
  | case5 i found c rest hc l hl t ht _ ih =>
    obtain ⟨ls, ts, rest', j, hmunches, hts, hend⟩ := ih
    have hlongest : IsLongest (c :: rest) l := Lexeme.first?_eq_some_iff_isLongest.mp hl
    obtain ⟨cs, hcs⟩ := hlongest.starts
    rw [← hcs, List.drop_left] at hmunches
    rw [← hcs] at hlongest ⊢
    exact ⟨⟨l, i⟩ :: ls, ⟨t, i⟩ :: ts, rest', j, .lexeme hlongest hmunches,
      .cons ⟨ht, rfl⟩ hts, hend⟩

/-- The tokens of a line are what the longest lexemes stand for that the line is cut into from left
to right, and there are none just if this cutting comes to a halt: at a character that starts no
lexeme, or at a number that is no decimal. However far it comes, its lexemes stand one behind the
other in the line, with nothing but blanks between them. -/
theorem tokenize_eq_maximal_munch (source : String) :
    (∀ ts, tokenize source = .ok ts ↔ ∃ ls, Munches source.toList 0 ls [] source.length ∧
      List.Forall₂ Lexeme.Placed.Means ls ts) ∧
    (∀ e, tokenize source = .error e ↔ ∃ ls ts rest, Munches source.toList 0 ls rest e.position ∧
      List.Forall₂ Lexeme.Placed.Means ls ts ∧ Halts rest e.cause e.cause.text) ∧
    ∀ ls rest i, Munches source.toList 0 ls rest i →
      rest = source.toList.drop i ∧ Lexeme.Tiles source.toList 0 i ls := by
  have hok {ls ts i} (h : Munches source.toList 0 ls [] i)
      (hts : List.Forall₂ Lexeme.Placed.Means ls ts) : tokenize source = .ok ts := by
    rw [tokenize_eq_scan, scan_of_munches h hts, scan]
    simp
  have herror {ls ts rest i cause text} (h : Munches source.toList 0 ls rest i)
      (hts : List.Forall₂ Lexeme.Placed.Means ls ts) (hhalts : Halts rest cause text) :
      tokenize source = .error ⟨cause, i⟩ := by
    rw [tokenize_eq_scan, scan_of_munches h hts, scan_of_halts hhalts]
  obtain ⟨ls, ts, rest, i, hmunches, hts, hend⟩ := exists_munches source.toList 0
  refine ⟨fun us => ⟨fun h => ?_, ?_⟩, fun e => ⟨fun h => ?_, ?_⟩, ?_⟩
  · rcases hend with rfl | ⟨cause, text, hhalts⟩
    · rw [hok hmunches hts] at h
      cases h
      have hlen := Lexeme.length_of_munches hmunches
      rw [List.length_nil, String.length_toList, Nat.add_zero, Nat.zero_add] at hlen
      exact ⟨ls, hlen ▸ hmunches, hts⟩
    · rw [herror hmunches hts hhalts] at h
      cases h
  · rintro ⟨ls, hmunches, hus⟩
    exact hok hmunches hus
  · rcases hend with rfl | ⟨cause, text, hhalts⟩
    · rw [hok hmunches hts] at h
      cases h
    · rw [herror hmunches hts hhalts] at h
      cases h
      refine ⟨ls, ts, rest, hmunches, hts, ?_⟩
      cases hhalts with
      | unrecognized hc hnone => exact .unrecognized hc hnone
      | numberTooLarge hl hkind hread => exact .numberTooLarge hl hkind hread
  · rintro ⟨ls, ts, rest, hmunches, hts, hhalts⟩
    exact herror hmunches hts hhalts
  · intro ls rest i hmunches
    obtain ⟨-, hrest, htiles⟩ := Lexeme.tiles_of_munches hmunches (List.drop_zero).symm
    exact ⟨hrest, htiles⟩

/-- Behind a symbol of three bytes the positions go on by characters. A point that no digit follows
does not belong to the number before it, and starts no lexeme. -/
theorem tokenize_eq_maximal_munch_sample :
    (∃ ls, tokenize "usd: €10.5 to_2" = .ok [⟨.directive "usd", 0⟩, ⟨.colon, 3⟩, ⟨.currency "€", 5⟩,
        ⟨.number (.ofUnits 105 1), 6⟩, ⟨.directive "to_2", 11⟩] ∧
      Munches "usd: €10.5 to_2".toList 0 ls [] 15 ∧
      List.Forall₂ Lexeme.Placed.Means ls [⟨.directive "usd", 0⟩, ⟨.colon, 3⟩, ⟨.currency "€", 5⟩,
        ⟨.number (.ofUnits 105 1), 6⟩, ⟨.directive "to_2", 11⟩] ∧
      Lexeme.Tiles "usd: €10.5 to_2".toList 0 15 ls) ∧
    ∃ ls rest, tokenize "usd: €10." = .error ⟨.unrecognized '.', 8⟩ ∧
      Munches "usd: €10.".toList 0 ls rest 8 ∧
      Halts rest (.unrecognized '.') "Token recognition error at: '.'" ∧
      Lexeme.Tiles "usd: €10.".toList 0 8 ls := by
  constructor
  · have hok : tokenize "usd: €10.5 to_2" = .ok [⟨.directive "usd", 0⟩, ⟨.colon, 3⟩,
        ⟨.currency "€", 5⟩, ⟨.number (.ofUnits 105 1), 6⟩, ⟨.directive "to_2", 11⟩] := by
      decide +kernel
    obtain ⟨hsucceeds, -, htiles⟩ := tokenize_eq_maximal_munch "usd: €10.5 to_2"
    obtain ⟨ls, hmunches, hmeans⟩ := (hsucceeds _).mp hok
    obtain ⟨-, hstands⟩ := htiles ls [] 15 hmunches
    exact ⟨ls, hok, hmunches, hmeans, hstands⟩
  · have herror : tokenize "usd: €10." = .error ⟨.unrecognized '.', 8⟩ := by decide +kernel
    obtain ⟨-, hfails, htiles⟩ := tokenize_eq_maximal_munch "usd: €10."
    obtain ⟨ls, -, rest, hmunches, -, hhalts⟩ := (hfails _).mp herror
    obtain ⟨-, hstands⟩ := htiles ls rest 8 hmunches
    exact ⟨ls, rest, herror, hmunches, hhalts, hstands⟩

end Token

end Cambist
