import Cambist.Proofs.Decimal.Numeral
import Cambist.Proofs.Token.Offset

/-!
# Scanned lines

The scan of a line, told as a relation: blanks and lexemes stand behind one another, and no lexeme
goes on behind its end. Of a line that is scanned every token is well-formed, and well-formed tokens
that stand apart are found again in what they are written as.
-/

namespace Cambist

namespace Token

variable {t : Token} {cs rest : List Char} {c : Char} {l : Lexeme} {i : Nat}
  {found ts us : List Placed}

/-! ### The steps of a scan -/

lemma scan_of_isBlank (hc : isBlank c = true) :
    scan (c :: cs) i found = scan cs (i + 1) found := by
  rw [scan, if_pos hc]

lemma scan_of_lexeme (hl : l.EndsBefore rest) (ht : l.token? = some t) :
    scan (l.chars ++ rest) i found = scan rest (i + l.chars.length) (⟨t, i⟩ :: found) := by
  have hfirst := Lexeme.first?_of_endsBefore hl
  cases hchars : l.chars ++ rest with
  | nil =>
    rw [hchars] at hfirst
    cases hfirst
  | cons c cs =>
    rw [hchars] at hfirst
    have hblank : ¬ isBlank c = true := by
      intro hc
      rw [Lexeme.first?_of_isBlank hc] at hfirst
      cases hfirst
    have hdrop : (c :: cs).drop l.chars.length = rest := by
      rw [← hchars, List.drop_left]
    rw [scan, if_neg hblank]
    split
    case h_1 h =>
      rw [hfirst] at h
      cases h
    case h_2 l' h =>
      rw [hfirst] at h
      cases h
      split
      case h_1 h =>
        rw [ht] at h
        cases h
      case h_2 t' h =>
        rw [ht] at h
        cases h
        rw [hdrop]

/-- These characters, which stand at a position, are made of these tokens. -/
inductive Scans : List Char → Nat → List Placed → Prop where
  | done (i : Nat) : Scans [] i []
  | blank {c : Char} {cs : List Char} {i : Nat} {ts : List Placed} (hc : isBlank c = true)
      (h : Scans cs (i + 1) ts) : Scans (c :: cs) i ts
  | lexeme {l : Lexeme} {t : Token} {rest : List Char} {i : Nat} {ts : List Placed}
      (hl : l.EndsBefore rest) (ht : l.token? = some t)
      (h : Scans rest (i + l.chars.length) ts) : Scans (l.chars ++ rest) i (⟨t, i⟩ :: ts)

lemma Scans.scan_eq (h : Scans cs i ts) (found : List Placed) :
    scan cs i found = .ok (found.reverse ++ ts) := by
  induction h generalizing found with
  | done i => rw [scan, List.append_nil]
  | blank hc _ ih => rw [scan_of_isBlank hc, ih]
  | lexeme hl ht _ ih =>
    rw [scan_of_lexeme hl ht, ih, List.reverse_cons, List.append_assoc, List.singleton_append]

lemma exists_scans_of_scan_eq (h : scan cs i found = .ok us) :
    ∃ ts, Scans cs i ts ∧ us = found.reverse ++ ts := by
  fun_induction scan cs i found with
  | case1 i found =>
    cases h
    exact ⟨[], .done i, (List.append_nil _).symm⟩
  | case2 i found c rest hc ih =>
    obtain ⟨ts, hts, rfl⟩ := ih h
    exact ⟨ts, .blank hc hts, rfl⟩
  | case3 => cases h
  | case4 => cases h
  | case5 i found c rest hc l hl t ht _ ih =>
    obtain ⟨ts, hts, rfl⟩ := ih h
    obtain ⟨rest', hrest, hends⟩ := Lexeme.first?_eq_some_iff.mp hl
    rw [hrest, List.drop_left] at hts
    rw [hrest]
    refine ⟨⟨t, i⟩ :: ts, .lexeme hends ht hts, ?_⟩
    rw [List.reverse_cons, List.append_assoc, List.singleton_append]

/-- The tokens of a line are those that it is made of. -/
lemma tokenize_eq_ok_iff {source : String} :
    tokenize source = .ok ts ↔ Scans source.toList 0 ts := by
  rw [tokenize_eq_scan]
  constructor
  · intro h
    obtain ⟨ts, hts, rfl⟩ := exists_scans_of_scan_eq h
    exact hts
  · intro h
    exact h.scan_eq []

/-! ### Well-formed tokens -/

/-- Can this be a currency: capital letters, or one symbol? -/
def isCurrencyCode (code : String) : Bool :=
  match code.toList with
  | [] => false
  | c :: cs => (c :: cs).all Char.isUpper || (isCurrencySymbol c && cs.isEmpty)

/-- Can this be a directive: a small letter, then small letters, digits and underscores? -/
def isDirectiveName (name : String) : Bool :=
  match name.toList with
  | [] => false
  | c :: cs => c.isLower && cs.all isDirectiveChar

lemma isCurrencyCode_iff {code : String} : isCurrencyCode code = true ↔
    (∃ c cs, code.toList = c :: cs ∧ c.isUpper = true ∧ ∀ d ∈ cs, d.isUpper = true) ∨
      ∃ c, code.toList = [c] ∧ isCurrencySymbol c = true := by
  rw [isCurrencyCode]
  cases code.toList with
  | nil => simp
  | cons c cs => simp [and_comm, and_assoc]

lemma isDirectiveName_iff {name : String} : isDirectiveName name = true ↔
    ∃ c cs, name.toList = c :: cs ∧ c.isLower = true ∧ ∀ d ∈ cs, isDirectiveChar d = true := by
  rw [isDirectiveName]
  cases name.toList with
  | nil => simp
  | cons c cs => simp [and_assoc]

/-- A token that a line can hold. -/
def WellFormed : Token → Prop
  | number value   => value.sign = .plus
  | currency code  => isCurrencyCode code = true
  | directive name => isDirectiveName name = true
  | _ => True

lemma WellFormed.of_lexeme (hl : l.EndsBefore rest) (ht : l.token? = some t) : t.WellFormed := by
  cases hl with
  | number hne hwhole hfraction =>
    obtain ⟨value, hread, rfl⟩ := Option.map_eq_some_iff.mp ht
    rw [Lexeme.text, Decimal.read?_numeral hne hwhole hfraction] at hread
    obtain ⟨x, -, rfl⟩ := Option.map_eq_some_iff.mp hread
    exact Decimal.sign_ofNumeral_plus x
  | code hc hcs =>
    cases ht
    exact isCurrencyCode_iff.mpr (.inl ⟨_, _, String.toList_ofList, hc, hcs⟩)
  | symbol hc =>
    cases ht
    exact isCurrencyCode_iff.mpr (.inr ⟨_, String.toList_ofList, hc⟩)
  | directive hc hcs =>
    cases ht
    exact isDirectiveName_iff.mpr ⟨_, _, String.toList_ofList, hc, hcs⟩
  | colon | plus | minus =>
    cases ht
    trivial

/-- A line holds well-formed tokens only. -/
lemma Scans.wellFormed (h : Scans cs i ts) : ∀ t ∈ ts, t.token.WellFormed := by
  induction h with
  | done i => nofun
  | blank _ _ ih => exact ih
  | lexeme hl ht _ ih => exact List.forall_mem_cons.mpr ⟨.of_lexeme hl ht, ih⟩

/-! ### Writing tokens -/

/-- The kind of lexeme that a token is written as. -/
def kind : Token → Lexeme.Kind
  | number _    => .number
  | currency _  => .currency
  | directive _ => .directive
  | colon       => .colon
  | plus        => .plus
  | minus       => .minus

/-- The lexeme that a token is written as. -/
def lexeme (t : Token) : Lexeme := ⟨t.kind, t.text.toList⟩

lemma token?_lexeme (ht : t.WellFormed) : t.lexeme.token? = some t := by
  cases t with
  | number value =>
    rw [lexeme, Lexeme.token?, Lexeme.text, String.ofList_toList]
    exact congrArg (Option.map number) (Decimal.read?_text ht)
  | currency code => exact congrArg (fun s => some (currency s)) String.ofList_toList
  | directive name => exact congrArg (fun s => some (directive s)) String.ofList_toList
  | colon | plus | minus => rfl

/-- Would this character, right behind a token, change or obscure it? -/
def runsInto : Token → Char → Bool
  | number _, c    => c.isDigit || c = '.'
  | currency _, c  => c.isUpper
  | directive _, c => isDirectiveChar c
  | _, _           => false

lemma lexeme_endsBefore (ht : t.WellFormed) (h : Stops t.runsInto rest) :
    t.lexeme.EndsBefore rest := by
  cases t with
  | number value =>
    have hchars : (number value).text.toList =
        Decimal.numeral value.magnitude.wholeDigits value.magnitude.fractionDigits := by
      rw [← value.magnitude.chars_eq_numeral, text, Decimal.text, String.toList_ofList,
        Decimal.chars, ht]
    rw [lexeme, hchars]
    refine .number (Magnitude.wholeDigits_ne_nil _) (Magnitude.isDigit_of_mem_wholeDigits _)
      (Magnitude.isDigit_of_mem_fractionDigits _) ?_ ?_
    · intro c hc
      exact (Bool.or_eq_false_iff.mp (h c hc)).1
    · rintro - ⟨d, ds, rfl, -⟩
      exact absurd (h '.' rfl) (by simp [runsInto])
  | currency code =>
    rw [lexeme, text]
    rcases isCurrencyCode_iff.mp ht with ⟨c, cs, hchars, hc, hcs⟩ | ⟨c, hchars, hc⟩
    · rw [hchars]
      exact .code hc hcs h
    · rw [hchars]
      exact .symbol hc rest
  | directive name =>
    obtain ⟨c, cs, hchars, hc, hcs⟩ := isDirectiveName_iff.mp ht
    rw [lexeme, text, hchars]
    exact .directive hc hcs h
  | colon => exact .colon rest
  | plus => exact .plus rest
  | minus => exact .minus rest

lemma runsInto_space (t : Token) : t.runsInto ' ' = false := by
  cases t <;> rfl

/-! ### Written tokens -/

/-- Are these characters made of these tokens, at whatever position they stand? -/
def Spells (cs : List Char) (tokens : List Token) : Prop :=
  ∀ i, ∃ ts, Scans cs i ts ∧ ts.map Placed.token = tokens

variable {tokens : List Token}

lemma spells_nil : Spells [] [] := fun i => ⟨[], .done i, rfl⟩

lemma Spells.space (h : Spells cs tokens) : Spells (' ' :: cs) tokens := by
  intro i
  obtain ⟨ts, hts, htokens⟩ := h (i + 1)
  exact ⟨ts, .blank rfl hts, htokens⟩

lemma Spells.token (h : Spells cs tokens) (ht : t.WellFormed) (hstop : Stops t.runsInto cs) :
    Spells (t.text.toList ++ cs) (t :: tokens) := by
  intro i
  obtain ⟨ts, hts, htokens⟩ := h (i + t.lexeme.chars.length)
  exact ⟨⟨t, i⟩ :: ts, .lexeme (lexeme_endsBefore ht hstop) (token?_lexeme ht) hts,
    congrArg (t :: ·) htokens⟩

end Token

end Cambist
