import Cambist.Proofs.Request.Spacing

/-!
# Lines side by side

When two lines are put one behind the other with some blanks between them, no lexeme reaches over
the blanks. So the first line is scanned as if it stood alone, and the second one as well, but
further to the right; and what is wrong in the first line is found before the second one is seen.
-/

namespace Cambist

open Lexeme (IsLongest Munches Halts)

/-! ### Cutting in front of a blank -/

section FrontOfBlank

variable {l : Lexeme} {cs rest tail : List Char} {i j : Nat} {ls : List Lexeme.Placed}
  {cause : SyntaxError.Cause} {text : String}

lemma untilBlank_append_within (htail : untilBlank tail = []) : untilBlank (cs ++ tail) <+: cs := by
  induction cs with
  | nil => exact ⟨[], by rw [List.append_nil, List.nil_append, htail]⟩
  | cons c cs ih =>
    rw [List.cons_append]
    cases hc : isBlank c with
    | true =>
      rw [untilBlank_of_isBlank hc]
      exact List.nil_prefix
    | false =>
      rw [untilBlank_of_not_isBlank hc]
      exact (List.prefix_append_right_inj [c]).mpr ih

namespace Lexeme

/-- What stands behind a blank makes no lexeme longer. -/
lemma IsLongest.append (h : IsLongest cs l) (htail : untilBlank tail = []) :
    IsLongest (cs ++ tail) l := by
  obtain ⟨rest, rfl⟩ := h.starts
  rw [List.append_assoc, isLongest_append_iff]
  exact (isLongest_append_iff.mp h).of_untilBlank (untilBlank_append_within htail)

/-- In front of more characters that start with a blank, the cutting goes the same way. -/
lemma Munches.append (h : Munches cs i ls rest j) (htail : untilBlank tail = []) :
    Munches (cs ++ tail) i ls (rest ++ tail) j := by
  induction h with
  | here cs i => exact .here _ i
  | blank hc _ ih => exact .blank hc ih
  | lexeme hl _ ih =>
    have hlong := hl.append htail
    rw [List.append_assoc] at hlong ⊢
    exact .lexeme hlong ih

lemma Halts.append (h : Halts cs cause text) (htail : untilBlank tail = []) :
    Halts (cs ++ tail) cause text := by
  cases h with
  | unrecognized hc hnone => exact .unrecognized hc (Layout.forall_not_starts hnone _)
  | numberTooLarge hl hkind hread => exact .numberTooLarge (hl.append htail) hkind hread

/-- Further to the right the cutting goes the same way, and its lexemes mean the same tokens there.
-/
lemma Munches.shift {ts : List Token.Placed} (h : Munches cs i ls rest j)
    (hts : List.Forall₂ Placed.Means ls ts) (k : Nat) :
    ∃ ls', Munches cs (k + i) ls' rest (k + j) ∧
      List.Forall₂ Placed.Means ls' (ts.map (Token.Placed.relocate (k + ·))) := by
  induction h generalizing ts with
  | here cs i =>
    cases hts
    exact ⟨[], .here cs (k + i), .nil⟩
  | blank hc _ ih =>
    obtain ⟨ls', hmunches, hls'⟩ := ih hts
    exact ⟨ls', .blank hc hmunches, hls'⟩
  | @lexeme l cs rest i j ls hl _ ih =>
    obtain ⟨t, us, ⟨ht, hi⟩, hus, rfl⟩ := List.forall₂_cons_left_iff.mp hts
    obtain ⟨ls', hmunches, hls'⟩ := ih hus
    rw [← Nat.add_assoc] at hmunches
    exact ⟨⟨l, k + i⟩ :: ls', .lexeme hl hmunches, .cons ⟨ht, congrArg (k + ·) hi⟩ hls'⟩

end Lexeme

end FrontOfBlank

/-! ### Scanning two lines -/

namespace Token

variable {gap : List Char}

/-- Behind a first line and some blanks, the scan goes on with the tokens of the first line. It
stops in front of them if that line has an error. -/
lemma scan_append_blanks (cs : List Char) (hgap : AllBlank gap) (hne : gap ≠ [])
    (tail : List Char) :
    scan (cs ++ (gap ++ tail)) 0 [] =
      scan cs 0 [] >>= fun ts => scan tail (cs.length + gap.length) ts.reverse := by
  have htail : untilBlank (gap ++ tail) = [] := untilBlank_append_of_allBlank hgap hne
  obtain ⟨ls, ts, rest, j, hmunches, hts, hend⟩ := exists_munches cs 0
  rw [scan_of_munches (hmunches.append htail) hts, scan_of_munches hmunches hts, List.append_nil]
  rcases hend with rfl | ⟨cause, text, hhalts⟩
  · have hlen : j = cs.length := by simpa using Lexeme.length_of_munches hmunches
    rw [List.nil_append, scan_append_of_allBlank hgap, scan, List.reverse_reverse, hlen]
    rfl
  · rw [scan_of_halts (hhalts.append htail), scan_of_halts hhalts]
    rfl

/-- Further to the right a line has the same tokens or the same error, only at other positions. -/
lemma scan_shift (cs : List Char) (k : Nat) (found : List Placed) :
    scan cs k found = SyntaxError.moved (k + ·)
      (fun ts => found.reverse ++ ts.map (Placed.relocate (k + ·))) (scan cs 0 []) := by
  obtain ⟨ls, ts, rest, j, hmunches, hts, hend⟩ := exists_munches cs 0
  obtain ⟨ls', hmunches', hts'⟩ := hmunches.shift hts k
  rw [Nat.add_zero] at hmunches'
  rw [scan_of_munches hmunches' hts', scan_of_munches hmunches hts, List.append_nil]
  rcases hend with rfl | ⟨cause, text, hhalts⟩
  · rw [scan, scan, SyntaxError.moved, List.reverse_reverse, List.reverse_append,
      List.reverse_reverse]
  · rw [scan_of_halts hhalts, scan_of_halts hhalts, SyntaxError.moved, SyntaxError.relocate]

/-- The tokens of two lines with blanks between them are those of the first line and, behind them,
those of the second one, moved to the right by all that stands before it. If one of the lines has an
error then the whole has this error, that of the first line if both have one, at the place where it
is in the whole. -/
theorem tokenize_append_blanks {a gap b : String} (hgap : AllBlank gap.toList) (hne : gap ≠ "") :
    (∀ e, tokenize a = .error e → tokenize (a ++ gap ++ b) = .error e) ∧
    (∀ ts e, tokenize a = .ok ts → tokenize b = .error e →
      tokenize (a ++ gap ++ b) = .error ⟨e.cause, a.length + gap.length + e.position⟩) ∧
    ∀ ts us, tokenize a = .ok ts → tokenize b = .ok us →
      tokenize (a ++ gap ++ b) =
        .ok (ts ++ us.map (Placed.relocate (a.length + gap.length + ·))) := by
  have hwhole : tokenize (a ++ gap ++ b) = tokenize a >>= fun ts =>
      scan b.toList (a.length + gap.length) ts.reverse := by
    rw [tokenize_eq_scan, tokenize_eq_scan, String.toList_append, String.toList_append,
      List.append_assoc, scan_append_blanks _ hgap (String.toList_eq_nil_iff.not.mpr hne),
      String.length_toList, String.length_toList]
  have hsecond (ts : List Placed) : scan b.toList (a.length + gap.length) ts.reverse =
      SyntaxError.moved (a.length + gap.length + ·)
        (fun us => ts ++ us.map (Placed.relocate (a.length + gap.length + ·))) (tokenize b) := by
    rw [scan_shift, List.reverse_reverse, tokenize_eq_scan]
  refine ⟨fun e ha => ?_, fun ts e ha hb => ?_, fun ts us ha hb => ?_⟩
  · rw [hwhole, ha]
    rfl
  · rw [hwhole, ha]
    exact (hsecond ts).trans (congrArg _ hb)
  · rw [hwhole, ha]
    exact (hsecond ts).trans (congrArg _ hb)

/-- The first line has a symbol of three bytes and ends in a number; a tab and a line feed stand
behind it. One second line starts with a digit, and the point at its end belongs to no number. The
other one has a symbol of its own. -/
theorem tokenize_append_blanks_sample :
    AllBlank "\t\n".toList ∧ "\t\n" ≠ "" ∧
      tokenize "€ 1" = .ok [⟨.currency "€", 0⟩, ⟨.number (.ofUnits 1 0), 2⟩] ∧
      tokenize "5." = .error ⟨.unrecognized '.', 1⟩ ∧
      tokenize ("€ 1" ++ "\t\n" ++ "5.") = .error ⟨.unrecognized '.', 6⟩ ∧
      tokenize "₽5" = .ok [⟨.currency "₽", 0⟩, ⟨.number (.ofUnits 5 0), 1⟩] ∧
      tokenize ("€ 1" ++ "\t\n" ++ "₽5") = .ok [⟨.currency "€", 0⟩, ⟨.number (.ofUnits 1 0), 2⟩,
        ⟨.currency "₽", 5⟩, ⟨.number (.ofUnits 5 0), 6⟩] := by
  have hgap : AllBlank "\t\n".toList :=
    List.forall_mem_cons.mpr ⟨rfl, List.forall_mem_singleton.mpr rfl⟩
  have hne : "\t\n" ≠ "" := by decide
  have ha : tokenize "€ 1" = .ok [⟨.currency "€", 0⟩, ⟨.number (.ofUnits 1 0), 2⟩] := by
    decide +kernel
  have hb : tokenize "5." = .error ⟨.unrecognized '.', 1⟩ := by decide +kernel
  have hb' : tokenize "₽5" = .ok [⟨.currency "₽", 0⟩, ⟨.number (.ofUnits 5 0), 1⟩] := by
    decide +kernel
  obtain ⟨-, hsecond, -⟩ := tokenize_append_blanks (a := "€ 1") (b := "5.") hgap hne
  obtain ⟨-, -, hboth⟩ := tokenize_append_blanks (a := "€ 1") (b := "₽5") hgap hne
  exact ⟨hgap, hne, ha, hb, hsecond _ _ ha hb, hb', hboth _ _ ha hb'⟩

end Token

end Cambist
