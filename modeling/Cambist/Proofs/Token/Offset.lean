import Cambist.Proofs.Token.Lexeme
import Mathlib.Data.String.Basic

/-!
# Bytes and characters

A lexer finds the tokens of a line by their bytes, and their positions count characters. The two
counts keep together: from the place behind some characters of the line, going on to a later byte
leads to the place behind more of them, however many bytes each of them takes. So the tokens can be
found by counting characters alone, as `Token.scan` does.
-/

namespace Cambist

/-! ### Lexers -/

namespace Lexer

variable {c : Char} {cs : List Char} {l : Lexeme}

/-- A blank is skipped with its bytes. -/
lemma next?_of_isBlank (hc : isBlank c = true) (offset : String.Pos.Raw) :
    next? ⟨c :: cs, offset⟩ = next? ⟨cs, offset + String.ofList [c]⟩ := by
  have hstart : offset + String.ofList (c :: cs.takeWhile isBlank) =
      offset + String.ofList [c] + String.ofList (cs.takeWhile isBlank) := by
    simp [String.Pos.Raw.ext_iff, String.utf8ByteSize_ofList, Nat.add_assoc]
  rw [next?, next?, List.takeWhile_cons_of_pos hc, List.dropWhile_cons_of_pos hc, hstart]

lemma next?_of_lexeme (hc : ¬ isBlank c = true) (hl : Lexeme.first? (c :: cs) = some l)
    (offset : String.Pos.Raw) : next? ⟨c :: cs, offset⟩ =
      some (⟨l.read, offset⟩, ⟨(c :: cs).drop l.chars.length, offset + l.text⟩) := by
  rw [next?, List.takeWhile_cons_of_neg hc, List.dropWhile_cons_of_neg hc]
  simp [hl, String.Pos.Raw.ext_iff]

lemma next?_of_stray (hc : ¬ isBlank c = true) (hnone : Lexeme.first? (c :: cs) = none)
    (offset : String.Pos.Raw) : next? ⟨c :: cs, offset⟩ =
      some (⟨.error (.unrecognized c), offset⟩, ⟨cs, offset + c⟩) := by
  rw [next?, List.takeWhile_cons_of_neg hc, List.dropWhile_cons_of_neg hc]
  simp [hnone, String.Pos.Raw.ext_iff]

end Lexer

namespace Token

variable {source : String}

/-! ### Places -/

section Places

variable {passed between rest : List Char}

/-- The place behind some characters. -/
def Offset.behind (cs : List Char) : Offset := ⟨⟨String.utf8Len cs⟩, cs.length⟩

lemma Offset.bytes_behind_add (cs ds : List Char) :
    (behind cs).bytes + String.ofList ds = (behind (cs ++ ds)).bytes := by
  simp [behind, String.Pos.Raw.ext_iff, String.utf8ByteSize_ofList]

/-- Going on from one place of a line to the byte of another leads to that place. -/
lemma Offset.advance_behind (h : source.toList = passed ++ between ++ rest) :
    (behind passed).advance source (behind (passed ++ between)).bytes =
      behind (passed ++ between) := by
  have hslice : (behind passed).bytes.extract source (behind (passed ++ between)).bytes =
      String.ofList between := by
    rw [← String.ofList_toList (s := source), h, behind, behind, String.utf8Len_append]
    exact String.extract_of_valid passed between rest
  rw [advance, hslice, String.length_ofList, behind, behind, List.length_append]

end Places

/-! ### Collecting tokens -/

section Collecting

variable {lexer lexer' : Lexer} {start : String.Pos.Raw} {place : Offset} {found : List Placed}
  {t : Token} {cause : SyntaxError.Cause}

lemma collect_of_end (h : lexer.next? = none) :
    collect source lexer place found = .ok found.reverse := by
  rw [collect]
  split
  case h_1 => rfl
  case h_2 hsome => cases h.symm.trans hsome

lemma collect_of_token (h : lexer.next? = some (⟨.ok t, start⟩, lexer')) :
    collect source lexer place found = collect source lexer' (place.advance source start)
      (⟨t, (place.advance source start).chars⟩ :: found) := by
  rw [collect]
  split
  case h_1 hnone => cases h.symm.trans hnone
  case h_2 hsome =>
    cases h.symm.trans hsome
    rfl

lemma collect_of_failure (h : lexer.next? = some (⟨.error cause, start⟩, lexer')) :
    collect source lexer place found =
      .error ⟨cause, (place.advance source start).chars⟩ := by
  rw [collect]
  split
  case h_1 hnone => cases h.symm.trans hnone
  case h_2 hsome =>
    cases h.symm.trans hsome
    rfl

/-- What is collected depends on what the lexer cuts off. -/
lemma collect_congr (h : lexer.next? = lexer'.next?) :
    collect source lexer place found = collect source lexer' place found := by
  cases h' : lexer'.next? with
  | none => rw [collect_of_end (h.trans h'), collect_of_end h']
  | some next =>
    obtain ⟨⟨result, start⟩, lexer''⟩ := next
    cases result with
    | ok t => rw [collect_of_token (h.trans h'), collect_of_token h']
    | error cause => rw [collect_of_failure (h.trans h'), collect_of_failure h']

end Collecting

/-! ### Counting characters alone -/

/-- Scans the characters that stand at a position, with the tokens found before them in reverse
order. -/
def scan (cs : List Char) (position : Nat) (found : List Placed) :
    Except SyntaxError (List Placed) :=
  match cs with
  | [] => .ok found.reverse
  | c :: rest =>
    if isBlank c then scan rest (position + 1) found
    else
      match h : Lexeme.first? (c :: rest) with
      | none => .error ⟨.unrecognized c, position⟩
      | some lexeme =>
        match lexeme.token? with
        | none => .error ⟨.numberTooLarge lexeme.text, position⟩
        | some token =>
          have : 0 < lexeme.chars.length :=
            List.length_pos_iff.mpr (Lexeme.chars_ne_nil_of_first? h)
          scan ((c :: rest).drop lexeme.chars.length) (position + lexeme.chars.length)
            (⟨token, position⟩ :: found)
termination_by cs.length
decreasing_by
  · simp
  · simp only [List.length_drop, List.length_cons]
    omega

/-- Behind what has `passed` before its last cut and what stands `between` that and its own place, a
lexer collects what the scan finds. -/
lemma collect_eq_scan {passed between cs : List Char} {i : Nat} (found : List Placed)
    (h : source.toList = passed ++ between ++ cs) (hi : i = (passed ++ between).length) :
    collect source ⟨cs, (Offset.behind (passed ++ between)).bytes⟩ (.behind passed) found =
      scan cs i found := by
  fun_induction scan cs i found generalizing passed between with
  | case1 i found => exact collect_of_end rfl
  | case2 i found c rest hc ih =>
    rw [collect_congr (Lexer.next?_of_isBlank hc _), Offset.bytes_behind_add, List.append_assoc]
    apply ih
    · simp [h]
    · simp [hi, Nat.add_assoc]
  | case3 i found c rest hc hfirst =>
    rw [collect_of_failure (Lexer.next?_of_stray hc hfirst _), Offset.advance_behind h, hi,
      Offset.behind]
  | case4 i found c rest hc l hl ht =>
    have hread : l.read = .error (.numberTooLarge l.text) := by rw [Lexeme.read, ht]
    have hnext := Lexer.next?_of_lexeme hc hl (Offset.behind (passed ++ between)).bytes
    rw [hread] at hnext
    rw [collect_of_failure hnext, Offset.advance_behind h, hi, Offset.behind]
  | case5 i found c rest hc l hl t ht _ ih =>
    have hread : l.read = .ok t := by rw [Lexeme.read, ht]
    have hnext := Lexer.next?_of_lexeme hc hl (Offset.behind (passed ++ between)).bytes
    have hplace : (Offset.behind (passed ++ between)).chars = i := hi.symm
    obtain ⟨rest', hrest, -⟩ := Lexeme.first?_eq_some_iff.mp hl
    rw [hread, Lexeme.text, Offset.bytes_behind_add] at hnext
    rw [collect_of_token hnext, Offset.advance_behind h, hplace]
    apply ih
    · rw [h, hrest, List.drop_left, ← List.append_assoc (passed ++ between)]
    · rw [hi, ← List.length_append]

/-- The positions of tokens and errors count characters. -/
lemma tokenize_eq_scan (source : String) : tokenize source = scan source.toList 0 [] := by
  have hstart : source.toList = [] ++ [] ++ source.toList := rfl
  exact collect_eq_scan [] hstart rfl

end Token

end Cambist
