import Cambist.Proofs.Failure
import Cambist.Proofs.Request.Relocation
import Cambist.Proofs.Token.Layout

/-!
# Blanks between lexemes

How much blank stands between the pieces of a line matters to nothing but positions. With other
blanks the scan finds the same tokens, the parser makes the same request of them and its evaluation
takes the same steps; and where a line fails, it fails for the same reason at the same piece.
-/

namespace Cambist

namespace Token

variable {l l' : Layout} {gap cs : List Char} {i j : Nat} {f : Nat → Nat}

lemma scan_append_of_allBlank (h : AllBlank gap) (i : Nat) (found : List Placed) :
    scan (gap ++ cs) i found = scan cs (i + gap.length) found := by
  induction gap generalizing i with
  | nil => rfl
  | cons c gap ih =>
    obtain ⟨hc, hgap⟩ := List.forall_mem_cons.mp h
    rw [List.cons_append, scan_of_isBlank hc, ih hgap, List.length_cons, Nat.add_right_comm,
      Nat.add_assoc]

lemma scan_blanks (h : AllBlank gap) (i : Nat) (found : List Placed) :
    scan gap i found = .ok found.reverse := by
  rw [← List.append_nil gap, scan_append_of_allBlank h, scan]

/-- The scan of a line with other blanks goes from piece to piece as before. -/
lemma scan_respaced (hl : l.IsCut) (h : l.Respaced l') (hf : (l.places i).map f = l'.places j)
    (found : List Placed) :
    scan l'.chars j (found.map (Placed.relocate f)) =
      SyntaxError.moved f (List.map (Placed.relocate f)) (scan l.chars i found) := by
  induction h generalizing i j found with
  | @finish blanks blanks' hblanks' =>
    cases hl with
    | finish hblanks =>
      rw [Layout.chars, Layout.chars, scan_blanks hblanks, scan_blanks hblanks', SyntaxError.moved,
        List.map_reverse]
  | @piece gap gap' word rest rest' hgap' hkeep h ih =>
    obtain ⟨hhead, htail⟩ := List.cons.inj hf
    cases hl with
    | @lexeme _ word _ hgap hword hcut =>
      have hword' := h.isLongest hcut hkeep hword
      rw [Layout.chars, Layout.chars, scan_append_of_allBlank hgap, scan_append_of_allBlank hgap']
      cases ht : word.token? with
      | none =>
        obtain ⟨hkind, hread⟩ := token?_eq_none_iff.mp ht
        rw [scan_of_halts (.numberTooLarge hword hkind hread),
          scan_of_halts (.numberTooLarge hword' hkind hread), SyntaxError.moved,
            SyntaxError.relocate, hhead]
      | some t =>
        rw [scan_of_lexeme (Lexeme.isLongest_append_iff.mp hword) ht,
          scan_of_lexeme (Lexeme.isLongest_append_iff.mp hword') ht, ← ih hcut htail,
          List.map_cons, Placed.relocate, hhead]
    | stray hgap hc hnone hcut =>
      rw [Layout.chars, Layout.chars, scan_append_of_allBlank hgap, scan_append_of_allBlank hgap',
        List.singleton_append, List.singleton_append, scan_of_halts (.unrecognized hc hnone),
        scan_of_halts (.unrecognized hc (Layout.forall_not_starts hnone _)), SyntaxError.moved,
        SyntaxError.relocate, hhead]

end Token

variable {source : String} {l l' : Layout} {f : Nat → Nat}

lemma Layout.map_length (hchars : l.chars = source.toList)
    (hf : (l.places 0).map f = l'.places 0) : f source.length = l'.chars.length := by
  have hend := map_end hf
  rwa [Nat.zero_add, Nat.zero_add, hchars, String.length_toList] at hend

/-- A line with other blanks holds the same request at other places, or has the same error there. -/
lemma Request.parse_respaced (hl : l.IsCut) (hchars : l.chars = source.toList)
    (h : l.Respaced l') (hf : (l.places 0).map f = l'.places 0) :
    parse (.ofList l'.chars) = SyntaxError.moved f (Request.relocate f) (parse source) := by
  have hscan := Token.scan_respaced hl h hf []
  rw [hchars, List.map_nil] at hscan
  rw [parse, parse, Token.tokenize_eq_scan, Token.tokenize_eq_scan, String.toList_ofList,
    String.length_ofList, ← Layout.map_length hchars hf, hscan]
  cases Token.scan source.toList 0 [] with
  | error e => rfl
  | ok ts => exact congrArg Prod.fst (Parser.moves_request ⟨ts, source.length⟩)

/-- What carries the places of the pieces over carries the failure of a line over. -/
lemma RateTable.compute_respaced_of_places (t : RateTable) (hl : l.IsCut)
    (hchars : l.chars = source.toList) (h : l.Respaced l')
    (hf : (l.places 0).map f = l'.places 0) :
    t.compute (.ofList l'.chars) = (t.compute source).mapError (Failure.relocate f) := by
  have hparse := Request.parse_respaced hl hchars h hf
  cases hsource : Request.parse source with
  | error e =>
    rw [hsource] at hparse
    rw [compute, compute, hparse, hsource]
    rfl
  | ok r =>
    rw [hsource] at hparse
    rw [compute_of_parse hsource, compute_of_parse hparse, Request.evaluate_relocate]
    cases t.evaluate r <;> rfl

lemma RateTable.parse_of_compute_error {t : RateTable} {e : SyntaxError}
    (h : t.compute source = .error (.syntactic e)) : Request.parse source = .error e := by
  cases hsource : Request.parse source with
  | error e' =>
    rw [compute, hsource] at h
    cases h
    rfl
  | ok r =>
    rw [compute_of_parse hsource] at h
    cases heval : t.evaluate r with
    | error e' =>
      rw [heval] at h
      cases h
    | ok comp =>
      rw [heval] at h
      cases h

/-- The position of a failure, if it has one. -/
def Failure.position? : Failure → Option Nat
  | syntactic e                        => some e.position
  | evaluation (.selfConversion _ i)   => some i
  | evaluation (.unknownDirective _ i) => some i
  | evaluation _                       => none

lemma Failure.position?_relocate (e : Failure) : (e.relocate f).position? = e.position?.map f := by
  rcases e with _ | ⟨_ | _ | _ | _ | _ | _⟩ <;> rfl

/-- A failure is at a piece of the line or at its end: nothing but their places decides where it is
carried to. -/
lemma RateTable.position_mem_places {t : RateTable} {e : Failure} {i : Nat} (hl : l.IsCut)
    (hchars : l.chars = source.toList) (h : l.Respaced l') (he : t.compute source = .error e)
    (hi : e.position? = some i) : i ∈ l.places 0 := by
  by_contra hmem
  -- two ways to carry the places over that differ at `i` only
  obtain ⟨f, hf⟩ := h.exists_map_places hl 0 0
  have hg : (l.places 0).map (Function.update f i (f i + 1)) = l'.places 0 := by
    rw [← hf]
    refine List.map_congr_left fun p hp => Function.update_of_ne ?_ _ _
    rintro rfl
    exact hmem hp
  have hsame := (t.compute_respaced_of_places hl hchars h hf).symm.trans
    (t.compute_respaced_of_places hl hchars h hg)
  rw [he] at hsame
  have hposition := congrArg Failure.position? (Except.error.inj hsame)
  rw [Failure.position?_relocate, Failure.position?_relocate, hi, Option.map_some,
    Option.map_some, Function.update_self] at hposition
  exact absurd (Option.some.inj hposition) (Nat.ne_of_lt (Nat.lt_succ_self _))

/-- Every line is cut into pieces. With other blanks between these it is cut into the same pieces,
and has the same answer by the same steps, or the same failure at the same piece: a failure is at
a piece or at the end of the line, and whatever carries their places over carries its position over.
A line that stops too early then does so at its new end. -/
theorem RateTable.compute_respaced (t : RateTable) (source : String) :
    (∃ l : Layout, l.IsCut ∧ l.chars = source.toList) ∧
    ∀ l l' : Layout, l.IsCut → l.chars = source.toList → l.Respaced l' →
      l'.IsCut ∧ (∃ f : Nat → Nat, (l.places 0).map f = l'.places 0) ∧
      (∀ f : Nat → Nat, (l.places 0).map f = l'.places 0 →
        t.compute (.ofList l'.chars) = (t.compute source).mapError (Failure.relocate f)) ∧
      (∀ e i, t.compute source = .error e → e.position? = some i → i ∈ l.places 0) ∧
      ∀ x i, t.compute source = .error (.syntactic ⟨.unexpectedEnd x, i⟩) →
        t.compute (.ofList l'.chars) = .error (.syntactic ⟨.unexpectedEnd x, l'.chars.length⟩) := by
  refine ⟨Layout.exists_isCut _, fun l l' hl hchars h => ?_⟩
  obtain ⟨f, hf⟩ := h.exists_map_places hl 0 0
  refine ⟨h.isCut hl, ⟨f, hf⟩, fun f hf => t.compute_respaced_of_places hl hchars h hf,
    fun e i => position_mem_places hl hchars h, ?_⟩
  intro x i herror
  have hparse := parse_of_compute_error herror
  obtain rfl : i = source.length := (Request.position_of_parse_error hparse).2.mpr ⟨x, rfl⟩
  rw [t.compute_respaced_of_places hl hchars h hf, herror, ← Layout.map_length hchars hf]
  rfl

/-- The pieces of the line `usd:5€gbp`, with this much blank before each of them and at the end. -/
def Layout.sample (gap : List Char) : Layout :=
  .piece gap ['u', 's', 'd'] (.piece gap [':'] (.piece gap ['5'] (.piece gap ['€']
    (.piece gap ['g', 'b', 'p'] (.finish gap)))))

lemma Layout.isCut_sample : (sample []).IsCut := by
  refine @IsCut.lexeme [] ⟨.directive, ['u', 's', 'd']⟩ _ nofun
    (Lexeme.first?_eq_some_iff_isLongest.mp rfl) ?_
  refine @IsCut.lexeme [] ⟨.colon, [':']⟩ _ nofun
    (Lexeme.first?_eq_some_iff_isLongest.mp rfl) ?_
  refine @IsCut.lexeme [] ⟨.number, ['5']⟩ _ nofun
    (Lexeme.first?_eq_some_iff_isLongest.mp rfl) ?_
  refine @IsCut.lexeme [] ⟨.currency, ['€']⟩ _ nofun
    (Lexeme.first?_eq_some_iff_isLongest.mp rfl) ?_
  refine @IsCut.lexeme [] ⟨.directive, ['g', 'b', 'p']⟩ _ nofun
    (Lexeme.first?_eq_some_iff_isLongest.mp rfl) ?_
  exact .finish nofun

lemma Layout.respaced_sample : (sample []).Respaced (sample [' ']) := by
  have hspace : AllBlank [' '] := List.forall_mem_singleton.mpr rfl
  exact .piece [] _ hspace (absurd rfl) (.piece [] _ hspace (absurd rfl) (.piece [] _ hspace
    (absurd rfl) (.piece [] _ hspace (absurd rfl) (.piece [] _ hspace (absurd rfl)
      (.finish [] hspace)))))

/-- Blanks push the pieces of a line apart, and the place of its unknown directive with them. -/
theorem RateTable.compute_respaced_sample :
    (Layout.sample []).IsCut ∧ (Layout.sample []).chars = "usd:5€gbp".toList ∧
      (Layout.sample []).Respaced (Layout.sample [' ']) ∧ (Layout.sample [' ']).IsCut ∧
      sample.compute "usd:5€gbp" = .error (.evaluation (.unknownDirective "gbp" 6)) ∧
      sample.compute " usd : 5 € gbp " = .error (.evaluation (.unknownDirective "gbp" 11)) := by
  have herror : sample.compute "usd:5€gbp" = .error (.evaluation (.unknownDirective "gbp" 6)) := by
    decide +kernel
  obtain ⟨-, hrespaced⟩ := sample.compute_respaced "usd:5€gbp"
  obtain ⟨hcut, ⟨f, hf⟩, hsame, -⟩ := hrespaced (Layout.sample []) (Layout.sample [' '])
    Layout.isCut_sample rfl Layout.respaced_sample
  have hplaces : [0, 3, 4, 5, 6, 9].map f = [1, 5, 7, 9, 11, 15] := hf
  have hgbp : f 6 = 11 := congrArg (fun ps => ps.getD 4 0) hplaces
  refine ⟨Layout.isCut_sample, rfl, Layout.respaced_sample, hcut, herror, ?_⟩
  refine (hsame f hf).trans ?_
  rw [herror, ← hgbp]
  rfl

end Cambist
