import Cambist.Proofs.Token.MaximalMunch

/-!
# Layout

A line as its pieces with the blanks between them. Its pieces are the longest lexemes from left to
right, and the characters that start none. When other blanks are put between the pieces, at either
end or where there were none before, the line is still cut into the same pieces; only their places
are others.
-/

namespace Cambist

open Lexeme (IsLongest)

/-! ### Blanks -/

section Blanks

variable {c : Char} {p : Char → Bool} {gap cs cs' : List Char}

/-- A class that has none of the five blanks has no blank. -/
lemma eq_false_of_isBlank (hp : [' ', '\t', '\r', '\n', '\x0c'].any p = false)
    (h : isBlank c = true) : p c = false := by
  rw [List.any_eq_false] at hp
  exact Bool.eq_false_iff.mpr (hp c (isBlank_iff.mp h))

lemma isBlank_eq_false (hp : [' ', '\t', '\r', '\n', '\x0c'].any p = false) (h : p c = true) :
    isBlank c = false := by
  rw [Bool.eq_false_iff]
  intro hblank
  rw [eq_false_of_isBlank hp hblank] at h
  cases h

/-- Are all of these characters blanks? -/
def AllBlank (cs : List Char) : Prop := ∀ c ∈ cs, isBlank c = true

/-- The characters before the first blank. -/
def untilBlank (cs : List Char) : List Char := cs.takeWhile fun c => !isBlank c

lemma untilBlank_of_isBlank (h : isBlank c = true) : untilBlank (c :: cs) = [] :=
  List.takeWhile_cons_of_neg (by simp [h])

lemma untilBlank_of_not_isBlank (h : isBlank c = false) :
    untilBlank (c :: cs) = c :: untilBlank cs :=
  List.takeWhile_cons_of_pos (by simp [h])

lemma untilBlank_append_of_allBlank (hgap : AllBlank gap) (hne : gap ≠ []) :
    untilBlank (gap ++ cs) = [] := by
  cases gap with
  | nil => exact absurd rfl hne
  | cons c gap => exact untilBlank_of_isBlank (hgap c List.mem_cons_self)

lemma untilBlank_append (h : ∀ c ∈ cs, isBlank c = false) :
    untilBlank (cs ++ cs') = cs ++ untilBlank cs' :=
  List.takeWhile_append_of_pos fun c hc => by simp [h c hc]

/-- Whether a run goes on depends on nothing behind the first blank. -/
lemma Stops.of_untilBlank (hp : ∀ {c}, isBlank c = true → p c = false) (h : Stops p cs)
    (hpre : untilBlank cs' <+: cs) : Stops p cs' := by
  cases cs' with
  | nil => exact nofun
  | cons c cs' =>
    rw [stops_cons]
    cases hc : isBlank c with
    | true => exact hp hc
    | false =>
      rw [untilBlank_of_not_isBlank hc] at hpre
      obtain ⟨rest, rfl⟩ := hpre
      exact stops_cons.mp h

end Blanks

/-! ### Lexemes and blanks -/

namespace Lexeme

variable {l : Lexeme} {c : Char} {cs cs' rest rest' : List Char}

lemma StartsFraction.of_untilBlank (h : StartsFraction cs') (hpre : untilBlank cs' <+: cs) :
    StartsFraction cs := by
  obtain ⟨d, ds, rfl, hd⟩ := h
  have hblank : isBlank d = false := isBlank_eq_false rfl hd
  rw [untilBlank_of_not_isBlank (by decide), untilBlank_of_not_isBlank hblank] at hpre
  obtain ⟨rest, rfl⟩ := hpre
  exact ⟨d, _, rfl, hd⟩

/-- Where a lexeme ends depends on nothing behind the next blank. -/
lemma EndsBefore.of_untilBlank (h : l.EndsBefore rest) (hpre : untilBlank rest' <+: rest) :
    l.EndsBefore rest' := by
  cases h with
  | number hne hwhole hfraction hstop hpoint =>
    exact .number hne hwhole hfraction (hstop.of_untilBlank (eq_false_of_isBlank rfl) hpre)
      fun hnil hstarts => hpoint hnil (hstarts.of_untilBlank hpre)
  | code hc hcs hstop => exact .code hc hcs (hstop.of_untilBlank (eq_false_of_isBlank rfl) hpre)
  | symbol hc => exact .symbol hc _
  | directive hc hcs hstop =>
    exact .directive hc hcs (hstop.of_untilBlank (eq_false_of_isBlank rfl) hpre)
  | colon => exact .colon _
  | plus => exact .plus _
  | minus => exact .minus _

/-- No blank stands within a lexeme. -/
lemma Matches.isBlank_eq_false (h : l.Matches) : ∀ d ∈ l.chars, isBlank d = false := by
  cases h with
  | @number whole fraction hne hwhole hfraction =>
    intro d hd
    rcases Decimal.mem_numeral hd with hd | rfl | hd
    · exact isBlank_eq_false rfl (hwhole d hd)
    · decide
    · exact isBlank_eq_false rfl (hfraction d hd)
  | code hne hcs => exact fun d hd => isBlank_eq_false rfl (hcs d hd)
  | symbol hc => exact List.forall_mem_singleton.mpr (isBlank_eq_false rfl hc)
  | @directive c cs hc hcs =>
    have hfirst : isDirectiveChar c = true := by
      rw [isDirectiveChar, hc]
      rfl
    have hall : ∀ d ∈ c :: cs, isDirectiveChar d = true := List.forall_mem_cons.mpr ⟨hfirst, hcs⟩
    exact fun d hd => isBlank_eq_false rfl (hall d hd)
  | colon | plus | minus => exact List.forall_mem_singleton.mpr rfl

/-- Whether a character starts a lexeme does not depend on those behind it. -/
lemma first?_cons_eq_none (h : first? (c :: cs) = none) (cs' : List Char) :
    first? (c :: cs') = none := by
  simp only [first?] at h ⊢
  split_ifs at h with hdigit hupper hsymbol hlower
  rw [if_neg hdigit, if_neg hupper, if_neg hsymbol, if_neg hlower]
  exact h

end Lexeme

/-! ### Pieces and gaps -/

/-- The pieces of a line, each with the blanks before it, and the blanks at the end. -/
inductive Layout where
  | finish (blanks : List Char)
  | piece (gap word : List Char) (rest : Layout)

namespace Layout

/-- The characters of a line. -/
def chars : Layout → List Char
  | finish blanks       => blanks
  | piece gap word rest => gap ++ (word ++ rest.chars)

/-- The blanks before the first piece, if there is one. -/
def gap : Layout → List Char
  | finish _      => []
  | piece gap _ _ => gap

/-- The places where the pieces start when the line starts at a position, and the place where it
ends. -/
def places : Layout → Nat → List Nat
  | finish blanks, i       => [i + blanks.length]
  | piece gap word rest, i => (i + gap.length) :: rest.places (i + gap.length + word.length)

/-- Are the pieces what a line is cut into, the longest lexemes and the characters that start none?
-/
inductive IsCut : Layout → Prop where
  | finish {blanks : List Char} (hblanks : AllBlank blanks) : IsCut (.finish blanks)
  | lexeme {gap : List Char} {l : Lexeme} {rest : Layout} (hgap : AllBlank gap)
      (hl : IsLongest (l.chars ++ rest.chars) l) (h : IsCut rest) :
      IsCut (.piece gap l.chars rest)
  | stray {gap : List Char} {c : Char} {rest : Layout} (hgap : AllBlank gap)
      (hc : isBlank c = false) (hnone : ∀ l : Lexeme, l.Matches → ¬ l.chars <+: c :: rest.chars)
      (h : IsCut rest) : IsCut (.piece gap [c] rest)

/-- The same pieces with other blanks: there may be more or fewer of them, but where there are some
between two pieces, some stay there. -/
inductive Respaced : Layout → Layout → Prop where
  | finish (blanks : List Char) {blanks' : List Char} (hblanks : AllBlank blanks') :
      Respaced (.finish blanks) (.finish blanks')
  | piece (gap : List Char) {gap' : List Char} (word : List Char) {rest rest' : Layout}
      (hgap : AllBlank gap') (hkeep : rest.gap ≠ [] → rest'.gap ≠ []) (h : Respaced rest rest') :
      Respaced (.piece gap word rest) (.piece gap' word rest')

variable {l l' : Layout} {c : Char} {cs : List Char} {i j : Nat} {f : Nat → Nat}

/-! ### Every line is cut -/

lemma IsCut.exists_blank_cons (h : l.IsCut) (hc : isBlank c = true) :
    ∃ l' : Layout, l'.IsCut ∧ l'.chars = c :: l.chars := by
  cases h with
  | @finish blanks hblanks =>
    exact ⟨.finish (c :: blanks), .finish (List.forall_mem_cons.mpr ⟨hc, hblanks⟩), rfl⟩
  | @lexeme gap word rest hgap hl h =>
    exact ⟨.piece (c :: gap) word.chars rest,
      .lexeme (List.forall_mem_cons.mpr ⟨hc, hgap⟩) hl h, rfl⟩
  | @stray gap d rest hgap hd hnone h =>
    exact ⟨.piece (c :: gap) [d] rest,
      .stray (List.forall_mem_cons.mpr ⟨hc, hgap⟩) hd hnone h, rfl⟩

lemma exists_isCut (cs : List Char) : ∃ l : Layout, l.IsCut ∧ l.chars = cs := by
  -- a lexeme takes any number of characters, so the induction is on how many are left
  induction hn : cs.length using Nat.strong_induction_on generalizing cs with
  | _ n ih =>
    cases cs with
    | nil => exact ⟨.finish [], .finish nofun, rfl⟩
    | cons c cs =>
      obtain ⟨l, hl, hchars⟩ := ih cs.length (by rw [← hn]; simp) cs rfl
      cases hc : isBlank c with
      | true =>
        rw [← hchars]
        exact hl.exists_blank_cons hc
      | false =>
        cases hfirst : Lexeme.first? (c :: cs) with
        | none =>
          rw [← hchars, Lexeme.first?_eq_none_iff] at hfirst
          exact ⟨.piece [] [c] l, .stray nofun hc hfirst hl, congrArg (c :: ·) hchars⟩
        | some word =>
          have hlongest := Lexeme.first?_eq_some_iff_isLongest.mp hfirst
          obtain ⟨rest, heq⟩ := hlongest.starts
          have hpos := List.length_pos_iff.mpr hlongest.shape.chars_ne_nil
          have hlen := congrArg List.length heq
          rw [List.length_append] at hlen
          obtain ⟨l, hl, rfl⟩ := ih rest.length (by omega) rest rfl
          rw [← heq] at hlongest ⊢
          exact ⟨.piece [] word.chars l, .lexeme nofun hlongest hl, rfl⟩

/-! ### The same pieces -/

lemma IsCut.of_piece {gap word : List Char} {rest : Layout} (h : IsCut (.piece gap word rest)) :
    word ≠ [] ∧ (∀ c ∈ word, isBlank c = false) ∧ rest.IsCut := by
  cases h with
  | lexeme hgap hl h => exact ⟨hl.shape.chars_ne_nil, hl.shape.isBlank_eq_false, h⟩
  | stray hgap hc hnone h => exact ⟨List.cons_ne_nil _ _, List.forall_mem_singleton.mpr hc, h⟩

/-- Up to its first blank, a line reads as before from where a piece ends. -/
lemma Respaced.untilBlank_chars (h : Respaced l l') (hl : l.IsCut)
    (hkeep : l.gap ≠ [] → l'.gap ≠ []) : untilBlank l'.chars <+: l.chars := by
  induction h with
  | @finish blanks blanks' hblanks =>
    have hnil : untilBlank blanks' = [] := by
      cases blanks' with
      | nil => rfl
      | cons c cs => exact untilBlank_of_isBlank (hblanks c List.mem_cons_self)
    exact hnil ▸ List.nil_prefix
  | @piece gap gap' word rest rest' hgap hrest h ih =>
    -- only pieces that stand together now have stood together before
    by_cases hgap' : gap' = []
    · obtain rfl : gap = [] := of_not_not fun hne => hkeep hne hgap'
      obtain ⟨-, hword, hcut⟩ := hl.of_piece
      rw [hgap', chars, chars, List.nil_append, List.nil_append, untilBlank_append hword]
      exact (List.prefix_append_right_inj _).mpr (ih hcut hrest)
    · rw [chars, untilBlank_append_of_allBlank hgap hgap']
      exact List.nil_prefix

lemma Respaced.isLongest {word : Lexeme} (h : Respaced l l') (hl : l.IsCut)
    (hkeep : l.gap ≠ [] → l'.gap ≠ []) (hword : IsLongest (word.chars ++ l.chars) word) :
    IsLongest (word.chars ++ l'.chars) word := by
  have hends := Lexeme.isLongest_append_iff.mp hword
  exact Lexeme.isLongest_append_iff.mpr (hends.of_untilBlank (h.untilBlank_chars hl hkeep))

lemma forall_not_starts (hnone : ∀ word : Lexeme, word.Matches → ¬ word.chars <+: c :: cs)
    (cs' : List Char) (word : Lexeme) (hword : word.Matches) : ¬ word.chars <+: c :: cs' := by
  rw [← Lexeme.first?_eq_none_iff] at hnone
  exact Lexeme.first?_eq_none_iff.mp (Lexeme.first?_cons_eq_none hnone cs') word hword

/-- A line with other blanks is cut into the same pieces. -/
lemma Respaced.isCut (h : Respaced l l') (hl : l.IsCut) : l'.IsCut := by
  induction h with
  | finish blanks hblanks => exact .finish hblanks
  | @piece gap gap' word rest rest' hgap hkeep h ih =>
    cases hl with
    | lexeme hblank hword hcut => exact .lexeme hgap (h.isLongest hcut hkeep hword) (ih hcut)
    | stray hblank hc hnone hcut => exact .stray hgap hc (forall_not_starts hnone _) (ih hcut)

/-! ### Places -/

lemma le_of_mem_places {p : Nat} (h : p ∈ l.places i) : i ≤ p := by
  induction l generalizing i with
  | finish blanks =>
    rw [places, List.mem_singleton] at h
    omega
  | piece gap word rest ih =>
    rw [places, List.mem_cons] at h
    rcases h with rfl | h
    · omega
    · have hle := ih h
      omega

lemma IsCut.nodup_places (h : l.IsCut) (i : Nat) : (l.places i).Nodup := by
  induction l generalizing i with
  | finish blanks => exact List.nodup_singleton _
  | piece gap word rest ih =>
    obtain ⟨hne, -, hcut⟩ := h.of_piece
    refine List.nodup_cons.mpr ⟨fun hmem => ?_, ih hcut _⟩
    have hle := le_of_mem_places hmem
    have hpos := List.length_pos_iff.mpr hne
    omega

lemma Respaced.length_places (h : Respaced l l') (i j : Nat) :
    (l.places i).length = (l'.places j).length := by
  induction h generalizing i j with
  | finish => rfl
  | piece gap word _ _ _ ih => exact congrArg (· + 1) (ih _ _)

lemma getLast?_places (l : Layout) (i : Nat) :
    (l.places i).getLast? = some (i + l.chars.length) := by
  induction l generalizing i with
  | finish blanks => rfl
  | piece gap word rest ih =>
    rw [places, List.getLast?_cons, ih, Option.getD_some, chars, List.length_append,
      List.length_append]
    congr 1
    omega

/-- What carries the places over carries the end over. -/
lemma map_end (h : (l.places i).map f = l'.places j) :
    f (i + l.chars.length) = j + l'.chars.length := by
  have hlast := congrArg List.getLast? h
  rw [List.getLast?_map, getLast?_places, getLast?_places] at hlast
  exact Option.some.inj hlast

/-- The places can be carried over, one by one. -/
lemma Respaced.exists_map_places (h : Respaced l l') (hl : l.IsCut) (i j : Nat) :
    ∃ f : Nat → Nat, (l.places i).map f = l'.places j := by
  refine ⟨fun p => (l'.places j).getD ((l.places i).idxOf p) 0, ?_⟩
  refine List.ext_getElem ((List.length_map _).trans (h.length_places i j)) fun k hk hk' => ?_
  rw [List.length_map] at hk
  rw [List.getElem_map, (hl.nodup_places i).idxOf_getElem k hk, List.getD_eq_getElem?_getD,
    List.getElem?_eq_getElem hk', Option.getD_some]

end Layout

end Cambist
