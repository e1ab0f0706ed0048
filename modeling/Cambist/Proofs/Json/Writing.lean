import Cambist.Json.Reader
import Cambist.Proofs.Json.Spelling

/-!
# Written JSON values

The tokens of a value stand in the order in which the value is built up, with commas between items
and between members. Reading them builds the value up again, whatever is open around it, so every
text in which the tokens of a value are written is read as that value. `Json.written` is one such
text.
-/

namespace Cambist.Json

/-! ### The tokens of a value -/

mutual

/-- The tokens of a value. -/
def tokens : Json → List Token
  | null      => [.null]
  | bool b    => [.bool b]
  | number n  => [.number n]
  | text s    => [.text s]
  | array vs  => .openBracket :: (itemTokens vs ++ [.closeBracket])
  | object ms => .openBrace :: (memberTokens ms ++ [.closeBrace])

/-- The tokens of the items of an array. -/
def itemTokens : List Json → List Token
  | []      => []
  | [v]     => v.tokens
  | v :: vs => v.tokens ++ .comma :: itemTokens vs

/-- The tokens of the members of an object. -/
def memberTokens : List (Option String × Json) → List Token
  | []           => []
  | [(k, v)]     => .text k :: .colon :: v.tokens
  | (k, v) :: ms => .text k :: .colon :: (v.tokens ++ .comma :: memberTokens ms)

end

/-- Is this text made of the tokens of a value, in any of the ways in which these may be written? -/
def IsWrittenAs (v : Json) (s : String) : Prop := Token.SpellsAll v.tokens s.toList

/-! ### Reading the tokens -/

namespace Progress

lemma run_cons {p q : Progress} {t : Token} (h : step p t = some q) (ts : List Token) :
    run p (t :: ts) = run q ts := by
  rw [run, List.foldlM_cons, h]
  rfl

/-- What has just been opened goes on like any other array, unless it is closed at once. -/
lemma run_firstItem {t : Token} (ht : t ≠ .closeBracket) (stack : List Frame) (ts : List Token) :
    run (.firstItem stack) (t :: ts) = run (.value (.array [] :: stack)) (t :: ts) := by
  have hstep : step (.firstItem stack) t = step (.value (.array [] :: stack)) t := by
    cases t with
    | closeBracket => exact absurd rfl ht
    | _ => rfl
  rw [run, run, List.foldlM_cons, List.foldlM_cons, hstep]

/-- What has just been opened goes on like any other object, unless it is closed at once. -/
lemma run_firstKey (k : Option String) (stack : List Frame) (ts : List Token) :
    run (.firstKey stack) (.text k :: ts) = run (.nextKey [] stack) (.text k :: ts) := rfl

end Progress

open Progress

/-- No value starts with a bracket that closes something. -/
lemma exists_tokens_cons (v : Json) : ∃ t ts, v.tokens = t :: ts ∧ t ≠ .closeBracket := by
  cases v
  all_goals
    rw [tokens]
    refine ⟨_, _, rfl, ?_⟩
    intro h
    cases h

lemma exists_itemTokens_cons (v : Json) (vs : List Json) :
    ∃ t ts, itemTokens (v :: vs) = t :: ts ∧ t ≠ .closeBracket := by
  obtain ⟨t, ts, heq, ht⟩ := exists_tokens_cons v
  cases vs with
  | nil => exact ⟨t, ts, by rw [itemTokens, heq], ht⟩
  | cons w ws => exact ⟨t, ts ++ .comma :: itemTokens (w :: ws), by simp [itemTokens, heq], ht⟩

lemma exists_memberTokens_cons (k : Option String) (v : Json) (ms : List (Option String × Json)) :
    ∃ ts, memberTokens ((k, v) :: ms) = .text k :: ts := by
  cases ms with
  | nil => exact ⟨.colon :: v.tokens, by rw [memberTokens]⟩
  | cons m ms => exact ⟨.colon :: (v.tokens ++ .comma :: memberTokens (m :: ms)), by
      simp [memberTokens]⟩

mutual

/-- The tokens of a value are taken as that value, whatever stands around it. -/
lemma run_tokens (v : Json) (stack : List Frame) (rest : List Token) :
    run (.value stack) (v.tokens ++ rest) = run (.done v stack) rest := by
  match v with
  | null => rfl
  | bool b => rfl
  | number n => rfl
  | text s => rfl
  | array [] => rfl
  | array (v :: vs) =>
    obtain ⟨t, ts, heq, ht⟩ := exists_itemTokens_cons v vs
    have hitems := run_itemTokens v vs [] stack rest
    rw [heq] at hitems
    rw [tokens, heq, List.cons_append, List.append_assoc, List.singleton_append,
      run_cons (q := .firstItem stack) rfl, List.cons_append, run_firstItem ht]
    exact hitems
  | object [] => rfl
  | object ((k, v) :: ms) =>
    obtain ⟨ts, heq⟩ := exists_memberTokens_cons k v ms
    have hmembers := run_memberTokens k v ms [] stack rest
    rw [heq] at hmembers
    rw [tokens, heq, List.cons_append, List.append_assoc, List.singleton_append,
      run_cons (q := .firstKey stack) rfl, List.cons_append, run_firstKey]
    exact hmembers
termination_by sizeOf v

lemma run_itemTokens (v : Json) (vs items : List Json) (stack : List Frame) (rest : List Token) :
    run (.value (.array items :: stack)) (itemTokens (v :: vs) ++ .closeBracket :: rest) =
      run (.done (.array (items.reverse ++ v :: vs)) stack) rest := by
  match vs with
  | [] =>
    rw [itemTokens, run_tokens v, run_cons (q := .done (.array (v :: items).reverse) stack) rfl,
      List.reverse_cons]
  | w :: ws =>
    rw [itemTokens, List.append_assoc, List.cons_append, run_tokens v,
      run_cons (q := .value (.array (v :: items) :: stack)) rfl, run_itemTokens w ws,
      List.reverse_cons, List.append_assoc, List.singleton_append]
    intro h
    cases h
termination_by sizeOf v + sizeOf vs

lemma run_memberTokens (k : Option String) (v : Json) (ms members : List (Option String × Json))
    (stack : List Frame) (rest : List Token) :
    run (.nextKey members stack) (memberTokens ((k, v) :: ms) ++ .closeBrace :: rest) =
      run (.done (.object (members.reverse ++ (k, v) :: ms)) stack) rest := by
  match ms with
  | [] =>
    rw [memberTokens, List.cons_append, List.cons_append,
      run_cons (q := .colon members k stack) rfl,
      run_cons (q := .value (.object members k :: stack)) rfl, run_tokens v,
      run_cons (q := .done (.object ((k, v) :: members).reverse) stack) rfl, List.reverse_cons]
  | (k', w) :: ws =>
    rw [memberTokens, List.cons_append, List.cons_append, List.append_assoc, List.cons_append,
      run_cons (q := .colon members k stack) rfl,
      run_cons (q := .value (.object members k :: stack)) rfl, run_tokens v,
      run_cons (q := .nextKey ((k, v) :: members) stack) rfl, run_memberTokens k' w ws,
      List.reverse_cons, List.append_assoc, List.singleton_append]
    intro h
    cases h
termination_by sizeOf v + sizeOf ms

end

/-- The tokens of a value make that value. -/
lemma ofTokens?_tokens (v : Json) : ofTokens? v.tokens = some v := by
  have hrun := run_tokens v [] []
  rw [List.append_nil] at hrun
  rw [ofTokens?, hrun]
  rfl

/-- A text is read as the value that is written in it. -/
lemma read?_of_isWrittenAs {v : Json} {s : String} (h : v.IsWrittenAs s) : read? s = some v := by
  rw [read?, Token.tokenize?, Token.SpellsAll.scan?_eq h]
  exact ofTokens?_tokens v

/-! ### Writing a value -/

namespace Token

/-- A number in four hexadecimal digits behind a backslash and a `u`. -/
def writtenUnit (n : Nat) : List Char :=
  ['\\', 'u', (n / 0x1000).digitChar, (n / 0x100 % 16).digitChar, (n / 0x10 % 16).digitChar,
    (n % 16).digitChar]

/-- A character as it is written in a string, escaped only if it has to be. -/
def writtenChar (c : Char) : List Char :=
  if c.toNat < 32 then writtenUnit c.toNat
  else if c = '"' ∨ c = '\\' then ['\\', c]
  else [c]

/-- A token as it is written. -/
def written : Token → List Char
  | openBrace    => ['\x7b']
  | closeBrace   => ['\x7d']
  | openBracket  => ['[']
  | closeBracket => [']']
  | comma        => [',']
  | colon        => [':']
  | null         => ['n', 'u', 'l', 'l']
  | bool true    => ['t', 'r', 'u', 'e']
  | bool false   => ['f', 'a', 'l', 's', 'e']
  | number n     => Decimal.numeral n.whole (n.fraction.getD [])
  | text s       => '"' :: ((s.getD "").toList.flatMap writtenChar ++ ['"'])

/-- The blank behind a number, which ends it. -/
def gap : Token → List Char
  | number _ => [' ']
  | _        => []

lemma spellsUnit_writtenUnit {n : Nat} (hn : n < 0x10000) : SpellsUnit n (writtenUnit n) := by
  have hdigit (k : Nat) (hk : k < 16) : IsHexDigit k k.digitChar := ⟨hk, .inl rfl⟩
  have hspells : SpellsUnit _ (writtenUnit n) := .intro (hdigit (n / 0x1000) (by omega))
    (hdigit (n / 0x100 % 16) (by omega)) (hdigit (n / 0x10 % 16) (by omega))
    (hdigit (n % 16) (by omega))
  have hsum : ((n / 0x1000 * 16 + n / 0x100 % 16) * 16 + n / 0x10 % 16) * 16 + n % 16 = n := by
    omega
  rwa [hsum] at hspells

/-- Every character can be written in a string. -/
lemma spellsChar_writtenChar (c : Char) : SpellsChar c (writtenChar c) := by
  rw [writtenChar]
  split_ifs with hcontrol hmark
  · exact .unit (spellsUnit_writtenUnit (by omega))
  · refine .letter ?_
    rcases hmark with rfl | rfl <;> simp [letters]
  · rw [not_or] at hmark
    exact .plain (by omega) hmark.1 hmark.2

lemma spellsChars_flatMap (cs : List Char) : SpellsChars cs (cs.flatMap writtenChar) := by
  induction cs with
  | nil => exact .nil
  | cons c cs ih => exact .cons (spellsChar_writtenChar c) ih

lemma spells_text (s : String) : Spells (.text (some s)) (written (.text (some s))) := by
  have hspells := Spells.text (spellsChars_flatMap s.toList)
  rwa [String.ofList_toList] at hspells

lemma spells_plain {whole fraction : List Char} (h : IsPlain whole fraction) :
    Spells (.number (plain whole fraction)) (written (.number (plain whole fraction))) := by
  have hfraction : (plain whole fraction).fraction.getD [] = fraction := by
    by_cases hne : fraction = []
    · simp [plain, hne]
    · simp [plain, hne]
  rw [written, hfraction]
  exact .number h

/-- Tokens can be written one after the other if each of them can. -/
lemma spellsAll_flatMap {ts : List Token} (h : ∀ t ∈ ts, t.Spells t.written) :
    SpellsAll ts (ts.flatMap fun t => t.written ++ t.gap) := by
  induction ts with
  | nil => exact .done
  | cons t ts ih =>
    have ht := h t List.mem_cons_self
    have hrest := ih fun t ht => h t (List.mem_cons_of_mem _ ht)
    rw [List.flatMap_cons, List.append_assoc]
    cases t with
    | number n => exact .token ht (stops_cons.mpr rfl) (.blank rfl hrest)
    | _ => exact .token ht trivial hrest

end Token

/-- Can all tokens of this value be written? -/
def CanBeWritten (v : Json) : Prop := ∀ t ∈ v.tokens, t.Spells t.written

/-- A value as it is written. -/
def written (v : Json) : String := .ofList (v.tokens.flatMap fun t => t.written ++ t.gap)

lemma CanBeWritten.isWrittenAs_written {v : Json} (h : v.CanBeWritten) :
    v.IsWrittenAs v.written := by
  rw [IsWrittenAs, written, String.toList_ofList]
  exact Token.spellsAll_flatMap h

lemma canBeWritten_text (s : String) : CanBeWritten (.text (some s)) := by
  intro t ht
  rw [tokens, List.mem_singleton] at ht
  subst ht
  exact Token.spells_text s

/-- The tokens of members are those of their keys and values, with colons and commas. -/
lemma mem_memberTokens {t : Token} {ms : List (Option String × Json)} (h : t ∈ memberTokens ms) :
    t = .colon ∨ t = .comma ∨ ∃ m ∈ ms, t = .text m.1 ∨ t ∈ m.2.tokens := by
  induction ms with
  | nil => simp [memberTokens] at h
  | cons m ms ih =>
    have hfirst (h : t = .text m.1 ∨ t = .colon ∨ t ∈ m.2.tokens) :
        t = .colon ∨ t = .comma ∨ ∃ m' ∈ m :: ms, t = .text m'.1 ∨ t ∈ m'.2.tokens := by
      obtain ht | ht | ht := h
      · exact .inr (.inr ⟨m, List.mem_cons_self, .inl ht⟩)
      · exact .inl ht
      · exact .inr (.inr ⟨m, List.mem_cons_self, .inr ht⟩)
    cases ms with
    | nil =>
      simp only [memberTokens, List.mem_cons] at h
      exact hfirst h
    | cons n ms =>
      simp only [memberTokens, List.mem_cons, List.mem_append] at h
      obtain ht | ht | ht | ht | ht := h
      · exact hfirst (.inl ht)
      · exact hfirst (.inr (.inl ht))
      · exact hfirst (.inr (.inr ht))
      · exact .inr (.inl ht)
      · obtain ht | ht | ⟨m', hm, ht⟩ := ih ht
        · exact .inl ht
        · exact .inr (.inl ht)
        · exact .inr (.inr ⟨m', List.mem_cons_of_mem _ hm, ht⟩)

/-- An object can be written if its keys are texts and its values can be written. -/
lemma canBeWritten_object {ms : List (Option String × Json)}
    (h : ∀ m ∈ ms, (∃ k, m.1 = some k) ∧ m.2.CanBeWritten) : CanBeWritten (.object ms) := by
  intro t ht
  rw [tokens, List.mem_cons, List.mem_append, List.mem_singleton] at ht
  obtain rfl | ht | rfl := ht
  · exact .openBrace
  · obtain rfl | rfl | ⟨m, hm, rfl | ht⟩ := mem_memberTokens ht
    · exact .colon
    · exact .comma
    · obtain ⟨⟨k, hk⟩, -⟩ := h m hm
      rw [hk]
      exact Token.spells_text k
    · exact (h m hm).2 t ht
  · exact .closeBrace

end Cambist.Json
