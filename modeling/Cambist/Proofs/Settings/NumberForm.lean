import Cambist.Proofs.Json.Numeral
import Cambist.Proofs.Settings.Writing

/-!
# Rates as numbers and as strings

A rate may be written as a number or as a string, with the same characters. The string is read
exactly. The number is read as an equal rate as long as it is safe: a whole number below `2 ^ 64`,
or a mantissa below `2 ^ 52` with at most 22 places. Beyond that a number may be read as a different
rate, or be refused.
-/

namespace Cambist.Settings

open Json (Numeral)

variable {t : RateTable} {s : String}

/-- The way to write a rate as a number, with the characters of its text. -/
def AsNumber (r : Decimal) (j : Json) : Prop := j = .number (Numeral.ofMagnitude r.magnitude)

/-- The ways to write a rate that lose nothing: a string, or a number if that is safe. -/
def InSafeForm (r : Decimal) (j : Json) : Prop :=
  AsText r j ∨ Numeral.IsSafe r.magnitude ∧ AsNumber r j

/-! ### Reading -/

lemma exists_decimal? {r : Decimal} {j : Json} (hr : r.isPositive = true) (hj : InSafeForm r j) :
    ∃ r', j.decimal? = some r' ∧ r'.toRat = r.toRat := by
  obtain ⟨sign, x⟩ := r
  have hsign := Decimal.sign_of_isPositive hr
  cases hsign
  rcases hj with rfl | ⟨hsafe, rfl⟩
  · exact ⟨_, Decimal.read?_text rfl, rfl⟩
  · have hx : x.mantissa ≠ 0 := by
      rw [Decimal.isPositive, Bool.and_eq_true, Bool.not_eq_true'] at hr
      exact (Decimal.isZero_eq_true_iff _).not.mp (Bool.eq_false_iff.mp hr.2)
    exact Numeral.exists_toDecimal? (Nat.pos_of_ne_zero hx) hsafe

/-- Tables that are alike have equal rates. -/
lemma toRat_rate?_of_alike {u : RateTable}
    (h : Alike (Alike fun r r' : Decimal => r'.toRat = r.toRat) t.rates u.rates) (a b : String) :
    (u.rate? a b).map Decimal.toRat = (t.rate? a b).map Decimal.toRat := by
  rw [RateTable.rate?, RateTable.rate?]
  have ha := h a
  generalize t.rates[a]? = row, u.rates[a]? = row' at ha ⊢
  cases ha with
  | none => rfl
  | @some row row' hrow =>
    have hb := hrow b
    rw [Option.bind_some, Option.bind_some]
    generalize row[b]? = r, row'[b]? = r' at hb ⊢
    cases hb with
    | none => rfl
    | some hr => rw [Option.map_some, Option.map_some, hr]

/-- Whatever safe forms the rates of a table are written in, they are read as equal ones. -/
lemma exists_read_of_writes (ht : t.HasPositiveRates) (hs : Writes InSafeForm t s) :
    ∃ u, read s = .ok u ∧ u.directives = t.directives ∧
      ∀ a b, (u.rate? a b).map Decimal.toRat = (t.rate? a b).map Decimal.toRat := by
  have hrate (a b : String) (r : Decimal) (j : Json) (hr : t.rate? a b = some r)
      (hj : InSafeForm r j) : ∃ r', j.decimal? = some r' ∧ r'.toRat = r.toRat :=
    exists_decimal? (ht a b r hr) hj
  obtain ⟨u, hdenotes, hrates, hdirectives⟩ :=
    exists_denotes (R := fun r r' => r'.toRat = r.toRat) hrate hs
  have hequal := toRat_rate?_of_alike hrates
  have hpos : u.HasPositiveRates := by
    intro a b r hr
    have hab := hequal a b
    rw [hr, Option.map_some] at hab
    obtain ⟨r', hr', hvalue⟩ := Option.map_eq_some_iff.mp hab.symm
    rw [← Decimal.toRat_pos_iff, ← hvalue, Decimal.toRat_pos_iff]
    exact ht a b r' hr'
  exact ⟨u, read_eq_ok_iff.mpr ⟨hdenotes, hpos⟩, hdirectives, hequal⟩

/-! ### Writing -/

/-- A table as settings with numbers wherever these are safe. -/
def numberJson : RateTable → Json := tableJson fun r =>
  if Numeral.IsSafe r.magnitude then .number (Numeral.ofMagnitude r.magnitude)
  else .text (some r.text)

lemma canBeWritten_ofMagnitude (x : Magnitude) :
    Json.CanBeWritten (.number (Numeral.ofMagnitude x)) := by
  intro t ht
  rw [Json.tokens, List.mem_singleton] at ht
  subst ht
  exact Json.Token.spells_plain (Numeral.isPlain_digits x)

lemma writes_numberJson (t : RateTable) : Writes InSafeForm t (numberJson t).written := by
  refine writes_written (fun r => ?_) t
  split_ifs with hsafe
  · exact ⟨.inr ⟨hsafe, rfl⟩, canBeWritten_ofMagnitude r.magnitude⟩
  · exact ⟨.inl rfl, Json.canBeWritten_text r.text⟩

/-! ### Both forms -/

/-- Each rate of a table may be written as a string, and as a number with the same characters if
that is safe. However they are written, positive rates are accepted, and they are read as equal
ones. -/
theorem read_safe_form (t : RateTable) (ht : t.HasPositiveRates) (s s' : String)
    (hs : Writes AsText t s) (hs' : Writes InSafeForm t s') :
    ∃ u u', read s = .ok u ∧ read s' = .ok u' ∧ u'.directives = u.directives ∧
      ∀ a b, (u'.rate? a b).map Decimal.toRat = (u.rate? a b).map Decimal.toRat := by
  obtain ⟨u', hread, hequal⟩ := exists_read_of_writes ht hs'
  exact ⟨t, u', read_of_writes_asText ht hs, hread, hequal⟩

/-- A table for examples: a rate that ends in a zero, two that are as large as is safe, and one that
is not safe. -/
def formsTable : RateTable where
  rates := Std.ExtTreeMap.ofList [("EUR", Std.ExtTreeMap.ofList
    [("USD", Decimal.ofUnits 90 2), ("GBP", Decimal.ofUnits (2 ^ 64 - 1) 0),
      ("RUB", Decimal.ofUnits (2 ^ 52 - 1) 22), ("$", Decimal.ofUnits (2 ^ 64) 0)])]
  directives := Std.ExtTreeMap.ofList [("usd", "USD")]

theorem read_safe_form_sample :
    let text := "\x7b\"conversionCosts\":\x7b\"EUR\":\x7b\"$\":\"18446744073709551616\"," ++
      "\"GBP\":\"18446744073709551615\",\"RUB\":\"0.0000004503599627370495\",\"USD\":\"0.90\"" ++
      "\x7d\x7d,\"conversionToCurrencyConventions\":\x7b\"usd\":\"USD\"\x7d\x7d"
    let text' := "\x7b\"conversionCosts\":\x7b\"EUR\":\x7b\"$\":\"18446744073709551616\"," ++
      "\"GBP\":18446744073709551615 ,\"RUB\":0.0000004503599627370495 ,\"USD\":0.90 " ++
      "\x7d\x7d,\"conversionToCurrencyConventions\":\x7b\"usd\":\"USD\"\x7d\x7d"
    formsTable.HasPositiveRates ∧ Writes AsText formsTable text ∧
      Writes InSafeForm formsTable text' ∧
      ∃ u u', read text = .ok u ∧ read text' = .ok u' ∧ u'.directives = u.directives ∧
        ∀ a b, (u'.rate? a b).map Decimal.toRat = (u.rate? a b).map Decimal.toRat := by
  intro text text'
  have hpos : formsTable.HasPositiveRates := hasPositiveRates_of_all (by decide +kernel)
  have htext : (textJson formsTable).written = text := by decide +kernel
  have htext' : (numberJson formsTable).written = text' := by decide +kernel
  have hwrites : Writes AsText formsTable text := htext ▸ writes_textJson formsTable
  have hwrites' : Writes InSafeForm formsTable text' := htext' ▸ writes_numberJson formsTable
  exact ⟨hpos, hwrites, hwrites', read_safe_form formsTable hpos text text' hwrites hwrites'⟩

/-- Beyond what is safe the two forms differ: as a number, `2 ^ 64` is read as another rate, and the
greatest decimal is refused. -/
theorem forms_differ :
    (∃ u u', read (sampleText "\"18446744073709551616\"") = .ok u ∧
      read (sampleText "18446744073709551616") = .ok u' ∧
        (u.rate? "EUR" "USD").map Decimal.toRat = some 18446744073709551616 ∧
          (u'.rate? "EUR" "USD").map Decimal.toRat = some 18446744073709552000) ∧
      (∃ u, read (sampleText "\"79228162514264337593543950335\"") = .ok u) ∧
        read (sampleText "79228162514264337593543950335") = .error .malformed := by
  refine ⟨?_, ?_, ?_⟩
  · have htext : (read (sampleText "\"18446744073709551616\"")).toOption.any (fun u =>
        (u.rate? "EUR" "USD").map Decimal.toRat = some 18446744073709551616) = true := by
      decide +kernel
    have hnumber : (read (sampleText "18446744073709551616")).toOption.any (fun u =>
        (u.rate? "EUR" "USD").map Decimal.toRat = some 18446744073709552000) = true := by
      decide +kernel
    obtain ⟨u, hu, hvalue⟩ := exists_ok_of_any htext
    obtain ⟨u', hu', hvalue'⟩ := exists_ok_of_any hnumber
    exact ⟨u, u', hu, hu', of_decide_eq_true hvalue, of_decide_eq_true hvalue'⟩
  · have htext : (read (sampleText "\"79228162514264337593543950335\"")).toOption.any
        (fun _ => true) = true := by
      decide +kernel
    obtain ⟨u, hu, -⟩ := exists_ok_of_any htext
    exact ⟨u, hu⟩
  · have hnone : ((Json.read? (sampleText "79228162514264337593543950335")).bind table?).isNone =
        true := by
      decide +kernel
    rw [read, Option.isNone_iff_eq_none.mp hnone]

end Cambist.Settings
