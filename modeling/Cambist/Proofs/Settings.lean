import Cambist.Proofs.Evaluation.Signs
import Cambist.Proofs.RateTable
import Cambist.Proofs.Request.Canonical
import Cambist.Settings

/-!
# Accepted settings

Settings are accepted only if all of their rates are positive, and what is accepted is the table
that the text denotes. So a request that is computed with accepted settings never has a sign turned
around by a rate.
-/

namespace Cambist.Settings

variable {text source : String} {t : RateTable} {comp : Computation}

/-- Is this the table that a text holds, whether its rates are positive or not? -/
def Denotes (text : String) (t : RateTable) : Prop :=
  ∃ j, Json.read? text = some j ∧ table? j = some t

lemma denotes_iff : Denotes text t ↔ (Json.read? text).bind table? = some t :=
  Option.bind_eq_some_iff.symm

/-! ### Validation -/

lemma validate_eq_ok (ht : t.HasPositiveRates) : validate t = .ok t := by
  rw [validate]
  split
  case h_1 a b r hfind =>
    have hpos := ht a b r (RateTable.mem_entries_iff.mp (List.mem_of_find?_eq_some hfind))
    have hnot := List.find?_some hfind
    simp [hpos] at hnot
  case h_2 => rfl

/-- If not all rates are positive, then one that is not is reported. -/
lemma validate_eq_error (ht : ¬ t.HasPositiveRates) : ∃ a b r, t.rate? a b = some r ∧
    ¬ r.isPositive = true ∧ validate t = .error (.nonPositiveRate a b r) := by
  rw [validate]
  split
  case h_1 a b r hfind =>
    have hnot := List.find?_some hfind
    refine ⟨a, b, r, RateTable.mem_entries_iff.mp (List.mem_of_find?_eq_some hfind), ?_, rfl⟩
    simpa using hnot
  case h_2 hfind =>
    refine absurd ?_ ht
    intro a b r hr
    have hpos := List.find?_eq_none.mp hfind (a, b, r) (RateTable.mem_entries_iff.mpr hr)
    simpa using hpos

/-! ### Reading -/

lemma read_of_denotes (h : Denotes text t) : read text = validate t := by
  rw [read, denotes_iff.mp h]

/-- What is accepted is the table that the text holds, and only with positive rates. -/
lemma read_eq_ok_iff : read text = .ok t ↔ Denotes text t ∧ t.HasPositiveRates := by
  constructor
  · intro h
    cases hbind : (Json.read? text).bind table? with
    | none =>
      rw [read, hbind] at h
      cases h
    | some t' =>
      have hdenotes := denotes_iff.mpr hbind
      rw [read_of_denotes hdenotes] at h
      by_cases hpos : t'.HasPositiveRates
      · rw [validate_eq_ok hpos] at h
        cases h
        exact ⟨hdenotes, hpos⟩
      · obtain ⟨a, b, r, -, -, herror⟩ := validate_eq_error hpos
        rw [herror] at h
        cases h
  · rintro ⟨hdenotes, hpos⟩
    rw [read_of_denotes hdenotes, validate_eq_ok hpos]

/-! ### Computing with accepted settings -/

/-- A line that is computed with positive rates is spelled by a sentence, and its steps keep the
signs of the terms in it. -/
lemma exists_keepsSigns (ht : t.HasPositiveRates) (h : t.compute source = .ok comp) :
    ∃ (s : Sentence) (target : String), Token.tokenize source = .ok s.tokens ∧
      t.resolve? s.target.name = some target ∧
        comp.KeepsSigns t target (s.phrases.map Phrase.term) := by
  obtain ⟨r, hparse, heval⟩ := RateTable.compute_eq_ok_iff.mp h
  have hwritten := (Request.wellFormed_of_parse hparse).terms
  obtain ⟨s, hscan, -, rfl⟩ := Request.parse_eq_ok_iff.mp hparse
  cases Evaluation.request_eq_ok_iff.mp heval with
  | intro hT hr hs =>
    exact ⟨s, _, hscan, hT, keepsSigns_of_takes ht (fun x hx => (hwritten x hx).value) hr hs⟩

/-- All rates of accepted settings are greater than zero, however they are looked up. With them, no
change of currency in a computed line has different signs on its two sides, and the additions take
up what the terms but the last settle to, with the signs that are written in front of these terms.
Settings that denote a table with a rate that is not greater than zero are not accepted, and the
error has such a rate with its two currencies. -/
theorem rates_positive_of_read (text : String) :
    (∀ t, read text = .ok t → Denotes text t ∧
      (∀ a b r, t.rate? a b = some r → 0 < r.toRat) ∧
      (∀ a b r, (a, b, r) ∈ t.entries → 0 < r.toRat) ∧
      ∀ source comp, t.compute source = .ok comp →
        ∃ (s : Sentence) (target : String), Token.tokenize source = .ok s.tokens ∧
          t.resolve? s.target.name = some target ∧
            comp.KeepsSigns t target (s.phrases.map Phrase.term)) ∧
    ∀ t, Denotes text t → (∃ a b r, t.rate? a b = some r ∧ r.toRat ≤ 0) →
      ∃ a b r, t.rate? a b = some r ∧ r.toRat ≤ 0 ∧
        read text = .error (.nonPositiveRate a b r) := by
  constructor
  · intro t h
    obtain ⟨hdenotes, hpos⟩ := read_eq_ok_iff.mp h
    have hrat (a b r) (hr : t.rate? a b = some r) : 0 < r.toRat :=
      Decimal.toRat_pos_iff.mpr (hpos a b r hr)
    exact ⟨hdenotes, hrat, fun a b r hmem => hrat a b r (RateTable.mem_entries_iff.mp hmem),
      fun source comp hcomp => exists_keepsSigns hpos hcomp⟩
  · rintro t hdenotes ⟨a, b, r, hr, hle⟩
    have hpos : ¬ t.HasPositiveRates := by
      intro hpos
      exact hle.not_gt (Decimal.toRat_pos_iff.mpr (hpos a b r hr))
    obtain ⟨a', b', r', hr', hnot, herror⟩ := validate_eq_error hpos
    refine ⟨a', b', r', hr', ?_, ?_⟩
    · rwa [← not_lt, Decimal.toRat_pos_iff]
    · rw [read_of_denotes hdenotes, herror]

/-- Settings with one rate, for examples. -/
def sampleText (rate : String) : String :=
  "\x7b\"conversionCosts\":\x7b\"EUR\":\x7b\"USD\":" ++ rate ++
    "\x7d\x7d,\"conversionToCurrencyConventions\":\x7b\"usd\":\"USD\"\x7d\x7d"

/-- A line whose first term vanishes when it is converted, for examples. -/
def sampleLine : String := "usd: - 0.0000000000000000000000000001EUR + 1USD"

/-- The smallest euro there is comes to no dollars, and it is taken up as `-0` all the same. A rate
too small for a decimal is read as zero, and so it is not accepted. -/
theorem rates_positive_of_read_sample :
    (∃ t comp, read (sampleText "0.4") = .ok t ∧ t.compute sampleLine = .ok comp ∧
      comp.steps.toList.filterMap Step.left? = [⟨⟨.minus, 0, 28, by decide, by decide⟩, "USD"⟩] ∧
      (∀ a b r, t.rate? a b = some r → 0 < r.toRat) ∧
      ∃ (s : Sentence) (target : String), Token.tokenize sampleLine = .ok s.tokens ∧
        comp.KeepsSigns t target (s.phrases.map Phrase.term)) ∧
    ∃ a b r, r.toRat ≤ 0 ∧ read (sampleText "1e-29") = .error (.nonPositiveRate a b r) := by
  constructor
  · have hany : (read (sampleText "0.4")).toOption.any (fun t =>
        (t.compute sampleLine).toOption.any fun comp => comp.steps.toList.filterMap Step.left? =
          [⟨⟨.minus, 0, 28, by decide, by decide⟩, "USD"⟩]) = true := by
      decide +kernel
    obtain ⟨t, ht, hcomp⟩ := exists_ok_of_any hany
    obtain ⟨comp, hcomp, hleft⟩ := exists_ok_of_any hcomp
    obtain ⟨hread, -⟩ := rates_positive_of_read (sampleText "0.4")
    obtain ⟨-, hpos, -, hcompute⟩ := hread t ht
    obtain ⟨s, target, hscan, -, hkeeps⟩ := hcompute _ _ hcomp
    exact ⟨t, comp, ht, hcomp, of_decide_eq_true hleft, hpos, s, target, hscan, hkeeps⟩
  · obtain ⟨-, hrefuse⟩ := rates_positive_of_read (sampleText "1e-29")
    have hany : ((Json.read? (sampleText "1e-29")).bind table?).any (fun t =>
        (t.rate? "EUR" "USD").any fun r => r.isZero) = true := by
      decide +kernel
    obtain ⟨t, ht, hzero⟩ := (Option.any_eq_true _ _).mp hany
    obtain ⟨r, hr, hzero⟩ := (Option.any_eq_true _ _).mp hzero
    have hle : r.toRat ≤ 0 := (Decimal.toRat_of_isZero hzero).le
    obtain ⟨a, b, r', -, hle', herror⟩ := hrefuse t (denotes_iff.mpr ht) ⟨_, _, r, hr, hle⟩
    exact ⟨a, b, r', hle', herror⟩

end Cambist.Settings
