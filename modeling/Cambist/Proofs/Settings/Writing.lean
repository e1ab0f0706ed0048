import Cambist.Proofs.Json.Writing
import Cambist.Proofs.Settings

/-!
# Written settings

A rate table is written as an object of two objects, with a member for each of its entries. The
members may stand in any order, their keys may be spelled in any way that JSON has, and a currency
without a rate has an empty object. Reading gives the table back, and every rate with its scale.
-/

namespace Cambist.Settings

open Std (ExtTreeMap)

variable {α β : Type}

/-! ### Maps entry by entry -/

/-- Have two maps the same keys, with values that are related? -/
def Alike (R : α → α → Prop) (m m' : ExtTreeMap String α) : Prop :=
  ∀ k : String, Option.Rel R m[k]? m'[k]?

/-- Two entries belong together if they have the same key and related values. -/
def Paired (R : α → β → Prop) (e : String × α) (e' : String × β) : Prop := e.1 = e'.1 ∧ R e.2 e'.2

section maps

variable {R : α → α → Prop} {m m' : ExtTreeMap String α} {entries entries' : List (String × α)}
  {k : String} {v : α}

lemma Alike.eq (h : Alike Eq m m') : m = m' := by
  refine ExtTreeMap.ext_getElem? fun k => ?_
  have hk := h k
  generalize m[k]? = v, m'[k]? = v' at hk ⊢
  cases hk with
  | some hv => rw [hv]
  | none => rfl

lemma Alike.mono {S : α → α → Prop} (h : Alike R m m') (hRS : ∀ v v', R v v' → S v v') :
    Alike S m m' := by
  intro k
  have hk := h k
  generalize m[k]? = v, m'[k]? = v' at hk ⊢
  cases hk with
  | some hv => exact .some (hRS _ _ hv)
  | none => exact .none

/-- If no key occurs twice, a map made of entries has these entries. -/
lemma getElem?_ofList_iff (hkeys : (entries.map Prod.fst).Nodup) :
    (ExtTreeMap.ofList entries)[k]? = some v ↔ (k, v) ∈ entries := by
  have hget {v : α} (hmem : (k, v) ∈ entries) : (ExtTreeMap.ofList entries)[k]? = some v :=
    ExtTreeMap.getElem?_ofList_of_mem Std.ReflCmp.compare_self
      ((List.pairwise_map.mp hkeys).imp fun hne heq => hne (Std.LawfulEqCmp.eq_of_compare heq)) hmem
  refine ⟨fun h => ?_, hget⟩
  by_cases hk : k ∈ entries.map Prod.fst
  · obtain ⟨⟨k', v'⟩, hmem, rfl⟩ := List.mem_map.mp hk
    rw [hget hmem] at h
    cases h
    exact hmem
  · rw [ExtTreeMap.getElem?_ofList_of_contains_eq_false (by simpa using hk)] at h
    cases h

lemma exists_mem_of_forall₂ {S : α → β → Prop} {as : List α} {bs : List β}
    (h : List.Forall₂ S as bs) {a : α} (ha : a ∈ as) : ∃ b ∈ bs, S a b := by
  induction h with
  | nil => cases ha
  | @cons c d _ _ hcd _ ih =>
    obtain rfl | ha := List.mem_cons.mp ha
    · exact ⟨d, List.mem_cons_self, hcd⟩
    · obtain ⟨b, hb, hab⟩ := ih ha
      exact ⟨b, List.mem_cons_of_mem _ hb, hab⟩

lemma map_fst_of_forall₂ (h : List.Forall₂ (Paired R) entries entries') :
    entries.map Prod.fst = entries'.map Prod.fst := by
  induction h with
  | nil => rfl
  | cons he _ ih => rw [List.map_cons, List.map_cons, he.1, ih]

/-- The order of the entries does not matter for the map that they make. -/
lemma alike_ofList (hentries : entries.Perm m.toList)
    (h : List.Forall₂ (Paired R) entries entries') : Alike R m (.ofList entries') := by
  have hmem (k : String) (v : α) : (k, v) ∈ entries ↔ m[k]? = some v := by
    rw [hentries.mem_iff, ExtTreeMap.mem_toList_iff_getElem?_eq_some]
  have hfst := map_fst_of_forall₂ h
  have hkeys : (entries'.map Prod.fst).Nodup := by
    rw [← hfst, (hentries.map Prod.fst).nodup_iff, ExtTreeMap.map_fst_toList_eq_keys]
    exact ExtTreeMap.nodup_keys
  intro k
  cases hget : m[k]? with
  | some v =>
    obtain ⟨⟨k', v'⟩, hmem', rfl, hv⟩ := exists_mem_of_forall₂ h ((hmem k v).mpr hget)
    rw [(getElem?_ofList_iff hkeys).mpr hmem']
    exact .some hv
  | none =>
    cases hget' : (ExtTreeMap.ofList entries')[k]? with
    | none => exact .none
    | some v' =>
      have hk : k ∈ entries.map Prod.fst := by
        rw [hfst]
        exact List.mem_map_of_mem ((getElem?_ofList_iff hkeys).mp hget')
      obtain ⟨⟨k', v⟩, hkv, rfl⟩ := List.mem_map.mp hk
      rw [(hmem _ _).mp hkv] at hget
      cases hget

end maps

/-! ### Settings as JSON values -/

/-- An object that has a member for each entry of a map, in any order. -/
inductive IsMap (writes : α → Json → Prop) (m : ExtTreeMap String α) : Json → Prop where
  | intro {entries : List (String × α)} {members : List (String × Json)}
      (hentries : entries.Perm m.toList) (hmembers : List.Forall₂ (Paired writes) entries members) :
      IsMap writes m (.object (members.map fun x => (some x.1, x.2)))

/-- Is this a string with this text? -/
def IsText (s : String) (j : Json) : Prop := j = .text (some s)

/-- An object with the two fields of settings, in any order. -/
inductive IsSettings (writes : Decimal → Json → Prop) (t : RateTable) : Json → Prop where
  | ratesFirst {rates directives : Json} (hrates : IsMap (IsMap writes) t.rates rates)
      (hdirectives : IsMap IsText t.directives directives) :
      IsSettings writes t (.object [(some ratesField, rates), (some directivesField, directives)])
  | directivesFirst {rates directives : Json} (hrates : IsMap (IsMap writes) t.rates rates)
      (hdirectives : IsMap IsText t.directives directives) :
      IsSettings writes t (.object [(some directivesField, directives), (some ratesField, rates)])

/-- Is a table written in this text, with rates that are written in a given way? -/
def Writes (writes : Decimal → Json → Prop) (t : RateTable) (s : String) : Prop :=
  ∃ j, IsSettings writes t j ∧ j.IsWrittenAs s

/-! ### Reading -/

section reading

variable {R : α → α → Prop} {m : ExtTreeMap String α} {writes : α → Json → Prop}
  {read : Json → Option α} {j : Json}

/-- If each value can be read, then members make entries. -/
lemma exists_members? {entries : List (String × α)} {members : List (String × Json)}
    (h : ∀ k v j, (k, v) ∈ entries → writes v j → ∃ v', read j = some v' ∧ R v v')
    (hmembers : List.Forall₂ (Paired writes) entries members) :
    ∃ entries', (Json.object (members.map fun x => (some x.1, x.2))).members? read = some entries' ∧
      List.Forall₂ (Paired R) entries entries' := by
  induction hmembers with
  | nil => exact ⟨[], rfl, .nil⟩
  | @cons e x entries members hex _ ih =>
    obtain ⟨hkey, hvalue⟩ := hex
    obtain ⟨v', hread, hv⟩ := h e.1 e.2 x.2 List.mem_cons_self hvalue
    obtain ⟨entries', hrest, hpaired⟩ := ih fun k v j hmem => h k v j (List.mem_cons_of_mem _ hmem)
    refine ⟨(x.1, v') :: entries', ?_, .cons ⟨hkey, hv⟩ hpaired⟩
    rw [Json.members?] at hrest
    rw [List.map_cons, Json.members?, List.mapM_cons, hrest]
    simp [hread]

/-- If each value of a map can be read, then so can the map. -/
lemma exists_map?
    (h : ∀ (k : String) v j, m[k]? = some v → writes v j → ∃ v', read j = some v' ∧ R v v')
    (hj : IsMap writes m j) : ∃ m', map? read j = some m' ∧ Alike R m m' := by
  cases hj with
  | @intro entries members hentries hmembers =>
    have hmem (k : String) (v : α) (he : (k, v) ∈ entries) : m[k]? = some v :=
      ExtTreeMap.mem_toList_iff_getElem?_eq_some.mp (hentries.mem_iff.mp he)
    obtain ⟨entries', hread, hpaired⟩ :=
      exists_members? (fun k v j he => h k v j (hmem k v he)) hmembers
    exact ⟨.ofList entries', by rw [map?, hread]; rfl, alike_ofList hentries hpaired⟩

end reading

variable {t : RateTable} {s : String} {writes : Decimal → Json → Prop}
  {R : Decimal → Decimal → Prop}

lemma directives?_of_isMap {m : ExtTreeMap String String} {j : Json} (hj : IsMap IsText m j) :
    directives? j = some m := by
  have htext (k v : String) (j : Json) (_ : m[k]? = some v) (hj : IsText v j) :
      ∃ v', j.text? = some v' ∧ v = v' := by
    rw [hj]
    exact ⟨v, rfl, rfl⟩
  obtain ⟨m', hread, halike⟩ := exists_map? htext hj
  rw [halike.eq]
  exact hread

/-- If each rate can be read, then so can the table that they belong to. -/
lemma exists_denotes
    (h : ∀ a b r j, t.rate? a b = some r → writes r j → ∃ r', j.decimal? = some r' ∧ R r r')
    (hs : Writes writes t s) :
    ∃ u, Denotes s u ∧ Alike (Alike R) t.rates u.rates ∧ u.directives = t.directives := by
  obtain ⟨j, hsettings, hwritten⟩ := hs
  have hrow (a : String) (row : ExtTreeMap String Decimal) (j : Json) (ha : t.rates[a]? = some row)
      (hj : IsMap writes row j) : ∃ row', map? Json.decimal? j = some row' ∧ Alike R row row' := by
    refine exists_map? (fun b r j hb => h a b r j ?_) hj
    rw [RateTable.rate?, ha]
    exact hb
  have htable {rates directives : Json} (hrates : IsMap (IsMap writes) t.rates rates)
      (hdirectives : IsMap IsText t.directives directives) :
      ∃ u, ofFields? (some rates) (some directives) = some u ∧ Alike (Alike R) t.rates u.rates ∧
        u.directives = t.directives := by
    obtain ⟨m, hread, halike⟩ := exists_map? hrow hrates
    refine ⟨⟨m, t.directives⟩, ?_, halike, rfl⟩
    rw [ofFields?, Option.elim_some, Option.elim_some, rates?, hread,
      directives?_of_isMap hdirectives]
    rfl
  cases hsettings with
  | ratesFirst hrates hdirectives =>
    obtain ⟨u, hfields, halike⟩ := htable hrates hdirectives
    exact ⟨u, ⟨_, Json.read?_of_isWrittenAs hwritten, hfields⟩, halike⟩
  | directivesFirst hrates hdirectives =>
    obtain ⟨u, hfields, halike⟩ := htable hrates hdirectives
    exact ⟨u, ⟨_, Json.read?_of_isWrittenAs hwritten, hfields⟩, halike⟩

/-- The way to write a rate as a string, with all digits that its scale has. -/
def AsText (r : Decimal) : Json → Prop := IsText r.text

/-- A table with positive rates is read as it was written, whatever order, blanks and escapes were
chosen. -/
lemma read_of_writes_asText (ht : t.HasPositiveRates) (hs : Writes AsText t s) :
    read s = .ok t := by
  have hrate (a b : String) (r : Decimal) (j : Json) (hr : t.rate? a b = some r)
      (hj : AsText r j) : ∃ r', j.decimal? = some r' ∧ r = r' := by
    have hsign := Decimal.sign_of_isPositive (ht a b r hr)
    rw [hj]
    exact ⟨r, Decimal.read?_text hsign, rfl⟩
  obtain ⟨u, hdenotes, hrates, hdirectives⟩ := exists_denotes hrate hs
  have hrows := (hrates.mono fun _ _ hrow => hrow.eq).eq
  have htable : u = t := by
    cases t
    cases u
    cases hrows
    cases hdirectives
    rfl
  exact read_eq_ok_iff.mpr ⟨htable ▸ hdenotes, ht⟩

/-! ### Writing a table -/

/-- A map as an object. -/
def mapJson (value : α → Json) (m : ExtTreeMap String α) : Json :=
  .object (m.toList.map fun e => (some e.1, value e.2))

/-- A table as settings, with rates that are given as values. -/
def tableJson (rate : Decimal → Json) (t : RateTable) : Json :=
  .object [(some ratesField, mapJson (mapJson rate) t.rates),
    (some directivesField, mapJson (fun s => .text (some s)) t.directives)]

lemma isMap_mapJson {value : α → Json} {writes : α → Json → Prop} (h : ∀ v, writes v (value v))
    (m : ExtTreeMap String α) : IsMap writes m (mapJson value m) := by
  have hpaired : List.Forall₂ (Paired writes) m.toList
      (m.toList.map fun e => (e.1, value e.2)) :=
    List.forall₂_map_right_iff.mpr (List.forall₂_same.mpr fun e _ => ⟨rfl, h e.2⟩)
  have hmap := IsMap.intro (List.Perm.refl m.toList) hpaired
  rwa [List.map_map] at hmap

lemma isSettings_tableJson {rate : Decimal → Json} (h : ∀ r, writes r (rate r)) (t : RateTable) :
    IsSettings writes t (tableJson rate t) := by
  have htext (s : String) : IsText s (.text (some s)) := rfl
  exact .ratesFirst (isMap_mapJson (isMap_mapJson h) t.rates) (isMap_mapJson htext t.directives)

lemma canBeWritten_mapJson {value : α → Json} (h : ∀ v, (value v).CanBeWritten)
    (m : ExtTreeMap String α) : (mapJson value m).CanBeWritten := by
  refine Json.canBeWritten_object fun x hx => ?_
  obtain ⟨e, -, rfl⟩ := List.mem_map.mp hx
  exact ⟨⟨e.1, rfl⟩, h e.2⟩

lemma canBeWritten_tableJson {rate : Decimal → Json} (h : ∀ r, (rate r).CanBeWritten)
    (t : RateTable) : (tableJson rate t).CanBeWritten := by
  refine Json.canBeWritten_object (List.forall_mem_cons.mpr ⟨⟨⟨_, rfl⟩, ?_⟩,
    List.forall_mem_singleton.mpr ⟨⟨_, rfl⟩, ?_⟩⟩)
  · exact canBeWritten_mapJson (canBeWritten_mapJson h) t.rates
  · exact canBeWritten_mapJson Json.canBeWritten_text t.directives

/-- If each rate can be written, then so can the table. -/
lemma writes_written {rate : Decimal → Json} (h : ∀ r, writes r (rate r) ∧ (rate r).CanBeWritten)
    (t : RateTable) : Writes writes t (tableJson rate t).written :=
  ⟨_, isSettings_tableJson (fun r => (h r).1) t,
    (canBeWritten_tableJson (fun r => (h r).2) t).isWrittenAs_written⟩

/-- A table as settings with strings. -/
def textJson : RateTable → Json := tableJson fun r => .text (some r.text)

lemma writes_textJson (t : RateTable) : Writes AsText t (textJson t).written := by
  have hrate (r : Decimal) : AsText r (.text (some r.text)) := rfl
  exact writes_written (fun r => ⟨hrate r, Json.canBeWritten_text r.text⟩) t

/-- Every table with positive rates can be written with its rates as strings, and it is read back
from every text in which it is so written: with the same currencies and directives, and each rate
with the scale it had. -/
theorem read_written (t : RateTable) (ht : t.HasPositiveRates) :
    (∃ s, Writes AsText t s) ∧ ∀ s, Writes AsText t s → read s = .ok t :=
  ⟨⟨_, writes_textJson t⟩, fun _ hs => read_of_writes_asText ht hs⟩

lemma hasPositiveRates_of_all (h : t.entries.all (fun e => e.2.2.isPositive) = true) :
    t.HasPositiveRates := by
  intro a b r hr
  exact List.all_eq_true.mp h (a, b, r) (RateTable.mem_entries_iff.mpr hr)

/-- A table for examples: a currency without rates, names that need escapes, the greatest mantissa
and a rate that ends in zeros. -/
def writtenTable : RateTable where
  rates := ExtTreeMap.ofList
    [("\"\n", ExtTreeMap.ofList [("\\", Decimal.ofUnits 1500 3),
      ("€", Decimal.ofUnits (2 ^ 96 - 1) 28)]), ("", ∅)]
  directives := ExtTreeMap.ofList [("usd", "USD"), ("\x00", "")]

theorem read_written_sample :
    let text := "\x7b\"conversionCosts\":\x7b\"\":\x7b\x7d,\"\\\"\\u000a\":" ++
      "\x7b\"\\\\\":\"1.500\",\"€\":\"7.9228162514264337593543950335\"\x7d\x7d," ++
      "\"conversionToCurrencyConventions\":\x7b\"\\u0000\":\"\",\"usd\":\"USD\"\x7d\x7d"
    writtenTable.HasPositiveRates ∧ Writes AsText writtenTable text ∧
      read text = .ok writtenTable := by
  intro text
  have hpos : writtenTable.HasPositiveRates := hasPositiveRates_of_all (by decide +kernel)
  have htext : (textJson writtenTable).written = text := by decide +kernel
  have hwrites : Writes AsText writtenTable text := htext ▸ writes_textJson writtenTable
  obtain ⟨-, hread⟩ := read_written writtenTable hpos
  exact ⟨hpos, hwrites, hread text hwrites⟩

end Cambist.Settings
