import Cambist.Proofs.Decimal.Value
import Cambist.RateTable
import Mathlib.Data.Finset.Card
import Mathlib.Data.List.Induction

/-!
# Rate tables

The rates of a table lie in a map of maps. All the same, a table that is built up by single updates
behaves as two flat maps, one from ordered pairs of currencies to rates and one from directives to
currencies, in which every key has the value of its last update. No row of such a table is empty,
and so two of them are equal just if they give the same answers.
-/

namespace Cambist

open Std (ExtTreeMap)

namespace RateTable

variable {t u : RateTable} {a b name : String}

/-! ### Entries -/

lemma mem_entries_iff {r : Decimal} : (a, b, r) ∈ t.entries ↔ t.rate? a b = some r := by
  simp only [entries, List.mem_flatMap, List.mem_map, Prod.mk.injEq, Prod.exists, rate?,
    Option.bind_eq_some_iff, ExtTreeMap.mem_toList_iff_getElem?_eq_some]
  constructor
  · rintro ⟨a', row, ha, b', r', hb, rfl, rfl, rfl⟩
    exact ⟨row, ha, hb⟩
  · rintro ⟨row, ha, hb⟩
    exact ⟨a, row, ha, b, r, hb, rfl, rfl, rfl⟩

/-- No ordered pair has two entries. -/
lemma nodup_entries (t : RateTable) : (t.entries.map fun e => (e.1, e.2.1)).Nodup := by
  rw [entries, List.map_flatMap, List.nodup_flatMap]
  constructor
  · intro row _
    have hkeys : (row.2.toList.map Prod.fst).Nodup := by
      rw [ExtTreeMap.map_fst_toList_eq_keys]
      exact ExtTreeMap.nodup_keys
    have hpairs := hkeys.map (Prod.mk_right_injective row.1)
    rw [List.map_map] at hpairs ⊢
    exact hpairs
  · refine t.rates.distinct_keys_toList.imp fun {row row'} hne pair hpair hpair' => hne ?_
    simp only [List.map_map, List.mem_map, Function.comp_apply] at hpair hpair'
    obtain ⟨e, -, rfl⟩ := hpair
    obtain ⟨e', -, heq⟩ := hpair'
    rw [← congrArg Prod.fst heq]
    exact Std.ReflCmp.compare_self

/-! ### Rows -/

/-- Has every currency in the table a rate? -/
def HasNoEmptyRow (t : RateTable) : Prop := ∀ a : String, t.rates[a]? ≠ some ∅

/-- Without empty rows a currency is in the table just if one of its rates is. -/
lemma HasNoEmptyRow.getElem?_eq_none_iff (ht : t.HasNoEmptyRow) (a : String) :
    t.rates[a]? = none ↔ ∀ b, t.rate? a b = none := by
  constructor
  · intro ha b
    rw [rate?, ha, Option.bind_none]
  · intro hrate
    cases ha : t.rates[a]? with
    | none => rfl
    | some row =>
      refine absurd (ha.trans (congrArg some ?_)) (ht a)
      apply ExtTreeMap.ext_getElem?
      intro b
      have hb := hrate b
      rw [rate?, ha, Option.bind_some] at hb
      rw [hb, ExtTreeMap.getElem?_empty]

/-- The rows of tables without empty rows agree if their rates do, of which only a part `f` may
count. -/
lemma HasNoEmptyRow.map_getElem?_eq {β : Type} {f : Decimal → β} (ht : t.HasNoEmptyRow)
    (hu : u.HasNoEmptyRow) (h : ∀ a b, (t.rate? a b).map f = (u.rate? a b).map f) (a : String) :
    (t.rates[a]?.map fun row (b : String) => row[b]?.map f) =
      u.rates[a]?.map fun row (b : String) => row[b]?.map f := by
  have hnone : t.rates[a]? = none ↔ u.rates[a]? = none := by
    rw [ht.getElem?_eq_none_iff, hu.getElem?_eq_none_iff]
    refine forall_congr' fun b => ?_
    rw [← Option.map_eq_none_iff (f := f), h a b, Option.map_eq_none_iff]
  have hrow := h a
  simp only [rate?] at hrow
  cases ha : t.rates[a]? with
  | none => rw [hnone.mp ha]
  | some row =>
    cases ha' : u.rates[a]? with
    | none =>
      rw [hnone.mpr ha'] at ha
      cases ha
    | some row' =>
      rw [ha, ha'] at hrow
      exact congrArg some (funext hrow)

/-- Tables without empty rows are the same if they give the same answers. -/
lemma HasNoEmptyRow.eq (ht : t.HasNoEmptyRow) (hu : u.HasNoEmptyRow)
    (hrate : ∀ a b, t.rate? a b = u.rate? a b)
    (hresolve : ∀ name, t.resolve? name = u.resolve? name) : t = u := by
  have hrates : t.rates = u.rates := by
    apply ExtTreeMap.ext_getElem?
    intro a
    have hrow := ht.map_getElem?_eq (f := id) hu (fun a b => by rw [hrate a b]) a
    refine Option.map_injective (fun row row' h => ?_) hrow
    apply ExtTreeMap.ext_getElem?
    intro b
    simpa using congrFun h b
  have hdirectives : t.directives = u.directives := ExtTreeMap.ext_getElem? hresolve
  cases t
  cases u
  cases hrates
  cases hdirectives
  rfl

/-! ### Equality -/

/-- Do two tables give the same answer to every question, with rates taken as numbers? -/
structure AnswersAlike (t u : RateTable) : Prop where
  rate : ∀ a b, (t.rate a b).map Decimal.toRat = (u.rate a b).map Decimal.toRat
  resolve : ∀ name, t.resolve? name = u.resolve? name

lemma map_rate_eq_iff {β : Type} {f : Decimal → β} :
    (t.rate a b).map f = (u.rate a b).map f ↔ (t.rate? a b).map f = (u.rate? a b).map f := by
  rw [rate, rate]
  cases t.rate? a b <;> cases u.rate? a b <;> simp [Except.map]

/-- Maps have the same entries, of whose values only a part `f` counts, just if they are looked up
alike. -/
lemma map_toList_eq_iff {α β : Type} (m n : ExtTreeMap String α) (f : α → β) :
    (m.toList.map fun e => (e.1, f e.2)) = (n.toList.map fun e => (e.1, f e.2)) ↔
      ∀ k : String, m[k]?.map f = n[k]?.map f := by
  rw [← ExtTreeMap.toList_map (f := fun _ => f), ← ExtTreeMap.toList_map (f := fun _ => f),
    ExtTreeMap.toList_inj, ExtTreeMap.ext_getElem?_iff]
  simp only [ExtTreeMap.getElem?_map]

lemma numbers_eq_iff : equals.numbers t = equals.numbers u ↔ ∀ a : String,
    (t.rates[a]?.map fun row (b : String) => row[b]?.map Decimal.toRat) =
      u.rates[a]?.map fun row (b : String) => row[b]?.map Decimal.toRat := by
  have hnumbers (t : RateTable) : equals.numbers t =
      t.rates.toList.map fun e => (e.1, e.2.toList.map fun e => (e.1, e.2.toRat)) := rfl
  rw [hnumbers, hnumbers, map_toList_eq_iff t.rates u.rates fun row =>
    row.toList.map fun e => (e.1, e.2.toRat)]
  refine forall_congr' fun a => ?_
  cases t.rates[a]? <;> cases u.rates[a]? <;> simp [map_toList_eq_iff, funext_iff]

/-- Tables without empty rows are equal just if they answer alike. -/
lemma HasNoEmptyRow.equals_iff (ht : t.HasNoEmptyRow) (hu : u.HasNoEmptyRow) :
    t.equals u = true ↔ t.AnswersAlike u := by
  have hdirectives : t.directives = u.directives ↔ ∀ name, t.resolve? name = u.resolve? name :=
    ExtTreeMap.ext_getElem?_iff
  rw [equals, Bool.and_eq_true, decide_eq_true_iff, decide_eq_true_iff, hdirectives, numbers_eq_iff]
  constructor
  · rintro ⟨hrows, hresolve⟩
    refine ⟨fun a b => map_rate_eq_iff.mpr ?_, hresolve⟩
    have hrow := congrArg (Option.bind · fun row => row b) (hrows a)
    rw [Option.bind_map, Option.bind_map] at hrow
    rw [rate?, rate?, Option.map_bind, Option.map_bind]
    exact hrow
  · rintro ⟨hrate, hresolve⟩
    exact ⟨ht.map_getElem?_eq hu fun a b => map_rate_eq_iff.mp (hrate a b), hresolve⟩

/-- A currency without rates is no answer to anything, and yet it tells tables apart. -/
example : (⟨.ofList [("EUR", ∅)], ∅⟩ : RateTable).equals empty = false := by decide +kernel

/-! ### Updates -/

/-- A single change to a table. -/
inductive Update where
  | rate (source target : String) (value : Decimal)
  | directive (name currency : String)

namespace Update

/-- What an update is about: an ordered pair of currencies, or a directive. -/
inductive Key where
  | pair (source target : String)
  | directive (name : String)
deriving DecidableEq

def key : Update → Key
  | rate source target _ => .pair source target
  | directive name _     => .directive name

/-- The table with an update made. -/
def apply (t : RateTable) : Update → RateTable
  | rate source target value => t.withRate source target value
  | directive name currency  => t.withDirective name currency

/-- The rate that an update gives to an ordered pair, if it is about that. -/
def rateOf? (a b : String) : Update → Option Decimal
  | rate source target value => if source = a ∧ target = b then some value else none
  | directive _ _            => none

/-- The currency that an update gives to a directive, if it is about that. -/
def currencyOf? (name : String) : Update → Option String
  | rate _ _ _             => none
  | directive set currency => if set = name then some currency else none

/-- The directive that an update is about. -/
def name? : Update → Option String
  | rate _ _ _       => none
  | directive name _ => some name

lemma rateOf?_of_key_ne {x : Update} (h : x.key ≠ .pair a b) : x.rateOf? a b = none := by
  cases x with
  | rate source target value => simpa [key, rateOf?] using h
  | directive name currency => rfl

lemma currencyOf?_of_key_ne {x : Update} (h : x.key ≠ .directive name) :
    x.currencyOf? name = none := by
  cases x with
  | rate source target value => rfl
  | directive set currency => simpa [key, currencyOf?] using h

lemma isSome_currencyOf?_iff {x : Update} :
    (x.currencyOf? name).isSome ↔ x.name? = some name := by
  cases x with
  | rate source target value => simp [currencyOf?, name?]
  | directive set currency => simp [currencyOf?, name?]

lemma rate?_apply (x : Update) : (x.apply t).rate? a b = (x.rateOf? a b).or (t.rate? a b) := by
  cases x with
  | rate source target value =>
    rw [apply, rateOf?, rate?_withRate]
    split <;> rfl
  | directive name currency => rfl

lemma resolve?_apply (x : Update) :
    (x.apply t).resolve? name = (x.currencyOf? name).or (t.resolve? name) := by
  cases x with
  | rate source target value => rfl
  | directive set currency =>
    rw [apply, currencyOf?, resolve?, withDirective, ExtTreeMap.getElem?_insert]
    by_cases h : set = name
    · simp [h]
    · simp [h, resolve?]

lemma hasNoEmptyRow_apply (ht : t.HasNoEmptyRow) (x : Update) : (x.apply t).HasNoEmptyRow := by
  cases x with
  | rate source target value =>
    intro a
    rw [apply, withRate, ExtTreeMap.getElem?_alter]
    split
    · simp
    · exact ht a
  | directive name currency => exact ht

end Update

/-- The table that is built up by updates, one after the other. -/
def ofUpdates (us : List Update) : RateTable := us.foldl Update.apply empty

variable {us vs : List Update}

lemma ofUpdates_concat (us : List Update) (x : Update) :
    ofUpdates (us ++ [x]) = x.apply (ofUpdates us) := by
  rw [ofUpdates, List.foldl_append]
  rfl

lemma hasNoEmptyRow_ofUpdates (us : List Update) : (ofUpdates us).HasNoEmptyRow := by
  induction us using List.reverseRecOn with
  | nil =>
    intro a h
    simp [ofUpdates, empty] at h
  | append_singleton us x ih =>
    rw [ofUpdates_concat]
    exact Update.hasNoEmptyRow_apply ih x

/-! ### The last update counts -/

/-- The rate in the last update of an ordered pair. -/
def lastRate? (us : List Update) (a b : String) : Option Decimal :=
  (us.filterMap (Update.rateOf? a b)).getLast?

/-- The currency in the last update of a directive. -/
def lastCurrency? (us : List Update) (name : String) : Option String :=
  (us.filterMap (Update.currencyOf? name)).getLast?

/-- A look-up that every update either settles or leaves alone is as the last update has it that
settles it. -/
lemma lookup_ofUpdates {α : Type} {g : RateTable → Option α} {f : Update → Option α}
    (hempty : g empty = none) (happly : ∀ t x, g (Update.apply t x) = (f x).or (g t))
    (us : List Update) : g (ofUpdates us) = (us.filterMap f).getLast? := by
  induction us using List.reverseRecOn with
  | nil => exact hempty
  | append_singleton us x ih =>
    rw [ofUpdates_concat, happly, ih, List.filterMap_append, List.getLast?_append]
    cases h : f x <;> simp [h]

lemma rate?_ofUpdates (us : List Update) (a b : String) :
    (ofUpdates us).rate? a b = lastRate? us a b := by
  refine lookup_ofUpdates (g := (·.rate? a b)) ?_ (fun t x => x.rate?_apply) us
  simp [empty, rate?]

lemma resolve?_ofUpdates (us : List Update) (name : String) :
    (ofUpdates us).resolve? name = lastCurrency? us name := by
  refine lookup_ofUpdates (g := (·.resolve? name)) ?_ (fun t x => x.resolve?_apply) us
  simp [empty, resolve?]

lemma mem_directives_ofUpdates (us : List Update) (name : String) :
    name ∈ (ofUpdates us).directives ↔ name ∈ us.filterMap Update.name? := by
  have hlast : (ofUpdates us).directives[name]? = lastCurrency? us name :=
    resolve?_ofUpdates us name
  rw [ExtTreeMap.mem_iff_isSome_getElem?, hlast, lastCurrency?, List.getLast?_isSome, Ne,
    List.filterMap_eq_nil_iff]
  simp [← Update.isSome_currencyOf?_iff, Option.isSome_iff_ne_none]

lemma directiveCount_ofUpdates (us : List Update) :
    (ofUpdates us).directiveCount = (us.filterMap Update.name?).toFinset.card := by
  rw [directiveCount, ← ExtTreeMap.length_keys, ← List.toFinset_card_of_nodup ExtTreeMap.nodup_keys]
  congr 1
  ext name
  rw [List.mem_toFinset, List.mem_toFinset, ExtTreeMap.mem_keys, mem_directives_ofUpdates]

/-! ### Reordering -/

/-- Are these the same updates in another order, those of each key in the same one? -/
def Reorders (us vs : List Update) : Prop :=
  ∀ k : Update.Key, us.filter (·.key = k) = vs.filter (·.key = k)

/-- Neighbours with different keys may change places. -/
lemma reorders_swap {x y : Update} (h : x.key ≠ y.key) (us vs : List Update) :
    Reorders (us ++ x :: y :: vs) (us ++ y :: x :: vs) := by
  intro k
  by_cases hx : x.key = k
  · have hy : ¬ y.key = k := fun hy => h (hx.trans hy.symm)
    simp [hx, hy]
  · simp [List.filter_cons, hx]

/-- What only updates of one key say stays the same. -/
lemma Reorders.filterMap_eq {α : Type} {f : Update → Option α} {k : Update.Key}
    (h : Reorders us vs) (hf : ∀ x, x.key ≠ k → f x = none) : us.filterMap f = vs.filterMap f := by
  have hfilter (us : List Update) : us.filterMap f = (us.filter (·.key = k)).filterMap f := by
    rw [List.filterMap_filter]
    congr
    funext x
    by_cases hx : x.key = k
    · simp [hx]
    · simp [hx, hf x hx]
  rw [hfilter us, hfilter vs, h k]

lemma ofUpdates_eq_of_reorders (h : Reorders us vs) : ofUpdates us = ofUpdates vs := by
  apply (hasNoEmptyRow_ofUpdates us).eq (hasNoEmptyRow_ofUpdates vs)
  · intro a b
    rw [rate?_ofUpdates, rate?_ofUpdates, lastRate?, lastRate?,
      h.filterMap_eq fun _ => Update.rateOf?_of_key_ne]
  · intro name
    rw [resolve?_ofUpdates, resolve?_ofUpdates, lastCurrency?, lastCurrency?,
      h.filterMap_eq fun _ => Update.currencyOf?_of_key_ne]

/-! ### Two flat maps -/

/-- A table is two flat maps, in which every key has the value of its last update. -/
structure IsFlat (t : RateTable) (us : List Update) : Prop where
  rate : ∀ a b, t.rate a b = (lastRate? us a b).elim (.error (.missingRate a b)) .ok
  resolve? : ∀ name, t.resolve? name = lastCurrency? us name
  nodup_entries : (t.entries.map fun e => (e.1, e.2.1)).Nodup
  mem_entries : ∀ a b r, (a, b, r) ∈ t.entries ↔ lastRate? us a b = some r
  directiveCount : t.directiveCount = (us.filterMap Update.name?).toFinset.card

lemma isFlat_ofUpdates (us : List Update) : IsFlat (ofUpdates us) us where
  rate a b := by
    rw [rate, rate?_ofUpdates]
    cases lastRate? us a b <;> rfl
  resolve? := resolve?_ofUpdates us
  nodup_entries := nodup_entries _
  mem_entries a b r := by rw [mem_entries_iff, rate?_ofUpdates]
  directiveCount := directiveCount_ofUpdates us

/-- However its updates are mixed, a table is two flat maps of what was last set. Two such tables
are equal just if they answer alike, and updates with different keys may come in any order. -/
theorem ofUpdates_flat (us : List Update) :
    IsFlat (ofUpdates us) us ∧ ∀ vs : List Update,
      ((ofUpdates us).equals (ofUpdates vs) = true ↔ (ofUpdates us).AnswersAlike (ofUpdates vs)) ∧
        (Reorders us vs → ofUpdates us = ofUpdates vs) := by
  refine ⟨isFlat_ofUpdates us, fun vs => ⟨?_, ofUpdates_eq_of_reorders⟩⟩
  exact (hasNoEmptyRow_ofUpdates us).equals_iff (hasNoEmptyRow_ofUpdates vs)

/-- Updates for examples: a rate is set twice, and its reverse in between. -/
def sampleUpdates : List Update :=
  [.rate "EUR" "USD" (.ofUnits 11 1), .directive "usd" "EUR", .rate "USD" "EUR" (.ofUnits 9 1),
    .rate "EUR" "USD" (.ofUnits 110 2), .directive "usd" "USD"]

/-- The same updates, with the reverse rate set behind the two others. -/
def sampleReordering : List Update :=
  [.rate "EUR" "USD" (.ofUnits 11 1), .directive "usd" "EUR", .rate "EUR" "USD" (.ofUnits 110 2),
    .rate "USD" "EUR" (.ofUnits 9 1), .directive "usd" "USD"]

theorem ofUpdates_flat_sample : Reorders sampleUpdates sampleReordering ∧
    IsFlat (ofUpdates sampleUpdates) sampleUpdates ∧
      ofUpdates sampleUpdates = ofUpdates sampleReordering := by
  have hreorders : Reorders sampleUpdates sampleReordering :=
    reorders_swap (by decide) [_, _] [_]
  obtain ⟨hflat, hreordering⟩ := ofUpdates_flat sampleUpdates
  exact ⟨hreorders, hflat, (hreordering _).2 hreorders⟩

end RateTable

end Cambist
