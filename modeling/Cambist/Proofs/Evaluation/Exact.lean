import Cambist.Proofs.Evaluation.Explanation
import Mathlib.Algebra.BigOperators.Group.List.Basic
import Mathlib.Data.List.Perm.Basic

/-!
# Exact sums

Adding decimals may round, but it does not as long as the terms are small enough together. If the
absolute values of all settled terms, counted in units of the finest scale among them, add up to
less than `2 ^ 96`, then every total on the way is in range, whatever the signs and the order of the
terms, and the answer is the sum of the terms as rational numbers.
-/

namespace Cambist

variable {t : RateTable} {target : String} {x : Term} {xs : List Term} {left right a : Amount}
  {as bs : List Amount} {S : Nat}

/-! ### Adding amounts -/

namespace Amount

/-- The absolute value of an amount in units of `10 ^ (-s)`. -/
abbrev units (a : Amount) (s : Nat) : Nat := a.value.units s

/-- The largest scale of some amounts. -/
def finestScale (as : List Amount) : Nat := (as.map fun a => a.value.scale).foldr max 0

lemma scale_le_finestScale (h : a ∈ as) : a.value.scale ≤ finestScale as := by
  induction as with
  | nil => cases h
  | cons b as ih =>
    rw [finestScale, List.map_cons, List.foldr_cons]
    rcases List.mem_cons.mp h with rfl | h
    · exact le_max_left _ _
    · exact (ih h).trans (le_max_right _ _)

lemma finestScale_perm (h : as.Perm bs) : finestScale as = finestScale bs :=
  (h.map _).foldr_eq 0

lemma value_ofValue (v : Decimal) (u : String) : (ofValue v u).value = v.unsignZero := rfl

/-- If two amounts are together in range at some scale, then they are added exactly, and the sum has
no more units than they have. -/
lemma add_of_units_lt (heq : left.currency = right.currency) (hleft : left.value.scale ≤ S)
    (hright : right.value.scale ≤ S) (hlt : left.units S + right.units S < 2 ^ 96) :
    ∃ s, left.add right = .ok s ∧ s.value.scale ≤ S ∧ s.units S ≤ left.units S + right.units S ∧
      s.value.toRat = left.value.toRat + right.value.toRat := by
  obtain ⟨v, hv, hscale, hunits, hnum⟩ := Decimal.add?_of_units_lt hleft hright hlt
  refine ⟨.ofValue v left.currency, ?_, ?_, ?_, ?_⟩
  · rw [add, if_pos heq, hv]
  · rw [value_ofValue, Decimal.scale, Decimal.magnitude_unsignZero]
    exact hscale
  · rw [units, value_ofValue, Decimal.units, Decimal.magnitude_unsignZero]
    exact hunits
  · rw [value_ofValue, Decimal.toRat_unsignZero, hnum]

end Amount

/-- Is the result of an addition the sum of its operands, without rounding? -/
def Addition.Exact (s : Addition) : Prop :=
  s.result.value.toRat = s.left.value.toRat + s.right.value.toRat

/-- Amounts that are together in range are summed up exactly. Every total on the way is in range,
since it has no more units than the amounts behind it. -/
lemma sums_of_units_lt (hne : as ≠ []) (hu : ∀ a ∈ as, a.currency = target)
    (hS : ∀ a ∈ as, a.value.scale ≤ S) (hlt : (as.map (Amount.units · S)).sum < 2 ^ 96) :
    ∃ additions total, Sums as additions total ∧ (∀ s ∈ additions, s.Exact) ∧
      total.value.scale ≤ S ∧ total.units S ≤ (as.map (Amount.units · S)).sum ∧
      total.value.toRat = (as.map fun a => a.value.toRat).sum := by
  induction as with
  | nil => exact absurd rfl hne
  | cons a as ih =>
    obtain ⟨ha, hu⟩ := List.forall_mem_cons.mp hu
    obtain ⟨haS, hS⟩ := List.forall_mem_cons.mp hS
    rw [List.map_cons, List.sum_cons] at hlt
    by_cases has : as = []
    · subst has
      exact ⟨[], a, .last a, by simp, haS, by simp, by simp⟩
    · obtain ⟨additions, right, hsum, hexact, hright, hle, hnum⟩ := ih has hu hS (by omega)
      have heq : a.currency = right.currency := by rw [ha, hsum.currency_total hu]
      obtain ⟨s, hs, hscale, hunits, hrat⟩ := Amount.add_of_units_lt heq haS hright (by omega)
      refine ⟨_, s, hsum.add hs, ?_, hscale, ?_, ?_⟩
      · intro s' hmem
        rcases List.mem_append.mp hmem with hmem | hmem
        · exact hexact s' hmem
        · rw [List.mem_singleton.mp hmem]
          exact hrat
      · rw [List.map_cons, List.sum_cons]
        exact hunits.trans (Nat.add_le_add_left hle _)
      · rw [List.map_cons, List.sum_cons, hrat, hnum]

/-! ### Evaluating requests -/

/-- A term is evaluated and converted to the target without an error, and comes to this amount. -/
def Term.SettlesTo (t : RateTable) (target : String) (x : Term) (a : Amount) : Prop :=
  (Evaluation.settle x { table := t, target := some target }).1 = .ok a

lemma Term.settlesTo_iff :
    x.SettlesTo t target a ↔ ∃ r : Route, x.Takes t target r ∧ r.settled = a := by
  let c : Context := { table := t, target := some target }
  have htakes {r : Route} (h : x.Takes t target r) : (Evaluation.settle x c).1 = .ok r.settled := by
    rw [Evaluation.settle_of_takes (c := c) rfl h]
  constructor
  · intro h
    rcases x.takes_or_fails t target with ⟨r, hr⟩ | ⟨e, he⟩
    · have heq : Except.ok r.settled = .ok a := (htakes hr).symm.trans h
      exact ⟨r, hr, Except.ok.inj heq⟩
    · obtain ⟨ms, hms⟩ := Evaluation.settle_of_fails (c := c) rfl he
      have heq : Except.error e = .ok a := (congrArg Prod.fst hms).symm.trans h
      cases heq
  · rintro ⟨r, hr, rfl⟩
    exact htakes hr

lemma Term.exists_routes (h : List.Forall₂ (Term.SettlesTo t target) xs as) :
    ∃ routes, List.Forall₂ (Term.Takes t target) xs routes ∧ routes.map Route.settled = as := by
  induction h with
  | nil => exact ⟨[], .nil, rfl⟩
  | cons hx _ ih =>
    obtain ⟨r, hr, rfl⟩ := Term.settlesTo_iff.mp hx
    obtain ⟨routes, hrs, rfl⟩ := ih
    exact ⟨r :: routes, .cons hr hrs, rfl⟩

/-- Are all additions among these steps exact? -/
def ExactSteps (steps : Array Step) : Prop :=
  ∀ i left right s, .accumulated i left right s ∈ steps →
    s.value.toRat = left.value.toRat + right.value.toRat

lemma exactSteps_of_additions {ms : List Move} {additions : List Addition}
    (hms : ∀ m ∈ ms, ∃ a b, m = .converted a b) (hexact : ∀ s ∈ additions, s.Exact) :
    ExactSteps (Move.numbered 0 (ms ++ additions.map Addition.move)).toArray := by
  intro i left right s hmem
  obtain ⟨m, hm, k, heq⟩ := Move.exists_of_mem_numbered (List.mem_toArray.mp hmem)
  rcases List.mem_append.mp hm with hm | hm
  · obtain ⟨a, b, rfl⟩ := hms m hm
    cases heq
  · obtain ⟨s', hs', rfl⟩ := List.mem_map.mp hm
    cases heq
    exact hexact s' hs'

namespace RateTable

variable {r : Request}

/-- A request whose settled terms are together in range evaluates to their exact sum. -/
lemma evaluate_of_units_lt (hT : t.resolve? r.target.name = some target)
    (has : List.Forall₂ (Term.SettlesTo t target) r.expression.terms as)
    (hlt : (as.map (Amount.units · (Amount.finestScale as))).sum < 2 ^ 96) :
    ∃ comp, t.evaluate r = .ok comp ∧
      comp.answer.value.toRat = (as.map fun a => a.value.toRat).sum ∧ ExactSteps comp.steps := by
  obtain ⟨routes, hroutes, rfl⟩ := Term.exists_routes has
  have hne : routes.map Route.settled ≠ [] := by
    cases hroutes
    simp
  obtain ⟨additions, total, hsum, hexact, -, -, hnum⟩ := sums_of_units_lt hne
    (Term.currency_settled_of_takes hroutes) (fun _ => Amount.scale_le_finestScale) hlt
  refine ⟨_, Evaluation.request_of_evaluates (.intro hT hroutes hsum), ?_, ?_⟩
  · rw [Answer.toRat_ofAmount, hnum]
  · refine exactSteps_of_additions ?_ hexact
    intro m hm
    obtain ⟨route, -, hm⟩ := List.mem_flatMap.mp hm
    obtain ⟨a, b, -, rfl⟩ := Route.converted_of_mem_moves hm
    exact ⟨a, b, rfl⟩

/-- If the settled terms of a request are together in range, counted in units of the finest scale
among them, then the request evaluates to their sum as rational numbers, and no addition on the way
rounds. So does every request with the same terms in another order. -/
theorem evaluate_eq_sum (hT : t.resolve? r.target.name = some target)
    (has : List.Forall₂ (Term.SettlesTo t target) r.expression.terms as)
    (hlt : (as.map (Amount.units · (Amount.finestScale as))).sum < 2 ^ 96) :
    (∃ comp, t.evaluate r = .ok comp ∧
      comp.answer.value.toRat = (as.map fun a => a.value.toRat).sum ∧ ExactSteps comp.steps) ∧
    ∀ r' : Request, r'.target.name = r.target.name →
      r'.expression.terms.Perm r.expression.terms →
        ∃ comp, t.evaluate r' = .ok comp ∧
          comp.answer.value.toRat = (as.map fun a => a.value.toRat).sum ∧
            ExactSteps comp.steps := by
  refine ⟨evaluate_of_units_lt hT has hlt, ?_⟩
  intro r' hname hperm
  obtain ⟨bs, hbs, hbas⟩ := List.perm_comp_forall₂ hperm has
  have hsum : (bs.map fun a => a.value.toRat).sum = (as.map fun a => a.value.toRat).sum :=
    (hbas.map _).sum_eq
  rw [← hsum]
  apply evaluate_of_units_lt (hname ▸ hT) hbs
  rw [Amount.finestScale_perm hbas, (hbas.map _).sum_eq]
  exact hlt

/-- Rubles that pass through another currency, for examples. -/
def sampleRubles : Term := ⟨⟨.plus, ⟨.ofUnits 300 0, "RUB"⟩, 5⟩, some ⟨"eur", 12⟩⟩

/-- Two and a half euros to be taken away, for examples. -/
def sampleEuros : Term := ⟨⟨.minus, ⟨.ofUnits 25 1, "EUR"⟩, 16⟩, none⟩

/-- What the sample terms come to in dollars. -/
def sampleDollars : List Amount := [⟨.ofUnits 2700 3, "USD"⟩, ⟨-.ofUnits 225 2, "USD"⟩]

/-- The settled terms `2.700` and `-2.25` have 4950 units of their finest scale together. They sum
up to `0.45`, in both orders. -/
theorem evaluate_eq_sum_sample :
    let r : Request := ⟨⟨"usd", 0⟩, ⟨sampleRubles, [sampleEuros]⟩⟩
    let r' : Request := ⟨⟨"usd", 0⟩, ⟨sampleEuros, [sampleRubles]⟩⟩
    List.Forall₂ (Term.SettlesTo .sample "USD") r.expression.terms sampleDollars ∧
      (sampleDollars.map (Amount.units · (Amount.finestScale sampleDollars))).sum = 4950 ∧
      (∃ comp, sample.evaluate r = .ok comp ∧ comp.answer.value.toRat = 9 / 20) ∧
      ∃ comp, sample.evaluate r' = .ok comp ∧ comp.answer.value.toRat = 9 / 20 := by
  intro r r'
  have has : List.Forall₂ (Term.SettlesTo .sample "USD") r.expression.terms sampleDollars := by
    refine .cons ?_ (.cons ?_ .nil)
    · rw [Term.SettlesTo]
      decide +kernel
    · rw [Term.SettlesTo]
      decide +kernel
  have hunits : (sampleDollars.map (Amount.units · (Amount.finestScale sampleDollars))).sum =
      4950 := by decide
  have hnum : (sampleDollars.map fun a => a.value.toRat).sum = 9 / 20 := by decide +kernel
  obtain ⟨⟨comp, h, hvalue, -⟩, hperm⟩ := evaluate_eq_sum (t := .sample) (r := r)
    (by decide +kernel) has (hunits ▸ by decide)
  obtain ⟨comp', h', hvalue', -⟩ := hperm r' rfl (List.Perm.swap _ _ _)
  exact ⟨has, hunits, ⟨comp, h, hvalue.trans hnum⟩, comp', h', hvalue'.trans hnum⟩

end RateTable

end Cambist
