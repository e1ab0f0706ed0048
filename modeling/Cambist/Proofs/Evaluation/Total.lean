import Cambist.Amount
import Mathlib.Tactic.Common

/-!
# Totals

Amounts in one currency are summed up from the right: the last one is the total to begin with, and
every other one is added to the left of the total behind it. Either all these additions are
possible, or there is a first one whose sum is no decimal.
-/

namespace Cambist

variable {left right a s total : Amount} {as : List Amount} {u : String} {e : EvaluationError}

/-! ### One addition -/

lemma Amount.currency_add (h : left.add right = .ok s) : s.currency = left.currency := by
  unfold Amount.add at h
  split_ifs at h
  split at h
  · cases h
    rfl
  · cases h

lemma Amount.currency_eq_of_add (h : left.add right = .ok s) : left.currency = right.currency := by
  by_contra hne
  rw [Amount.add, if_neg hne] at h
  cases h

/-- In one currency an addition can only overflow. -/
lemma Amount.add_eq_error_iff (heq : left.currency = right.currency) :
    left.add right = .error e ↔
      left.value.add? right.value = none ∧ e = .overflow (.sum left.value right.value) := by
  rw [Amount.add, if_pos heq]
  cases left.value.add? right.value with
  | none => simp [eq_comm]
  | some v => simp

/-- An addition with its operands and its sum. -/
structure Addition where
  left : Amount
  right : Amount
  result : Amount
deriving DecidableEq

/-! ### Sums from the right -/

/-- The additions by which amounts are summed up from the right, and the total they come to. -/
inductive Sums : List Amount → List Addition → Amount → Prop where
  | last (a : Amount) : Sums [a] [] a
  | add {left right total : Amount} {rest : List Amount} {additions : List Addition}
      (h : Sums rest additions right) (hs : left.add right = .ok total) :
      Sums (left :: rest) (additions ++ [⟨left, right, total⟩]) total

/-- The first addition that is not possible, when amounts are summed up from the right. -/
def Overflows (as : List Amount) (e : EvaluationError) : Prop :=
  ∃ before left after additions right, as = before ++ left :: after ∧ Sums after additions right ∧
    left.value.add? right.value = none ∧ e = .overflow (.sum left.value right.value)

namespace Sums

variable {additions : List Addition}

lemma ne_nil (h : Sums as additions total) : as ≠ [] := by
  cases h <;> simp

@[simp] lemma singleton_iff : Sums [a] additions total ↔ additions = [] ∧ total = a := by
  constructor
  · intro h
    cases h with
    | last => exact ⟨rfl, rfl⟩
    | add h hs => exact absurd rfl h.ne_nil
  · rintro ⟨rfl, rfl⟩
    exact .last total

/-- In front of other amounts, an amount is added to their total. -/
lemma cons_iff (hne : as ≠ []) : Sums (a :: as) additions total ↔ ∃ others right,
    Sums as others right ∧ a.add right = .ok total ∧
      additions = others ++ [⟨a, right, total⟩] := by
  constructor
  · intro h
    cases h with
    | last => exact absurd rfl hne
    | add h hs => exact ⟨_, _, h, hs, rfl⟩
  · rintro ⟨others, right, h, hs, rfl⟩
    exact h.add hs

lemma currency_total (h : Sums as additions total) (hu : ∀ a ∈ as, a.currency = u) :
    total.currency = u := by
  cases h with
  | last => exact hu total List.mem_cons_self
  | add h hs => exact (Amount.currency_add hs).trans (hu _ List.mem_cons_self)

lemma length_additions (h : Sums as additions total) : additions.length + 1 = as.length := by
  induction h with
  | last a => rfl
  | add h hs ih => simp [ih]

lemma add_eq_ok (h : Sums as additions total) :
    ∀ s ∈ additions, s.left.add s.right = .ok s.result := by
  induction h with
  | last a => simp
  | add h hs ih =>
    intro s hmem
    rcases List.mem_append.mp hmem with hmem | hmem
    · exact ih s hmem
    · rw [List.mem_singleton.mp hmem]
      exact hs

lemma currency_additions (h : Sums as additions total) (hu : ∀ a ∈ as, a.currency = u) :
    ∀ s ∈ additions, s.left.currency = u ∧ s.right.currency = u ∧ s.result.currency = u := by
  induction h with
  | last a => simp
  | add h hs ih =>
    obtain ⟨hleft, hrest⟩ := List.forall_mem_cons.mp hu
    intro s hmem
    rcases List.mem_append.mp hmem with hmem | hmem
    · exact ih hrest s hmem
    · rw [List.mem_singleton.mp hmem]
      exact ⟨hleft, h.currency_total hrest, (Amount.currency_add hs).trans hleft⟩

/-! The operands of the additions. The additions run from right to left: the one with `j` others
before it adds the amount with `j + 1` others behind it. -/

lemma total_eq (h : Sums as additions total) :
    additions.getLast?.map Addition.result = some total ∨ additions = [] ∧ as = [total] := by
  cases h with
  | last => exact Or.inr ⟨rfl, rfl⟩
  | add h hs => exact Or.inl (by simp)

lemma result_of_last (h : Sums as additions total) {j : Nat} (hj : j < additions.length)
    (hlast : j + 1 = additions.length) : additions[j].result = total := by
  rcases h.total_eq with heq | ⟨rfl, -⟩
  · rw [List.getLast?_eq_getElem?, ← hlast, Nat.add_sub_cancel, List.getElem?_eq_getElem hj] at heq
    exact Option.some.inj heq
  · simp at hj

lemma left_getElem (h : Sums as additions total) {j : Nat} (hj : j < additions.length) :
    as[as.length - 2 - j]? = some additions[j].left := by
  induction h with
  | last a => simp at hj
  | @add left right total rest others h hs ih =>
    have hlen := h.length_additions
    rw [List.length_append, List.length_singleton] at hj
    rw [List.length_cons]
    by_cases hlt : j < others.length
    · have hidx : rest.length + 1 - 2 - j = rest.length - 2 - j + 1 := by omega
      rw [hidx, List.getElem?_cons_succ, List.getElem_append_left hlt]
      exact ih hlt
    · obtain rfl : j = others.length := by omega
      have hidx : rest.length + 1 - 2 - others.length = 0 := by omega
      rw [hidx]
      simp

lemma right_getElem_zero (h : Sums as additions total) (hpos : 0 < additions.length) :
    as.getLast? = some additions[0].right := by
  induction h with
  | last a => simp at hpos
  | @add left right total rest others h hs ih =>
    rw [List.getLast?_cons_of_ne_nil h.ne_nil]
    by_cases hlt : 0 < others.length
    · rw [List.getElem_append_left hlt]
      exact ih hlt
    · obtain rfl := List.length_eq_zero_iff.mp (Nat.eq_zero_of_not_pos hlt)
      rcases h.total_eq with heq | ⟨-, rfl⟩
      · simp at heq
      · simp

lemma right_getElem_succ (h : Sums as additions total) {j : Nat}
    (hj : j + 1 < additions.length) : additions[j + 1].right = additions[j].result := by
  induction h with
  | last a => simp at hj
  | @add left right total rest others h hs ih =>
    rw [List.length_append, List.length_singleton] at hj
    have hfst : j < others.length := by omega
    rw [List.getElem_append_left hfst]
    by_cases hlt : j + 1 < others.length
    · rw [List.getElem_append_left hlt]
      exact ih hlt
    · have heq : j + 1 = others.length := by omega
      rw [h.result_of_last hfst heq, List.getElem_append_right (Nat.le_of_not_lt hlt)]
      simp [heq]

end Sums

/-- In front of other amounts, an amount overflows if they do, or in the addition to their total. -/
lemma overflows_cons_iff : Overflows (a :: as) e ↔ Overflows as e ∨ ∃ additions right,
    Sums as additions right ∧ a.value.add? right.value = none ∧
      e = .overflow (.sum a.value right.value) := by
  constructor
  · rintro ⟨before, left, after, additions, right, heq, hsum, hover⟩
    rcases before with _ | ⟨b, before⟩
    · cases heq
      exact Or.inr ⟨additions, right, hsum, hover⟩
    · cases heq
      exact Or.inl ⟨before, left, after, additions, right, rfl, hsum, hover⟩
  · rintro (⟨before, left, after, additions, right, rfl, hsum, hover⟩ |
      ⟨additions, right, hsum, hover⟩)
    · exact ⟨a :: before, left, after, additions, right, rfl, hsum, hover⟩
    · exact ⟨[], a, as, additions, right, rfl, hsum, hover⟩

lemma not_overflows_nil : ¬ Overflows [] e := by
  rintro ⟨before, left, after, additions, right, heq, -⟩
  simp at heq

/-- Amounts in one currency have a total, or an addition overflows. -/
lemma sums_or_overflows (hne : as ≠ []) (hu : ∀ a ∈ as, a.currency = u) :
    (∃ additions total, Sums as additions total) ∨ ∃ e, Overflows as e := by
  induction as with
  | nil => exact absurd rfl hne
  | cons a as ih =>
    by_cases has : as = []
    · subst has
      exact Or.inl ⟨[], a, .last a⟩
    · obtain ⟨ha, hu⟩ := List.forall_mem_cons.mp hu
      rcases ih has hu with ⟨additions, right, h⟩ | ⟨e, h⟩
      · cases hs : a.add right with
        | ok s => exact Or.inl ⟨_, s, h.add hs⟩
        | error e =>
          have heq : a.currency = right.currency := by rw [ha, h.currency_total hu]
          obtain ⟨hover, rfl⟩ := (Amount.add_eq_error_iff heq).mp hs
          exact Or.inr ⟨_, overflows_cons_iff.mpr (Or.inr ⟨additions, right, h, hover, rfl⟩)⟩
      · exact Or.inr ⟨e, overflows_cons_iff.mpr (Or.inl h)⟩

end Cambist
