import Cambist.Proofs.Evaluation.Exact
import Cambist.Proofs.Evaluation.Monotone
import Cambist.Proofs.Exchange

/-!
# Signs along an evaluation

With positive rates, no conversion turns a sign around, not even when the amount vanishes. So a term
is settled with the sign that it is written with, and the additions take up exactly these signs.
-/

namespace Cambist

variable {t : RateTable} {target u : String} {x : Term} {a b total : Amount} {r : Route}
  {xs : List Term} {as : List Amount} {routes : List Route} {additions : List Addition}
  {m : Move} {ms : List Move}

/-! ### Terms -/

lemma RateTable.HasPositiveRates.sign_of_convert (ht : t.HasPositiveRates)
    (h : t.convert a u = .ok b) : b.sign = a.sign :=
  RateTable.sign_of_convert (fun r hr => ht _ _ r hr) h

namespace Term

lemma Reaches.sign_eq (ht : t.HasPositiveRates) (h : x.Reaches t target a) :
    a.sign = x.entry.amount.sign := by
  cases h with
  | written => rfl
  | converted _ _ _ hb => exact ht.sign_of_convert hb

lemma Takes.sign_settled (ht : t.HasPositiveRates) (h : x.Takes t target r) :
    r.settled.sign = x.entry.amount.sign :=
  (ht.sign_of_convert h.settled).trans (h.reached.sign_eq ht)

lemma Takes.sign_of_mem_moves (ht : t.HasPositiveRates) (h : x.Takes t target r)
    (hmove : .converted a b ∈ r.moves) : a.sign = b.sign := by
  rcases List.mem_append.mp hmove with hhop | hhop
  · obtain ⟨-, heq⟩ := Amount.mem_hop_iff.mp hhop
    cases heq
    rw [h.written]
    exact (h.reached.sign_eq ht).symm
  · obtain ⟨-, heq⟩ := Amount.mem_hop_iff.mp hhop
    cases heq
    exact (ht.sign_of_convert h.settled).symm

end Term

/-! ### Left operands -/

/-- What an addition takes up, if this step is one. -/
def Step.left? : Step → Option Amount
  | .converted _ _ _        => none
  | .accumulated _ left _ _ => some left

/-- What an addition takes up, if this move is one. -/
def Move.left? (m : Move) : Option Amount := (m.step 0).left?

lemma Move.left?_step (i : Nat) (m : Move) : (m.step i).left? = m.left? := by
  cases m <;> rfl

lemma Move.filterMap_left?_numbered (i : Nat) (ms : List Move) :
    (numbered i ms).filterMap Step.left? = ms.filterMap Move.left? := by
  induction ms generalizing i with
  | nil => rfl
  | cons m ms ih =>
    rw [numbered_cons, List.filterMap_cons, List.filterMap_cons, left?_step, ih]

lemma Move.converted_mem_of_mem_numbered {i k : Nat} (h : .converted i a b ∈ numbered k ms) :
    .converted a b ∈ ms := by
  obtain ⟨m, hm, j, heq⟩ := exists_of_mem_numbered h
  cases m with
  | converted a' b' =>
    cases heq
    exact hm
  | accumulated left right s => cases heq

/-- The amounts that are summed up from the right are all taken up but the last one. -/
lemma Sums.map_left (h : Sums as additions total) :
    additions.map Addition.left = as.dropLast.reverse := by
  induction h with
  | last a => rfl
  | add h hs ih =>
    rw [List.map_append, ih, List.dropLast_cons_of_ne_nil h.ne_nil, List.reverse_cons]
    rfl

/-! ### Requests -/

/-- The steps of a computation keep the signs of these terms: a change of currency has the same sign
on both sides, and the additions take up the settled amounts of all terms but the last, from right
to left, with the signs that the terms are written with. -/
structure Computation.KeepsSigns (t : RateTable) (target : String) (xs : List Term)
    (comp : Computation) : Prop where
  converted : ∀ i a b, .converted i a b ∈ comp.steps → a.sign = b.sign
  left : List.Forall₂ (fun x a => x.SettlesTo t target a ∧ a.sign = x.entry.sign)
    xs.dropLast.reverse (comp.steps.toList.filterMap Step.left?)

lemma Term.sign_of_mem_flatMap_moves (ht : t.HasPositiveRates)
    (hr : List.Forall₂ (Takes t target) xs routes)
    (hmove : .converted a b ∈ routes.flatMap Route.moves) : a.sign = b.sign := by
  induction hr with
  | nil => cases hmove
  | cons h _ ih =>
    rcases List.mem_append.mp hmove with hmove | hmove
    · exact h.sign_of_mem_moves ht hmove
    · exact ih hmove

lemma Route.filterMap_left?_moves (routes : List Route) :
    (routes.flatMap Route.moves).filterMap Move.left? = [] := by
  rw [List.filterMap_eq_nil_iff]
  intro m hm
  obtain ⟨r, -, hm⟩ := List.mem_flatMap.mp hm
  obtain ⟨a, b, -, rfl⟩ := Route.converted_of_mem_moves hm
  rfl

lemma keepsSigns_of_takes (ht : t.HasPositiveRates)
    (hx : ∀ x ∈ xs, x.entry.literal.value.sign = .plus)
    (hr : List.Forall₂ (Term.Takes t target) xs routes)
    (hs : Sums (routes.map Route.settled) additions total) :
    Computation.KeepsSigns t target xs ⟨.ofAmount total,
      (Move.numbered 0 (routes.flatMap Route.moves ++ additions.map Addition.move)).toArray⟩ where
  converted := by
    intro i a b hmem
    have hmove := Move.converted_mem_of_mem_numbered (List.mem_toArray.mp hmem)
    rcases List.mem_append.mp hmove with hmove | hmove
    · exact Term.sign_of_mem_flatMap_moves ht hr hmove
    · obtain ⟨s, -, heq⟩ := List.mem_map.mp hmove
      cases heq
  left := by
    have hleft : (additions.map Addition.move).filterMap Move.left? =
        (routes.map Route.settled).dropLast.reverse := by
      rw [← hs.map_left, List.filterMap_map]
      exact congrFun (List.filterMap_eq_map (f := Addition.left)) additions
    rw [Move.filterMap_left?_numbered, List.filterMap_append, Route.filterMap_left?_moves,
      List.nil_append, hleft, List.forall₂_reverse_iff, List.dropLast_eq_take,
      List.dropLast_eq_take, List.length_map, ← hr.length_eq]
    refine List.forall₂_take _ (List.forall₂_map_right_iff.mpr ?_)
    refine ((List.forall₂_and_left xs routes).mpr ⟨hx, hr⟩).imp ?_
    rintro x r ⟨hplus, htakes⟩
    refine ⟨Term.settlesTo_iff.mpr ⟨r, htakes, rfl⟩, ?_⟩
    rw [htakes.sign_settled ht]
    exact Amount.sign_signed (.inr hplus) _ _

end Cambist
