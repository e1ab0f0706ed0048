import Cambist.Proofs.Evaluation.Account

/-!
# Routes of terms

A term is written in one currency and settled in the currency of the answer; a directive of its own
leads through a third one. The amounts on this way are the route of the term, and every change of
currency on it is a step of the account. A term without a route fails for exactly one of four
reasons.
-/

namespace Cambist

variable {t : RateTable} {target : String} {x : Term} {a b : Amount} {e : EvaluationError}

namespace Term

/-! ### Routes -/

/-- What a term comes to by itself: the amount that is written, or its conversion by the directive
of the term, which an amount in the target currency must not have. -/
inductive Reaches (t : RateTable) (target : String) (x : Term) : Amount → Prop where
  | written (hd : x.conversion = none) : Reaches t target x x.entry.amount
  | converted {d : Directive} {u : String} {b : Amount} (hd : x.conversion = some d)
      (hne : x.entry.amount.currency ≠ target) (hu : t.resolve? d.name = some u)
      (hb : t.convert x.entry.amount u = .ok b) : Reaches t target x b

/-- By a directive of its own, a term reaches the currency that the directive stands for. -/
lemma Reaches.resolve_eq (h : x.Reaches t target a) :
    ∀ d ∈ x.conversion, t.resolve? d.name = some a.currency := by
  intro d hd
  cases h with
  | written hnone =>
    rw [hnone] at hd
    cases hd
  | converted hsome hne hu hb =>
    rw [hsome] at hd
    cases hd
    rw [hu, RateTable.currency_of_convert hb]

end Term

/-- The amounts on the way of a term: as it is written, what it reaches by itself, and in the
currency of the answer. -/
structure Route where
  written : Amount
  reached : Amount
  settled : Amount
deriving DecidableEq

/-- The moves of a route, one for every change of currency. -/
def Route.moves (r : Route) : List Move := r.written.hop r.reached ++ r.reached.hop r.settled

/-- The moves of a route are changes of currency. -/
lemma Route.converted_of_mem_moves {r : Route} {m : Move} (h : m ∈ r.moves) :
    ∃ a b : Amount, a.currency ≠ b.currency ∧ m = .converted a b := by
  rcases List.mem_append.mp h with h | h
  · exact ⟨_, _, Amount.mem_hop_iff.mp h⟩
  · exact ⟨_, _, Amount.mem_hop_iff.mp h⟩

namespace Term

/-- A term takes a route to the currency of the answer. -/
structure Takes (t : RateTable) (target : String) (x : Term) (r : Route) : Prop where
  written : r.written = x.entry.amount
  reached : x.Reaches t target r.reached
  settled : t.convert r.reached target = .ok r.settled

lemma Takes.currency_settled {r : Route} (h : x.Takes t target r) : r.settled.currency = target :=
  RateTable.currency_of_convert h.settled

/-! ### Failures -/

/-- Why a term cannot be settled. -/
inductive Fails (t : RateTable) (target : String) (x : Term) : EvaluationError → Prop where
  | selfConversion {d : Directive} (hd : x.conversion = some d)
      (heq : x.entry.amount.currency = target) :
      Fails t target x (.selfConversion x.entry.amount.currency x.entry.position)
  | unknownDirective {d : Directive} (hd : x.conversion = some d)
      (hne : x.entry.amount.currency ≠ target) (hu : t.resolve? d.name = none) :
      Fails t target x (.unknownDirective d.name d.position)
  | refusedByDirective {d : Directive} {u : String} {e : EvaluationError}
      (hd : x.conversion = some d) (hne : x.entry.amount.currency ≠ target)
      (hu : t.resolve? d.name = some u) (he : t.Refuses x.entry.amount u e) : Fails t target x e
  | refusedByTarget {a : Amount} {e : EvaluationError} (ha : x.Reaches t target a)
      (he : t.Refuses a target e) : Fails t target x e

/-- What is reached is settled, or the conversion to the target is refused. -/
lemma Reaches.takes_or_fails (h : x.Reaches t target a) :
    (∃ r, x.Takes t target r) ∨ ∃ e, x.Fails t target e := by
  cases hb : t.convert a target with
  | ok b => exact Or.inl ⟨⟨x.entry.amount, a, b⟩, rfl, h, hb⟩
  | error e => exact Or.inr ⟨e, .refusedByTarget h (RateTable.convert_eq_error_iff.mp hb)⟩

lemma takes_or_fails (t : RateTable) (target : String) (x : Term) :
    (∃ r, x.Takes t target r) ∨ ∃ e, x.Fails t target e := by
  cases hd : x.conversion with
  | none => exact (Reaches.written hd).takes_or_fails
  | some d =>
    by_cases hne : x.entry.amount.currency = target
    · exact Or.inr ⟨_, .selfConversion hd hne⟩
    · cases hu : t.resolve? d.name with
      | none => exact Or.inr ⟨_, .unknownDirective hd hne hu⟩
      | some u =>
        cases hb : t.convert x.entry.amount u with
        | ok b => exact (Reaches.converted hd hne hu hb).takes_or_fails
        | error e =>
          exact Or.inr ⟨e, .refusedByDirective hd hne hu (RateTable.convert_eq_error_iff.mp hb)⟩

lemma exists_takes_of_not_fails (h : ∀ e, ¬ x.Fails t target e) : ∃ r, x.Takes t target r :=
  (x.takes_or_fails t target).resolve_right fun ⟨e, he⟩ => h e he

end Term

/-! ### Evaluating a term -/

namespace Evaluation

variable {c : Context}

lemma convertible_of_eq {n : Entry} {d : Directive} (hT : c.target = some target)
    (heq : n.amount.currency = target) :
    convertible n d c = (.error (.selfConversion n.amount.currency n.position), c) := by
  rw [convertible, bind_of_ok (target_of_some hT), if_pos heq]
  rfl

lemma convertible_of_ne {n : Entry} {d : Directive} (hT : c.target = some target)
    (hne : n.amount.currency ≠ target) :
    convertible n d c = (resolve d >>= convert n.amount) c := by
  rw [convertible, bind_of_ok (target_of_some hT), if_neg hne]

lemma term_of_reaches (hT : c.target = some target) (h : x.Reaches c.table target a) :
    term x c = (.ok a, c.log (x.entry.amount.hop a)) := by
  cases h with
  | written hd =>
    rw [term, hd, Amount.hop_self, Context.log_nil]
    rfl
  | converted hd hne hu hb =>
    rw [term, hd]
    dsimp only
    rw [convertible_of_ne hT hne, bind_of_ok (resolve_of_some hu), convert_of_ok hb]

lemma convertToTarget_of_ok (hT : c.target = some target) (h : c.table.convert a target = .ok b) :
    convertToTarget a c = (.ok b, c.log (a.hop b)) := by
  rw [convertToTarget, bind_of_ok (target_of_some hT), convert_of_ok h]

lemma convertToTarget_of_refuses (hT : c.target = some target) (h : c.table.Refuses a target e) :
    convertToTarget a c = (.error e, c) := by
  rw [convertToTarget, bind_of_ok (target_of_some hT),
    convert_of_error (RateTable.convert_of_refuses h)]

/-- A term that takes a route is settled at its end, and adds the moves of the route to the
account. -/
lemma settle_of_takes {r : Route} (hT : c.target = some target) (h : x.Takes c.table target r) :
    settle x c = (.ok r.settled, c.log r.moves) := by
  have hlast : c.table.convert r.reached target = .ok r.settled := h.settled
  rw [settle, bind_of_ok (term_of_reaches hT h.reached),
    convertToTarget_of_ok (c := c.log _) hT hlast, Context.log_log, ← h.written, Route.moves]

lemma settle_of_convertible_error {d : Directive} (hd : x.conversion = some d)
    (h : convertible x.entry d c = (.error e, c)) : settle x c = (.error e, c.log []) := by
  have hterm : term x c = (.error e, c) := by
    rw [term, hd]
    exact h
  rw [settle, bind_of_error hterm, Context.log_nil]

/-- A term that fails has its error for an outcome. Behind it the account may be longer. -/
lemma settle_of_fails (hT : c.target = some target) (h : x.Fails c.table target e) :
    ∃ ms, settle x c = (.error e, c.log ms) := by
  cases h with
  | selfConversion hd heq =>
    exact ⟨[], settle_of_convertible_error hd (convertible_of_eq hT heq)⟩
  | unknownDirective hd hne hu =>
    refine ⟨[], settle_of_convertible_error hd ?_⟩
    rw [convertible_of_ne hT hne, bind_of_error (resolve_of_none hu)]
  | refusedByDirective hd hne hu he =>
    refine ⟨[], settle_of_convertible_error hd ?_⟩
    rw [convertible_of_ne hT hne, bind_of_ok (resolve_of_some hu),
      convert_of_error (RateTable.convert_of_refuses he)]
  | @refusedByTarget a e ha he =>
    refine ⟨x.entry.amount.hop a, ?_⟩
    rw [settle, bind_of_ok (term_of_reaches hT ha)]
    exact convertToTarget_of_refuses (c := c.log _) hT he

end Evaluation

end Cambist
