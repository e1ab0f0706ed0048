import Cambist.Proofs.Evaluation.Explanation
import Cambist.Proofs.Evaluation.Run

/-!
# Directives that change nothing

A directive of a term is idle if it leads to the currency that the term is in already, or to the
currency of the answer, where the term is taken in any case. On the first way the detour has no
step, and on the second one the last conversion has none. So a request is evaluated as before when
any of its idle directives are left out: it comes to the same answer by the same steps, or to the
same error behind the same steps.
-/

namespace Cambist

/-! ### Leaving directives out -/

namespace Term

/-- The same amount at the same position, without a directive. -/
def plain (x : Term) : Term := ⟨x.entry, none⟩

/-- The directive of a term that is not in the currency of the answer stands for the currency of the
term itself, or for that of the answer. -/
inductive HasIdle (t : RateTable) (target : String) (x : Term) : Prop where
  | own {d : Directive} (hd : x.conversion = some d) (hne : x.entry.amount.currency ≠ target)
      (hu : t.resolve? d.name = some x.entry.amount.currency) : HasIdle t target x
  | answer {d : Directive} (hd : x.conversion = some d) (hne : x.entry.amount.currency ≠ target)
      (hu : t.resolve? d.name = some target) : HasIdle t target x

/-- A term stays as it is, or it loses an idle directive. -/
inductive Sheds (t : RateTable) (target : String) : Term → Term → Prop where
  | keep (x : Term) : Sheds t target x x
  | drop {x : Term} (h : x.HasIdle t target) : Sheds t target x x.plain

end Term

/-- Some terms of a request lose their directives, all of which are idle. -/
structure Request.Sheds (t : RateTable) (target : String) (r r' : Request) : Prop where
  directive : r'.target = r.target
  terms : List.Forall₂ (Term.Sheds t target) r.expression.terms r'.expression.terms

/-! ### Evaluation without them -/

namespace Evaluation

variable {α β : Type} {c : Context} {target : String} {x y : Term} {xs ys : List Term}

/-- Two sequences do the same to a context if their first parts do, and their second parts do the
same behind these. -/
lemma bind_congr_at {p q : Evaluation α} {f g : α → Evaluation β} (hp : p c = q c)
    (hf : ∀ a c', q c = (.ok a, c') → f a c' = g a c') : (p >>= f) c = (q >>= g) c := by
  cases hq : q c with
  | mk outcome c' =>
    cases outcome with
    | error e => rw [bind_of_error (hp.trans hq), bind_of_error hq]
    | ok a => rw [bind_of_ok (hp.trans hq), bind_of_ok hq, hf a c' hq]

lemma settle_plain (x : Term) : settle x.plain = convertToTarget x.entry.amount := by
  rw [settle, term, Term.plain]
  exact pure_bind _ _

/-- What is converted to the currency of the answer need not be converted again. -/
lemma convert_bind_convertToTarget (hT : c.target = some target) (a : Amount) :
    (convert a target >>= convertToTarget) c = convertToTarget a c := by
  rw [convertToTarget, bind_of_ok (target_of_some hT)]
  cases h : c.table.convert a target with
  | error e =>
    rw [convert_of_error h]
    exact bind_of_error (convert_of_error h)
  | ok b =>
    have hb : c.table.convert b target = .ok b := by
      rw [← RateTable.currency_of_convert h, RateTable.convert_self]
    rw [bind_of_ok (convert_of_ok h), convertToTarget_of_ok (c := c.log _) hT hb, convert_of_ok h,
      Amount.hop_self, Context.log_nil]

/-- A term with an idle directive is settled as if it had none. -/
lemma settle_of_hasIdle (hT : c.target = some target) (h : x.HasIdle c.table target) :
    settle x.plain c = settle x c := by
  rw [settle_plain]
  cases h with
  | own hd hne hu =>
    have hreaches : x.Reaches c.table target x.entry.amount :=
      .converted hd hne hu (RateTable.convert_self ..)
    rw [settle, bind_of_ok (term_of_reaches hT hreaches), Amount.hop_self, Context.log_nil]
  | answer hd hne hu =>
    have hterm : term x c = convert x.entry.amount target c := by
      rw [term, hd]
      dsimp only
      rw [convertible_of_ne hT hne, bind_of_ok (resolve_of_some hu)]
    rw [settle, ← convert_bind_convertToTarget hT]
    exact bind_congr_at hterm.symm fun _ _ _ => rfl

lemma settle_of_sheds (hT : c.target = some target) (h : x.Sheds c.table target y) :
    settle y c = settle x c := by
  cases h with
  | keep => rfl
  | drop h => exact settle_of_hasIdle hT h

/-- Settling a term leaves the table and the target of a context. -/
lemma exists_log_of_settle {a : Amount} {c' : Context} (h : settle x c = (.ok a, c')) :
    ∃ ms, c' = c.log ms := by
  obtain ⟨ms, -, hms⟩ := ((extends_term x).bind fun a => extends_convertToTarget a) c
  have hc' : (settle x c).2 = c.log ms := hms
  rw [h] at hc'
  exact ⟨ms, hc'⟩

lemma recursiveSum_of_sheds (hT : c.target = some target)
    (h : List.Forall₂ (Term.Sheds c.table target) (x :: xs) (y :: ys)) :
    recursiveSum y ys c = recursiveSum x xs c := by
  induction xs generalizing x y ys c with
  | nil =>
    obtain ⟨hx, hnil⟩ := List.forall₂_cons.mp h
    obtain rfl := List.forall₂_nil_left_iff.mp hnil
    rw [recursiveSum_nil, recursiveSum_nil, settle_of_sheds hT hx]
  | cons next xs ih =>
    obtain ⟨hx, hxs⟩ := List.forall₂_cons.mp h
    obtain ⟨next', ys, -, -, rfl⟩ := List.forall₂_cons_left_iff.mp hxs
    rw [recursiveSum_cons, recursiveSum_cons]
    refine bind_congr_at (settle_of_sheds hT hx) fun left c' hsettle => ?_
    obtain ⟨ms, rfl⟩ := exists_log_of_settle hsettle
    exact bind_congr_at (ih (c := c.log ms) hT hxs) fun _ _ _ => rfl

/-- Whatever directives a request loses, as long as they are idle, its evaluation has the same
outcome and leaves the same context. -/
theorem request_of_sheds {r r' : Request} (hT : c.table.resolve? r.target.name = some target)
    (h : r.Sheds c.table target r') : request r' c = request r c := by
  have hT' : c.table.resolve? r'.target.name = some target := by
    rw [h.directive, hT]
  rw [request_of_known hT, request_of_known hT']
  exact bind_congr_at (recursiveSum_of_sheds (c := c.start target) rfl h.terms) fun _ _ _ => rfl

/-- The request `usd: 1EUR + 2EUR - 3RUB eur`, its first two terms with these directives, for
examples. -/
def sampleRequest (first second : Option Directive) : Request :=
  ⟨⟨"usd", 0⟩, ⟨⟨.plus, ⟨.ofUnits 1 0, "EUR"⟩, 5⟩, first⟩,
    [⟨⟨.plus, ⟨.ofUnits 2 0, "EUR"⟩, 14⟩, second⟩,
      ⟨⟨.minus, ⟨.ofUnits 3 0, "RUB"⟩, 24⟩, some ⟨"eur", 30⟩⟩]⟩

/-- A directive to the currency of its own term and one to that of the answer are left out, and a
directive that leads through a third currency is not. -/
theorem request_of_sheds_sample :
    let c : Context := { table := .sample }
    let r := sampleRequest (some ⟨"eur", 10⟩) (some ⟨"usd", 20⟩)
    c.table.resolve? r.target.name = some "USD" ∧
      r.Sheds c.table "USD" (sampleRequest none none) ∧
      ((request r c).1.toOption.map fun comp => comp.steps.size) = some 6 ∧
      request (sampleRequest none none) c = request r c := by
  intro c r
  have hT : c.table.resolve? r.target.name = some "USD" := by decide +kernel
  have heur : c.table.resolve? "eur" = some "EUR" := by decide +kernel
  have hne : "EUR" ≠ "USD" := by decide
  have h : r.Sheds c.table "USD" (sampleRequest none none) :=
    ⟨rfl, .cons (.drop (.own rfl hne heur)) (.cons (.drop (.answer rfl hne hT))
      (.cons (.keep _) .nil))⟩
  have hsize : ((request r c).1.toOption.map fun comp => comp.steps.size) = some 6 := by
    decide +kernel
  exact ⟨hT, h, hsize, request_of_sheds hT h⟩

end Evaluation

end Cambist
