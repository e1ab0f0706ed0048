import Cambist.Proofs.Evaluation.Run

/-!
# Errors that are never seen

Most errors of an evaluation lie with the request or with the table. Two do not. Amounts in two
currencies are never added, because every term is settled in the target currency before; and a
target is missing only as long as none has been settled, which no request leaves open. So it is for
every call in every run of a context, whatever the calls before it came to.
-/

namespace Cambist

variable {t : RateTable} {T u : String} {x : Term} {a : Amount} {e : EvaluationError}

/-! ### Proper errors -/

/-- Does an error lie with the request or with the table? -/
def EvaluationError.IsProper : EvaluationError → Prop
  | currencyMismatch _ _ => False
  | missingTarget        => False
  | _                    => True

lemma RateTable.Refuses.isProper (h : t.Refuses a u e) : e.IsProper := by
  cases h with
  | missingRate => trivial
  | overflow => trivial

lemma Overflows.isProper {as : List Amount} (h : Overflows as e) : e.IsProper := by
  obtain ⟨before, left, after, additions, right, -, -, -, rfl⟩ := h
  trivial

lemma Term.Fails.isProper (h : x.Fails t T e) : e.IsProper := by
  cases h with
  | selfConversion => trivial
  | unknownDirective => trivial
  | refusedByDirective _ _ _ he => exact he.isProper
  | refusedByTarget _ he => exact he.isProper

lemma Request.Fails.isProper {r : Request} (h : r.Fails t e) : e.IsProper := by
  cases h with
  | directive => trivial
  | term _ _ _ hx => exact hx.isProper
  | sum _ _ ho => exact ho.isProper

/-! ### Evaluations with and without a target -/

namespace Evaluation

variable {α β : Type} {c : Context}

/-- The error of an evaluation, if it fails. -/
def error? (p : Evaluation α) (c : Context) : Option EvaluationError :=
  match (p c).1 with
  | .ok _    => none
  | .error e => some e

lemma error?_eq_some_iff {p : Evaluation α} : p.error? c = some e ↔ (p c).1 = .error e := by
  rw [error?]
  cases (p c).1 <;> simp

/-- An evaluation fails with proper errors only, or because there is no target. -/
def FailsProperly (p : Evaluation α) : Prop :=
  ∀ c e, (p c).1 = .error e → e.IsProper ∨ e = .missingTarget ∧ c.target = none

lemma failsProperly_of_ok {p : Evaluation α} (h : ∀ c, ∃ a, (p c).1 = .ok a) :
    FailsProperly p := by
  intro c e he
  obtain ⟨a, ha⟩ := h c
  rw [ha] at he
  cases he

lemma failsProperly_throw (he : e.IsProper) : FailsProperly (throw e : Evaluation α) := by
  rintro c e' ⟨⟩
  exact Or.inl he

/-- What only adds to the account leaves the target to what comes next. -/
lemma FailsProperly.bind {p : Evaluation α} {f : α → Evaluation β} (hp : FailsProperly p)
    (hext : Extends p) (hf : ∀ a, FailsProperly (f a)) : FailsProperly (p >>= f) := by
  intro c e he
  obtain ⟨ms, -, hc⟩ := hext c
  cases h : p c with
  | mk outcome c' =>
    rw [h] at hc
    subst hc
    cases outcome with
    | error e' =>
      rw [bind_of_error h] at he
      cases he
      exact hp c e (congrArg Prod.fst h)
    | ok a =>
      rw [bind_of_ok h] at he
      exact hf a (c.log ms) e he

lemma target_of_none (h : c.target = none) : target c = (.error .missingTarget, c) := by
  rw [target, bind_of_ok (get_apply c), h]
  rfl

lemma failsProperly_target : FailsProperly target := by
  intro c e he
  cases hT : c.target with
  | none =>
    rw [target_of_none hT] at he
    cases he
    exact Or.inr ⟨rfl, rfl⟩
  | some T =>
    rw [target_of_some hT] at he
    cases he

lemma failsProperly_resolve (d : Directive) : FailsProperly (resolve d) := by
  intro c e he
  cases hu : c.table.resolve? d.name with
  | none =>
    rw [resolve_of_none hu] at he
    cases he
    exact Or.inl trivial
  | some u =>
    rw [resolve_of_some hu] at he
    cases he

lemma failsProperly_convert (a : Amount) (u : String) : FailsProperly (convert a u) := by
  intro c e he
  cases hb : c.table.convert a u with
  | error e' =>
    rw [convert_of_error hb] at he
    cases he
    exact Or.inl (RateTable.convert_eq_error_iff.mp hb).isProper
  | ok b =>
    rw [convert_of_ok hb] at he
    cases he

lemma failsProperly_convertToTarget (a : Amount) : FailsProperly (convertToTarget a) :=
  failsProperly_target.bind extends_target fun u => failsProperly_convert a u

lemma failsProperly_convertible (n : Entry) (d : Directive) :
    FailsProperly (convertible n d) := by
  apply failsProperly_target.bind extends_target
  intro T
  split_ifs
  · exact failsProperly_throw trivial
  · exact (failsProperly_resolve d).bind (extends_resolve d) fun u =>
      failsProperly_convert n.amount u

lemma failsProperly_term (x : Term) : FailsProperly (term x) := by
  unfold term
  split
  · exact failsProperly_of_ok fun c => ⟨_, rfl⟩
  · exact failsProperly_convertible _ _

/-! ### Expressions -/

/-- Every way to settle a term asks for the target. -/
lemma settle_of_none (h : c.target = none) (x : Term) :
    settle x c = (.error .missingTarget, c) := by
  rw [settle]
  cases hd : x.conversion with
  | none =>
    have hterm : term x c = (.ok x.entry.amount, c) := by
      rw [term, hd]
      rfl
    rw [bind_of_ok hterm]
    exact bind_of_error (target_of_none h)
  | some d =>
    have hterm : term x c = (.error .missingTarget, c) := by
      rw [term, hd]
      exact bind_of_error (target_of_none h)
    exact bind_of_error hterm

/-- Without a target, an expression fails at its first term, and nothing is recorded. -/
lemma expression_of_none (h : c.target = none) (x : Expression) :
    expression x c = (.error .missingTarget, c) := by
  rw [expression]
  exact bind_of_error (settle_of_none h x.first)

/-- With a target, an expression comes to an amount in this currency, or fails with a proper
error. -/
lemma expression_of_some (hT : c.target = some T) (x : Expression) :
    (∃ a, (expression x c).1 = .ok a ∧ a.currency = T) ∨
      ∃ e, (expression x c).1 = .error e ∧ e.IsProper := by
  rw [expression_eq_recursiveSum]
  rcases Term.takes_or_leftmost_fails c.table T x.terms with
    ⟨routes, hr⟩ | ⟨before, y, after, e, heq, hbefore, hy⟩
  · have hcurrency := Term.currency_settled_of_takes hr
    have hne : routes.map Route.settled ≠ [] := by
      cases hr
      simp
    rcases sums_or_overflows hne hcurrency with ⟨additions, total, hs⟩ | ⟨e, ho⟩
    · refine Or.inl ⟨total, ?_, hs.currency_total hcurrency⟩
      rw [recursiveSum_of_sums hT hr hs]
    · obtain ⟨ms, hms⟩ := recursiveSum_of_overflows hT hr ho
      refine Or.inr ⟨e, ?_, ho.isProper⟩
      rw [hms]
  · have htakes : ∀ z ∈ before, ∃ r, z.Takes c.table T r := fun z hz =>
      Term.exists_takes_of_not_fails (hbefore z hz)
    obtain ⟨ms, hms⟩ := recursiveSum_of_fails hT heq htakes hy
    refine Or.inr ⟨e, ?_, hy.isProper⟩
    rw [hms]

/-- An amount that an expression comes to is in the currency of the target. -/
lemma target_of_expression {x : Expression} (h : (expression x c).1 = .ok a) :
    c.target = some a.currency := by
  cases hT : c.target with
  | none =>
    rw [expression_of_none hT] at h
    cases h
  | some T =>
    rcases expression_of_some hT x with ⟨b, hb, hcurrency⟩ | ⟨e, he, -⟩
    · rw [hb] at h
      cases h
      rw [hcurrency]
    · rw [he] at h
      cases h

lemma failsProperly_expression (x : Expression) : FailsProperly (expression x) := by
  intro c e he
  cases hT : c.target with
  | none =>
    rw [expression_of_none hT] at he
    cases he
    exact Or.inr ⟨rfl, rfl⟩
  | some T =>
    rcases expression_of_some hT x with ⟨a, ha, -⟩ | ⟨e', he', hproper⟩
    · rw [ha] at he
      cases he
    · rw [he'] at he
      cases he
      exact Or.inl hproper

/-- A request settles its target before anything asks for it. -/
lemma isProper_of_request {r : Request} (h : (request r c).1 = .error e) : e.IsProper := by
  rcases r.evaluates_or_fails c.table with ⟨comp, hcomp⟩ | ⟨e', he⟩
  · rw [request_of_evaluates hcomp] at h
    cases h
  · rw [request_of_fails he] at h
    cases h
    exact he.isProper

end Evaluation

/-! ### Runs -/

namespace Context

variable {c : Context} {call : Call}

/-- The error that a call returns, if it fails. -/
def failure? (c : Context) : Call → Option EvaluationError
  | .request r         => (Evaluation.request r).error? c
  | .expression e      => (Evaluation.expression e).error? c
  | .term x            => (Evaluation.term x).error? c
  | .convertible n d   => (Evaluation.convertible n d).error? c
  | .convert a u       => (Evaluation.convert a u).error? c
  | .convertToTarget a => (Evaluation.convertToTarget a).error? c
  | .setTarget u       => (Evaluation.setTarget u).error? c

/-- The errors that the calls of a run return, in their order. -/
def failures (c : Context) : List Call → List EvaluationError
  | []            => []
  | call :: calls => (c.failure? call).toList ++ (c.after call).failures calls

/-- One call fails with a proper error, or because there is no target. -/
lemma isProper_of_failure? (h : c.failure? call = some e) :
    e.IsProper ∨ e = .missingTarget ∧ c.target = none := by
  cases call with
  | request r => exact Or.inl (Evaluation.isProper_of_request (Evaluation.error?_eq_some_iff.mp h))
  | expression x =>
    exact Evaluation.failsProperly_expression x c e (Evaluation.error?_eq_some_iff.mp h)
  | term x => exact Evaluation.failsProperly_term x c e (Evaluation.error?_eq_some_iff.mp h)
  | convertible n d =>
    exact Evaluation.failsProperly_convertible n d c e (Evaluation.error?_eq_some_iff.mp h)
  | convert a u =>
    exact Evaluation.failsProperly_convert a u c e (Evaluation.error?_eq_some_iff.mp h)
  | convertToTarget a =>
    exact Evaluation.failsProperly_convertToTarget a c e (Evaluation.error?_eq_some_iff.mp h)
  | setTarget u => cases h

/-- So do all calls of a run. -/
lemma isProper_of_mem_failures {calls : List Call} (h : e ∈ c.failures calls) :
    e.IsProper ∨ e = .missingTarget := by
  induction calls generalizing c with
  | nil => cases h
  | cons call calls ih =>
    rcases List.mem_append.mp h with h | h
    · exact (isProper_of_failure? (Option.mem_toList.mp h)).imp_right And.left
    · exact ih h

/-- No call of a run adds amounts in two currencies, and no request misses its target. An
expression does so just if none is settled when it is called; then it leaves the context as it is.
An amount that it comes to is in the currency of the target. -/
theorem run_errors_proper (t : RateTable) (calls : List Call) :
    (∀ left right, .currencyMismatch left right ∉ ({ table := t } : Context).failures calls) ∧
    let c := ({ table := t } : Context).run calls
    (∀ r, c.failure? (.request r) ≠ some .missingTarget) ∧
    (∀ x, c.failure? (.expression x) = some .missingTarget ↔ c.target = none) ∧
    (∀ x, c.target = none → c.after (.expression x) = c) ∧
    ∀ x a, (Evaluation.expression x c).1 = .ok a → c.target = some a.currency := by
  refine ⟨fun left right h => ?_, fun r h => ?_, fun x => ⟨fun h => ?_, fun hT => ?_⟩,
    fun x hT => ?_, fun x a ha => ?_⟩
  · rcases isProper_of_mem_failures h with h | h
    · exact h
    · cases h
  · exact Evaluation.isProper_of_request (Evaluation.error?_eq_some_iff.mp h)
  · exact ((isProper_of_failure? h).resolve_left id).2
  · rw [failure?, Evaluation.error?_eq_some_iff, Evaluation.expression_of_none hT]
  · rw [after, Evaluation.expression_of_none hT]
  · exact Evaluation.target_of_expression ha

/-- Behind the sample run, in which one conversion fails, an expression comes to dollars. In a fresh
context it comes to nothing. -/
theorem run_errors_proper_sampleRun :
    let x : Expression := ⟨⟨rubles, some ⟨"eur", 12⟩⟩, []⟩
    let fresh := ({ table := .sample } : Context).run []
    let c := ({ table := .sample } : Context).run sampleRun
    fresh.target = none ∧ fresh.failure? (.expression x) = some .missingTarget ∧
      fresh.after (.expression x) = fresh ∧
      ({ table := .sample } : Context).failures sampleRun = [.missingRate "RUB" "USD"] ∧
      ∃ a, (Evaluation.expression x c).1 = .ok a ∧ c.target = some a.currency ∧
        c.target = some "USD" := by
  intro x fresh c
  obtain ⟨-, -, hmissing, hunchanged, -⟩ := run_errors_proper .sample []
  obtain ⟨-, -, -, -, hcurrency⟩ := run_errors_proper .sample sampleRun
  have hany : (Evaluation.expression x c).1.toOption.any (fun a => a.currency = "USD") = true := by
    decide +kernel
  obtain ⟨a, ha, -⟩ := exists_ok_of_any hany
  exact ⟨rfl, (hmissing x).mpr rfl, hunchanged x rfl, by decide +kernel, a, ha, hcurrency x a ha,
    by decide +kernel⟩

end Context

end Cambist
