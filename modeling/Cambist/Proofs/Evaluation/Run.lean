import Cambist.Proofs.Evaluation.Explanation

/-!
# Runs of a context

A context may serve any number of calls, in any order and with any arguments, and a failed call
leaves it as usable as one that succeeds. What is true of the account of a fresh context is true
behind every run: its steps are numbered by their places, and each of them is what the table or the
addition of amounts gives.
-/

namespace Cambist

variable {t : RateTable}

/-! ### Accounts -/

/-- Is this what the table makes of an amount, or the sum of two amounts? -/
def Move.Holds (t : RateTable) : Move → Prop
  | .converted a b => a.currency ≠ b.currency ∧ t.convert a b.currency = .ok b
  | .accumulated left right s =>
    left.currency = right.currency ∧ s.currency = right.currency ∧ left.add right = .ok s

/-- The steps of an account are numbered by their places, and every one of them holds. -/
structure IsAccount (t : RateTable) (steps : Array Step) : Prop where
  index : ∀ k (h : k < steps.size), steps[k].index = k
  converted : ∀ i a b, .converted i a b ∈ steps →
    a.currency ≠ b.currency ∧ t.convert a b.currency = .ok b
  accumulated : ∀ i left right s, .accumulated i left right s ∈ steps →
    left.currency = right.currency ∧ s.currency = right.currency ∧ left.add right = .ok s

namespace IsAccount

variable {steps : Array Step}

lemma empty : IsAccount t #[] where
  index _ h := absurd h (Nat.not_lt_zero _)
  converted _ _ _ h := absurd h (Array.not_mem_empty _)
  accumulated _ _ _ _ h := absurd h (Array.not_mem_empty _)

lemma push (h : IsAccount t steps) {m : Move} (hm : m.Holds t) :
    IsAccount t (steps.push (m.step steps.size)) where
  index k hk := by
    rw [Array.getElem_push]
    split_ifs with hlt
    · exact h.index k hlt
    · rw [Array.size_push] at hk
      rw [Move.index_step]
      omega
  converted i a b hmem := by
    rcases Array.mem_push.mp hmem with hmem | heq
    · exact h.converted i a b hmem
    · cases m with
      | converted a' b' =>
        cases heq
        exact hm
      | accumulated left right s => cases heq
  accumulated i left right s hmem := by
    rcases Array.mem_push.mp hmem with hmem | heq
    · exact h.accumulated i left right s hmem
    · cases m with
      | converted a b => cases heq
      | accumulated left' right' s' =>
        cases heq
        exact hm

end IsAccount

namespace Context

/-- Behind some moves that hold, an account is still an account. -/
lemma isAccount_log {c : Context} (h : IsAccount t c.steps) {ms : List Move}
    (hms : ∀ m ∈ ms, m.Holds t) : IsAccount t (c.log ms).steps := by
  induction ms generalizing c with
  | nil =>
    rw [log_nil]
    exact h
  | cons m ms ih =>
    obtain ⟨hm, hms⟩ := List.forall_mem_cons.mp hms
    have hlog : c.log (m :: ms) = (c.log [m]).log ms := (log_log c [m] ms).symm
    rw [hlog]
    apply ih _ hms
    rw [log_singleton]
    exact h.push hm

end Context

/-! ### Evaluations that only add to the account -/

namespace Evaluation

variable {α β : Type} {c : Context}

/-- Whether it succeeds or fails, an evaluation only adds moves that hold to the account. -/
def Extends (p : Evaluation α) : Prop :=
  ∀ c : Context, ∃ ms : List Move, (∀ m ∈ ms, m.Holds c.table) ∧ (p c).2 = c.log ms

lemma extends_of_unchanged {p : Evaluation α} (h : ∀ c, (p c).2 = c) : Extends p := by
  intro c
  refine ⟨[], by simp, ?_⟩
  rw [h c, Context.log_nil]

lemma extends_pure (a : α) : Extends (pure a) := extends_of_unchanged fun _ => rfl

lemma extends_throw (e : EvaluationError) : Extends (throw e : Evaluation α) :=
  extends_of_unchanged fun _ => rfl

lemma Extends.bind {p : Evaluation α} {f : α → Evaluation β} (hp : Extends p)
    (hf : ∀ a, Extends (f a)) : Extends (p >>= f) := by
  intro c
  obtain ⟨ms, hms, hc⟩ := hp c
  cases h : p c with
  | mk r c' =>
    rw [h] at hc
    subst hc
    cases r with
    | error e => exact ⟨ms, hms, congrArg Prod.snd (bind_of_error h)⟩
    | ok a =>
      obtain ⟨ns, hns, hc'⟩ := hf a (c.log ms)
      refine ⟨ms ++ ns, ?_, ?_⟩
      · intro m hm
        rcases List.mem_append.mp hm with hm | hm
        · exact hms m hm
        · exact hns m hm
      · rw [bind_of_ok h, hc', Context.log_log]

lemma extends_target : Extends target := by
  apply extends_of_unchanged
  intro c
  rw [target, bind_of_ok (get_apply c)]
  cases c.target <;> rfl

lemma extends_resolve (d : Directive) : Extends (resolve d) := by
  apply extends_of_unchanged
  intro c
  rw [resolve, bind_of_ok (get_apply c)]
  cases c.table.resolve? d.name <;> rfl

lemma extends_convert (a : Amount) (u : String) : Extends (convert a u) := by
  intro c
  cases h : c.table.convert a u with
  | error e => exact ⟨[], by simp, by rw [convert_of_error h, Context.log_nil]⟩
  | ok b =>
    refine ⟨a.hop b, ?_, by rw [convert_of_ok h]⟩
    intro m hm
    obtain ⟨hne, rfl⟩ := Amount.mem_hop_iff.mp hm
    exact ⟨hne, by rw [RateTable.currency_of_convert h, h]⟩

/-- Adding two amounts adds one move. Amounts in two currencies have no sum. -/
lemma extends_add (left right : Amount) :
    Extends (ofExcept (left.add right) >>= fun s =>
      record (.accumulated · left right s) >>= fun _ => pure s) := by
  intro c
  cases h : left.add right with
  | error e => exact ⟨[], by simp, by rw [ofExcept_error, bind_of_error (throw_apply e c),
      Context.log_nil]⟩
  | ok s =>
    refine ⟨[.accumulated left right s], ?_, ?_⟩
    · intro m hm
      rw [List.mem_singleton.mp hm]
      have heq : left.currency = right.currency := Amount.currency_eq_of_add h
      exact ⟨heq, (Amount.currency_add h).trans heq, h⟩
    · rw [ofExcept_ok, pure_bind, bind_of_ok (record_accumulated left right s c)]
      rfl

lemma extends_convertToTarget (a : Amount) : Extends (convertToTarget a) :=
  extends_target.bind fun u => extends_convert a u

lemma extends_convertible (n : Entry) (d : Directive) : Extends (convertible n d) := by
  apply extends_target.bind
  intro u
  split_ifs
  · exact extends_throw _
  · exact (extends_resolve d).bind fun u => extends_convert n.amount u

lemma extends_term (x : Term) : Extends (term x) := by
  unfold term
  split
  · exact extends_pure _
  · exact extends_convertible _ _

lemma extends_recursiveSum (x : Term) (xs : List Term) : Extends (recursiveSum x xs) := by
  have hsettle (x : Term) : Extends (settle x) :=
    (extends_term x).bind fun a => extends_convertToTarget a
  induction xs generalizing x with
  | nil => exact hsettle x
  | cons next xs ih =>
    rw [recursiveSum_cons]
    apply (hsettle x).bind
    intro left
    apply (ih next).bind
    intro right
    exact extends_add left right

lemma extends_expression (e : Expression) : Extends (expression e) := by
  rw [expression_eq_recursiveSum]
  exact extends_recursiveSum e.first e.rest

/-- The account of a request starts anew. It is handed over with the answer, or kept when there is
no answer. -/
lemma request_spec (r : Request) (c : Context) :
    (request r c).2.table = c.table ∧ IsAccount c.table (request r c).2.steps ∧
      ∀ comp, (request r c).1 = .ok comp → IsAccount c.table comp.steps := by
  cases hT : c.table.resolve? r.target.name with
  | none =>
    rw [request_of_unknown hT]
    exact ⟨rfl, .empty, fun comp h => nomatch h⟩
  | some target =>
    obtain ⟨ms, hms, hc⟩ :=
      extends_recursiveSum r.expression.first r.expression.rest (c.start target)
    have hacc : IsAccount c.table ((c.start target).log ms).steps :=
      Context.isAccount_log IsAccount.empty hms
    cases h : recursiveSum r.expression.first r.expression.rest (c.start target) with
    | mk outcome c' =>
      rw [h] at hc
      subst hc
      cases outcome with
      | error e =>
        rw [request_of_known hT, bind_of_error h]
        exact ⟨rfl, hacc, fun comp h => nomatch h⟩
      | ok total =>
        rw [request_of_recursiveSum hT h]
        refine ⟨rfl, .empty, ?_⟩
        intro comp hcomp
        cases hcomp
        exact hacc

/-- A request forgets the target and the steps that it finds. -/
lemma request_eq_fresh (r : Request) (c : Context) : request r c = request r { table := c.table } :=
  rfl

end Evaluation

/-! ### Runs -/

/-- A call on a context, with its arguments. -/
inductive Call where
  | request (r : Request)
  | expression (e : Expression)
  | term (x : Term)
  | convertible (n : Entry) (d : Directive)
  | convert (a : Amount) (currency : String)
  | convertToTarget (a : Amount)
  | setTarget (currency : String)
deriving DecidableEq

namespace Context

/-- The context behind a call, whether the call succeeds or fails. -/
def after (c : Context) : Call → Context
  | .request r         => (Evaluation.request r c).2
  | .expression e      => (Evaluation.expression e c).2
  | .term x            => (Evaluation.term x c).2
  | .convertible n d   => (Evaluation.convertible n d c).2
  | .convert a u       => (Evaluation.convert a u c).2
  | .convertToTarget a => (Evaluation.convertToTarget a c).2
  | .setTarget u       => (Evaluation.setTarget u c).2

/-- The context behind some calls, one after the other. -/
def run (c : Context) (calls : List Call) : Context := calls.foldl after c

variable {c : Context} {call : Call}

/-- A call is a request, or settles the target, or only adds to the account. -/
lemma after_cases (c : Context) (call : Call) :
    (∃ r, call = .request r) ∨ (∃ u, call = .setTarget u) ∨
      ∃ ms : List Move, (∀ m ∈ ms, m.Holds c.table) ∧ c.after call = c.log ms := by
  cases call with
  | request r => exact Or.inl ⟨r, rfl⟩
  | setTarget u => exact Or.inr (Or.inl ⟨u, rfl⟩)
  | expression e => exact Or.inr (Or.inr (Evaluation.extends_expression e c))
  | term x => exact Or.inr (Or.inr (Evaluation.extends_term x c))
  | convertible n d => exact Or.inr (Or.inr (Evaluation.extends_convertible n d c))
  | convert a u => exact Or.inr (Or.inr (Evaluation.extends_convert a u c))
  | convertToTarget a => exact Or.inr (Or.inr (Evaluation.extends_convertToTarget a c))

/-- One call keeps the table and the account. -/
lemma isAccount_after (h : IsAccount c.table c.steps) (call : Call) :
    (c.after call).table = c.table ∧ IsAccount c.table (c.after call).steps := by
  rcases after_cases c call with ⟨r, rfl⟩ | ⟨u, rfl⟩ | ⟨ms, hms, hc⟩
  · obtain ⟨htable, hacc, -⟩ := Evaluation.request_spec r c
    exact ⟨htable, hacc⟩
  · exact ⟨rfl, h⟩
  · rw [hc]
    exact ⟨rfl, isAccount_log h hms⟩

/-- So does a whole run. -/
lemma isAccount_run (h : IsAccount c.table c.steps) (calls : List Call) :
    (c.run calls).table = c.table ∧ IsAccount c.table (c.run calls).steps := by
  induction calls generalizing c with
  | nil => exact ⟨rfl, h⟩
  | cons call calls ih =>
    obtain ⟨htable, hacc⟩ := isAccount_after h call
    rw [← htable] at hacc ⊢
    exact ih hacc

lemma steps_prefix_after (hr : ∀ r, call ≠ .request r) :
    c.steps.toList <+: (c.after call).steps.toList := by
  rcases after_cases c call with ⟨r, rfl⟩ | ⟨u, rfl⟩ | ⟨ms, -, hc⟩
  · exact absurd rfl (hr r)
  · exact List.prefix_refl _
  · rw [hc, log]
    simp

lemma target_after (hr : ∀ r, call ≠ .request r) (hu : ∀ u, call ≠ .setTarget u) :
    (c.after call).target = c.target := by
  rcases after_cases c call with ⟨r, rfl⟩ | ⟨u, rfl⟩ | ⟨ms, -, hc⟩
  · exact absurd rfl (hr r)
  · exact absurd rfl (hu u)
  · rw [hc, target_log]

/-- Behind every run of a context over a table, the steps held are an account, and so are those of
every computation that is returned. Only a request drops steps, and only a request or the settling
of a target changes the target. A request does what it does in a fresh context. -/
theorem run_isAccount (t : RateTable) (calls : List Call) :
    let c := ({ table := t } : Context).run calls
    IsAccount t c.steps ∧
      (∀ r comp, (Evaluation.request r c).1 = .ok comp → IsAccount t comp.steps) ∧
      (∀ call : Call, (∀ r, call ≠ .request r) →
        c.steps.toList <+: (c.after call).steps.toList) ∧
      (∀ call : Call, (∀ r, call ≠ .request r) → (∀ u, call ≠ .setTarget u) →
        (c.after call).target = c.target) ∧
      ∀ r, Evaluation.request r c = Evaluation.request r { table := t } := by
  intro c
  obtain ⟨htable, hacc⟩ : c.table = t ∧ IsAccount t c.steps :=
    isAccount_run (c := { table := t }) .empty calls
  refine ⟨hacc, ?_, fun _ => steps_prefix_after, fun _ => target_after, ?_⟩
  · intro r comp h
    obtain ⟨-, -, hcomp⟩ := Evaluation.request_spec r c
    rw [htable] at hcomp
    exact hcomp comp h
  · intro r
    rw [Evaluation.request_eq_fresh, htable]

/-- An amount without a rate to the currency of most answers, for examples. -/
def rubles : Entry := ⟨.minus, ⟨.ofUnits 300 0, "RUB"⟩, 5⟩

/-- A run in which the target changes and one call fails, for examples. -/
def sampleRun : List Call :=
  [.setTarget "EUR", .convert rubles.amount "USD", .convertToTarget rubles.amount, .setTarget "USD",
    .expression ⟨⟨rubles, some ⟨"eur", 12⟩⟩, [⟨rubles, some ⟨"eur", 24⟩⟩]⟩]

/-- Six steps are held behind the sample run; a conversion that fails keeps them, and a request
has an account of its own. -/
theorem run_isAccount_sampleRun :
    let c := ({ table := .sample } : Context).run sampleRun
    let fails := Call.convertToTarget rubles.amount
    let r : Request := ⟨⟨"usd", 0⟩, ⟨⟨rubles, some ⟨"eur", 12⟩⟩, []⟩⟩
    c.steps.size = 6 ∧ IsAccount .sample c.steps ∧
      c.steps.toList <+: (c.after fails).steps.toList ∧ (c.after fails).target = c.target ∧
      ∃ comp, (Evaluation.request r c).1 = .ok comp ∧ comp.steps.size = 2 ∧
        IsAccount .sample comp.steps := by
  intro c fails r
  obtain ⟨hacc, hcomp, hprefix, htarget, hfresh⟩ := run_isAccount .sample sampleRun
  have hany : (Evaluation.request r { table := .sample }).1.toOption.any
      (fun comp => comp.steps.size = 2) = true := by decide +kernel
  rw [← hfresh] at hany
  obtain ⟨comp, h, hsize⟩ := exists_ok_of_any hany
  exact ⟨by decide +kernel, hacc, hprefix fails nofun, htarget fails nofun nofun, comp, h,
    of_decide_eq_true hsize, hcomp r comp h⟩

end Context

end Cambist
