import Cambist.Evaluation
import Cambist.Proofs.Conversion

/-!
# The account of an evaluation

Apart from `Evaluation.request`, an evaluation changes a context in one way only: it adds steps at
the end of the account. What it adds is a list of moves, which are steps without a number, and
`Context.log` is the context behind them. The lemmas of this module say what each operation of an
evaluation does to a context in these terms; no proof has to look into the monad after them.
-/

namespace Cambist

/-! ### Moves -/

/-- A step that has no number yet. -/
inductive Move where
  | converted (source target : Amount)
  | accumulated (left right result : Amount)
deriving DecidableEq

namespace Move

/-- The step that a move is at a place in the account. -/
def step (i : Nat) : Move → Step
  | converted a b            => .converted i a b
  | accumulated left right s => .accumulated i left right s

@[simp] lemma index_step (i : Nat) (m : Move) : (m.step i).index = i := by cases m <;> rfl

/-- The steps of some moves, numbered from `i` on. -/
def numbered (i : Nat) (ms : List Move) : List Step := ms.mapIdx fun k m => m.step (i + k)

@[simp] lemma numbered_nil (i : Nat) : numbered i [] = [] := rfl

@[simp] lemma numbered_singleton (i : Nat) (m : Move) : numbered i [m] = [m.step i] := rfl

@[simp] lemma length_numbered (i : Nat) (ms : List Move) : (numbered i ms).length = ms.length := by
  simp [numbered]

lemma numbered_append (i : Nat) (ms ns : List Move) :
    numbered i (ms ++ ns) = numbered i ms ++ numbered (i + ms.length) ns := by
  simp [numbered, List.mapIdx_append, Nat.add_left_comm, Nat.add_comm]

lemma numbered_cons (i : Nat) (m : Move) (ms : List Move) :
    numbered i (m :: ms) = m.step i :: numbered (i + 1) ms := numbered_append i [m] ms

lemma index_getElem_numbered (i k : Nat) (ms : List Move) (h : k < (numbered i ms).length) :
    (numbered i ms)[k].index = i + k := by
  simp [numbered]

/-- Every move has a place among the steps. -/
lemma exists_step_mem_numbered (i : Nat) {m : Move} {ms : List Move} (h : m ∈ ms) :
    ∃ k, m.step k ∈ numbered i ms := by
  obtain ⟨k, hk, rfl⟩ := List.getElem_of_mem h
  exact ⟨i + k, List.mem_mapIdx.mpr ⟨k, hk, rfl⟩⟩

/-- Every step comes from one of the moves. -/
lemma exists_of_mem_numbered {i : Nat} {ms : List Move} {s : Step} (h : s ∈ numbered i ms) :
    ∃ m ∈ ms, ∃ k, s = m.step k := by
  obtain ⟨k, hk, rfl⟩ := List.mem_mapIdx.mp h
  exact ⟨ms[k], List.getElem_mem hk, i + k, rfl⟩

end Move

/-- The move from an amount to what it is converted to. There is none if the currency stays. -/
def Amount.hop (a b : Amount) : List Move :=
  if a.currency = b.currency then [] else [.converted a b]

@[simp] lemma Amount.hop_self (a : Amount) : a.hop a = [] := if_pos rfl

lemma Amount.hop_of_ne {a b : Amount} (h : a.currency ≠ b.currency) :
    a.hop b = [.converted a b] := if_neg h

lemma Amount.mem_hop_iff {a b : Amount} {m : Move} :
    m ∈ a.hop b ↔ a.currency ≠ b.currency ∧ m = .converted a b := by
  by_cases h : a.currency = b.currency
  · simp [hop, h]
  · simp [hop_of_ne h, h]

/-! ### Contexts with more steps -/

namespace Context

/-- The context behind some moves. -/
def log (c : Context) (ms : List Move) : Context :=
  { c with steps := c.steps ++ (Move.numbered c.steps.size ms).toArray }

variable (c : Context) (ms ns : List Move)

@[simp] lemma table_log : (c.log ms).table = c.table := rfl

@[simp] lemma target_log : (c.log ms).target = c.target := rfl

@[simp] lemma log_nil : c.log [] = c := by
  simp [log]

@[simp] lemma log_log : (c.log ms).log ns = c.log (ms ++ ns) := by
  simp [log, Move.numbered_append]

lemma log_singleton (m : Move) :
    c.log [m] = { c with steps := c.steps.push (m.step c.steps.size) } := by
  simp [log]

end Context

namespace Evaluation

variable {α β : Type} {c c' : Context} {a b : Amount} {u : String} {e : EvaluationError}

/-! ### Sequences -/

lemma bind_of_ok {p : Evaluation α} {f : α → Evaluation β} {x : α} (h : p c = (.ok x, c')) :
    (p >>= f) c = f x c' := by
  simp only [bind, ExceptT.bind, ExceptT.mk, StateT.bind, h]
  rfl

lemma bind_of_error {p : Evaluation α} {f : α → Evaluation β} (h : p c = (.error e, c')) :
    (p >>= f) c = (.error e, c') := by
  simp only [bind, ExceptT.bind, ExceptT.mk, StateT.bind, h]
  rfl

lemma pure_apply (x : α) (c : Context) : (pure x : Evaluation α) c = (.ok x, c) := rfl

lemma throw_apply (e : EvaluationError) (c : Context) :
    (throw e : Evaluation α) c = (.error e, c) := rfl

lemma get_apply (c : Context) : (get : Evaluation Context) c = (.ok c, c) := rfl

@[simp] lemma ofExcept_ok (x : α) : (ofExcept (.ok x) : Evaluation α) = pure x := rfl

@[simp] lemma ofExcept_error (e : EvaluationError) :
    (ofExcept (.error e) : Evaluation α) = throw e := rfl

lemma record_converted (a b : Amount) (c : Context) :
    record (.converted · a b) c = (.ok (), c.log [.converted a b]) := by
  rw [Context.log_singleton]
  rfl

lemma record_accumulated (left right s : Amount) (c : Context) :
    record (.accumulated · left right s) c = (.ok (), c.log [.accumulated left right s]) := by
  rw [Context.log_singleton]
  rfl

/-! ### Looking up -/

lemma target_of_some {T : String} (h : c.target = some T) : target c = (.ok T, c) := by
  rw [target, bind_of_ok (get_apply c), h]
  rfl

lemma resolve_of_some {d : Directive} (h : c.table.resolve? d.name = some u) :
    resolve d c = (.ok u, c) := by
  rw [resolve, bind_of_ok (get_apply c), h]
  rfl

lemma resolve_of_none {d : Directive} (h : c.table.resolve? d.name = none) :
    resolve d c = (.error (.unknownDirective d.name d.position), c) := by
  rw [resolve, bind_of_ok (get_apply c), h]
  rfl

/-! ### Conversions -/

lemma convert_of_ok (h : c.table.convert a u = .ok b) :
    convert a u c = (.ok b, c.log (a.hop b)) := by
  have hb : b.currency = u := RateTable.currency_of_convert h
  by_cases hne : a.currency = u
  · rw [← hne, RateTable.convert_self] at h
    cases h
    rw [convert, if_pos hne, Amount.hop_self, Context.log_nil]
    rfl
  · rw [convert, if_neg hne, bind_of_ok (get_apply c), h, ofExcept_ok, pure_bind,
      bind_of_ok (record_converted a b c), Amount.hop_of_ne (hb ▸ hne)]
    rfl

lemma convert_of_error (h : c.table.convert a u = .error e) : convert a u c = (.error e, c) := by
  by_cases hne : a.currency = u
  · rw [← hne, RateTable.convert_self] at h
    cases h
  · rw [convert, if_neg hne, bind_of_ok (get_apply c), h, ofExcept_error]
    exact bind_of_error (throw_apply e c)

end Evaluation

end Cambist
