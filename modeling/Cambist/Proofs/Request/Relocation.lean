import Cambist.Proofs.Evaluation.Position
import Cambist.Proofs.Request.Acceptance

/-!
# Parsing elsewhere

A parser passes positions on and never looks at them. When the tokens of a line are moved to other
positions, and its end with them, each parser takes the same tokens and comes to the same node at
its new position, or to the same error at the new position of the token or of the end.
-/

namespace Cambist

open Token (Placed)

/-! ### Moving tokens -/

def Token.Placed.relocate (f : Nat → Nat) (t : Placed) : Placed := ⟨t.token, f t.position⟩

def Cursor.relocate (f : Nat → Nat) (c : Cursor) : Cursor :=
  ⟨c.ahead.map (Placed.relocate f), f c.finish⟩

def SyntaxError.relocate (f : Nat → Nat) (e : SyntaxError) : SyntaxError := ⟨e.cause, f e.position⟩

variable {α β α' β' : Type} {f : Nat → Nat} {ts : List Placed}

/-- An outcome with what it holds moved by `g`, or the position of its error by `f`. -/
def SyntaxError.moved (f : Nat → Nat) (g : α → α') : Except SyntaxError α → Except SyntaxError α'
  | .ok a    => .ok (g a)
  | .error e => .error (e.relocate f)

lemma Cursor.position_relocate (c : Cursor) : (c.relocate f).position = f c.position := by
  obtain ⟨_ | ⟨t, ts⟩, finish⟩ := c <;> rfl

lemma startsWith_relocate (kind : Token → Bool) :
    StartsWith kind (ts.map (Placed.relocate f)) ↔ StartsWith kind ts := by
  cases ts with
  | nil => rfl
  | cons t ts => rw [List.map_cons, startsWith_cons, startsWith_cons, Placed.relocate]

namespace Parser

/-! ### Parsers on moved tokens -/

/-- The outcome of a parser with its node moved by `g`, and all positions by `f`. -/
def moved (f : Nat → Nat) (g : α → α') (out : Except SyntaxError α × Cursor) :
    Except SyntaxError α' × Cursor := (SyntaxError.moved f g out.1, out.2.relocate f)

/-- On moved tokens, `q` has the outcome of `p` moved. -/
def Moves (f : Nat → Nat) (g : α → α') (p : Parser α) (q : Parser α') : Prop :=
  ∀ c, q (c.relocate f) = moved f g (p c)

variable {g : α → α'} {h : β → β'}

lemma Moves.bind {p : Parser α} {q : Parser α'} {k : α → Parser β} {k' : α' → Parser β'}
    (hp : Moves f g p q) (hk : ∀ a, Moves f h (k a) (k' (g a))) :
    Moves f h (p >>= k) (q >>= k') := by
  intro c
  rw [bind_apply, bind_apply, hp c]
  cases p c with
  | mk outcome c' =>
    cases outcome with
    | ok a => exact hk a c'
    | error e => rfl

lemma moves_pure (g : α → α') (a : α) : Moves f g (pure a) (pure (g a)) := fun _ => rfl

lemma moves_throw (g : α → α') (e : SyntaxError) :
    Moves f g (throw e) (throw (e.relocate f)) := fun _ => rfl

lemma moves_get : Moves f (Cursor.relocate f) get get := fun _ => rfl

lemma moves_peek? : Moves f (Option.map (Placed.relocate f)) peek? peek? := by
  rintro ⟨_ | ⟨t, ts⟩, finish⟩ <;> rfl

lemma moves_next? : Moves f (Option.map (Placed.relocate f)) next? next? := by
  rintro ⟨_ | ⟨t, ts⟩, finish⟩ <;> rfl

lemma moves_reject (g : α → α') (e : Expected) (t : Option Placed) :
    Moves f g (reject e t) (reject e (t.map (Placed.relocate f))) := by
  cases t with
  | none => exact fun _ => rfl
  | some t => exact moves_throw g _

/-! ### Single tokens -/

lemma moves_directive : Moves f (Directive.relocate f) directive directive := by
  refine moves_next?.bind ?_
  rintro (_ | ⟨t, i⟩)
  · exact moves_reject _ _ none
  · cases t
    case directive name => exact moves_pure _ _
    all_goals exact moves_reject _ _ (some _)

lemma moves_colon : Moves f id colon colon := by
  refine moves_next?.bind ?_
  rintro (_ | ⟨t, i⟩)
  · exact moves_reject _ _ none
  · cases t
    case colon => exact moves_pure _ _
    all_goals exact moves_reject _ _ (some _)

lemma moves_currency : Moves f id currency currency := by
  refine moves_next?.bind ?_
  rintro (_ | ⟨t, i⟩)
  · exact moves_reject _ _ none
  · cases t
    case currency code => exact moves_pure _ _
    all_goals exact moves_reject _ _ (some _)

lemma moves_number : Moves f id number number := by
  refine moves_next?.bind ?_
  rintro (_ | ⟨t, i⟩)
  · exact moves_reject _ _ none
  · cases t
    case number value => exact moves_pure _ _
    all_goals exact moves_reject _ _ (some _)

/-! ### Terms -/

lemma moves_literal : Moves f id literal literal := by
  refine moves_next?.bind ?_
  rintro (_ | ⟨t, i⟩)
  · exact moves_reject _ _ none
  · cases t
    case number value => exact moves_currency.bind fun code => moves_pure _ _
    case currency code =>
      refine moves_number.bind fun value => moves_peek?.bind ?_
      rintro (_ | ⟨t, j⟩)
      · exact moves_pure _ _
      · cases t
        case currency => exact moves_throw _ _
        all_goals exact moves_pure _ _
    all_goals exact moves_reject _ _ (some _)

lemma moves_sign : Moves f id sign sign := by
  refine moves_peek?.bind ?_
  rintro (_ | ⟨t, i⟩)
  · exact moves_pure _ _
  · cases t
    case plus => exact moves_next?.bind fun _ => moves_pure _ _
    case minus => exact moves_next?.bind fun _ => moves_pure _ _
    all_goals exact moves_pure _ _

lemma moves_entry : Moves f (Entry.relocate f) entry entry := by
  refine moves_get.bind fun c => moves_sign.bind fun s => moves_literal.bind fun l => ?_
  rw [Cursor.position_relocate]
  exact moves_pure _ _

lemma moves_term : Moves f (Term.relocate f) term term := by
  refine moves_entry.bind fun e => moves_peek?.bind ?_
  rintro (_ | ⟨t, i⟩)
  · exact moves_pure _ _
  · cases t
    case directive => exact moves_directive.bind fun d => moves_pure _ _
    all_goals exact moves_pure _ _

/-! ### Expressions and requests -/

lemma terms_of_error {found : List Term} {finish : Nat} {e : SyntaxError} {c : Cursor}
    (hs : StartsWith startsTerm ts) (ht : term ⟨ts, finish⟩ = (.error e, c)) :
    terms found ⟨ts, finish⟩ = (.error e, c) := by
  rw [terms]
  refine (if_pos hs).trans ?_
  split
  case h_1 heq =>
    rw [ht] at heq
    cases heq
  case h_2 heq =>
    rw [ht] at heq
    cases heq
    rfl

lemma moves_terms (found : List Term) :
    Moves f (List.map (Term.relocate f)) (terms found) (terms (found.map (Term.relocate f))) := by
  intro c
  fun_induction terms found c with
  | case1 found c hs t c' ht _ ih =>
    have hmoved : Reads term (c.relocate f) (t.relocate f) (c'.relocate f) :=
      (moves_term c).trans (congrArg _ ht)
    rw [← ih]
    exact terms_of_reads ((startsWith_relocate _).mpr hs) hmoved
  | case2 found c hs e c' ht =>
    exact terms_of_error ((startsWith_relocate _).mpr hs) ((moves_term c).trans (congrArg _ ht))
  | case3 found c hs =>
    refine (terms_of_not_startsWith fun h => hs ((startsWith_relocate _).mp h)).trans ?_
    rw [moved, SyntaxError.moved, List.map_reverse]
    rfl

lemma moves_expression : Moves f (Expression.relocate f) expression expression :=
  moves_term.bind fun _ => (moves_terms []).bind fun _ => moves_pure _ _

lemma moves_request : Moves f (Request.relocate f) request request := by
  refine moves_directive.bind fun d => moves_colon.bind fun _ => moves_expression.bind fun e =>
    moves_next?.bind ?_
  rintro (_ | t)
  · exact moves_pure _ _
  · exact moves_throw _ _

end Parser

end Cambist
