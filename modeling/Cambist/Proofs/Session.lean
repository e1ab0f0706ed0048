import Cambist.Proofs.Evaluation.Explanation
import Cambist.Session

/-!
# Sessions, line by line

The transcript of a session is put together from its lines. Every line costs one prompt, and behind
it adds an answer, an event or nothing, whatever the lines before it were; `Transcribes` says so of
whole sessions. So the transcript of an input begins with that of its first lines and goes on with
that of the others, unless a line that is no text has ended the session before them.
-/

namespace Cambist

/-! ### Lines of bytes -/

lemma linesFrom_found (bs line : List UInt8) (found : List (List UInt8)) :
    linesFrom bs line found = found.reverse ++ linesFrom bs line [] := by
  induction bs generalizing line found with
  | nil => cases line <;> simp [linesFrom]
  | cons b bs ih =>
    rw [linesFrom, linesFrom]
    split_ifs
    · rw [ih [] (line.reverse :: found), ih [] [line.reverse]]
      simp
    · exact ih (b :: line) found

/-- Where a line has ended, the lines of the bytes behind it begin. -/
lemma linesFrom_append {a line : List UInt8} (b : List UInt8)
    (h : a = [] ∧ line = [] ∨ a.getLast? = some lineFeed) :
    linesFrom (a ++ b) line [] = linesFrom a line [] ++ lines b := by
  induction a generalizing line with
  | nil =>
    obtain ⟨-, rfl⟩ := h.resolve_right nofun
    rfl
  | cons x a ih =>
    have hlast : (x :: a).getLast? = some lineFeed := h.resolve_left nofun
    rw [List.cons_append, linesFrom, linesFrom]
    split_ifs with hx
    · have hrest : a = [] ∧ ([] : List UInt8) = [] ∨ a.getLast? = some lineFeed := by
        cases a with
        | nil => exact Or.inl ⟨rfl, rfl⟩
        | cons y a => exact Or.inr hlast
      rw [linesFrom_found (a ++ b), linesFrom_found a, ih hrest, List.append_assoc]
    · cases a with
      | nil => exact absurd (Option.some.inj hlast) hx
      | cons y a => exact ih (Or.inr hlast)

lemma lines_append {a : List UInt8} (b : List UInt8) (h : a = [] ∨ a.getLast? = some lineFeed) :
    lines (a ++ b) = lines a ++ lines b :=
  linesFrom_append b (h.imp_left fun h => ⟨h, rfl⟩)

namespace Session

variable {t : RateTable} {text out out' : String} {added es es' : List Event}
  {ls ms : List (List UInt8)} {T : Transcript}

/-! ### What a line adds -/

/-- What a line adds to a session behind its prompt: nothing if it is blank, its answer if it has
one, and otherwise an event. -/
inductive Adds (t : RateTable) (line : String) : String → List Event → Prop where
  | blank (h : trim line = "") : Adds t line "" []
  | answer {c : Computation} (h : trim line ≠ "") (hc : t.compute (trim line) = .ok c) :
      Adds t line
        (trim line ++ " = " ++ c.answer.value.text ++ "," ++ c.answer.currency ++ ".\n") []
  | warning {e : Failure} (h : trim line ≠ "") (he : t.compute (trim line) = .error e)
      (hline : (∃ s, e = .syntactic s) ∨ ∃ u i, e = .evaluation (.selfConversion u i)) :
      Adds t line "" [⟨.warn, trim line, e.message⟩]
  | error {e : EvaluationError} (h : trim line ≠ "")
      (he : t.compute (trim line) = .error (.evaluation e))
      (hline : ∀ u i, e ≠ .selfConversion u i) :
      Adds t line "" [⟨.error, trim line, e.message⟩]

lemma exists_adds (t : RateTable) (line : String) : ∃ text added, Adds t line text added := by
  by_cases h : trim line = ""
  · exact ⟨_, _, .blank h⟩
  · cases hc : t.compute (trim line) with
    | ok c => exact ⟨_, _, .answer h hc⟩
    | error e =>
      by_cases hline : (∃ s, e = .syntactic s) ∨ ∃ u i, e = .evaluation (.selfConversion u i)
      · exact ⟨_, _, .warning h hc hline⟩
      · push Not at hline
        cases e with
        | syntactic s => exact absurd rfl (hline.1 s)
        | evaluation e =>
          exact ⟨_, _, .error h hc fun u i he => hline.2 u i (congrArg _ he)⟩

/-- A transcript with more text and more events. -/
def Transcript.tell (done : Transcript) (text : String) (added : List Event) : Transcript :=
  { done with output := done.output ++ text, events := done.events ++ added.toArray }

lemma Transcript.tell_nil (done : Transcript) : done.tell "" [] = done := by
  simp [tell]

lemma Transcript.tell_tell (done : Transcript) :
    (done.tell text added).tell out es = done.tell (text ++ out) (added ++ es) := by
  simp [tell, String.append_assoc]

lemma respond_of_ne {line : String} (h : trim line ≠ "") :
    respond t line = match t.compute (trim line) with
      | .ok c    => .answer (trim line) c
      | .error e => .log ⟨level e, trim line, e.message⟩ := by
  rw [respond]
  exact if_neg fun hempty => h (String.isEmpty_iff.mp hempty)

lemma level_of_evaluation {e : EvaluationError} (h : ∀ u i, e ≠ .selfConversion u i) :
    level (.evaluation e) = .error := by
  cases e with
  | selfConversion u i => exact absurd rfl (h u i)
  | _ => rfl

/-- A line of text takes a turn that adds what it adds, and the session goes on. -/
lemma add_respond {line : String} (h : Adds t line text added) (done : Transcript) :
    done.add (.reply (respond t line)) = done.tell (prompt ++ text) added := by
  cases h with
  | blank h =>
    have hrespond : respond t line = .silence := by
      rw [respond, h]
      rfl
    rw [hrespond]
    simp [Transcript.add, Transcript.tell, Turn.text, Turn.event?]
  | answer h hc =>
    rw [respond_of_ne h, hc]
    simp [Transcript.add, Transcript.tell, Turn.text, Turn.event?, Answer.text,
      String.append_assoc]
  | @warning e h he hline =>
    have hlevel : level e = .warn := by
      rcases hline with ⟨s, rfl⟩ | ⟨u, i, rfl⟩ <;> rfl
    rw [respond_of_ne h, he]
    simp [Transcript.add, Transcript.tell, Turn.text, Turn.event?, hlevel]
  | error h he hline =>
    rw [respond_of_ne h, he]
    simp [Transcript.add, Transcript.tell, Turn.text, Turn.event?, level_of_evaluation hline,
      Failure.message]

/-! ### What lines add -/

/-- What lines of text add to a session, one behind the other, with a prompt for each of them. -/
inductive Tells (t : RateTable) : List (List UInt8) → String → List Event → Prop where
  | nil : Tells t [] "" []
  | cons {bytes : List UInt8} {line text out : String} {added es : List Event}
      {rest : List (List UInt8)} (hline : decodeUtf8? bytes = some line)
      (hadds : Adds t line text added) (h : Tells t rest out es) :
      Tells t (bytes :: rest) (prompt ++ text ++ out) (added ++ es)

/-- The transcript of some lines: what all of them add, a last prompt and a new line, or what the
lines before one that is no text add, and its prompt. -/
inductive Transcribes (t : RateTable) : List (List UInt8) → Transcript → Prop where
  | finished {ls : List (List UInt8)} {out : String} {es : List Event} (h : Tells t ls out es) :
      Transcribes t ls ⟨out ++ prompt ++ "\n", es.toArray, none⟩
  | broken {before after : List (List UInt8)} {bad : List UInt8} {out : String} {es : List Event}
      (h : Tells t before out es) (hbad : decodeUtf8? bad = none) :
      Transcribes t (before ++ bad :: after) ⟨out ++ prompt, es.toArray, some .notUtf8⟩

lemma Tells.append (h : Tells t ls out es) (h' : Tells t ms out' es') :
    Tells t (ls ++ ms) (out ++ out') (es ++ es') := by
  induction h with
  | nil =>
    rw [List.nil_append, List.nil_append, String.empty_append]
    exact h'
  | cons hline hadds _ ih =>
    rw [List.cons_append, List.append_assoc, String.append_assoc]
    exact .cons hline hadds ih

/-- Lines that are told are text. -/
lemma Tells.decode_ne_none (h : Tells t ls out es) : ∀ bytes ∈ ls, decodeUtf8? bytes ≠ none := by
  induction h with
  | nil => nofun
  | cons hline _ _ ih =>
    refine List.forall_mem_cons.mpr ⟨?_, ih⟩
    rw [hline]
    exact Option.some_ne_none _

/-- Lines of text put off what follows them, and nothing else. -/
lemma continueWith_append (h : Tells t ls out es) (done : Transcript) (ms : List (List UInt8)) :
    continueWith t done (ls ++ ms) = continueWith t (done.tell out es) ms := by
  induction h generalizing done with
  | nil => rw [List.nil_append, Transcript.tell_nil]
  | cons hline hadds _ ih =>
    rw [List.cons_append, continueWith, turn, hline]
    dsimp only
    rw [add_respond hadds, ih, Transcript.tell_tell]

lemma Transcribes.continueWith_eq (h : Transcribes t ls T) : continueWith t {} ls = T := by
  cases h with
  | finished h =>
    have hall := continueWith_append h {} []
    rw [List.append_nil] at hall
    rw [hall]
    simp [continueWith, turn, Transcript.add, Transcript.tell, Turn.text, Turn.event?]
  | broken h hbad =>
    rw [continueWith_append h, continueWith, turn, hbad]
    simp [Transcript.add, Transcript.tell, Turn.text, Turn.event?]

lemma exists_transcribes (t : RateTable) (ls : List (List UInt8)) : ∃ T, Transcribes t ls T := by
  induction ls with
  | nil => exact ⟨_, .finished .nil⟩
  | cons bytes ls ih =>
    cases hline : decodeUtf8? bytes with
    | none =>
      have h : Transcribes t ([] ++ bytes :: ls) _ := .broken .nil hline
      exact ⟨_, h⟩
    | some line =>
      obtain ⟨text, added, hadds⟩ := exists_adds t line
      obtain ⟨T, hT⟩ := ih
      cases hT with
      | finished h => exact ⟨_, .finished (.cons hline hadds h)⟩
      | broken h hbad => exact ⟨_, .broken (.cons hline hadds h) hbad⟩

/-! ### Whole sessions -/

lemma transcribes_run (t : RateTable) (input : List UInt8) :
    Transcribes t (lines input) (run t input) := by
  obtain ⟨T, hT⟩ := exists_transcribes t (lines input)
  rw [run, hT.continueWith_eq]
  exact hT

lemma run_eq {input : List UInt8} (h : Transcribes t (lines input) T) : run t input = T :=
  h.continueWith_eq

lemma Transcribes.append (h : Tells t ls out es) (hT : Transcribes t ms T) :
    Transcribes t (ls ++ ms) ⟨out ++ T.output, es.toArray ++ T.events, T.failure⟩ := by
  cases hT with
  | finished h' =>
    rw [← String.append_assoc, ← String.append_assoc, List.append_toArray]
    exact .finished (h.append h')
  | broken h' hbad =>
    rw [← String.append_assoc, List.append_toArray, ← List.append_assoc]
    exact .broken (h.append h') hbad

/-- Every session is transcribed line by line. Where an input is cut behind a line feed, its
transcript is that of the first part without its last prompt and new line, followed by that of the
second, if all lines of the first part are text. If one is not, the session ends there, and the
second part is not looked at. -/
theorem run_append (t : RateTable) :
    (∀ input, Transcribes t (lines input) (run t input)) ∧
    ∀ a b : List UInt8, a = [] ∨ a.getLast? = some lineFeed →
      ((∀ bytes ∈ lines a, decodeUtf8? bytes ≠ none) → ∃ out,
        (run t a).output = out ++ prompt ++ "\n" ∧
        run t (a ++ b) = ⟨out ++ (run t b).output, (run t a).events ++ (run t b).events,
          (run t b).failure⟩) ∧
      ((∃ bytes ∈ lines a, decodeUtf8? bytes = none) →
        run t (a ++ b) = run t a ∧ ∃ before bad after out es,
          lines a = before ++ bad :: after ∧ Tells t before out es ∧ decodeUtf8? bad = none ∧
          run t a = ⟨out ++ prompt, es.toArray, some .notUtf8⟩) := by
  refine ⟨transcribes_run t, fun a b ha => ?_⟩
  have hlines := lines_append b ha
  have hrun := transcribes_run t a
  generalize lines a = ls at *
  generalize run t a = T at *
  cases hrun with
  | finished h =>
    refine ⟨fun _ => ⟨_, rfl, ?_⟩, ?_⟩
    · apply run_eq
      rw [hlines]
      exact .append h (transcribes_run t b)
    · rintro ⟨bytes, hmem, hbad⟩
      exact absurd hbad (h.decode_ne_none bytes hmem)
  | @broken before after bad out es h hbad =>
    refine ⟨fun htext => ?_, fun _ => ⟨?_, before, bad, after, out, es, rfl, h, hbad, rfl⟩⟩
    · exact absurd hbad (htext bad (List.mem_append_right before List.mem_cons_self))
    · apply run_eq
      rw [hlines, List.append_assoc, List.cons_append]
      exact .broken h hbad

/-- An answer, a blank line and a warning, in front of a line that is no text and behind it. -/
theorem run_append_sample :
    let a := encodeUtf8 "usd: 1USD + 2EUR\r\n\nusd 1\n"
    let bad : List UInt8 := [0xff, lineFeed]
    a.getLast? = some lineFeed ∧ Transcribes .sample (lines a) (run .sample a) ∧
      (run .sample a).events.size = 1 ∧
      (∃ out, (run .sample a).output = out ++ prompt ++ "\n" ∧
        run .sample (a ++ bad) = ⟨out ++ (run .sample bad).output,
          (run .sample a).events ++ (run .sample bad).events, (run .sample bad).failure⟩) ∧
      run .sample (bad ++ a) = run .sample bad := by
  intro a bad
  obtain ⟨htranscribes, happend⟩ := run_append .sample
  have ha : a.getLast? = some lineFeed := by decide +kernel
  obtain ⟨htext, -⟩ := happend a bad (Or.inr ha)
  obtain ⟨-, hbroken⟩ := happend bad a (Or.inr rfl)
  exact ⟨ha, htranscribes a, by decide +kernel, htext (by decide +kernel),
    (hbroken (by decide +kernel)).1⟩

end Session

end Cambist
