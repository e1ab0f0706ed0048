/-!
# Text for a terminal

A text for a terminal marks its styles by escape sequences, which the terminal obeys and does not
show. Where the text goes to anything else, the sequences are taken out of it, and with them the
control characters that only a terminal understands.

A text is followed through its sequences one character at a time (`Mode.next`). What is left of it
holds only characters that are shown outside of sequences (`isShown_of_mem_plain`), and a text of
such characters is left as it is (`plain_eq_self`).
-/

namespace Cambist.Terminal

/-! ### Characters -/

/-- A character whose code lies between two others, both included. -/
def within (low high : Nat) (c : Char) : Bool := low ≤ c.toNat && c.toNat ≤ high

/-- A control character that is white space. -/
def isBlank (c : Char) : Bool := c = '\t' || c = '\n' || c = '\x0c' || c = '\r'

/-- A character beyond ASCII. -/
def isWide (c : Char) : Bool := 0x80 ≤ c.toNat

/-- A character that is shown outside of sequences: of the ASCII control characters only the white
space, and every other character. -/
def isShown (c : Char) : Bool := isBlank c || within 0x20 0x7e c || isWide c

/-- A character that may stand between the parameters of a sequence and its last character. -/
def isIntermediate (c : Char) : Bool := within 0x20 0x2f c

/-- A character that holds the byte that ends a control string. Characters beyond ASCII can hold it
in their UTF-8 form. -/
def holdsTerminator (c : Char) : Bool := (String.utf8EncodeChar c).contains 0x9c

/-! ### Sequences -/

/-- Where a text stands between two characters. -/
inductive Mode where
  /-- Outside of sequences. -/
  | ground
  /-- Behind the escape character. -/
  | escape
  /-- In an escape sequence whose last character is still to come. -/
  | escapeIntermediate
  /-- In a control sequence, as styles are. -/
  | controlSequence
  /-- At the start of a device control string. -/
  | deviceEntry
  /-- In the parameters of a device control string. -/
  | deviceParameter
  /-- Between the parameters and the contents of a device control string. -/
  | deviceIntermediate
  /-- In the contents of a control string. -/
  | controlString
  /-- In a command to the operating system. -/
  | systemCommand
deriving DecidableEq

/-- Where a text stands behind an escape character and another one. -/
def afterEscape (c : Char) : Mode :=
  if isIntermediate c then .escapeIntermediate
  else match c with
    | '[' => .controlSequence
    | ']' => .systemCommand
    | 'P' => .deviceEntry
    | 'X' | '^' | '_' => .controlString
    | _   => if within 0x30 0x7e c then .ground else .escape

/-- Where a text stands behind one more character of a sequence. Two control characters break off
every sequence, and the escape character begins a new one. -/
def Mode.next (m : Mode) (c : Char) : Mode :=
  if c = '\x18' || c = '\x1a' then .ground
  else if c = '\x1b' then .escape
  else match m with
    | .ground => .ground
    | .escape => afterEscape c
    | .escapeIntermediate => if within 0x30 0x7e c then .ground else .escapeIntermediate
    | .controlSequence => if within 0x40 0x7e c then .ground else .controlSequence
    | .deviceEntry =>
      if isIntermediate c then .deviceIntermediate
      else if within 0x30 0x3f c then .deviceParameter
      else if within 0x40 0x7e c then .controlString
      else .deviceEntry
    | .deviceParameter =>
      if isIntermediate c then .deviceIntermediate
      else if within 0x3c 0x7e c then .controlString
      else .deviceParameter
    | .deviceIntermediate => if within 0x30 0x7e c then .controlString else .deviceIntermediate
    | .controlString => if holdsTerminator c then .ground else .controlString
    | .systemCommand => if c = '\x07' then .ground else .systemCommand

/-- Is this character shown where the text stands? White space is shown inside a sequence too, as
long as the sequence is none of the strings. -/
def Mode.shows : Mode → Char → Bool
  | .ground, c => isShown c
  | .escape, c | .escapeIntermediate, c | .controlSequence, c => isBlank c
  | _, _ => false

/-! ### Plain text -/

/-- The characters that are shown. Once one is shown, those behind it are shown as outside of
sequences. The first that is not takes up the sequence where it was left, unless a character beyond
ASCII has ended it. -/
def shown (showing : Bool) (m : Mode) : List Char → List Char
  | [] => []
  | c :: cs =>
    if m.shows c || showing && isShown c then
      c :: shown true (if isWide c then .ground else m) cs
    else shown false (m.next c) cs

/-- A text without its escape sequences and control characters. -/
def plain (s : String) : String := .ofList (shown false .ground s.toList)

theorem Mode.isShown_of_shows {m : Mode} {c : Char} (h : m.shows c = true) : isShown c = true := by
  cases m <;> simp_all [Mode.shows, isShown]

theorem isShown_of_mem_shown {showing : Bool} {m : Mode} {cs : List Char} {c : Char}
    (h : c ∈ shown showing m cs) : isShown c = true := by
  induction cs generalizing showing m with
  | nil => simp [shown] at h
  | cons d ds ih =>
    simp only [shown] at h
    split at h
    · rename_i hd
      simp only [Bool.or_eq_true, Bool.and_eq_true] at hd
      rcases List.mem_cons.mp h with rfl | h
      · exact hd.elim Mode.isShown_of_shows And.right
      · exact ih h
    · exact ih h

/-- Only characters that are shown outside of sequences are left. -/
theorem isShown_of_mem_plain {s : String} {c : Char} (h : c ∈ (plain s).toList) :
    isShown c = true := by
  simp only [plain, String.toList_ofList] at h
  exact isShown_of_mem_shown h

theorem shown_eq_self (showing : Bool) {cs : List Char} (h : ∀ c ∈ cs, isShown c = true) :
    shown showing .ground cs = cs := by
  induction cs generalizing showing with
  | nil => rfl
  | cons c cs ih =>
    have hc : Mode.shows .ground c = true := h c List.mem_cons_self
    simp only [shown, hc, Bool.true_or, if_true, ite_self]
    rw [ih true fun d hd => h d (List.mem_cons_of_mem c hd)]

/-- A text whose characters are all shown outside of sequences is left as it is. -/
theorem plain_eq_self {s : String} (h : ∀ c ∈ s.toList, isShown c = true) : plain s = s := by
  simp [plain, shown_eq_self false h]

/-! ### Styles -/

/-- Text in bold letters. -/
def bold (s : String) : String := "\x1b[1m" ++ s ++ "\x1b[0m"

/-- Text in bold letters and underlined. -/
def underlined (s : String) : String := "\x1b[1m\x1b[4m" ++ s ++ "\x1b[0m"

end Cambist.Terminal
