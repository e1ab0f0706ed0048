/-!
# Trimming and indenting text

A line is answered without the white space around it. White space is what the Unicode standard says
it is: twenty-five characters, more than separate the tokens of a line.

A text of several lines is indented behind a heading.
-/

namespace Cambist

/-- A character with the Unicode property White_Space. -/
def isWhiteSpace (c : Char) : Bool :=
  let n := c.toNat
  (0x09 ≤ n && n ≤ 0x0d) || n = 0x20 || n = 0x85 || n = 0xa0 || n = 0x1680 ||
    (0x2000 ≤ n && n ≤ 0x200a) || n = 0x2028 || n = 0x2029 || n = 0x202f || n = 0x205f || n = 0x3000

/-- Characters without the white space at either end. -/
def trimChars (cs : List Char) : List Char :=
  ((cs.dropWhile isWhiteSpace).reverse.dropWhile isWhiteSpace).reverse

/-- A text without the white space at either end. -/
def trim (s : String) : String := .ofList (trimChars s.toList)

@[simp] theorem toList_trim (s : String) : (trim s).toList = trimChars s.toList := by simp [trim]

/-- A text whose lines after the first one all start in a column. -/
def indented (column : Nat) (s : String) : String :=
  .ofList (s.toList.flatMap fun c => if c = '\n' then c :: List.replicate column ' ' else [c])

end Cambist
