import Cambist.Text.Lines
import Mathlib.Tactic.Common

/-!
# Text as bytes

A text is decoded from its own bytes. No byte of it ends a line unless it has a line feed among its
characters, since the bytes of every character beyond ASCII have their highest bit set. So a text
without line feeds is one line.
-/

namespace Cambist

variable {s : String} {c : Char}

/-! ### Encoding -/

end Cambist
