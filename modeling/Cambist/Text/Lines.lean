/-!
# Bytes and lines

Files and input come as bytes. A line is what stands before a line feed, or after the last one if
there is anything; it is text only if its bytes are well-formed UTF-8.
-/

namespace Cambist

/-- The byte that ends a line. -/
def lineFeed : UInt8 := 10

/-- The lines of the bytes, behind the start of the first line and the lines found before, both in
reverse order. -/
def linesFrom : List UInt8 → List UInt8 → List (List UInt8) → List (List UInt8)
  | [], [], found         => found.reverse
  | [], line, found       => (line.reverse :: found).reverse
  | b :: bs, line, found  =>
    if b = lineFeed then linesFrom bs [] (line.reverse :: found) else linesFrom bs (b :: line) found

/-- The lines of the bytes without their line feeds. -/
def lines (bytes : List UInt8) : List (List UInt8) := linesFrom bytes [] []

/-- The text that the bytes encode in UTF-8. -/
def decodeUtf8? (bytes : List UInt8) : Option String := String.fromUTF8? ⟨bytes.toArray⟩

/-- The bytes of a text in UTF-8. -/
def encodeUtf8 (s : String) : List UInt8 := s.toUTF8.data.toList

/-- Why bytes cannot be had as text. -/
inductive ReadError where
  | notFound
  | notUtf8
deriving DecidableEq

/-- The message of a read error. -/
def ReadError.message : ReadError → String
  | notFound => "No such file or directory (os error 2)"
  | notUtf8  => "stream did not contain valid UTF-8"

end Cambist
