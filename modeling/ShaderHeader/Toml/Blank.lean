import ShaderHeader.Toml.Scanner

/-!
# Blanks, line ends and comments

The parts of a TOML document that carry no value.
-/

namespace ShaderHeader

namespace Toml

open Scanner

/-- A character that may stand in text as itself: a tab, or anything that is no
control character of ASCII. -/
def isText (c : Char) : Bool :=
  c == '\t' || (0x20 ≤ c.toNat && c.toNat != 0x7F)

/-- A blank within a line. -/
def isBlank (c : Char) : Bool :=
  c == ' ' || c == '\t'

/-- Blanks within a line, perhaps none. -/
def blanks : Scanner Unit := do
  let _ ← many (satisfy isBlank)

/-- The end of a line: a line feed, perhaps after a carriage return. -/
def newline : Scanner Unit :=
  char '\n' <|> exact ['\r', '\n']

/-- A comment, up to the end of its line. -/
def comment : Scanner Unit := do
  char '#'
  let _ ← many (satisfy isText)

/-- The end of a line or of the document. -/
def lineEnd : Scanner Unit :=
  newline <|> atEnd

/-- What may follow a statement on its line: blanks, then perhaps a comment. -/
def lineTail : Scanner Unit := do
  blanks
  let _ ← optional comment
  lineEnd

/-- Blanks, line ends and comments, as they may stand between items of an array. -/
def spacing : Scanner Unit := do
  let _ ← many (((fun _ => ()) <$> satisfy isBlank) <|> newline <|> (do comment; newline))

end Toml

end ShaderHeader
