import ShaderHeader.Text.Digits
import ShaderHeader.Toml.Blank

/-!
# Quoted text

The four ways to write a string: with double quotes, where a backslash escapes,
or with single quotes, where nothing does; each on one line or, with three
quotes, on several.
-/

namespace ShaderHeader

namespace Toml

open Scanner

/-- A hexadecimal digit. -/
def hexDigit : Scanner Nat :=
  filterMap (satisfy fun _ => true) hexValue?

/-- A code point of so many hexadecimal digits. -/
def codePoint (length : Nat) : Scanner Char :=
  filterMap (times hexDigit length) fun digits => charOf? (ofDigits 16 digits)

/-- What stands for a character after a backslash. -/
def escaped : Scanner Char := do
  match ← satisfy fun _ => true with
  | 'b' => return '\x08'
  | 't' => return '\t'
  | 'n' => return '\n'
  | 'f' => return '\x0c'
  | 'r' => return '\r'
  | '"' => return '"'
  | '\\' => return '\\'
  | 'u' => codePoint 4
  | 'U' => codePoint 8
  | _ => failure

/-- A character between double quotes. -/
def basicChar : Scanner Char :=
  satisfy (fun c => isText c && c != '"' && c != '\\') <|> (do char '\\'; escaped)

/-- A character between single quotes. -/
def literalChar : Scanner Char :=
  satisfy fun c => isText c && c != '\''

/-- Text between double quotes on one line. -/
def basicString : Scanner String := do
  char '"'
  let text ← many basicChar
  char '"'
  return String.ofList text

/-- Text between single quotes on one line. -/
def literalString : Scanner String := do
  char '\''
  let text ← many literalChar
  char '\''
  return String.ofList text

/-- A quote that belongs to the text between triple quotes.  Three quotes end
the text, and up to two more before them belong to it. -/
def innerQuote (quote : Char) : Scanner Char := fun text =>
  let run := (text.takeWhile (· = quote)).length
  if run = 0 ∨ run = 3 ∨ 6 ≤ run then none else some (quote, text.drop 1)

/-- A backslash at the end of a line.  It takes with it all blanks and line ends
up to the next character. -/
def continuation : Scanner Unit := do
  char '\\'
  blanks
  newline
  let _ ← many (((fun _ => ()) <$> satisfy isBlank) <|> newline)

/-- A line end inside text, whichever way it is written. -/
def innerNewline : Scanner Char := do
  newline
  return '\n'

/-- A piece of text between triple double quotes. -/
def multilineBasicPiece : Scanner (List Char) :=
  ((fun _ => []) <$> continuation)
    <|> ((fun c => [c]) <$> (basicChar <|> innerNewline <|> innerQuote '"'))

/-- Text between triple quotes, made of pieces.  A line end right after the
opening quotes does not count. -/
def multiline (quote : Char) (piece : Scanner (List Char)) : Scanner String := do
  exact [quote, quote, quote]
  let _ ← optional newline
  let text ← many piece
  exact [quote, quote, quote]
  return String.ofList text.flatten

/-- Text between triple double quotes. -/
def multilineBasicString : Scanner String :=
  multiline '"' multilineBasicPiece

/-- Text between triple single quotes. -/
def multilineLiteralString : Scanner String :=
  multiline '\'' ((fun c => [c]) <$> (literalChar <|> innerNewline <|> innerQuote '\''))

/-- A string in any of its four forms. -/
def string : Scanner String :=
  multilineBasicString <|> basicString <|> multilineLiteralString <|> literalString

end Toml

end ShaderHeader
