import ShaderHeader.Text.Ranges

/-!
# White space

The characters with the Unicode property White_Space, and texts without it at
their ends.
-/

namespace ShaderHeader

/-- The characters with the property White_Space. -/
def whiteSpaceRanges : CharRanges := [
  (0x9, 0xD), (0x20, 0x20), (0x85, 0x85), (0xA0, 0xA0), (0x1680, 0x1680), (0x2000, 0x200A),
  (0x2028, 0x2029), (0x202F, 0x202F), (0x205F, 0x205F), (0x3000, 0x3000)]

example : whiteSpaceRanges.ascending = true := by decide

/-- Whether a character is white space. -/
def isWhiteSpace (c : Char) : Bool :=
  whiteSpaceRanges.covers c

/-- A text without the white space at its two ends. -/
def trimmed (text : List Char) : List Char :=
  ((text.dropWhile isWhiteSpace).reverse.dropWhile isWhiteSpace).reverse

end ShaderHeader
