/-!
# Ranges of characters

A property of characters is given by the ranges of code points that have it.
-/

namespace ShaderHeader

/-- The first and the last code point of each range. -/
abbrev CharRanges := List (Nat × Nat)

namespace CharRanges

/-- Whether a character lies in one of the ranges. -/
def covers (ranges : CharRanges) (c : Char) : Bool :=
  ranges.any fun range => range.1 ≤ c.toNat && c.toNat ≤ range.2

/-- Ranges are ascending when none is empty and each ends before the next one
begins, with a gap between them. -/
def ascending : CharRanges → Bool
  | [] => true
  | [range] => range.1 ≤ range.2
  | range :: next :: rest => range.1 ≤ range.2 && range.2 + 1 < next.1 && ascending (next :: rest)

end CharRanges

end ShaderHeader
