/-!
# Layout of the array initializer

How far initializer lines are indented and how many literals stand on each.
-/

namespace ShaderHeader

/-- One level of indentation. -/
inductive Indent where
  | spaces (count : Nat)
  | tab
deriving DecidableEq, Repr

/-- The text of one level of indentation. -/
def Indent.text : Indent → String
  | .spaces count => String.ofList (List.replicate count ' ')
  | .tab => "\t"

/-- The layout of an array initializer.  Without further wishes a line is
indented by four spaces and carries six words. -/
structure Layout where
  indent : Indent := .spaces 4
  wordsPerLine : Nat := 6
deriving DecidableEq, Repr

/-- How many words a line carries: as many as wished for, but at least one. -/
def Layout.lineWidth (layout : Layout) : Nat :=
  max layout.wordsPerLine 1

end ShaderHeader
