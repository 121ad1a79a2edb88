/-!
# Separated pieces

Cutting a list at every occurrence of a separator.
-/

namespace ShaderHeader

/-- The stretches between separators.  There is one more of them than there are
separators, and none of them holds one. -/
def pieces {α : Type} [DecidableEq α] (separator : α) : List α → List (List α)
  | [] => [[]]
  | first :: rest =>
    if first = separator then [] :: pieces separator rest
    else match pieces separator rest with
      | [] => [[first]]
      | piece :: others => (first :: piece) :: others

end ShaderHeader
