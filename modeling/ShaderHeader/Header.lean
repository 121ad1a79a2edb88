import ShaderHeader.Draft
import ShaderHeader.Embedding
import ShaderHeader.Layout
import ShaderHeader.Words

/-!
# Headers

The text of a generated header: an include guard around an array of words and a
constant for its size, inside the namespaces of the embedding.
-/

namespace ShaderHeader

namespace Header

/-- Cuts a list into stretches of the given length; the last may be shorter.  A
length of zero counts as one. -/
def chunks {α : Type} (width : Nat) : List α → List (List α)
  | [] => []
  | first :: rest => (first :: rest.take (width - 1)) :: chunks width (rest.drop (width - 1))
termination_by list => list.length
decreasing_by simp only [List.length_cons, List.length_drop]; omega

/-- A word as a literal: eight hexadecimal digits, letters in lower case. -/
def literal (word : UInt32) : String :=
  "0x" ++ String.ofList
    ([7, 6, 5, 4, 3, 2, 1, 0].map fun place => Nat.digitChar (word.toNat / Nat.pow 16 place % 16))

/-- One line of the initializer, without its indentation. -/
def initializerLine (words : List UInt32) : String :=
  ", ".intercalate (words.map literal) ++ ","

/-- The lines of the initializer, without their indentation. -/
def initializerLines (words : List UInt32) (layout : Layout) : List String :=
  (chunks layout.lineWidth words).map initializerLine

/-- A blank line, if there are namespaces to be set off by it. -/
def gap (namespaces : List String) (draft : Draft) : Draft :=
  if namespaces = [] then draft else draft.newline

/-- The header as a draft, before its last line is ended. -/
def draft (words : List UInt32) (embedding : Embedding) (layout : Layout) : Draft :=
  let opening := ({ unit := layout.indent.text } : Draft)
    |>.writeLine ("#ifndef " ++ embedding.guard)
    |>.writeLine ("#define " ++ embedding.guard)
    |>.newline
    |>.writeLine "#include <cstdint>"
    |>.writeLine "#include <cstddef>"
    |>.newline
    |>.writeLines (embedding.namespaces.map fun segment => "namespace " ++ segment ++ " \x7b")
  let body := gap embedding.namespaces opening
    |>.writeLine ("alignas(4) static const uint32_t " ++ embedding.arrayName ++ "[] = \x7b")
    |>.indented (·.writeLines (initializerLines words layout))
    |>.writeLine "\x7d;"
    |>.newline
    |>.writeLine
      ("static const size_t " ++ embedding.sizeName ++ " = sizeof(" ++ embedding.arrayName ++ ");")
    |>.newline
    |>.writeLines (embedding.namespaces.reverse.map fun segment => "\x7d // namespace " ++ segment)
  gap embedding.namespaces body
    |>.writeLine ("#endif // " ++ embedding.guard)

/-- The text of the header that declares the given words. -/
def text (words : List UInt32) (embedding : Embedding) (layout : Layout) : String :=
  (draft words embedding layout).finish

/-- The text of the header for a module, in the usual layout. -/
def ofModule (bytes : List UInt8) (embedding : Embedding) : String :=
  text (Words.ofBytes bytes).list embedding {}

end Header

end ShaderHeader
