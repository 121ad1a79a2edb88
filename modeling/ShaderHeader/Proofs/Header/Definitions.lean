import ShaderHeader.Proofs.Header.ArrayReader

/-!
# Literals and definitions

What a reader finds in the text of a header: the literals of its array, and the lines that define
something.  Of these there are but two, the array and the constant for its size
(`Header.definitions_text`).
-/

namespace ShaderHeader

namespace Header

/-- The literals that are found in the text of a header. -/
def literalsOf (header : String) : List (List Char) :=
  (arrayLines header.toList).flatMap literalsOn

/-- The lines of a text that define something, which takes an equals sign. -/
def definitions (header : String) : List (List Char) :=
  (linesOf header.toList).filter ('=' ∈ ·)

variable {words : List UInt32} {embedding : Embedding} {layout : Layout}

theorem literalsOf_text (valid : embedding.Valid) :
    literalsOf (text words embedding layout) = words.map fun word => (literal word).toList := by
  rw [literalsOf, arrayLines_text valid, flatMap_literalsOn_indentedLines]

/-- The lines of a header in three parts: before the array, the array, and from its size on. -/
theorem lines_eq_append (words : List UInt32) (embedding : Embedding) (layout : Layout) :
    lines words embedding layout = openingLines embedding ++
      ((arrayLine embedding :: indentedLines words layout ++ ["\x7d;", ""]) ++
        (sizeLine embedding :: endingLines embedding)) := by
  rw [lines, closingLines_eq]
  simp only [List.append_assoc, List.cons_append, List.nil_append]

/-- Lines of characters other than the equals sign define nothing. -/
theorem idle_of_consistsOf {lines : List String} {kind : Char → Bool}
    (consists : ∀ line ∈ lines, ConsistsOf line kind) (other : kind '=' = false) :
    ∀ line ∈ lines.map String.toList, '=' ∉ line := by
  intro spelled member
  obtain ⟨line, inside, rfl⟩ := List.mem_map.mp member
  exact (consists line inside).not_mem other

theorem idle_openingLines (valid : embedding.Valid) :
    ∀ line ∈ (openingLines embedding).map String.toList, '=' ∉ line :=
  idle_of_consistsOf (fun _ member => consistsOf_openingLines valid member) (by decide)

/-- The lines of the array but its first define nothing. -/
theorem idle_initializer (words : List UInt32) (layout : Layout) :
    ∀ line ∈ (indentedLines words layout ++ ["\x7d;", ""]).map String.toList, '=' ∉ line := by
  have body : ∀ line ∈ indentedLines words layout ++ ["\x7d;", ""], ConsistsOf line isBody := by
    intro line member
    rw [List.mem_append, List.mem_cons, List.mem_singleton] at member
    rcases member with inside | rfl | rfl
    · exact consistsOf_indentedLines inside
    · decide
    · decide
  exact idle_of_consistsOf body (by decide)

theorem idle_endingLines (valid : embedding.Valid) :
    ∀ line ∈ (endingLines embedding).map String.toList, '=' ∉ line :=
  idle_of_consistsOf (fun _ member => consistsOf_endingLines valid member) (by decide)

/-- **What a header defines**: the array and its size, the latter as the size of this array. -/
theorem definitions_text (valid : embedding.Valid) :
    definitions (text words embedding layout) =
      [(arrayLine embedding).toList, (sizeLine embedding).toList] := by
  have none {lines : List (List Char)} (idle : ∀ line ∈ lines, '=' ∉ line) :
      lines.filter ('=' ∈ ·) = [] :=
    List.filter_eq_nil_iff.mpr fun line member => mt of_decide_eq_true (idle line member)
  have kept {line : List Char} (defines : '=' ∈ line) (rest : List (List Char)) :
      (line :: rest).filter ('=' ∈ ·) = line :: rest.filter ('=' ∈ ·) :=
    List.filter_cons_of_pos (decide_eq_true defines)
  have array : '=' ∈ (arrayLine embedding).toList := by
    unfold arrayLine
    rw [String.toList_append, List.mem_append]
    exact .inr (by decide)
  have size : '=' ∈ (sizeLine embedding).toList := by
    unfold sizeLine
    simp only [String.toList_append, List.mem_append]
    exact .inl (.inl (.inr (by decide)))
  rw [definitions, linesOf_text valid, lines_eq_append, List.cons_append, List.cons_append,
    List.map_append, List.map_cons, List.map_append, List.map_cons, List.filter_append,
    none (idle_openingLines valid), List.nil_append, kept array, List.filter_append,
    none (idle_initializer words layout), List.nil_append, kept size,
    none (idle_endingLines valid)]

end Header

end ShaderHeader
