import ShaderHeader.Proofs.Header.ArrayReader

/-!
# White space in headers

A layout says where the words of a header stand and nothing else.  Two layouts of the same words
differ in their white space (`squeezed_text`), and only between the lines that open and close the
initializer.
-/

namespace ShaderHeader

/-- A text without its spaces, tabs and line ends. -/
def squeezed (text : List Char) : List Char :=
  text.filter fun c => c != ' ' && c != '\t' && c != '\n'

theorem squeezed_append (first second : List Char) :
    squeezed (first ++ second) = squeezed first ++ squeezed second :=
  List.filter_append first second

theorem squeezed_flatMap {α : Type} (items : List α) (spell : α → List Char) :
    squeezed (items.flatMap spell) = items.flatMap fun item => squeezed (spell item) :=
  List.filter_flatMap

theorem squeezed_indent (indent : Indent) : squeezed indent.text.toList = [] := by
  cases indent with
  | spaces count =>
      rw [Indent.text, String.toList_ofList, squeezed, List.filter_eq_nil_iff]
      intro c member
      rw [List.eq_of_mem_replicate member]
      decide
  | tab => decide

namespace Header

/-- The literals of words without white space, a comma after each. -/
def bareLiterals (words : List UInt32) : List Char :=
  words.flatMap fun word => squeezed (literal word).toList ++ [',']

/-- The comma that ends a line is the one that stands between two words of another line. -/
theorem squeezed_initializerLine {words : List UInt32} (filled : words ≠ []) :
    squeezed (initializerLine words).toList = bareLiterals words := by
  have spelled (words : List UInt32) : (initializerLine words).toList = joined words ++ [','] := by
    rw [initializerLine, String.toList_append, String.toList_intercalate, List.map_map]
    rfl
  rw [spelled]
  induction words with
  | nil => exact absurd rfl filled
  | cons first rest ih =>
      cases rest with
      | nil =>
          rw [joined_singleton, squeezed_append, bareLiterals, List.flatMap_singleton]
          rfl
      | cons second others =>
          have later := ih (List.cons_ne_nil second others)
          rw [joined_cons_cons, List.append_assoc, squeezed_append, bareLiterals, List.flatMap_cons,
            ← bareLiterals, ← later, List.append_assoc]
          rfl

/-- The lines of an initializer hold the same characters however they are cut. -/
theorem squeezed_indentedLines (words : List UInt32) (layout : Layout) :
    squeezed (unlines (indentedLines words layout)).toList = bareLiterals words := by
  have line : ∀ chunk ∈ chunks layout.lineWidth words,
      squeezed ((layout.indent.text ++ initializerLine chunk).toList ++ ['\n']) =
        bareLiterals chunk := by
    intro chunk member
    rw [String.toList_append, squeezed_append, squeezed_append, squeezed_indent,
      squeezed_initializerLine (ne_nil_of_mem_chunks member)]
    exact List.append_nil _
  rw [toList_unlines, squeezed_flatMap, indentedLines, initializerLines, List.map_map, List.map_map,
    List.flatMap_map]
  calc ((chunks layout.lineWidth words).flatMap fun chunk =>
        squeezed ((layout.indent.text ++ initializerLine chunk).toList ++ ['\n']))
      = (chunks layout.lineWidth words).flatMap bareLiterals := by
        rw [List.flatMap_def, List.map_congr_left line, ← List.flatMap_def]
    _ = bareLiterals ((chunks layout.lineWidth words).flatMap id) := List.flatMap_assoc.symm
    _ = bareLiterals words := by rw [List.flatMap_id, flatten_chunks]

/-- The parts of a text, told apart by its initializer. -/
def partsOf (text : String) : Parts :=
  .ofLines (pieces '\n' text.toList)

theorem partsOf_text {words : List UInt32} {embedding : Embedding} {layout : Layout}
    (valid : embedding.Valid) :
    partsOf (text words embedding layout) =
      { before := (openingLines embedding ++ [arrayLine embedding]).map String.toList
        within := (indentedLines words layout).map String.toList
        after := ("\x7d;" :: closingLines embedding).map String.toList ++ [[]] } := by
  have whole : ∀ line ∈ lines words embedding layout, '\n' ∉ line.toList :=
    fun line member => (consistsOf_lines valid member).not_mem (by decide)
  rw [partsOf, text_eq_unlines, pieces_unlines whole, parts_lines valid]

/-- **A layout is white space.** The headers of the same words in two layouts are the same text
without it.  The lines of a text are those before, within and after its initializer; if the names
are identifiers, a layout changes only those within. -/
theorem squeezed_text (words : List UInt32) (embedding : Embedding) (layout layout' : Layout) :
    squeezed (text words embedding layout).toList =
        squeezed (text words embedding layout').toList ∧
      (∀ text : String, (partsOf text).before ++ (partsOf text).within ++ (partsOf text).after =
        pieces '\n' text.toList) ∧
      (embedding.Valid →
        (partsOf (text words embedding layout)).before =
            (partsOf (text words embedding layout')).before ∧
          (partsOf (text words embedding layout)).before.getLast? =
            some (arrayLine embedding).toList ∧
          (partsOf (text words embedding layout)).after =
            (partsOf (text words embedding layout')).after ∧
          (partsOf (text words embedding layout)).after.head? = some "\x7d;".toList) := by
  refine ⟨?_, fun text => Parts.append_ofLines _, ?_⟩
  · have spelled (layout : Layout) : squeezed (text words embedding layout).toList =
        squeezed (unlines (openingLines embedding ++ [arrayLine embedding])).toList ++
          bareLiterals words ++ squeezed (unlines ("\x7d;" :: closingLines embedding)).toList := by
      have cut : lines words embedding layout =
          openingLines embedding ++ [arrayLine embedding] ++ indentedLines words layout ++
            "\x7d;" :: closingLines embedding := List.append_assoc ..
      rw [text_eq_unlines, cut, unlines_append, unlines_append, String.toList_append,
        String.toList_append, squeezed_append, squeezed_append, squeezed_indentedLines]
    rw [spelled, spelled]
  · intro valid
    rw [partsOf_text valid, partsOf_text valid, List.map_append]
    exact ⟨rfl, List.getLast?_concat, rfl, rfl⟩

/-- Three words on lines of their own, with tabs before them, or on one line. -/
theorem squeezed_text_tab :
    Embedding.usual.Valid ∧
      squeezed (text [1, 2, 3] Embedding.usual { indent := .tab, wordsPerLine := 0 }).toList =
        squeezed (text [1, 2, 3] Embedding.usual {}).toList ∧
      (partsOf (text [1, 2, 3] Embedding.usual { indent := .tab, wordsPerLine := 0 })).before =
        (partsOf (text [1, 2, 3] Embedding.usual {})).before := by
  have valid : Embedding.usual.Valid := by decide
  obtain ⟨same, -, parts⟩ := squeezed_text [1, 2, 3] Embedding.usual
    { indent := .tab, wordsPerLine := 0 } {}
  exact ⟨valid, same, (parts valid).1⟩

end Header

end ShaderHeader
