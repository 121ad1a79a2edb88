import ShaderHeader.Proofs.Header.Lines
import ShaderHeader.Proofs.Header.Literal

/-!
# Headers line by number

`Header.reference` says what stands on each line of a header without writing one: a line
of the initializer is given by its number, and its words by theirs.  The header, which is
written on a draft from words cut into chunks, consists of just these lines.
-/

namespace ShaderHeader

namespace Header

section Slice

variable {α : Type} {width : Nat}

/-- How many lines carry so many words. -/
def lineCount (count width : Nat) : Nat :=
  (count + width - 1) / width

/-- What stands on a line, when the items of a list stand on lines of the given width. -/
def slice (list : List α) (width line : Nat) : List α :=
  list.extract (line * width) (min list.length ((line + 1) * width))

theorem slice_zero (list : List α) (width : Nat) : slice list width 0 = list.take width := by
  rw [slice, List.extract_eq_take_drop, Nat.zero_mul, List.drop_zero, Nat.zero_add, Nat.one_mul,
    Nat.sub_zero, Nat.min_comm, ← List.take_eq_take_min]

/-- What stands on a later line stands one line earlier without the first one. -/
theorem slice_succ (list : List α) (width line : Nat) :
    slice list width (line + 1) = slice (list.drop width) width line := by
  have start : (line + 1) * width = width + line * width := by
    rw [Nat.succ_mul, Nat.add_comm]
  have stop : (line + 1 + 1) * width = width + (line + 1) * width := by
    rw [Nat.succ_mul, Nat.add_comm]
  have long : min list.length (width + (width + line * width)) - (width + line * width) =
      min (list.length - width) (width + line * width) - line * width := by
    omega
  rw [slice, slice, List.extract_eq_take_drop, List.extract_eq_take_drop, List.drop_drop,
    List.length_drop, stop, start, long]

/-- Every line but the last is full. -/
theorem length_slice (positive : 0 < width) {list : List α} {line : Nat}
    (more : line + 1 < lineCount list.length width) : (slice list width line).length = width := by
  have fits := (Nat.le_div_iff_mul_le positive).mp (Nat.succ_le_of_lt more)
  have ahead : (line + 1).succ * width = line * width + width + width := by
    rw [Nat.succ_mul, Nat.succ_mul]
  have stop : (line + 1) * width = line * width + width := Nat.succ_mul line width
  rw [slice, List.extract_eq_take_drop, List.length_take, List.length_drop, stop]
  omega

theorem lineCount_zero (positive : 0 < width) : lineCount 0 width = 0 := by
  rw [lineCount, Nat.zero_add]
  exact Nat.div_eq_of_lt (Nat.sub_lt positive Nat.one_pos)

/-- The first line takes as many words as it can. -/
theorem lineCount_succ (positive : 0 < width) (count : Nat) :
    lineCount (count + 1) width = lineCount (count + 1 - width) width + 1 := by
  by_cases short : count + 1 ≤ width
  · have last : count + 1 - width = 0 := Nat.sub_eq_zero_of_le short
    have grown : count + 1 + width - 1 = count + width := by omega
    rw [last, lineCount_zero positive, lineCount, grown, Nat.add_div_right count positive,
      Nat.div_eq_of_lt short]
  · have grown : count + 1 + width - 1 = count + 1 - width + width - 1 + width := by omega
    rw [lineCount, grown, Nat.add_div_right _ positive, lineCount]

/-- **Chunks by number.** Cutting a list into chunks puts its items on lines. -/
theorem chunks_eq_map_slice (positive : 0 < width) (list : List α) :
    chunks width list = (List.range (lineCount list.length width)).map (slice list width) := by
  induction list using chunks.induct width with
  | case1 =>
      rw [chunks, List.length_nil, lineCount_zero positive]
      rfl
  | case2 first rest ih =>
      -- the chunk is line 0; the others are the lines of what it leaves, renumbered
      obtain ⟨less, rfl⟩ : ∃ less, width = less + 1 := ⟨width - 1, by omega⟩
      rw [Nat.add_sub_cancel] at ih
      have fewer : (first :: rest).length - (less + 1) = (rest.drop less).length := by
        rw [List.length_cons, List.length_drop, Nat.add_sub_add_right]
      have later : slice (first :: rest) (less + 1) ∘ Nat.succ =
          slice (rest.drop less) (less + 1) :=
        funext fun line => slice_succ (first :: rest) (less + 1) line
      rw [chunks, Nat.add_sub_cancel, ih, List.length_cons, lineCount_succ positive,
        ← List.length_cons (a := first), fewer, List.range_succ_eq_map, List.map_cons,
        List.map_map, slice_zero, List.take_succ_cons, later]

end Slice

/-- What a header consists of, each line of its initializer given by its number. -/
def reference (words : List UInt32) (embedding : Embedding) (layout : Layout) : List String :=
  let width := max layout.wordsPerLine 1
  openingLines embedding ++ [arrayLine embedding] ++
    ((List.range (lineCount words.length width)).map fun line =>
      layout.indent.text ++ ", ".intercalate ((slice words width line).map literal) ++ ",") ++
    ["\x7d;"] ++ closingLines embedding

theorem lines_eq_reference (words : List UInt32) (embedding : Embedding) (layout : Layout) :
    lines words embedding layout = reference words embedding layout := by
  have positive : 0 < layout.lineWidth := Nat.lt_of_lt_of_le Nat.one_pos (Nat.le_max_right _ _)
  have same : indentedLines words layout =
      (List.range (lineCount words.length layout.lineWidth)).map fun line =>
        layout.indent.text ++ ", ".intercalate ((slice words layout.lineWidth line).map literal) ++
          "," := by
    rw [indentedLines, initializerLines, chunks_eq_map_slice positive, List.map_map, List.map_map]
    refine List.map_congr_left fun line _ => ?_
    simp only [Function.comp_apply, initializerLine, String.append_assoc]
  rw [lines, same]
  rfl

/-- Whether a text starts with something that is no blank. -/
def startsFlush (text : String) : Bool :=
  text.toList.head?.any fun c => c != ' ' && c != '\t'

theorem startsFlush_append {first : String} (flush : startsFlush first = true) (more : String) :
    startsFlush (first ++ more) = true := by
  unfold startsFlush at flush ⊢
  rw [String.toList_append]
  cases spelled : first.toList with
  | nil =>
      rw [spelled] at flush
      cases flush
  | cons c rest =>
      rw [spelled] at flush
      exact flush

/-- A line before the array is blank or not indented, whatever the names are. -/
theorem startsFlush_of_mem_openingLines {embedding : Embedding} {line : String}
    (member : line ∈ openingLines embedding) : line = "" ∨ startsFlush line = true := by
  cases isOpening_of_mem member with
  | blank => exact .inl rfl
  | ifndef => exact .inr (startsFlush_append rfl _)
  | define => exact .inr (startsFlush_append rfl _)
  | words => exact .inr rfl
  | sizes => exact .inr rfl
  | enter => exact .inr (startsFlush_append (startsFlush_append rfl _) _)

theorem startsFlush_arrayLine (embedding : Embedding) : startsFlush (arrayLine embedding) = true :=
  startsFlush_append (startsFlush_append rfl _) _

/-- A line after the array is blank or not indented, whatever the names are. -/
theorem startsFlush_of_mem_closingLines {embedding : Embedding} {line : String}
    (member : line ∈ closingLines embedding) : line = "" ∨ startsFlush line = true := by
  rcases mem_closingLines.mp member with rfl | rfl | ending
  · exact .inl rfl
  · refine .inr (startsFlush_append (startsFlush_append (startsFlush_append ?_ _) _) _)
    exact startsFlush_append rfl _
  · cases isEnding_of_mem ending with
    | blank => exact .inl rfl
    | leave => exact .inr (startsFlush_append rfl _)
    | endif => exact .inr (startsFlush_append rfl _)

/-- **A header is its reference.** Its text consists of the lines of the reference, each of
them ended.  A literal is eight digits that spell a word, every line of the initializer but
the last is full, and no other line is indented.  In the usual layout the width is six and
the indentation four spaces. -/
theorem text_eq_reference (words : List UInt32) (embedding : Embedding) (layout : Layout) :
    text words embedding layout = unlines (reference words embedding layout) ∧
      (∀ word, IsLiteral (literal word) word) ∧
      (∀ line, line + 1 < lineCount words.length (max layout.wordsPerLine 1) →
        (slice words (max layout.wordsPerLine 1) line).length = max layout.wordsPerLine 1) ∧
      (∀ line ∈ openingLines embedding ++ [arrayLine embedding, "\x7d;"] ++
        closingLines embedding, line = "" ∨ startsFlush line = true) ∧
      text words embedding {} =
        unlines (reference words embedding { indent := .spaces 4, wordsPerLine := 6 }) := by
  have same (layout : Layout) :
      text words embedding layout = unlines (reference words embedding layout) := by
    rw [text_eq_unlines, lines_eq_reference]
  have positive : 0 < max layout.wordsPerLine 1 :=
    Nat.lt_of_lt_of_le Nat.one_pos (Nat.le_max_right _ _)
  refine ⟨same layout, isLiteral_literal, fun _ more => length_slice positive more, ?_, same {}⟩
  intro line member
  simp only [List.mem_append, List.mem_cons, List.not_mem_nil, or_false] at member
  rcases member with (opening | rfl | rfl) | closing
  · exact startsFlush_of_mem_openingLines opening
  · exact .inr (startsFlush_arrayLine embedding)
  · exact .inr rfl
  · exact startsFlush_of_mem_closingLines closing

/-- Seven words in the usual layout: a full line of six, and a line of one. -/
theorem text_eq_reference_seven :
    (slice [0x07230203, 0x00010000, 0x0008000b, 0x20, 0, 0x00020011, 1] 6 0).length = 6 ∧
      text [0x07230203, 0x00010000, 0x0008000b, 0x20, 0, 0x00020011, 1] Embedding.usual {} =
        unlines (openingLines Embedding.usual ++ [arrayLine Embedding.usual] ++
          ["    0x07230203, 0x00010000, 0x0008000b, 0x00000020, 0x00000000, 0x00020011,",
            "    0x00000001,"] ++ ["\x7d;"] ++ closingLines Embedding.usual) := by
  obtain ⟨same, -, full, -⟩ := text_eq_reference
    [0x07230203, 0x00010000, 0x0008000b, 0x20, 0, 0x00020011, 1] Embedding.usual {}
  have first : Indent.text (.spaces 4) ++ ", ".intercalate ([0x07230203, 0x00010000, 0x0008000b,
      0x20, 0, 0x00020011].map literal) ++ "," =
      "    0x07230203, 0x00010000, 0x0008000b, 0x00000020, 0x00000000, 0x00020011," := by
    decide +kernel
  have second : Indent.text (.spaces 4) ++ ", ".intercalate ([1].map literal) ++ "," =
      "    0x00000001," := by
    decide +kernel
  refine ⟨full 0 (by decide), ?_⟩
  rw [same, ← first, ← second]
  rfl

end Header

end ShaderHeader
