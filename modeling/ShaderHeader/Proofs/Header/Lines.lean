import ShaderHeader.Header

/-!
# Headers line by line

A draft on which only whole lines are written is a list of lines
(`Draft.ofLines`), and a header is such a draft: `Header.lines` lists its lines and
`Header.text_eq_unlines` says that its text consists of them.
-/

namespace ShaderHeader

/-- A text of lines, each of them ended. -/
def unlines (lines : List String) : String :=
  String.join (lines.map (· ++ "\n"))

theorem unlines_append (first second : List String) :
    unlines (first ++ second) = unlines first ++ unlines second := by
  rw [unlines, List.map_append, String.join_append]
  rfl

theorem unlines_singleton (line : String) : unlines [line] = line ++ "\n" := by
  rw [unlines, List.map_singleton, String.join_cons, String.join_nil, String.append_empty]

theorem toList_unlines (lines : List String) :
    (unlines lines).toList = (lines.map String.toList).flatMap (· ++ ['\n']) := by
  rw [unlines, String.toList_join, List.flatMap_map, List.flatMap_map]
  simp only [String.toList_append]
  rfl

namespace Draft

variable {unit : String} {level : Nat} {lines : List String}

/-- A line as it stands on a draft: indented, unless it is blank. -/
def placed (unit : String) (level : Nat) (line : String) : String :=
  if line = "" then "" else indentation unit level ++ line

/-- The draft that holds the given lines and nothing after them. -/
def ofLines (unit : String) (level : Nat) (lines : List String) : Draft where
  unit := unit
  text := unlines lines
  level := level

@[simp] theorem placed_zero (line : String) : placed unit 0 line = line := by
  unfold placed indentation
  by_cases blank : line = ""
  · rw [if_pos blank, blank]
  · rw [if_neg blank, String.empty_append]

@[simp] theorem map_placed_zero (lines : List String) : lines.map (placed unit 0) = lines := by
  rw [List.map_congr_left fun line _ => placed_zero line, List.map_id']

theorem placed_one {line : String} (filled : line ≠ "") : placed unit 1 line = unit ++ line := by
  unfold placed
  rw [if_neg filled, indentation, indentation, String.append_empty]

/-- Writing a line adds it, placed at the level of the draft. -/
@[simp] theorem writeLine_ofLines (line : String) :
    (ofLines unit level lines).writeLine line =
      ofLines unit level (lines ++ [placed unit level line]) := by
  unfold writeLine write newline ofLines placed
  rw [unlines_append, unlines_singleton]
  by_cases blank : line = ""
  · subst blank
    simp only [bne_self_eq_false, Bool.and_false, Bool.false_eq_true, ↓reduceIte,
      String.append_empty, String.empty_append]
  · have filled : (line != "") = true := bne_iff_ne.mpr blank
    simp only [filled, blank, Bool.and_self, ↓reduceIte, String.append_assoc]

@[simp] theorem newline_ofLines :
    (ofLines unit level lines).newline = ofLines unit level (lines ++ [""]) := by
  unfold newline ofLines
  rw [unlines_append, unlines_singleton, String.empty_append]

/-- Writing several lines adds them all, placed at the level of the draft. -/
@[simp] theorem writeLines_ofLines (more : List String) :
    (ofLines unit level lines).writeLines more =
      ofLines unit level (lines ++ more.map (placed unit level)) := by
  induction more generalizing lines with
  | nil => rw [List.map_nil, List.append_nil, writeLines, List.foldl_nil]
  | cons line rest ih =>
      rw [writeLines, List.foldl_cons, writeLine_ofLines, ← writeLines, ih, List.map_cons,
        List.append_assoc, List.singleton_append]

/-- Lines written one level deeper leave the level as it was. -/
@[simp] theorem indented_ofLines (more : List String) :
    (ofLines unit level lines).indented (·.writeLines more) =
      ofLines unit level (lines ++ more.map (placed unit (level + 1))) := by
  have deeper : (ofLines unit level lines).indent = ofLines unit (level + 1) lines := rfl
  rw [indented, deeper, writeLines_ofLines]
  rfl

theorem finish_ofLines (filled : lines ≠ []) :
    (ofLines unit level lines).finish = unlines lines := by
  have ended : (unlines lines).toList.getLast? = some '\n' := by
    rw [← List.dropLast_concat_getLast filled, unlines_append, unlines_singleton]
    simp only [String.toList_append, List.getLast?_append]
    rfl
  unfold finish
  exact if_pos ended

end Draft

namespace Header

/-- The line that opens a namespace. -/
def openingLine (segment : String) : String :=
  "namespace " ++ segment ++ " \x7b"

/-- The line that closes a namespace. -/
def closingLine (segment : String) : String :=
  "\x7d // namespace " ++ segment

/-- The line that sets namespaces off, if there are any. -/
def gapLines (namespaces : List String) : List String :=
  if namespaces = [] then [] else [""]

/-- The line that declares the array. -/
def arrayLine (embedding : Embedding) : String :=
  "alignas(4) static const uint32_t " ++ embedding.arrayName ++ "[] = \x7b"

/-- The line that declares the size of the array. -/
def sizeLine (embedding : Embedding) : String :=
  "static const size_t " ++ embedding.sizeName ++ " = sizeof(" ++ embedding.arrayName ++ ");"

/-- The lines before the array. -/
def openingLines (embedding : Embedding) : List String :=
  ["#ifndef " ++ embedding.guard, "#define " ++ embedding.guard, "",
    "#include <cstdint>", "#include <cstddef>", ""] ++
    embedding.namespaces.map openingLine ++ gapLines embedding.namespaces

/-- The lines after the array. -/
def closingLines (embedding : Embedding) : List String :=
  ["", sizeLine embedding, ""] ++ embedding.namespaces.reverse.map closingLine ++
    gapLines embedding.namespaces ++ ["#endif // " ++ embedding.guard]

/-- The lines after the size of the array. -/
def endingLines (embedding : Embedding) : List String :=
  "" :: embedding.namespaces.reverse.map closingLine ++ gapLines embedding.namespaces ++
    ["#endif // " ++ embedding.guard]

theorem closingLines_eq (embedding : Embedding) :
    closingLines embedding = "" :: sizeLine embedding :: endingLines embedding :=
  rfl

/-- The lines of the initializer as they stand in the header. -/
def indentedLines (words : List UInt32) (layout : Layout) : List String :=
  (initializerLines words layout).map (layout.indent.text ++ ·)

/-- The lines of a header. -/
def lines (words : List UInt32) (embedding : Embedding) (layout : Layout) : List String :=
  openingLines embedding ++ [arrayLine embedding] ++ indentedLines words layout ++ ["\x7d;"] ++
    closingLines embedding

@[simp] theorem gap_ofLines {unit : String} {level : Nat} {lines : List String}
    (namespaces : List String) :
    gap namespaces (Draft.ofLines unit level lines) =
      Draft.ofLines unit level (lines ++ gapLines namespaces) := by
  unfold gap gapLines
  by_cases none : namespaces = []
  · simp only [none, ↓reduceIte, List.append_nil]
  · simp only [none, ↓reduceIte, Draft.newline_ofLines]

/-- A line that sets namespaces off is blank. -/
theorem eq_empty_of_mem_gapLines {namespaces : List String} {line : String}
    (member : line ∈ gapLines namespaces) : line = "" := by
  unfold gapLines at member
  by_cases none : namespaces = []
  · rw [if_pos none] at member
    exact (List.not_mem_nil member).elim
  · rw [if_neg none] at member
    exact List.mem_singleton.mp member

/-- What a line before the array can be. -/
inductive IsOpening (embedding : Embedding) : String → Prop where
  | blank : IsOpening embedding ""
  | ifndef : IsOpening embedding ("#ifndef " ++ embedding.guard)
  | define : IsOpening embedding ("#define " ++ embedding.guard)
  | words : IsOpening embedding "#include <cstdint>"
  | sizes : IsOpening embedding "#include <cstddef>"
  | enter {segment : String} (named : segment ∈ embedding.namespaces) :
    IsOpening embedding (openingLine segment)

/-- What a line after the size of the array can be. -/
inductive IsEnding (embedding : Embedding) : String → Prop where
  | blank : IsEnding embedding ""
  | leave {segment : String} (named : segment ∈ embedding.namespaces) :
    IsEnding embedding (closingLine segment)
  | endif : IsEnding embedding ("#endif // " ++ embedding.guard)

theorem isOpening_of_mem {embedding : Embedding} {line : String}
    (member : line ∈ openingLines embedding) : IsOpening embedding line := by
  simp only [openingLines, List.mem_append, List.mem_cons, List.not_mem_nil, or_false,
    List.mem_map] at member
  rcases member with ((rfl | rfl | rfl | rfl | rfl | rfl) | ⟨segment, named, rfl⟩) | gap
  · exact .ifndef
  · exact .define
  · exact .blank
  · exact .words
  · exact .sizes
  · exact .blank
  · exact .enter named
  · rw [eq_empty_of_mem_gapLines gap]
    exact .blank

theorem isEnding_of_mem {embedding : Embedding} {line : String}
    (member : line ∈ endingLines embedding) : IsEnding embedding line := by
  simp only [endingLines, List.mem_append, List.mem_cons, List.not_mem_nil, or_false,
    List.mem_map, List.mem_reverse] at member
  rcases member with ((rfl | ⟨segment, named, rfl⟩) | gap) | rfl
  · exact .blank
  · exact .leave named
  · rw [eq_empty_of_mem_gapLines gap]
    exact .blank
  · exact .endif

theorem mem_closingLines {embedding : Embedding} {line : String} :
    line ∈ closingLines embedding ↔
      line = "" ∨ line = sizeLine embedding ∨ line ∈ endingLines embedding := by
  rw [closingLines_eq, List.mem_cons, List.mem_cons]

theorem mem_lines {words : List UInt32} {embedding : Embedding} {layout : Layout} {line : String} :
    line ∈ lines words embedding layout ↔
      line ∈ openingLines embedding ∨ line = arrayLine embedding ∨
        line ∈ indentedLines words layout ∨ line = "\x7d;" ∨ line ∈ closingLines embedding := by
  simp only [lines, List.mem_append, List.mem_singleton, or_assoc]

theorem flatten_chunks {α : Type} (width : Nat) (list : List α) :
    (chunks width list).flatten = list := by
  induction list using chunks.induct width with
  | case1 => rw [chunks, List.flatten_nil]
  | case2 first rest ih =>
      rw [chunks, List.flatten_cons, ih, List.cons_append, List.take_append_drop]

theorem ne_nil_of_mem_chunks {α : Type} {width : Nat} {list chunk : List α}
    (member : chunk ∈ chunks width list) : chunk ≠ [] := by
  induction list using chunks.induct width with
  | case1 =>
      rw [chunks] at member
      exact (List.not_mem_nil member).elim
  | case2 first rest ih =>
      rw [chunks, List.mem_cons] at member
      rcases member with rfl | member
      · exact List.cons_ne_nil _ _
      · exact ih member

theorem initializerLine_ne_empty (words : List UInt32) : initializerLine words ≠ "" := by
  intro blank
  have none := congrArg String.toList blank
  rw [initializerLine, String.toList_append] at none
  exact List.cons_ne_nil _ _ (List.append_eq_nil_iff.mp none).2

/-- A header is a draft of whole lines, all but those of the initializer at level zero. -/
theorem draft_eq_ofLines (words : List UInt32) (embedding : Embedding) (layout : Layout) :
    draft words embedding layout =
      Draft.ofLines layout.indent.text 0 (lines words embedding layout) := by
  have empty : ({ unit := layout.indent.text } : Draft) =
      Draft.ofLines layout.indent.text 0 [] := rfl
  have once : (initializerLines words layout).map (Draft.placed layout.indent.text 1) =
      indentedLines words layout := by
    refine List.map_congr_left fun line member => ?_
    obtain ⟨chunk, -, rfl⟩ := List.mem_map.mp member
    exact Draft.placed_one (initializerLine_ne_empty chunk)
  unfold draft
  simp only [empty, Draft.writeLine_ofLines, Draft.newline_ofLines, Draft.writeLines_ofLines,
    Draft.indented_ofLines, gap_ofLines, Draft.placed_zero, Draft.map_placed_zero, Nat.zero_add,
    once]
  simp only [lines, openingLines, closingLines, List.append_assoc, List.cons_append,
    List.nil_append]
  rfl

/-- **The text of a header.** It consists of the lines of the header, each ended once. -/
theorem text_eq_unlines (words : List UInt32) (embedding : Embedding) (layout : Layout) :
    text words embedding layout = unlines (lines words embedding layout) := by
  rw [text, draft_eq_ofLines]
  apply Draft.finish_ofLines
  simp only [lines, ne_eq, List.append_eq_nil_iff, List.cons_ne_nil, and_false, false_and,
    not_false_eq_true]

end Header

end ShaderHeader
