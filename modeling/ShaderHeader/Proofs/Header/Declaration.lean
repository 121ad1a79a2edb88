import ShaderHeader.Proofs.Header.ArrayReader

/-!
# What a header declares

The text of a valid header is cut into its lines in one way only, and every name stands on
a line of its own between fixed texts.  So the words and the names of a header can be told
from its text, whatever its layout.
-/

namespace ShaderHeader

namespace Header

theorem literal_injective {first second : UInt32} (same : literal first = literal second) :
    first = second := by
  have read := congrArg (fun text => hexWord? (withoutMarks text.toList)) same
  simp only [hexWord_literal] at read
  exact Option.some.inj read

theorem openingLine_injective {first second : String}
    (same : openingLine first = openingLine second) : first = second := by
  unfold openingLine at same
  exact (String.append_right_inj _).mp ((String.append_left_inj _).mp same)

theorem arrayName_of_arrayLine {first second : Embedding}
    (same : arrayLine first = arrayLine second) : first.arrayName = second.arrayName := by
  unfold arrayLine at same
  exact (String.append_right_inj _).mp ((String.append_left_inj _).mp same)

/-- Whether a line starts the way a line that opens a namespace does. -/
def opensNamespace (line : String) : Bool :=
  line.toList.head? == some 'n'

theorem opensNamespace_openingLine (segment : String) :
    opensNamespace (openingLine segment) = true := by
  unfold opensNamespace openingLine
  rw [String.toList_append, String.toList_append]
  rfl

theorem not_opensNamespace_arrayLine (embedding : Embedding) :
    opensNamespace (arrayLine embedding) = false := by
  unfold opensNamespace arrayLine
  rw [String.toList_append, String.toList_append]
  rfl

/-- The lines that open namespaces end where a blank line or the array follows. -/
theorem takeWhile_opensNamespace (embedding : Embedding) (rest : List String) :
    (embedding.namespaces.map openingLine ++
        (gapLines embedding.namespaces ++ arrayLine embedding :: rest)).takeWhile opensNamespace =
      embedding.namespaces.map openingLine := by
  have opening : ∀ line ∈ embedding.namespaces.map openingLine, opensNamespace line = true := by
    intro line member
    obtain ⟨segment, -, rfl⟩ := List.mem_map.mp member
    exact opensNamespace_openingLine segment
  have after : (gapLines embedding.namespaces ++ arrayLine embedding :: rest).takeWhile
      opensNamespace = [] := by
    unfold gapLines
    by_cases none : embedding.namespaces = []
    · rw [if_pos none, List.nil_append, List.takeWhile_cons,
        not_opensNamespace_arrayLine]
      rfl
    · rw [if_neg none]
      rfl
  rw [List.takeWhile_append_of_pos opening, after, List.append_nil]

section Same

variable {words words' : List UInt32} {embedding embedding' : Embedding} {layout layout' : Layout}

theorem lines_eq_of_text_eq (valid : embedding.Valid) (valid' : embedding'.Valid)
    (same : text words embedding layout = text words' embedding' layout') :
    lines words embedding layout = lines words' embedding' layout' := by
  have read := congrArg (fun text => linesOf text.toList) same
  simp only [linesOf_text valid, linesOf_text valid'] at read
  exact (List.map_inj_right fun _ _ => String.toList_inj.mp).mp read

/-- The names of a header are told from its lines. -/
theorem names_of_lines_eq
    (same : lines words embedding layout = lines words' embedding' layout') :
    embedding.guard = embedding'.guard ∧ embedding.arrayName = embedding'.arrayName ∧
      embedding.namespaces = embedding'.namespaces := by
  unfold lines openingLines at same
  simp only [List.append_assoc, List.cons_append, List.nil_append, List.cons.injEq, true_and]
    at same
  obtain ⟨guard, -, rest⟩ := same
  -- the namespaces must be known before the gap after them can be cancelled
  have opening := congrArg (List.takeWhile opensNamespace) rest
  rw [takeWhile_opensNamespace, takeWhile_opensNamespace] at opening
  have namespaces := (List.map_inj_right fun _ _ => openingLine_injective).mp opening
  rw [namespaces] at rest
  have array := (List.cons.inj (List.append_cancel_left (List.append_cancel_left rest))).1
  exact ⟨(String.append_right_inj _).mp guard, arrayName_of_arrayLine array, namespaces⟩

/-- The words of a header are told from its text. -/
theorem words_of_text_eq (valid : embedding.Valid) (valid' : embedding'.Valid)
    (same : text words embedding layout = text words' embedding' layout') : words = words' := by
  have read := congrArg (fun text => (arrayLines text.toList).flatMap literalsOn) same
  simp only [arrayLines_text valid, arrayLines_text valid',
    flatMap_literalsOn_indentedLines] at read
  refine (List.map_inj_right ?_).mp read
  intro first second literals
  exact literal_injective (String.toList_inj.mp literals)

/-- **A header determines what it declares.** Valid headers with one text have the same
words, guard, array name and namespaces, in whatever layouts they were written. -/
theorem eq_of_text_eq (valid : embedding.Valid) (valid' : embedding'.Valid)
    (same : text words embedding layout = text words' embedding' layout') :
    words = words' ∧ embedding.guard = embedding'.guard ∧
      embedding.arrayName = embedding'.arrayName ∧
      embedding.namespaces = embedding'.namespaces :=
  ⟨words_of_text_eq valid valid' same, names_of_lines_eq (lines_eq_of_text_eq valid valid' same)⟩

end Same

/-- Two words stand on one line whether it has room for six of them or for two, so here are
two layouts of one text. -/
theorem eq_of_text_eq_two :
    Embedding.usual.Valid ∧ { Embedding.usual with source := ⟨[0x73]⟩ }.Valid ∧
      text [1, 2] Embedding.usual {} =
        text [1, 2] { Embedding.usual with source := ⟨[0x73]⟩ } { wordsPerLine := 2 } ∧
      Embedding.usual.namespaces = { Embedding.usual with source := ⟨[0x73]⟩ }.namespaces := by
  have valid : Embedding.usual.Valid := by decide
  have valid' : { Embedding.usual with source := ⟨[0x73]⟩ }.Valid := by decide
  have chunk (width : Nat) : chunks (width + 2) [(1 : UInt32), 2] = [[1, 2]] := by
    simp only [chunks, Nat.add_one_sub_one, List.take_succ_cons, List.take_nil,
      List.drop_succ_cons, List.drop_nil]
  have written : indentedLines [1, 2] {} = indentedLines [1, 2] { wordsPerLine := 2 } := by
    unfold indentedLines initializerLines
    exact congrArg _ (congrArg _ ((chunk 4).trans (chunk 0).symm))
  have same : text [1, 2] Embedding.usual {} =
      text [1, 2] { Embedding.usual with source := ⟨[0x73]⟩ } { wordsPerLine := 2 } := by
    rw [text_eq_unlines, text_eq_unlines, lines, written]
    rfl
  obtain ⟨-, -, -, namespaces⟩ := eq_of_text_eq valid valid' same
  exact ⟨valid, valid', same, namespaces⟩

end Header

end ShaderHeader
