import ShaderHeader.Failure
import ShaderHeader.Proofs.Header.ArrayReader
import ShaderHeader.Proofs.Header.Reference

/-!
# What validity is good for

An embedding is valid when all the names in its header are identifiers, and otherwise the first
name that is none is blamed.  The header of a valid embedding is a neat text: its lines are those
of its reference, whatever the names are (`Header.text_of_valid`).
-/

namespace ShaderHeader

/-- What the name at fault is called, and the name. -/
def Fault.label : Fault → String × String
  | .arrayName name => ("array name", name)
  | .guard name => ("guard token", name)
  | .namespaceSegment name => ("namespace", name)

theorem Fault.message_eq (fault : Fault) :
    (Failure.invalid fault).message =
      "Invalid config: " ++
        (fault.label.1 ++ " '" ++ fault.label.2 ++ "' is not a C identifier") := by
  cases fault <;> rfl

namespace Embedding

/-- The names that are checked, each with what it is called, in the order of the check. -/
def checkedNames (embedding : Embedding) : List (String × String) :=
  ("array name", embedding.arrayName) :: ("guard token", embedding.guard) ::
    embedding.namespaces.map fun segment => ("namespace", segment)

/-- A message blames the first name that is not spelled like an identifier. -/
def Blames (embedding : Embedding) (message : String) : Prop :=
  ∃ before role name after, embedding.checkedNames = before ++ (role, name) :: after ∧
    (∀ earlier ∈ before, SpelledAsIdentifier earlier.2) ∧ ¬ SpelledAsIdentifier name ∧
    message = "Invalid config: " ++ (role ++ " '" ++ name ++ "' is not a C identifier")

/-- The size is named by an identifier if the array is. -/
theorem isIdentifier_sizeName {embedding : Embedding} (array : IsIdentifier embedding.arrayName) :
    IsIdentifier embedding.sizeName :=
  array.append (by decide)

theorem valid_iff_spelled (embedding : Embedding) :
    embedding.Valid ↔
      SpelledAsIdentifier embedding.guard ∧ SpelledAsIdentifier embedding.arrayName ∧
        SpelledAsIdentifier embedding.sizeName ∧
        ∀ segment ∈ embedding.namespaces, SpelledAsIdentifier segment := by
  simp only [← isIdentifier_iff, valid_iff]
  constructor
  · rintro ⟨array, guard, namespaces⟩
    exact ⟨guard, array, isIdentifier_sizeName array, namespaces⟩
  · rintro ⟨guard, array, -, namespaces⟩
    exact ⟨array, guard, namespaces⟩

/-- The first name that is no identifier is at fault. -/
theorem map_label_fault? (embedding : Embedding) :
    embedding.fault?.map Fault.label =
      embedding.checkedNames.find? fun named => ¬ IsIdentifier named.2 := by
  unfold fault? checkedNames
  by_cases array : IsIdentifier embedding.arrayName
  · by_cases guard : IsIdentifier embedding.guard
    · rw [if_neg (Decidable.not_not.mpr array), if_neg (Decidable.not_not.mpr guard),
        List.find?_cons_of_neg (by simpa using array),
        List.find?_cons_of_neg (by simpa using guard), List.find?_map, Option.map_map]
      rfl
    · rw [if_neg (Decidable.not_not.mpr array), if_pos guard,
        List.find?_cons_of_neg (by simpa using array),
        List.find?_cons_of_pos (by simpa using guard)]
      rfl
  · rw [if_pos array, List.find?_cons_of_pos (by simpa using array)]
    rfl

theorem blames_of_fault? {embedding : Embedding} {fault : Fault}
    (found : embedding.fault? = some fault) :
    embedding.Blames (Failure.invalid fault).message := by
  have first := embedding.map_label_fault?
  rw [found, Option.map_some] at first
  obtain ⟨bad, before, after, cut, good⟩ := List.find?_eq_some_iff_append.mp first.symm
  refine ⟨before, fault.label.1, fault.label.2, after, cut, ?_, ?_, fault.message_eq⟩
  · intro earlier member
    exact (isIdentifier_iff _).mp (by simpa using good earlier member)
  · intro spelled
    exact of_decide_eq_true bad ((isIdentifier_iff _).mpr spelled)

end Embedding

/-- A neat text of so many lines: plain ASCII, without white space before the end of a line, and
with one line end after the last line. -/
structure Neat (text : String) (count : Nat) : Prop where
  ascii : ∀ c ∈ text.toList, c.toNat < 128
  lineEnds : text.toList.count '\n' = count
  trimmed : ∀ line ∈ pieces '\n' text.toList, line.getLast?.any isWhiteSpace = false
  last : text.toList.getLast? = some '\n'
  once : text.toList.dropLast.getLast? ≠ some '\n'

section Neatness

variable {text : String}

/-- Whether a text does not end in white space. -/
def isTrimmed (text : String) : Bool :=
  !text.toList.getLast?.any isWhiteSpace

theorem isTrimmed_append {ending : String} {c : Char} (last : ending.toList.getLast? = some c)
    (dark : isWhiteSpace c = false) (text : String) : isTrimmed (text ++ ending) = true := by
  rw [isTrimmed, getLast?_append_ending last, Option.any_some, dark]
  rfl

theorem isWhiteSpace_of_isNamePart {c : Char} (part : isNamePart c = true) :
    isWhiteSpace c = false := by
  have ascii := toNat_of_isPrintable (isPrintable_of_isNamePart c part)
  exact forall_ascii (fun c => isNamePart c = true → isWhiteSpace c = false) (by decide +kernel)
    ascii part

theorem IsIdentifier.exists_getLast? {name : String} (identifier : IsIdentifier name) :
    ∃ c, name.toList.getLast? = some c ∧ isNamePart c = true := by
  cases last : name.toList.getLast? with
  | none =>
      unfold IsIdentifier at identifier
      rw [List.getLast?_eq_none_iff.mp last] at identifier
      cases identifier
  | some c => exact ⟨c, rfl, identifier.consistsOf c (List.mem_of_getLast? last)⟩

theorem IsIdentifier.isTrimmed_append {name : String} (identifier : IsIdentifier name)
    (text : String) : isTrimmed (text ++ name) = true := by
  obtain ⟨c, last, part⟩ := identifier.exists_getLast?
  exact ShaderHeader.isTrimmed_append last (isWhiteSpace_of_isNamePart part) text

theorem count_unlines {lines : List String} (whole : ∀ line ∈ lines, '\n' ∉ line.toList) :
    (unlines lines).toList.count '\n' = lines.length := by
  rw [toList_unlines]
  induction lines with
  | nil => rfl
  | cons line rest ih =>
      obtain ⟨first, others⟩ := List.forall_mem_cons.mp whole
      rw [List.map_cons, List.flatMap_cons, List.count_append, List.count_append, ih others,
        List.count_eq_zero_of_not_mem first, List.length_cons, Nat.zero_add, Nat.add_comm]
      rfl

end Neatness

namespace Header

section Lines

variable {embedding : Embedding} {line : String}

theorem isTrimmed_openingLines (valid : embedding.Valid) (member : line ∈ openingLines embedding) :
    isTrimmed line = true := by
  obtain ⟨-, guard, -⟩ := embedding.valid_iff.mp valid
  cases isOpening_of_mem member with
  | blank => rfl
  | ifndef => exact guard.isTrimmed_append _
  | define => exact guard.isTrimmed_append _
  | words => rfl
  | sizes => rfl
  | enter => exact isTrimmed_append rfl rfl _

theorem isTrimmed_indentedLines {words : List UInt32} {layout : Layout}
    (member : line ∈ indentedLines words layout) : isTrimmed line = true := by
  obtain ⟨bare, inside, rfl⟩ := List.mem_map.mp member
  obtain ⟨chunk, -, rfl⟩ := List.mem_map.mp inside
  rw [initializerLine, ← String.append_assoc]
  exact isTrimmed_append rfl rfl _

theorem isTrimmed_closingLines (valid : embedding.Valid) (member : line ∈ closingLines embedding) :
    isTrimmed line = true := by
  obtain ⟨-, guard, namespaces⟩ := embedding.valid_iff.mp valid
  rcases mem_closingLines.mp member with rfl | rfl | ending
  · rfl
  · exact isTrimmed_append rfl rfl _
  · cases isEnding_of_mem ending with
    | blank => rfl
    | leave inside => exact (namespaces _ inside).isTrimmed_append _
    | endif => exact guard.isTrimmed_append _

theorem isTrimmed_lines {words : List UInt32} {layout : Layout} (valid : embedding.Valid)
    (member : line ∈ lines words embedding layout) : isTrimmed line = true := by
  rcases mem_lines.mp member with opening | rfl | inside | rfl | closing
  · exact isTrimmed_openingLines valid opening
  · exact isTrimmed_append rfl rfl _
  · exact isTrimmed_indentedLines inside
  · rfl
  · exact isTrimmed_closingLines valid closing

/-- How many lines a header has: twelve, two for each namespace, two to set namespaces off, and
those of the initializer. -/
def lineTotal (words : List UInt32) (embedding : Embedding) (layout : Layout) : Nat :=
  12 + 2 * embedding.namespaces.length + (if embedding.namespaces = [] then 0 else 2) +
    lineCount words.length (max layout.wordsPerLine 1)

theorem length_gapLines (namespaces : List String) :
    (gapLines namespaces).length = if namespaces = [] then 0 else 1 := by
  unfold gapLines
  by_cases none : namespaces = []
  · rw [if_pos none, if_pos none, List.length_nil]
  · rw [if_neg none, if_neg none, List.length_singleton]

theorem length_lines (words : List UInt32) (embedding : Embedding) (layout : Layout) :
    (lines words embedding layout).length = lineTotal words embedding layout := by
  rw [lines_eq_reference]
  simp only [reference, openingLines, closingLines, List.length_append, List.length_cons,
    List.length_nil, List.length_map, List.length_reverse, List.length_range, length_gapLines,
    lineTotal]
  by_cases none : embedding.namespaces = []
  · simp only [if_pos none]
    omega
  · simp only [if_neg none]
    omega

end Lines

section Text

variable {embedding : Embedding}

theorem ascii_of_isPlain {c : Char} (plain : isPlain c = true) : c.toNat < 128 := by
  rcases Bool.or_eq_true_iff.mp plain with printable | tab
  · exact toNat_of_isPrintable printable
  · rw [eq_of_beq tab]
    decide

theorem pieces_text (words : List UInt32) (layout : Layout) (valid : embedding.Valid) :
    pieces '\n' (text words embedding layout).toList =
      (lines words embedding layout).map String.toList ++ [[]] := by
  rw [text_eq_unlines]
  exact pieces_unlines fun line member => (consistsOf_lines valid member).not_mem (by decide)

/-- A header ends in the guard and a line end. -/
theorem toList_text_eq_append (words : List UInt32) (embedding : Embedding) (layout : Layout) :
    ∃ front : String,
      (text words embedding layout).toList = (front ++ embedding.guard).toList ++ ['\n'] := by
  have cut : ∃ before, lines words embedding layout = before ++ ["#endif // " ++ embedding.guard] :=
    ⟨_, (List.append_assoc _ _ _).symm⟩
  obtain ⟨before, cut⟩ := cut
  refine ⟨unlines before ++ "#endif // ", ?_⟩
  rw [text_eq_unlines, cut, unlines_append, unlines_singleton, ← String.append_assoc,
    ← String.append_assoc, String.toList_append]
  rfl

theorem neat_text (words : List UInt32) (layout : Layout) (valid : embedding.Valid) :
    Neat (text words embedding layout) (lineTotal words embedding layout) := by
  have plain : ∀ line ∈ lines words embedding layout, ConsistsOf line isPlain :=
    fun line member => consistsOf_lines valid member
  obtain ⟨front, ends⟩ := toList_text_eq_append words embedding layout
  obtain ⟨c, last, part⟩ := (embedding.valid_iff.mp valid).2.1.exists_getLast?
  refine ⟨?_, ?_, ?_, ?_, ?_⟩
  · intro c member
    rw [text_eq_unlines, toList_unlines, List.flatMap_map] at member
    obtain ⟨line, inside, among⟩ := List.mem_flatMap.mp member
    rcases List.mem_append.mp among with inLine | ended
    · exact ascii_of_isPlain (plain line inside c inLine)
    · rw [List.mem_singleton.mp ended]
      decide
  · rw [text_eq_unlines, count_unlines fun line member => (plain line member).not_mem (by decide)]
    exact length_lines words embedding layout
  · rw [pieces_text words layout valid]
    intro piece member
    rcases List.mem_append.mp member with filled | rest
    · obtain ⟨line, inside, rfl⟩ := List.mem_map.mp filled
      exact (Bool.not_eq_true' _).mp (isTrimmed_lines valid inside)
    · rw [List.mem_singleton.mp rest]
      rfl
  · rw [ends]
    exact List.getLast?_concat
  · rw [ends, List.dropLast_concat, getLast?_append_ending last]
    rintro same
    cases same
    cases part

/-- **What validity is good for.** An embedding is valid exactly when its guard, its array, its
size and its namespaces are spelled like identifiers.  Otherwise the message blames the first name
that is not: the array, the guard, then the namespaces from the outside in.  The header of a valid
embedding is a neat text, and its lines are those of its reference, so no name adds, removes or
splits one. -/
theorem text_of_valid (words : List UInt32) (embedding : Embedding) (layout : Layout) :
    (embedding.Valid ↔
        SpelledAsIdentifier embedding.guard ∧ SpelledAsIdentifier embedding.arrayName ∧
          SpelledAsIdentifier embedding.sizeName ∧
          ∀ segment ∈ embedding.namespaces, SpelledAsIdentifier segment) ∧
      (¬ embedding.Valid → ∃ fault, embedding.fault? = some fault ∧
        embedding.Blames (Failure.invalid fault).message) ∧
      (embedding.Valid →
        Neat (text words embedding layout) (lineTotal words embedding layout) ∧
          pieces '\n' (text words embedding layout).toList =
            (reference words embedding layout).map String.toList ++ [[]]) := by
  refine ⟨embedding.valid_iff_spelled, ?_, ?_⟩
  · intro invalid
    obtain ⟨fault, found⟩ := Option.ne_none_iff_exists'.mp invalid
    exact ⟨fault, found, Embedding.blames_of_fault? found⟩
  · intro valid
    rw [← lines_eq_reference]
    exact ⟨neat_text words layout valid, pieces_text words layout valid⟩

/-- A namespace that is no identifier is blamed before the next one, and seven words take twenty
lines in the usual embedding. -/
theorem text_of_valid_twenty :
    let split : Embedding := { Embedding.usual with namespaces := ["gpu", "a\nb", ""] }
    ¬ split.Valid ∧
      split.Blames "Invalid config: namespace 'a\nb' is not a C identifier" ∧
      Embedding.usual.Valid ∧ Neat (text [1, 2, 3, 4, 5, 6, 7] Embedding.usual {}) 20 := by
  intro split
  have invalid : ¬ split.Valid := by decide
  have valid : Embedding.usual.Valid := by decide
  obtain ⟨-, blamed, -⟩ := text_of_valid [] split {}
  obtain ⟨-, -, neat⟩ := text_of_valid [1, 2, 3, 4, 5, 6, 7] Embedding.usual {}
  obtain ⟨fault, found, blames⟩ := blamed invalid
  have first : split.fault? = some (.namespaceSegment "a\nb") := by decide
  rw [first] at found
  cases found
  exact ⟨invalid, blames, valid, (neat valid).1⟩

end Text

end Header

end ShaderHeader
