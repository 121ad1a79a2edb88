import ShaderHeader.Proofs.Header.Lines
import ShaderHeader.Proofs.Header.Literal
import ShaderHeader.Proofs.Identifier

/-!
# The characters of a header

Every line of a valid header is printable, apart from the indentation of the
initializer.  Only the lines that define the array and its size hold an equals sign, and every
line of the initializer holds a comma, which is how a reader tells where the array starts and
ends.
-/

namespace ShaderHeader

namespace Header

/-- A printable character other than the equals sign. -/
def isPreamble (c : Char) : Bool :=
  isPrintable c && c != '='

theorem isPreamble_of_isNamePart (c : Char) (part : isNamePart c = true) :
    isPreamble c = true := by
  unfold isPreamble
  rw [isPrintable_of_isNamePart c part, Bool.true_and, bne_iff_ne]
  rintro rfl
  revert part
  decide

/-- The lines before the array are printable and hold no equals sign. -/
theorem consistsOf_openingLines {embedding : Embedding} (valid : embedding.Valid) {line : String}
    (member : line ∈ openingLines embedding) : ConsistsOf line isPreamble := by
  obtain ⟨-, guarded, named⟩ := embedding.valid_iff.mp valid
  have guard := guarded.consistsOf.mono isPreamble_of_isNamePart
  cases isOpening_of_mem member with
  | blank => decide
  | ifndef => exact .append (by decide) guard
  | define => exact .append (by decide) guard
  | words => decide
  | sizes => decide
  | enter inside =>
      have name := (named _ inside).consistsOf.mono isPreamble_of_isNamePart
      exact .append (.append (by decide) name) (by decide)

/-- A character that may stand on a line of an initializer. -/
def isBody (c : Char) : Bool :=
  isPreamble c || c == '\t'

/-- A character that may stand on a line of a header. -/
def isPlain (c : Char) : Bool :=
  isPrintable c || c == '\t'

theorem isPrintable_of_isPreamble (c : Char) (preamble : isPreamble c = true) :
    isPrintable c = true :=
  (Bool.and_eq_true_iff.mp preamble).1

theorem isPlain_of_isPrintable (c : Char) (printable : isPrintable c = true) :
    isPlain c = true := by
  rw [isPlain, printable, Bool.true_or]

theorem isPlain_of_isBody (c : Char) (body : isBody c = true) : isPlain c = true := by
  rcases Bool.or_eq_true_iff.mp body with preamble | tab
  · exact isPlain_of_isPrintable c (isPrintable_of_isPreamble c preamble)
  · rw [isPlain, tab, Bool.or_true]

/-- The characters of an initializer: those of indentations, of literals and between them. -/
def initializerCharacters : List Char :=
  " \t,x0123456789abcdef".toList

theorem digitChar_mem {digit : Nat} (small : digit < 16) :
    Nat.digitChar digit ∈ initializerCharacters := by
  revert digit
  decide

section Initializer

variable {kind : Char → Bool}

theorem consistsOf_indent (space : kind ' ' = true) (tab : kind '\t' = true) (indent : Indent) :
    ConsistsOf indent.text kind := by
  intro c member
  cases indent with
  | spaces count =>
      rw [Indent.text, String.toList_ofList] at member
      rw [List.eq_of_mem_replicate member, space]
  | tab =>
      have same : c = '\t' := List.mem_singleton.mp member
      rw [same, tab]

theorem consistsOf_literal (included : ∀ c ∈ initializerCharacters, kind c = true)
    (word : UInt32) : ConsistsOf (literal word) kind := by
  intro c member
  rw [toList_literal, List.mem_cons, List.mem_cons, List.mem_map] at member
  rcases member with rfl | rfl | ⟨digit, inside, rfl⟩
  · exact included _ (by decide)
  · exact included _ (by decide)
  · exact included _ (digitChar_mem (lt_of_mem_digitsOf inside))

/-- The lines of the initializer consist of any kind of characters that covers those of it. -/
theorem consistsOf_indentedLines_of (included : initializerCharacters.all kind = true)
    {words : List UInt32} {layout : Layout} {line : String}
    (member : line ∈ indentedLines words layout) : ConsistsOf line kind := by
  have each := List.all_eq_true.mp included
  have separator : ConsistsOf ", " kind :=
    fun c inside => each c ((by decide : ", ".toList ⊆ initializerCharacters) inside)
  have comma : ConsistsOf "," kind :=
    fun c inside => each c ((by decide : ",".toList ⊆ initializerCharacters) inside)
  obtain ⟨bare, inside, rfl⟩ := List.mem_map.mp member
  obtain ⟨chunk, -, rfl⟩ := List.mem_map.mp inside
  refine (consistsOf_indent (each _ (by decide)) (each _ (by decide)) layout.indent).append ?_
  refine .append (.intercalate separator ?_) comma
  intro part among
  obtain ⟨word, -, rfl⟩ := List.mem_map.mp among
  exact consistsOf_literal each word

end Initializer

/-- The lines of the initializer hold no equals sign either. -/
theorem consistsOf_indentedLines {words : List UInt32} {layout : Layout} {line : String}
    (member : line ∈ indentedLines words layout) : ConsistsOf line isBody :=
  consistsOf_indentedLines_of (by decide) member

theorem consistsOf_arrayLine {embedding : Embedding} (valid : embedding.Valid) :
    ConsistsOf (arrayLine embedding) isPrintable := by
  have array := (embedding.valid_iff.mp valid).1.consistsOf.mono isPrintable_of_isNamePart
  exact .append (.append (by decide) array) (by decide)

theorem consistsOf_sizeLine {embedding : Embedding} (valid : embedding.Valid) :
    ConsistsOf (sizeLine embedding) isPrintable := by
  have array := (embedding.valid_iff.mp valid).1.consistsOf.mono isPrintable_of_isNamePart
  have size : ConsistsOf embedding.sizeName isPrintable := array.append (by decide)
  exact .append (.append (.append (.append (by decide) size) (by decide)) array) (by decide)

/-- The lines after the size of the array are printable and hold no equals sign. -/
theorem consistsOf_endingLines {embedding : Embedding} (valid : embedding.Valid) {line : String}
    (member : line ∈ endingLines embedding) : ConsistsOf line isPreamble := by
  obtain ⟨-, guarded, named⟩ := embedding.valid_iff.mp valid
  cases isEnding_of_mem member with
  | blank => decide
  | leave inside =>
      exact .append (by decide) ((named _ inside).consistsOf.mono isPreamble_of_isNamePart)
  | endif => exact .append (by decide) (guarded.consistsOf.mono isPreamble_of_isNamePart)

/-- The lines after the array are printable. -/
theorem consistsOf_closingLines {embedding : Embedding} (valid : embedding.Valid) {line : String}
    (member : line ∈ closingLines embedding) : ConsistsOf line isPrintable := by
  rcases mem_closingLines.mp member with rfl | rfl | ending
  · decide
  · exact consistsOf_sizeLine valid
  · exact (consistsOf_endingLines valid ending).mono isPrintable_of_isPreamble

/-- **The characters of a header.** Every line of a valid header is plain. -/
theorem consistsOf_lines {words : List UInt32} {embedding : Embedding} {layout : Layout}
    (valid : embedding.Valid) {line : String} (member : line ∈ lines words embedding layout) :
    ConsistsOf line isPlain := by
  rcases mem_lines.mp member with opening | rfl | inside | rfl | closing
  · refine (consistsOf_openingLines valid opening).mono fun c preamble => ?_
    exact isPlain_of_isPrintable c (isPrintable_of_isPreamble c preamble)
  · exact (consistsOf_arrayLine valid).mono isPlain_of_isPrintable
  · exact (consistsOf_indentedLines inside).mono isPlain_of_isBody
  · decide
  · exact (consistsOf_closingLines valid closing).mono isPlain_of_isPrintable

end Header

end ShaderHeader
