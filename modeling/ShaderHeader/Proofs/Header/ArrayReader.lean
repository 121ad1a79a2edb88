import ShaderHeader.Proofs.Header.Characters
import ShaderHeader.Proofs.Text.Pieces
import ShaderHeader.Proofs.Words
import ShaderHeader.Text.WhiteSpace

/-!
# Reading an array back from its header

`Header.readArray?` is given nothing but the text of a header.  It takes the lines
between the first that opens an initializer and the first that closes one, cuts them
into literals and reads these as hexadecimal numbers.  On a valid header it finds the
bytes that the header was made from, up to the last whole word.
-/

namespace ShaderHeader

/-- A line without the carriage return at its end. -/
def withoutReturn (line : List Char) : List Char :=
  if line.getLast? = some '\r' then line.dropLast else line

/-- The lines of a text.  A carriage return before the end of a line belongs to that end,
and what follows the last end is a line unless it is empty. -/
def linesOf (text : List Char) : List (List Char) :=
  (pieces '\n' text).dropLast.map withoutReturn ++
    (pieces '\n' text).getLast?.toList.filter (· ≠ [])

/-- A text of lines is cut into them at its line ends, if none of them holds one. -/
theorem pieces_unlines {lines : List String} (whole : ∀ line ∈ lines, '\n' ∉ line.toList) :
    pieces '\n' (unlines lines).toList = lines.map String.toList ++ [[]] := by
  rw [toList_unlines]
  induction lines with
  | nil => rfl
  | cons line rest ih =>
      obtain ⟨first, others⟩ := List.forall_mem_cons.mp whole
      rw [List.map_cons, List.flatMap_cons, List.append_assoc, List.singleton_append,
        pieces_append_separator first, ih others, List.cons_append]

/-- The lines of a text of lines are those lines, if none of them holds a line end. -/
theorem linesOf_unlines {lines : List String}
    (plain : ∀ line ∈ lines, '\n' ∉ line.toList ∧ '\r' ∉ line.toList) :
    linesOf (unlines lines).toList = lines.map String.toList := by
  have cut := pieces_unlines fun line member => (plain line member).1
  have kept : (lines.map String.toList).map withoutReturn = lines.map String.toList := by
    rw [List.map_map]
    refine List.map_congr_left fun line member => if_neg fun last => ?_
    exact (plain line member).2 (List.mem_of_getLast? last)
  rw [linesOf, cut, List.dropLast_concat, kept, List.getLast?_concat]
  exact List.append_nil _

namespace Header

/-- The lines of the array: what follows the first line that opens an initializer, as far
as the first line that closes one. -/
def arrayLines (text : List Char) : List (List Char) :=
  (((linesOf text).dropWhile fun line => !"[] = \x7b".toList.isSuffixOf line).drop 1).takeWhile
    fun line => line ≠ "\x7d;".toList

/-- Lines told apart by the initializer among them. -/
structure Parts where
  /-- The lines up to the first that opens an initializer, and this one. -/
  before : List (List Char)
  within : List (List Char)
  /-- The next line that closes an initializer, and all after it. -/
  after : List (List Char)

def unopened (line : List Char) : Bool :=
  !"[] = \x7b".toList.isSuffixOf line

def unclosed (line : List Char) : Bool :=
  line ≠ "\x7d;".toList

def Parts.ofLines (lines : List (List Char)) : Parts :=
  let begun := lines.dropWhile unopened
  { before := lines.takeWhile unopened ++ begun.take 1
    within := (begun.drop 1).takeWhile unclosed
    after := (begun.drop 1).dropWhile unclosed }

theorem arrayLines_eq (text : List Char) :
    arrayLines text = (Parts.ofLines (linesOf text)).within :=
  rfl

/-- No line is lost or moved. -/
theorem Parts.append_ofLines (lines : List (List Char)) :
    (ofLines lines).before ++ (ofLines lines).within ++ (ofLines lines).after = lines := by
  simp only [ofLines, List.append_assoc, List.takeWhile_append_dropWhile, List.take_append_drop]

/-- An initializer lies between the first line that opens one and the next that closes one. -/
theorem Parts.ofLines_append {before within : List (List Char)} {opening closing : List Char}
    (preamble : ∀ line ∈ before, unopened line = true) (opens : ¬ unopened opening = true)
    (body : ∀ line ∈ within, unclosed line = true) (closes : ¬ unclosed closing = true)
    (after : List (List Char)) :
    ofLines (before ++ opening :: (within ++ closing :: after)) =
      { before := before ++ [opening], within, after := closing :: after } := by
  dsimp only [ofLines]
  rw [List.dropWhile_append_of_pos preamble, List.takeWhile_append_of_pos preamble,
    List.dropWhile_cons_of_neg opens, List.takeWhile_cons_of_neg opens, List.append_nil,
    List.take_succ_cons, List.take_zero, List.drop_succ_cons, List.drop_zero,
    List.takeWhile_append_of_pos body, List.dropWhile_append_of_pos body,
    List.takeWhile_cons_of_neg closes, List.dropWhile_cons_of_neg closes, List.append_nil]

/-- A text without the commas at its end. -/
def withoutCommas (text : List Char) : List Char :=
  (text.reverse.dropWhile (· = ',')).reverse

/-- The stretches of a text between a comma and a space. -/
def stretches : List Char → List (List Char)
  | [] => [[]]
  | ',' :: ' ' :: rest => [] :: stretches rest
  | c :: rest =>
    match stretches rest with
    | [] => [[c]]
    | first :: others => (c :: first) :: others

/-- The literals on a line of an array. -/
def literalsOn (line : List Char) : List (List Char) :=
  stretches (withoutCommas (trimmed line))

/-- A text without all the hexadecimal marks it starts with. -/
def withoutMarks : List Char → List Char
  | '0' :: 'x' :: rest => withoutMarks rest
  | text => text

/-- The word that hexadecimal digits spell, after a plus sign or without one. -/
def hexWord? (text : List Char) : Option UInt32 :=
  let digits := if text.head? = some '+' then text.tail else text
  if digits = [] then none
  else (digits.mapM hexValue?).bind fun values =>
    let number := ofDigits 16 values
    if number < UInt32.size then some (UInt32.ofNat number) else none

/-- The bytes of the array that a header declares.  There are none if some literal on the
lines of the array is no word. -/
def readArray? (header : String) : Option (List UInt8) :=
  (((arrayLines header.toList).flatMap literalsOn).mapM fun literal =>
    hexWord? (withoutMarks literal)).map Words.encode

/-! ## Finding the array -/

theorem unopened_of_mem_openingLines {embedding : Embedding} (valid : embedding.Valid)
    {line : String} (member : line ∈ openingLines embedding) : unopened line.toList = true := by
  rw [unopened, Bool.not_eq_true', ← Bool.not_eq_true, List.isSuffixOf_iff_suffix]
  intro ends
  have absent : '=' ∉ line.toList := (consistsOf_openingLines valid member).not_mem (by decide)
  exact absent (ends.subset (by decide))

theorem not_unopened_arrayLine (embedding : Embedding) :
    ¬ unopened (arrayLine embedding).toList = true := by
  rw [unopened, Bool.not_eq_true', Bool.not_eq_false, List.isSuffixOf_iff_suffix]
  unfold arrayLine
  exact ⟨("alignas(4) static const uint32_t " ++ embedding.arrayName).toList,
    String.toList_append.symm⟩

theorem unclosed_of_mem_indentedLines {words : List UInt32} {layout : Layout} {line : String}
    (member : line ∈ indentedLines words layout) : unclosed line.toList = true := by
  obtain ⟨bare, inside, rfl⟩ := List.mem_map.mp member
  obtain ⟨chunk, -, rfl⟩ := List.mem_map.mp inside
  rw [unclosed, decide_eq_true_eq]
  intro same
  have comma : ',' ∈ (layout.indent.text ++ initializerLine chunk).toList := by
    simp only [initializerLine, String.toList_append, List.mem_append]
    exact .inr (.inr (by decide))
  rw [same] at comma
  revert comma
  decide

/-- The lines of a valid header are found in its text. -/
theorem linesOf_text {words : List UInt32} {embedding : Embedding} {layout : Layout}
    (valid : embedding.Valid) :
    linesOf (text words embedding layout).toList =
      (lines words embedding layout).map String.toList := by
  rw [text_eq_unlines]
  apply linesOf_unlines
  intro line member
  have plain := consistsOf_lines valid member
  exact ⟨plain.not_mem (by decide), plain.not_mem (by decide)⟩

/-- The initializer of a valid header is found among its lines. -/
theorem parts_lines {words : List UInt32} {embedding : Embedding} {layout : Layout}
    (valid : embedding.Valid) (more : List (List Char)) :
    Parts.ofLines ((lines words embedding layout).map String.toList ++ more) =
      { before := (openingLines embedding ++ [arrayLine embedding]).map String.toList
        within := (indentedLines words layout).map String.toList
        after := ("\x7d;" :: closingLines embedding).map String.toList ++ more } := by
  have spelled : (lines words embedding layout).map String.toList ++ more =
      (openingLines embedding).map String.toList ++ (arrayLine embedding).toList ::
        ((indentedLines words layout).map String.toList ++
          "\x7d;".toList :: ((closingLines embedding).map String.toList ++ more)) := by
    simp only [lines, List.map_append, List.map_cons, List.append_assoc, List.cons_append,
      List.nil_append]
  rw [spelled, Parts.ofLines_append, List.map_append]
  · rfl
  · intro line member
    obtain ⟨opening, inside, rfl⟩ := List.mem_map.mp member
    exact unopened_of_mem_openingLines valid inside
  · exact not_unopened_arrayLine embedding
  · intro line member
    obtain ⟨bare, inside, rfl⟩ := List.mem_map.mp member
    exact unclosed_of_mem_indentedLines inside
  · decide

/-- The lines of the array of a valid header are those of its initializer. -/
theorem arrayLines_text {words : List UInt32} {embedding : Embedding} {layout : Layout}
    (valid : embedding.Valid) :
    arrayLines (text words embedding layout).toList =
      (indentedLines words layout).map String.toList := by
  rw [arrayLines_eq, linesOf_text valid, ← List.append_nil (List.map _ _), parts_lines valid]

/-! ## Reading a literal -/

/-- A list whose members can all be read one by one can be read. -/
theorem mapM_map_eq_some {α β γ : Type} {list : List α} {written : α → β} {read? : β → Option γ}
    {value : α → γ} (each : ∀ item ∈ list, read? (written item) = some (value item)) :
    (list.map written).mapM read? = some (list.map value) := by
  induction list with
  | nil => rfl
  | cons first rest ih =>
      have others := ih fun item member => each item (List.mem_cons_of_mem first member)
      rw [List.map_cons, List.mapM_cons, each first List.mem_cons_self, others]
      rfl

theorem hexValue_digitChar {digit : Nat} (small : digit < 16) :
    hexValue? (Nat.digitChar digit) = some digit := by
  revert digit
  decide

theorem digitChar_ne {digit : Nat} (small : digit < 16) :
    Nat.digitChar digit ≠ '+' ∧ Nat.digitChar digit ≠ 'x' ∧ Nat.digitChar digit ≠ ',' := by
  revert digit
  decide

theorem withoutMarks_of_not_mem {text : List Char} (unmarked : 'x' ∉ text) :
    withoutMarks text = text := by
  unfold withoutMarks
  split
  · exact (unmarked (List.mem_cons_of_mem _ List.mem_cons_self)).elim
  · rfl

theorem hexWord_literal (word : UInt32) :
    hexWord? (withoutMarks (literal word).toList) = some word := by
  let digits := (digitsOf word).map Nat.digitChar
  have bare : withoutMarks (literal word).toList = digits := by
    rw [toList_literal, withoutMarks]
    apply withoutMarks_of_not_mem
    intro member
    obtain ⟨digit, inside, same⟩ := List.mem_map.mp member
    exact (digitChar_ne (lt_of_mem_digitsOf inside)).2.1 same
  have filled : digits ≠ [] := List.cons_ne_nil _ _
  have unsigned : digits.head? ≠ some '+' := by
    intro same
    obtain ⟨digit, inside, same⟩ := List.mem_map.mp (List.mem_of_head? same)
    exact (digitChar_ne (lt_of_mem_digitsOf inside)).1 same
  have read : digits.mapM hexValue? = some ((digitsOf word).map id) :=
    mapM_map_eq_some fun digit inside => hexValue_digitChar (lt_of_mem_digitsOf inside)
  rw [bare, hexWord?, if_neg unsigned, if_neg filled, read, Option.bind_some, List.map_id,
    ofDigits_digitsOf, if_pos word.toNat_lt, UInt32.ofNat_toNat]

/-! ## Reading a line -/

/-- A literal is a mark and more, up to a digit, and holds no comma. -/
theorem literal_spelling (word : UInt32) :
    ∃ middle digit, digit < 16 ∧
      (literal word).toList = '0' :: (middle ++ [Nat.digitChar digit]) ∧
      ',' ∉ (literal word).toList := by
  have filled : digitsOf word ≠ [] := List.cons_ne_nil _ _
  have small := lt_of_mem_digitsOf (List.getLast_mem filled)
  refine ⟨'x' :: ((digitsOf word).dropLast.map Nat.digitChar), _, small, ?_, ?_⟩
  · have cut := congrArg (List.map Nat.digitChar) (List.dropLast_concat_getLast filled)
    rw [List.map_append, List.map_singleton] at cut
    rw [toList_literal, ← cut]
    rfl
  · rw [toList_literal, List.mem_cons, List.mem_cons, List.mem_map]
    rintro (mark | mark | ⟨digit, inside, same⟩)
    · exact absurd mark (by decide)
    · exact absurd mark (by decide)
    · exact (digitChar_ne (lt_of_mem_digitsOf inside)).2.2 same

/-- The literals of a list of words, with a comma and a space between them. -/
def joined (words : List UInt32) : List Char :=
  [',', ' '].intercalate (words.map fun word => (literal word).toList)

theorem joined_cons_cons (first second : UInt32) (rest : List UInt32) :
    joined (first :: second :: rest) =
      (literal first).toList ++ ',' :: ' ' :: joined (second :: rest) := by
  rw [joined, List.map_cons, List.map_cons, List.intercalate_cons_cons, List.append_assoc]
  rfl

theorem joined_singleton (word : UInt32) : joined [word] = (literal word).toList :=
  List.intercalate_singleton

theorem joined_spelling {words : List UInt32} (filled : words ≠ []) :
    ∃ middle digit, digit < 16 ∧ joined words = '0' :: (middle ++ [Nat.digitChar digit]) := by
  induction words with
  | nil => exact (filled rfl).elim
  | cons first rest ih =>
      obtain ⟨middle, digit, small, spelled, -⟩ := literal_spelling first
      cases rest with
      | nil => exact ⟨middle, digit, small, (joined_singleton first).trans spelled⟩
      | cons second others =>
          obtain ⟨later, last, fits, tail⟩ := ih (List.cons_ne_nil second others)
          refine ⟨middle ++ Nat.digitChar digit :: ',' :: ' ' :: '0' :: later, last, fits, ?_⟩
          rw [joined_cons_cons, spelled, tail]
          simp only [List.cons_append, List.append_assoc, List.nil_append]

/-- A character other than a comma belongs to the stretch after it. -/
theorem stretches_cons {c : Char} (other : c ≠ ',') {text first : List Char}
    {others : List (List Char)} (cut : stretches text = first :: others) :
    stretches (c :: text) = (c :: first) :: others := by
  rw [stretches, cut]
  intro rest same
  exact (other same).elim

/-- A stretch ends at the first comma that a space follows. -/
theorem stretches_append {first : List Char} (free : ',' ∉ first) (rest : List Char) :
    stretches (first ++ ',' :: ' ' :: rest) = first :: stretches rest := by
  induction first with
  | nil => rw [List.nil_append, stretches]
  | cons c others ih =>
      rw [List.mem_cons, not_or] at free
      exact stretches_cons (Ne.symm free.1) (ih free.2)

theorem stretches_of_not_mem {text : List Char} (free : ',' ∉ text) : stretches text = [text] := by
  induction text with
  | nil => rw [stretches]
  | cons c rest ih =>
      rw [List.mem_cons, not_or] at free
      exact stretches_cons (Ne.symm free.1) (ih free.2)

/-- The stretches of joined literals are the literals. -/
theorem stretches_joined {words : List UInt32} (filled : words ≠ []) :
    stretches (joined words) = words.map fun word => (literal word).toList := by
  induction words with
  | nil => exact (filled rfl).elim
  | cons first rest ih =>
      obtain ⟨-, -, -, -, free⟩ := literal_spelling first
      cases rest with
      | nil => rw [joined_singleton, stretches_of_not_mem free, List.map_singleton]
      | cons second others =>
          rw [joined_cons_cons, stretches_append free, ih (List.cons_ne_nil second others)]
          rfl

/-- Trimming takes away white space up to where the text starts and ends in something else. -/
theorem trimmed_append {blank middle : List Char} {first last : Char}
    (white : ∀ c ∈ blank, isWhiteSpace c = true) (starts : isWhiteSpace first = false)
    (ends : isWhiteSpace last = false) :
    trimmed (blank ++ first :: (middle ++ [last])) = first :: (middle ++ [last]) := by
  have left : (blank ++ first :: (middle ++ [last])).dropWhile isWhiteSpace =
      first :: (middle ++ [last]) := by
    rw [List.dropWhile_append_of_pos white,
      List.dropWhile_cons_of_neg (by rw [starts]; exact Bool.false_ne_true)]
  have backwards : (first :: (middle ++ [last])).reverse = last :: (first :: middle).reverse := by
    rw [← List.cons_append, List.reverse_append, List.reverse_singleton, List.singleton_append]
  rw [trimmed, left, backwards,
    List.dropWhile_cons_of_neg (by rw [ends]; exact Bool.false_ne_true), ← backwards,
    List.reverse_reverse]

/-- Only the comma at the end is taken away. -/
theorem withoutCommas_append {text : List Char} {last : Char} (kept : last ≠ ',') :
    withoutCommas (text ++ [last] ++ [',']) = text ++ [last] := by
  rw [withoutCommas, List.reverse_append, List.reverse_append, List.reverse_singleton,
    List.singleton_append, List.reverse_singleton, List.singleton_append,
    List.dropWhile_cons_of_pos (by decide), List.dropWhile_cons_of_neg (by simpa using kept),
    List.reverse_cons, List.reverse_reverse]

theorem isWhiteSpace_indent {indent : Indent} {c : Char} (member : c ∈ indent.text.toList) :
    isWhiteSpace c = true := by
  cases indent with
  | spaces count =>
      rw [Indent.text, String.toList_ofList] at member
      rw [List.eq_of_mem_replicate member]
      decide
  | tab =>
      have single : Indent.tab.text.toList = ['\t'] := by decide
      rw [single, List.mem_singleton] at member
      rw [member]
      decide

theorem literalsOn_initializerLine {chunk : List UInt32} (filled : chunk ≠ []) (indent : Indent) :
    literalsOn (indent.text ++ initializerLine chunk).toList =
      chunk.map fun word => (literal word).toList := by
  obtain ⟨middle, digit, small, spelled⟩ := joined_spelling filled
  have line : (indent.text ++ initializerLine chunk).toList =
      indent.text.toList ++ '0' :: (middle ++ [Nat.digitChar digit] ++ [',']) := by
    rw [initializerLine, String.toList_append, String.toList_append, String.toList_intercalate,
      List.map_map, ← List.cons_append, ← spelled]
    rfl
  have bare : withoutCommas ('0' :: (middle ++ [Nat.digitChar digit] ++ [','])) =
      joined chunk := by
    rw [spelled, ← List.cons_append, ← List.cons_append]
    exact withoutCommas_append (digitChar_ne small).2.2
  rw [literalsOn, line, trimmed_append (fun c member => isWhiteSpace_indent member) (by decide)
    (by decide), bare, stretches_joined filled]

/-! ## Reading the array -/

/-- The literals on the lines of an initializer are those of all its words. -/
theorem flatMap_literalsOn_indentedLines (words : List UInt32) (layout : Layout) :
    ((indentedLines words layout).map String.toList).flatMap literalsOn =
      words.map fun word => (literal word).toList := by
  have each : ∀ chunk ∈ chunks layout.lineWidth words,
      literalsOn (layout.indent.text ++ initializerLine chunk).toList =
        chunk.map fun word => (literal word).toList :=
    fun chunk member => literalsOn_initializerLine (ne_nil_of_mem_chunks member) layout.indent
  rw [indentedLines, initializerLines, List.map_map, List.map_map, List.flatMap_map,
    List.flatMap_def]
  calc ((chunks layout.lineWidth words).map fun chunk =>
        literalsOn (layout.indent.text ++ initializerLine chunk).toList).flatten
      = ((chunks layout.lineWidth words).map fun chunk =>
          chunk.map fun word => (literal word).toList).flatten := by
        rw [List.map_congr_left each]
    _ = words.map fun word => (literal word).toList := by
        rw [← List.map_flatten, flatten_chunks]

/-- **The header holds the module.** Reading back the array from the header that is made
from a byte string in any layout, its names being identifiers, gives the bytes of the
string up to the last whole word; the usual layout is one of them. -/
theorem readArray_text (bytes : List UInt8) (embedding : Embedding) (layout : Layout)
    (valid : embedding.Valid) :
    readArray? (text (Words.ofBytes bytes).list embedding layout) =
        some (bytes.take (4 * (bytes.length / 4))) ∧
      readArray? (ofModule bytes embedding) = some (bytes.take (4 * (bytes.length / 4))) := by
  have read (layout : Layout) : readArray? (text (Words.ofBytes bytes).list embedding layout) =
      some (bytes.take (4 * (bytes.length / 4))) := by
    have words : ((Words.ofBytes bytes).list.map fun word => (literal word).toList).mapM
        (fun literal => hexWord? (withoutMarks literal)) =
          some ((Words.ofBytes bytes).list.map id) :=
      mapM_map_eq_some fun word _ => hexWord_literal word
    rw [readArray?, arrayLines_text valid, flatMap_literalsOn_indentedLines, words, List.map_id,
      Option.map_some, Words.encode_ofBytes]
  exact ⟨read layout, read {}⟩

/-- Nine bytes on lines of one word each: the ninth is no part of a word. -/
theorem readArray_text_tab :
    Embedding.usual.Valid ∧
      readArray? (text (Words.ofBytes [1, 2, 3, 4, 5, 6, 7, 8, 9]).list Embedding.usual
        { indent := .tab, wordsPerLine := 0 }) = some [1, 2, 3, 4, 5, 6, 7, 8] := by
  have valid : Embedding.usual.Valid := by decide
  obtain ⟨read, -⟩ := readArray_text [1, 2, 3, 4, 5, 6, 7, 8, 9] Embedding.usual
    { indent := .tab, wordsPerLine := 0 } valid
  exact ⟨valid, read⟩

end Header

end ShaderHeader
