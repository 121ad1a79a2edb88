import ShaderHeader.Proofs.Header.Declaration
import ShaderHeader.Proofs.Header.Reference
import ShaderHeader.Proofs.Text.Utf8

/-!
# Where literals stand

Every word takes the same number of bytes in a header, apart from the indentation of its line.
So the length of a header and the place of every literal can be computed
(`Header.digits_text`), and words that are exchanged change nothing but their own digits.
-/

namespace ShaderHeader

namespace Utf8

/-- How many bytes a text takes. -/
def size (text : String) : Nat :=
  (encode text).length

theorem size_append (first second : String) : size (first ++ second) = size first + size second := by
  rw [size, encode_append, List.length_append]
  rfl

end Utf8

namespace Header

open Utf8 (size size_append)

/-- How many bytes a word takes on its line: those of its literal, and two that follow them. -/
def literalWidth : Nat := 12

/-- The digits of a literal. -/
def digits (word : UInt32) : String :=
  String.ofList ((digitsOf word).map Nat.digitChar)

theorem literal_eq_digits (word : UInt32) : literal word = "0x" ++ digits word :=
  literal_eq word

theorem size_digitChars {values : List Nat} (small : ∀ value ∈ values, value < 16) :
    size (String.ofList (values.map Nat.digitChar)) = values.length := by
  have single : ∀ value, value < 16 → (String.utf8EncodeChar (Nat.digitChar value)).length = 1 := by
    decide
  unfold size Utf8.encode
  rw [String.toList_ofList]
  induction values with
  | nil => rfl
  | cons first rest ih =>
      obtain ⟨digit, others⟩ := List.forall_mem_cons.mp small
      rw [List.map_cons, List.flatMap_cons, List.length_append, single first digit, ih others,
        List.length_cons, Nat.add_comm]

theorem size_digits (word : UInt32) : size (digits word) = 8 :=
  size_digitChars fun _ => lt_of_mem_digitsOf

theorem size_literal (word : UInt32) : size (literal word) = 10 := by
  rw [literal_eq_digits, size_append, size_digits]
  rfl

theorem initializerLine_singleton (word : UInt32) :
    initializerLine [word] = literal word ++ "," := by
  rw [initializerLine, List.map_singleton, String.intercalate_singleton]

theorem initializerLine_cons (word : UInt32) {rest : List UInt32} (more : rest ≠ []) :
    initializerLine (word :: rest) = literal word ++ (", " ++ initializerLine rest) := by
  have others : rest.map literal ≠ [] := mt List.map_eq_nil_iff.mp more
  rw [initializerLine, List.map_cons, String.intercalate_cons_of_ne_nil others, initializerLine]
  simp only [String.append_assoc]

/-- The line end is the byte that the last word of a line still lacks. -/
theorem size_initializerLine {words : List UInt32} (filled : words ≠ []) :
    size (initializerLine words) + 1 = literalWidth * words.length := by
  induction words with
  | nil => exact absurd rfl filled
  | cons first rest ih =>
      by_cases last : rest = []
      · rw [last, initializerLine_singleton, size_append, size_literal]
        rfl
      · have later := ih last
        rw [initializerLine_cons first last, size_append, size_append, size_literal,
          List.length_cons, Nat.mul_succ, ← later]
        have comma : size ", " = 2 := rfl
        unfold literalWidth
        omega

/-- On a line, a word can be exchanged without changing what stands before and after its
digits. -/
theorem digits_initializerLine {words : List UInt32} {i : Nat} (inside : i < words.length) :
    ∃ before after, size before = literalWidth * i + 2 ∧
      ∀ word, initializerLine (words.set i word) = before ++ digits word ++ after := by
  induction words generalizing i with
  | nil => exact (Nat.not_lt_zero i inside).elim
  | cons first rest ih =>
      cases i with
      | zero =>
          by_cases last : rest = []
          · refine ⟨"0x", ",", rfl, fun word => ?_⟩
            rw [last, List.set_cons_zero, initializerLine_singleton, literal_eq_digits]
          · refine ⟨"0x", ", " ++ initializerLine rest, rfl, fun word => ?_⟩
            rw [List.set_cons_zero, initializerLine_cons word last, literal_eq_digits]
      | succ i =>
          obtain ⟨before, after, long, spelled⟩ := ih (Nat.lt_of_succ_lt_succ inside)
          refine ⟨literal first ++ (", " ++ before), after, ?_, fun word => ?_⟩
          · have comma : size ", " = 2 := rfl
            rw [size_append, size_append, size_literal, long]
            unfold literalWidth
            omega
          · have more : rest.set i word ≠ [] := by
              rw [ne_eq, List.set_eq_nil_iff]
              rintro rfl
              exact Nat.not_lt_zero _ (Nat.lt_of_succ_lt_succ inside)
            rw [List.set_cons_succ, initializerLine_cons first more, spelled]
            simp only [String.append_assoc]

section Initializer

variable {words : List UInt32} {layout : Layout}

/-- The lines of an initializer, each of them ended. -/
def initializer (words : List UInt32) (layout : Layout) : String :=
  unlines (indentedLines words layout)

theorem lineWidth_pos (layout : Layout) : 0 < layout.lineWidth :=
  Nat.lt_of_lt_of_le Nat.one_pos (Nat.le_max_right _ _)

theorem chunks_of_ne_nil {α : Type} {width : Nat} (positive : 0 < width) {list : List α}
    (filled : list ≠ []) :
    chunks width list = list.take width :: chunks width (list.drop width) := by
  obtain ⟨less, rfl⟩ : ∃ less, width = less + 1 := ⟨width - 1, by omega⟩
  cases list with
  | nil => exact absurd rfl filled
  | cons first rest => rw [chunks, List.take_succ_cons, List.drop_succ_cons, Nat.add_sub_cancel]

/-- The first line of an initializer carries as many words as it can. -/
theorem initializer_of_ne_nil (filled : words ≠ []) :
    initializer words layout =
      layout.indent.text ++ initializerLine (words.take layout.lineWidth) ++ "\n" ++
        initializer (words.drop layout.lineWidth) layout := by
  have cut := chunks_of_ne_nil (lineWidth_pos layout) filled
  unfold initializer indentedLines initializerLines
  rw [cut, List.map_cons, List.map_cons, ← List.singleton_append, unlines_append,
    unlines_singleton]

theorem take_ne_nil (layout : Layout) (filled : words ≠ []) : words.take layout.lineWidth ≠ [] := by
  have positive := lineWidth_pos layout
  rw [ne_eq, List.take_eq_nil_iff, not_or]
  exact ⟨Nat.ne_of_gt positive, filled⟩

/-- A line takes its indentation, and as much for each of its words. -/
theorem size_line (filled : words ≠ []) :
    size (layout.indent.text ++ initializerLine (words.take layout.lineWidth) ++ "\n") =
      size layout.indent.text + literalWidth * min layout.lineWidth words.length := by
  have line := size_initializerLine (take_ne_nil layout filled)
  have ended : size "\n" = 1 := rfl
  rw [List.length_take] at line
  rw [size_append, size_append, ended, ← line, Nat.add_assoc]

/-- What the first line of an initializer leaves. -/
theorem drop_lineWidth (first : UInt32) (rest : List UInt32) (layout : Layout) :
    (first :: rest).drop layout.lineWidth = rest.drop (layout.lineWidth - 1) := by
  obtain ⟨less, same⟩ : ∃ less, layout.lineWidth = less + 1 :=
    ⟨layout.lineWidth - 1, by have := lineWidth_pos layout; omega⟩
  rw [same, List.drop_succ_cons, Nat.add_sub_cancel]

theorem size_initializer (words : List UInt32) (layout : Layout) :
    size (initializer words layout) = literalWidth * words.length +
      size layout.indent.text * lineCount words.length layout.lineWidth := by
  have positive := lineWidth_pos layout
  induction words using chunks.induct layout.lineWidth with
  | case1 =>
      rw [List.length_nil, lineCount_zero positive, initializer, indentedLines, initializerLines,
        chunks]
      rfl
  | case2 first rest ih =>
      have filled : first :: rest ≠ [] := List.cons_ne_nil first rest
      have fewer : rest.length - (layout.lineWidth - 1) = rest.length + 1 - layout.lineWidth := by
        omega
      rw [initializer_of_ne_nil filled, size_append, size_line filled, drop_lineWidth, ih,
        List.length_drop, List.length_cons, fewer, lineCount_succ positive, Nat.mul_succ,
        Nat.mul_succ]
      unfold literalWidth
      omega

/-- In an initializer, a word can be exchanged without changing what stands before and after its
digits.  The lines before its own are full. -/
theorem digits_initializer (layout : Layout) {i : Nat} (inside : i < words.length) :
    ∃ before after, size before = i / layout.lineWidth *
          (size layout.indent.text + literalWidth * layout.lineWidth) +
        size layout.indent.text + literalWidth * (i % layout.lineWidth) + 2 ∧
      ∀ word, initializer (words.set i word) layout = before ++ digits word ++ after := by
  have positive := lineWidth_pos layout
  induction words using chunks.induct layout.lineWidth generalizing i with
  | case1 => exact (Nat.not_lt_zero i inside).elim
  | case2 first rest ih =>
      have filled (word : UInt32) : (first :: rest).set i word ≠ [] := by
        rw [ne_eq, List.set_eq_nil_iff]
        exact List.cons_ne_nil first rest
      by_cases here : i < layout.lineWidth
      · -- the word is exchanged on the first line
        have among : i < ((first :: rest).take layout.lineWidth).length := by
          rw [List.length_take]
          omega
        obtain ⟨before, after, long, spelled⟩ := digits_initializerLine among
        refine ⟨layout.indent.text ++ before, after ++ "\n" ++
          initializer ((first :: rest).drop layout.lineWidth) layout, ?_, fun word => ?_⟩
        · rw [size_append, long, Nat.div_eq_of_lt here, Nat.mod_eq_of_lt here, Nat.zero_mul,
            Nat.zero_add, Nat.add_assoc]
        · rw [initializer_of_ne_nil (filled word), List.take_set, spelled,
            List.drop_set_of_lt here]
          simp only [String.append_assoc]
      · -- the word is exchanged on a later line
        have beyond : layout.lineWidth ≤ i := Nat.le_of_not_lt here
        have among : i - layout.lineWidth < (rest.drop (layout.lineWidth - 1)).length := by
          rw [List.length_drop]
          rw [List.length_cons] at inside
          omega
        obtain ⟨before, after, long, spelled⟩ := ih among
        have whole : min layout.lineWidth (first :: rest).length = layout.lineWidth := by omega
        refine ⟨layout.indent.text ++ initializerLine ((first :: rest).take layout.lineWidth) ++
          "\n" ++ before, after, ?_, fun word => ?_⟩
        · have line : i / layout.lineWidth = (i - layout.lineWidth) / layout.lineWidth + 1 :=
            Nat.div_eq_sub_div positive beyond
          have column : i % layout.lineWidth = (i - layout.lineWidth) % layout.lineWidth :=
            Nat.mod_eq_sub_mod beyond
          rw [size_append, size_line (List.cons_ne_nil first rest), whole, long, line, column,
            Nat.succ_mul]
          omega
        · rw [initializer_of_ne_nil (filled word), List.take_set_of_le beyond,
            List.drop_set, if_neg here, drop_lineWidth, spelled]
          simp only [String.append_assoc]

end Initializer

/-- The lines of a header up to the array, each of them ended. -/
def beginning (embedding : Embedding) : String :=
  unlines (openingLines embedding ++ [arrayLine embedding])

theorem text_eq_append (words : List UInt32) (embedding : Embedding) (layout : Layout) :
    text words embedding layout = beginning embedding ++ initializer words layout ++
      unlines ("\x7d;" :: closingLines embedding) := by
  have cut : lines words embedding layout =
      openingLines embedding ++ [arrayLine embedding] ++ indentedLines words layout ++
        "\x7d;" :: closingLines embedding := List.append_assoc ..
  rw [text_eq_unlines, cut, unlines_append, unlines_append]
  rfl

section Exchange

variable {before after : String}

/-- Eight bytes that stand between others can be cut out. -/
theorem digits_of_append (word : UInt32) :
    ((Utf8.encode (before ++ digits word ++ after)).drop (size before)).take 8 =
      Utf8.encode (digits word) := by
  rw [Utf8.encode_append, Utf8.encode_append, List.append_assoc, size, List.drop_left]
  exact List.take_left' (size_digits word)

/-- Exchanging the digits of a word leaves the bytes around them alone. -/
theorem getElem?_exchange (word word' : UInt32) {place : Nat}
    (outside : place < size before ∨ size before + 8 ≤ place) :
    (Utf8.encode (before ++ digits word ++ after))[place]? =
      (Utf8.encode (before ++ digits word' ++ after))[place]? := by
  have long := size_digits word
  have long' := size_digits word'
  unfold size at *
  simp only [Utf8.encode_append, List.append_assoc]
  rcases outside with early | late
  · rw [List.getElem?_append_left early, List.getElem?_append_left early]
  · rw [List.getElem?_append_right (by omega), List.getElem?_append_right (by omega),
      List.getElem?_append_right (by omega), List.getElem?_append_right (by omega), long, long']

end Exchange

theorem digits_injective {first second : UInt32} (same : digits first = digits second) :
    first = second := by
  apply literal_injective
  rw [literal_eq_digits, literal_eq_digits, same]

/-- Where the digits of a word start: behind the lines up to the array, the full lines before its
own, and on its own line the indentation, the words before it and its mark. -/
def digitsPlace (embedding : Embedding) (layout : Layout) (i : Nat) : Nat :=
  size (beginning embedding) +
    i / layout.lineWidth * (size layout.indent.text + literalWidth * layout.lineWidth) +
    size layout.indent.text + literalWidth * (i % layout.lineWidth) + 2

/-- A header is longer than one without words by the width of every literal and the indentation of
every line. -/
theorem size_text (words : List UInt32) (embedding : Embedding) (layout : Layout) :
    size (text words embedding layout) = size (text [] embedding layout) +
      literalWidth * words.length +
        size layout.indent.text * lineCount words.length layout.lineWidth := by
  have empty : initializer [] layout = "" := by
    rw [initializer, indentedLines, initializerLines, chunks]
    rfl
  have grown := size_initializer words layout
  rw [text_eq_append words, text_eq_append [], empty, String.append_empty, size_append, size_append,
    size_append, grown]
  omega

/-- In a header, a word can be exchanged without changing what stands before and after its
digits. -/
theorem text_set (words : List UInt32) (embedding : Embedding) (layout : Layout) {i : Nat}
    (inside : i < words.length) :
    ∃ before after, size before = digitsPlace embedding layout i ∧
      ∀ word, text (words.set i word) embedding layout = before ++ digits word ++ after := by
  obtain ⟨before, after, long, spelled⟩ := digits_initializer layout inside
  refine ⟨beginning embedding ++ before,
    after ++ unlines ("\x7d;" :: closingLines embedding), ?_, fun word => ?_⟩
  · rw [size_append, long, digitsPlace]
    omega
  · rw [text_eq_append, spelled]
    simp only [String.append_assoc]

/-- **Where literals stand.**  A header is longer than one without words by the width of every
literal and the indentation of every line.  The digits of a word are found in their place, and only
they are changed, and always changed, by exchanging the word. -/
theorem digits_text (words : List UInt32) (embedding : Embedding) (layout : Layout) :
    let header := text words embedding layout
    size header = size (text [] embedding layout) + literalWidth * words.length +
        size layout.indent.text * lineCount words.length layout.lineWidth ∧
      (∃ rest, header = beginning embedding ++ rest) ∧
      ∀ i, (inside : i < words.length) →
        let place := digitsPlace embedding layout i
        (∃ digits, IsLiteral ("0x" ++ digits) words[i] ∧
          ((Utf8.encode header).drop place).take 8 = Utf8.encode digits) ∧
        ∀ word, word ≠ words[i] →
          text (words.set i word) embedding layout ≠ header ∧
            ∀ p, p < place ∨ place + 8 ≤ p →
              (Utf8.encode (text (words.set i word) embedding layout))[p]? =
                (Utf8.encode header)[p]? := by
  intro header
  refine ⟨size_text words embedding layout,
    ⟨_, (text_eq_append words embedding layout).trans (String.append_assoc ..)⟩, fun i inside => ?_⟩
  obtain ⟨before, after, found, exchanged⟩ := text_set words embedding layout inside
  have kept : header = before ++ digits words[i] ++ after := by
    rw [← exchanged, List.set_getElem_self]
  refine ⟨⟨digits words[i], literal_eq_digits _ ▸ isLiteral_literal _, ?_⟩, fun word other => ?_⟩
  · rw [← found, kept, digits_of_append]
  · rw [exchanged, kept, ← found]
    refine ⟨fun same => other ?_, fun p outside => getElem?_exchange word words[i] outside⟩
    exact digits_injective ((String.append_right_inj _).mp ((String.append_left_inj _).mp same))

/-- The third word on lines of two, indented by a tab, opens the second line. -/
theorem digits_text_third :
    let layout : Layout := { indent := .tab, wordsPerLine := 2 }
    let header := text [1, 2, 3] Embedding.usual layout
    size header = size (text [] Embedding.usual layout) + 12 * 3 + 1 * 2 ∧
      2 < [(1 : UInt32), 2, 3].length ∧
      (∃ digits, IsLiteral ("0x" ++ digits) 3 ∧
        ((Utf8.encode header).drop (size (beginning Embedding.usual) + 28)).take 8 =
          Utf8.encode digits) ∧
      (4 : UInt32) ≠ 3 ∧ text [1, 2, 4] Embedding.usual layout ≠ header := by
  intro layout header
  have inside : 2 < [(1 : UInt32), 2, 3].length := by decide
  have other : (4 : UInt32) ≠ 3 := by decide
  have width : layout.lineWidth = 2 := rfl
  have length : [(1 : UInt32), 2, 3].length = 3 := rfl
  have count : lineCount 3 2 = 2 := rfl
  have indentation : size layout.indent.text = 1 := (rfl : size "\t" = 1)
  have place (embedding : Embedding) :
      digitsPlace embedding layout 2 = size (beginning embedding) + 28 := by
    simp only [digitsPlace, width, indentation, literalWidth]
  obtain ⟨long, -, located⟩ := digits_text [1, 2, 3] Embedding.usual layout
  obtain ⟨found, exchanged⟩ := located 2 inside
  rw [length, width, count, indentation, literalWidth] at long
  rw [place] at found
  exact ⟨long, inside, found, other, (exchanged 4 other).1⟩

end Header

end ShaderHeader
