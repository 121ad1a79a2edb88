import Mathlib.Data.List.SplitBy
import ShaderHeader.Proofs.Header.Nesting
import ShaderHeader.Proofs.Header.Position
import ShaderHeader.Proofs.Header.Validity
import ShaderHeader.Proofs.ShaderName

/-!
# What the guard erases

The guard of a header is a macro that stands for nothing, so a compiler erases it wherever it meets
it as a whole identifier.  Between its last inclusion and its end a header uses the identifiers
`Header.usedNames`, and the guard erases nothing there exactly when it is none of them
(`Header.map_erased_body`).  Validity alone does not see to this, since it looks at one name at a
time; names that are derived from a shader's name are always told apart.
-/

namespace ShaderHeader

namespace Header

/-! ## Identifiers on a line -/

/-- A line in its smallest parts: the longest stretches of characters that may stand in identifiers,
and the other characters one by one. -/
def tokensOn (line : List Char) : List (List Char) :=
  line.splitBy fun c d => isNamePart c && isNamePart d

/-- The whole identifiers on a line. -/
def identifiersOn (line : List Char) : List (List Char) :=
  (tokensOn line).filter spellsIdentifier

/-- A line without a name, wherever that stands as a whole identifier. -/
def erased (name line : List Char) : List Char :=
  ((tokensOn line).filter (· ≠ name)).flatten

/-- Some part of a list can be left out without a trace only if it is not there. -/
theorem flatten_filter_ne_iff {α : Type} [DecidableEq α] {part : List α} (filled : part ≠ [])
    (parts : List (List α)) :
    (parts.filter (· ≠ part)).flatten = parts.flatten ↔ part ∉ parts := by
  constructor
  · intro same member
    obtain ⟨before, after, rfl⟩ := List.append_of_mem member
    have left : ((before.filter (· ≠ part)).flatten).length ≤ before.flatten.length :=
      (List.filter_sublist.flatten).length_le
    have right : ((after.filter (· ≠ part)).flatten).length ≤ after.flatten.length :=
      (List.filter_sublist.flatten).length_le
    have positive := List.length_pos_iff.mpr filled
    have lengths := congrArg List.length same
    rw [List.filter_append, List.filter_cons_of_neg (by simp)] at lengths
    simp only [List.flatten_append, List.flatten_cons, List.length_append] at lengths
    omega
  · intro absent
    rw [List.filter_eq_self.mpr fun other member => ?_]
    rw [decide_eq_true_eq]
    rintro rfl
    exact absent member

/-- Erasing a name leaves just the lines alone on which it is no identifier. -/
theorem erased_eq_self_iff {name : List Char} (identifier : spellsIdentifier name = true)
    (line : List Char) : erased name line = line ↔ name ∉ identifiersOn line := by
  have filled : name ≠ [] := by
    rintro rfl
    cases identifier
  have whole : (tokensOn line).flatten = line := List.flatten_splitBy _ line
  have erasure := flatten_filter_ne_iff filled (tokensOn line)
  rw [whole] at erasure
  rw [erased, erasure, identifiersOn, List.mem_filter, identifier, and_iff_left rfl]

theorem map_erased_eq_self_iff {name : List Char} (identifier : spellsIdentifier name = true)
    (lines : List (List Char)) :
    lines.map (erased name) = lines ↔ name ∉ lines.flatMap identifiersOn := by
  have each := List.map_inj_left (l := lines) (f := erased name) (g := id)
  rw [List.map_id] at each
  simp only [each, id_eq, erased_eq_self_iff identifier, List.mem_flatMap, not_exists, not_and]

section Concatenation

variable {first second : List Char}

/-- Where one of two texts ends or starts with a character that may not stand in identifiers, no
identifier goes across. -/
theorem identifiersOn_append
    (apart : first.getLast?.any isNamePart = false ∨ second.head?.any isNamePart = false) :
    identifiersOn (first ++ second) = identifiersOn first ++ identifiersOn second := by
  have split : tokensOn (first ++ second) = tokensOn first ++ tokensOn second := by
    refine List.splitBy_append fun c last d head => ?_
    rw [Option.mem_def] at last head
    rw [last, head, Option.any_some, Option.any_some] at apart
    exact Bool.and_eq_false_iff.mpr apart
  rw [identifiersOn, split, List.filter_append]
  rfl

/-- Characters that may all stand in identifiers are not cut apart. -/
theorem tokensOn_of_parts (filled : first ≠ []) (parts : ∀ c ∈ first, isNamePart c = true) :
    tokensOn first = [first] := by
  refine List.splitBy_of_isChain filled (List.Pairwise.isChain ?_)
  refine List.pairwise_iff_forall_sublist.mpr fun {c d} inside => ?_
  rw [parts c (inside.subset (by simp)), parts d (inside.subset (by simp))]
  rfl

/-- Where no identifier can start there is none. -/
theorem identifiersOn_of_no_start (none : ∀ c ∈ first, isNameStart c = false) :
    identifiersOn first = [] := by
  refine List.filter_eq_nil_iff.mpr fun token member spelled => ?_
  cases token with
  | nil => cases spelled
  | cons c rest =>
      have inside : c ∈ first := by
        rw [← List.flatten_splitBy (fun c d => isNamePart c && isNamePart d) first]
        exact List.mem_flatten.mpr ⟨c :: rest, member, List.mem_cons_self⟩
      rw [spellsIdentifier, none c inside] at spelled
      cases spelled

end Concatenation

theorem identifiersOn_identifier {name : String} (identifier : IsIdentifier name) :
    identifiersOn name.toList = [name.toList] := by
  have filled : name.toList ≠ [] := by
    intro empty
    rw [IsIdentifier, empty] at identifier
    cases identifier
  rw [identifiersOn, tokensOn_of_parts filled identifier.consistsOf,
    List.filter_cons_of_pos identifier, List.filter_nil]

/-- A name that is set off on both sides is one identifier more. -/
theorem identifiersOn_around {name before after : String} (identifier : IsIdentifier name)
    (ends : before.toList.getLast?.any isNamePart = false)
    (starts : after.toList.head?.any isNamePart = false) :
    identifiersOn (before ++ name ++ after).toList =
      identifiersOn before.toList ++ name.toList :: identifiersOn after.toList := by
  rw [String.toList_append, String.toList_append, identifiersOn_append (.inr starts),
    identifiersOn_append (.inl ends), identifiersOn_identifier identifier, List.append_assoc,
    List.singleton_append]

/-! ## The body of a header -/

/-- The body of a header: its lines between the last inclusion and the next end of a condition. -/
def bodyOf (text : List Char) : List (List Char) :=
  ((linesOf text).reverse.takeWhile fun line => !"#include".toList.isPrefixOf line).reverse.takeWhile
    fun line => !"#endif".toList.isPrefixOf line

/-- The identifiers on a line that opens or closes a namespace. -/
def namespaceNames (segment : String) : List String :=
  ["namespace", segment]

/-- The identifiers that the body of a header uses, in their order. -/
def usedNames (embedding : Embedding) : List String :=
  embedding.namespaces.flatMap namespaceNames ++
    (["alignas", "static", "const", "uint32_t", embedding.arrayName] ++
      ["static", "const", "size_t", embedding.sizeName, "sizeof", embedding.arrayName]) ++
    embedding.namespaces.reverse.flatMap namespaceNames

/-- The words of the language and its library that the body of a header uses. -/
def fixedWords : List String :=
  ["namespace", "alignas", "static", "const", "uint32_t", "size_t", "sizeof"]

/-- The lines of the body of a header. -/
def bodyLines (words : List UInt32) (embedding : Embedding) (layout : Layout) : List String :=
  ("" :: embedding.namespaces.map openingLine ++ gapLines embedding.namespaces) ++
    (arrayLine embedding :: indentedLines words layout ++ ["\x7d;", "", sizeLine embedding, ""]) ++
    (embedding.namespaces.reverse.map closingLine ++ gapLines embedding.namespaces)

theorem lines_eq_body (words : List UInt32) (embedding : Embedding) (layout : Layout) :
    lines words embedding layout =
      ["#ifndef " ++ embedding.guard, "#define " ++ embedding.guard, "", "#include <cstdint>"] ++
        "#include <cstddef>" :: (bodyLines words embedding layout ++
          ["#endif // " ++ embedding.guard]) := by
  simp only [lines, openingLines, closingLines, bodyLines, List.append_assoc, List.cons_append,
    List.nil_append]

variable {words : List UInt32} {embedding : Embedding} {layout : Layout}

/-- No line of the body is a directive. -/
theorem head?_ne_of_mem_bodyLines {line : String}
    (member : line ∈ bodyLines words embedding layout) :
    line.toList.head? ≠ some '#' := by
  have gap : ∀ line ∈ gapLines embedding.namespaces, line.toList.head? ≠ some '#' := by
    intro line member
    rw [eq_empty_of_mem_gapLines member]
    decide
  simp only [bodyLines, List.mem_append, List.mem_cons, List.mem_map, List.mem_reverse,
    List.not_mem_nil, or_false] at member
  rcases member with (((rfl | ⟨name, -, rfl⟩) | inside) |
    ((rfl | inside) | rfl | rfl | rfl | rfl)) | ⟨name, -, rfl⟩ | inside
  · decide
  · exact ne_of_head (head?_append (head?_append rfl _) _) (by decide)
  · exact gap line inside
  · exact ne_of_head (head?_arrayLine embedding) (by decide)
  · have consists : ConsistsOf line (· != '#') := consistsOf_indentedLines_of (by decide) inside
    exact fun same => consists.not_mem (by decide) (List.mem_of_head? same)
  · decide
  · decide
  · exact ne_of_head (head?_sizeLine embedding) (by decide)
  · decide
  · exact ne_of_head (head?_append rfl _) (by decide)
  · exact gap line inside

/-- What stands between the last item that opens and the next that closes. -/
theorem takeWhile_reverse_takeWhile {α : Type} {unopened unclosed : α → Bool}
    {before within : List α} {opening closing : α}
    (opens : ¬ unopened opening = true) (closes : ¬ unclosed closing = true)
    (inside : ∀ item ∈ within, unopened item = true ∧ unclosed item = true)
    (last : unopened closing = true) :
    ((before ++ opening :: (within ++ [closing])).reverse.takeWhile unopened).reverse.takeWhile
      unclosed = within := by
  have after : ∀ item ∈ (within ++ [closing]).reverse, unopened item = true := by
    intro item member
    rw [List.mem_reverse, List.mem_append, List.mem_singleton] at member
    rcases member with member | rfl
    · exact (inside item member).1
    · exact last
  rw [List.reverse_append, List.reverse_cons, List.append_assoc,
    List.takeWhile_append_of_pos after, List.singleton_append, List.takeWhile_cons_of_neg opens,
    List.append_nil, List.reverse_reverse,
    List.takeWhile_append_of_pos fun item member => (inside item member).2,
    List.takeWhile_cons_of_neg closes, List.append_nil]

theorem bodyOf_text (valid : embedding.Valid) :
    bodyOf (text words embedding layout).toList =
      (bodyLines words embedding layout).map String.toList := by
  have plain (rest line : List Char)
      (member : line ∈ (bodyLines words embedding layout).map String.toList) :
      (!('#' :: rest).isPrefixOf line) = true := by
    obtain ⟨bare, inside, rfl⟩ := List.mem_map.mp member
    rw [Bool.not_eq_true', ← Bool.not_eq_true, List.isPrefixOf_iff_prefix]
    exact not_prefix_of_head (head?_ne_of_mem_bodyLines inside)
  have spelled : ("#endif // " ++ embedding.guard).toList =
      "#endif // ".toList ++ embedding.guard.toList := String.toList_append
  rw [bodyOf, linesOf_text valid, lines_eq_body]
  simp only [List.map_append, List.map_cons, List.map_nil, spelled]
  exact takeWhile_reverse_takeWhile (by decide) Bool.false_ne_true
    (fun line member => ⟨plain _ line member, plain _ line member⟩) rfl

theorem arrayLine_mem_bodyOf (valid : embedding.Valid) :
    (arrayLine embedding).toList ∈ bodyOf (text words embedding layout).toList := by
  rw [bodyOf_text valid, bodyLines]
  exact List.mem_map_of_mem
    (List.mem_append_left _ (List.mem_append_right _ List.mem_cons_self))

/-! ## The identifiers of a body -/

theorem identifiersOn_openingLine {segment : String} (named : IsIdentifier segment) :
    identifiersOn (openingLine segment).toList = (namespaceNames segment).map String.toList :=
  identifiersOn_around named rfl rfl

theorem identifiersOn_closingLine {segment : String} (named : IsIdentifier segment) :
    identifiersOn (closingLine segment).toList = (namespaceNames segment).map String.toList := by
  have around : identifiersOn ("\x7d // namespace " ++ segment ++ "").toList = _ :=
    identifiersOn_around named rfl rfl
  rw [String.append_empty] at around
  exact around

theorem identifiersOn_arrayLine (valid : embedding.Valid) :
    identifiersOn (arrayLine embedding).toList =
      ["alignas", "static", "const", "uint32_t", embedding.arrayName].map String.toList :=
  identifiersOn_around (embedding.valid_iff.mp valid).1 rfl rfl

theorem identifiersOn_sizeLine (valid : embedding.Valid) :
    identifiersOn (sizeLine embedding).toList =
      ["static", "const", "size_t", embedding.sizeName, "sizeof", embedding.arrayName].map
        String.toList := by
  have array := (embedding.valid_iff.mp valid).1
  have size := Embedding.isIdentifier_sizeName array
  have ends : ("static const size_t " ++ embedding.sizeName ++
      " = sizeof(").toList.getLast?.any isNamePart = false := by
    rw [getLast?_append_ending rfl]
    rfl
  unfold sizeLine
  rw [identifiersOn_around array ends rfl, identifiersOn_around size rfl rfl]
  rfl

/-- A literal starts with a digit, so it is no identifier. -/
theorem identifiersOn_literal (word : UInt32) : identifiersOn (literal word).toList = [] := by
  have parts : ∀ c ∈ (literal word).toList, isNamePart c = true := by
    rw [toList_literal]
    intro c member
    rcases List.mem_cons.mp member with rfl | member
    · decide
    · rcases List.mem_cons.mp member with rfl | member
      · decide
      · obtain ⟨digit, inside, rfl⟩ := List.mem_map.mp member
        have each : ∀ digit, digit < 16 → isNamePart (Nat.digitChar digit) = true := by decide
        exact each digit (lt_of_mem_digitsOf inside)
  have filled : (literal word).toList ≠ [] := by
    rw [toList_literal]
    exact List.cons_ne_nil _ _
  rw [identifiersOn, tokensOn_of_parts filled parts, toList_literal]
  rfl

theorem identifiersOn_initializerLine {chunk : List UInt32} (filled : chunk ≠ []) :
    identifiersOn (initializerLine chunk).toList = [] := by
  induction chunk with
  | nil => exact absurd rfl filled
  | cons word rest ih =>
      by_cases last : rest = []
      · rw [last, initializerLine_singleton, String.toList_append, identifiersOn_append (.inr rfl),
          identifiersOn_literal]
        rfl
      · rw [initializerLine_cons word last, String.toList_append, String.toList_append,
          identifiersOn_append (.inr rfl), identifiersOn_append (.inl rfl), identifiersOn_literal,
          ih last]
        rfl

/-- The initializer uses no identifiers. -/
theorem identifiersOn_of_mem_indentedLines {line : String}
    (member : line ∈ indentedLines words layout) : identifiersOn line.toList = [] := by
  obtain ⟨bare, inside, rfl⟩ := List.mem_map.mp member
  obtain ⟨chunk, within, rfl⟩ := List.mem_map.mp inside
  have blank : ConsistsOf layout.indent.text fun c => !isNamePart c :=
    consistsOf_indent (by decide) (by decide) layout.indent
  have other (c : Char) (inside : c ∈ layout.indent.text.toList) : isNamePart c = false := by
    rw [← Bool.not_eq_true']
    exact blank c inside
  have ends : layout.indent.text.toList.getLast?.any isNamePart = false := by
    cases last : layout.indent.text.toList.getLast? with
    | none => rfl
    | some c => exact other c (List.mem_of_getLast? last)
  have none : ∀ c ∈ layout.indent.text.toList, isNameStart c = false := by
    intro c inside
    rw [← Bool.not_eq_true]
    intro start
    have part := other c inside
    rw [isNamePart_of_isNameStart start] at part
    cases part
  rw [String.toList_append, identifiersOn_append (.inl ends), identifiersOn_of_no_start none,
    identifiersOn_initializerLine (ne_nil_of_mem_chunks within), List.append_nil]

/-- The identifiers on the lines of a body, line after line. -/
theorem flatMap_identifiersOn_bodyLines (valid : embedding.Valid) :
    ((bodyLines words embedding layout).map String.toList).flatMap identifiersOn =
      (usedNames embedding).map String.toList := by
  obtain ⟨-, -, named⟩ := embedding.valid_iff.mp valid
  have gap : (gapLines embedding.namespaces).flatMap (fun line => identifiersOn line.toList) = [] :=
    List.flatMap_eq_nil_iff.mpr fun line member => by rw [eq_empty_of_mem_gapLines member]; rfl
  have initializer :
      (indentedLines words layout).flatMap (fun line => identifiersOn line.toList) = [] :=
    List.flatMap_eq_nil_iff.mpr fun line member => identifiersOn_of_mem_indentedLines member
  have each {line : String → String} {segments : List String}
      (used : ∀ segment ∈ segments,
        identifiersOn (line segment).toList = (namespaceNames segment).map String.toList) :
      (segments.map line).flatMap (fun line => identifiersOn line.toList) =
        (segments.flatMap namespaceNames).map String.toList := by
    rw [List.flatMap_map, List.map_flatMap]
    exact List.flatMap_congr used
  have opening := each fun segment member => identifiersOn_openingLine (named segment member)
  have closing := each fun segment member =>
    identifiersOn_closingLine (named segment (List.mem_reverse.mp member))
  have blank : identifiersOn "".toList = [] := rfl
  have brace : identifiersOn "\x7d;".toList = [] := rfl
  rw [List.flatMap_map]
  simp only [bodyLines, List.flatMap_append, List.flatMap_cons, List.flatMap_nil, gap, initializer,
    opening, closing, blank, brace, identifiersOn_arrayLine valid, identifiersOn_sizeLine valid,
    List.nil_append, List.append_nil, usedNames, List.map_append, List.append_assoc]

/-! ## The guard -/

/-- The guard of an embedding is told apart when no name of the embedding and no word of a body is
spelled like it. -/
structure GuardApart (embedding : Embedding) : Prop where
  array : embedding.guard ≠ embedding.arrayName
  size : embedding.guard ≠ embedding.sizeName
  namespaces : embedding.guard ∉ embedding.namespaces
  words : embedding.guard ∉ fixedWords

theorem mem_usedNames {name : String} :
    name ∈ usedNames embedding →
      name = embedding.arrayName ∨ name = embedding.sizeName ∨ name ∈ embedding.namespaces ∨
        name ∈ fixedWords := by
  simp only [usedNames, fixedWords, namespaceNames, List.mem_append, List.mem_flatMap,
    List.mem_cons, List.mem_reverse, List.not_mem_nil, or_false]
  rintro ((⟨segment, inside, rfl | rfl⟩ | (rfl | rfl | rfl | rfl | rfl) |
    (rfl | rfl | rfl | rfl | rfl | rfl)) | ⟨segment, inside, rfl | rfl⟩) <;> simp [*]

theorem GuardApart.not_mem_usedNames (apart : GuardApart embedding) :
    embedding.guard ∉ usedNames embedding := by
  intro member
  rcases mem_usedNames member with array | size | inside | word
  · exact apart.array array
  · exact apart.size size
  · exact apart.namespaces inside
  · exact apart.words word

/-- The guard that is derived from a shader's name is told apart by its last character. -/
theorem guardApart_ofShader (name : String) : GuardApart (Embedding.ofShader name) where
  array := by
    apply Embedding.guard_ne
    rw [Embedding.ofShader, getLast?_append_ending rfl]
    decide
  size := by
    apply Embedding.guard_ne
    rw [Embedding.sizeName, getLast?_append_ending rfl]
    decide
  namespaces member := by
    have ending : ∀ segment ∈ Embedding.usualNamespaces, segment.toList.getLast? ≠ some 'P' := by
      decide
    exact Embedding.guard_ne (ending _ member) name rfl
  words member := by
    have ending : ∀ word ∈ fixedWords, word.toList.getLast? ≠ some 'P' := by
      decide
    exact Embedding.guard_ne (ending _ member) name rfl

/-- The guard of a valid embedding erases nothing in the body just if the body does not use it. -/
theorem map_erased_bodyOf (valid : embedding.Valid) :
    (bodyOf (text words embedding layout).toList).map (erased embedding.guard.toList) =
        bodyOf (text words embedding layout).toList ↔
      embedding.guard ∉ usedNames embedding := by
  have identifier := (embedding.valid_iff.mp valid).2.1
  rw [map_erased_eq_self_iff identifier, bodyOf_text valid, flatMap_identifiersOn_bodyLines valid,
    List.mem_map_of_injective fun _ _ => String.toList_injective]

/-- **What the guard erases.**  The identifiers in the body of a valid header are those listed, and
the guard erases something there exactly when it is one of them.  So a guard that is told apart from
the other names and from the words of a body erases nothing, whatever the words and the layout are;
what is derived from a shader's name is always told apart. -/
theorem erased_bodyOf_text {embedding : Embedding} (valid : embedding.Valid) (words : List UInt32)
    (layout : Layout) :
    let body := bodyOf (text words embedding layout).toList
    body.flatMap identifiersOn = (usedNames embedding).map String.toList ∧
      (body.map (erased embedding.guard.toList) = body ↔
        embedding.guard ∉ usedNames embedding) ∧
      (GuardApart embedding → body.map (erased embedding.guard.toList) = body) ∧
      ∀ name, GuardApart (Embedding.ofShader name) := by
  refine ⟨?_, map_erased_bodyOf valid, fun apart => ?_, guardApart_ofShader⟩
  · rw [bodyOf_text valid, flatMap_identifiersOn_bodyLines valid]
  · exact (map_erased_bodyOf valid).mpr apart.not_mem_usedNames

/-- A guard that only starts like the array's name leaves its declaration alone. -/
theorem erased_bodyOf_text_prefix :
    let embedding := { Embedding.usual with arrayName := "DATA", guard := "DATA_S" }
    let body := bodyOf (text [1] embedding { indent := .tab }).toList
    embedding.Valid ∧ GuardApart embedding ∧
      (arrayLine embedding).toList ∈ body ∧
      body.map (erased embedding.guard.toList) = body := by
  intro embedding body
  have valid : embedding.Valid := by decide
  have apart : GuardApart embedding := ⟨by decide, by decide, by decide, by decide⟩
  obtain ⟨-, -, kept, -⟩ := erased_bodyOf_text valid [1] { indent := .tab }
  exact ⟨valid, apart, arrayLine_mem_bodyOf valid, kept apart⟩

/-- An embedding is valid although the guard of its header erases the name of its array. -/
theorem erased_bodyOf_text_array :
    let embedding := { Embedding.usual with arrayName := "DATA", guard := "DATA" }
    let body := bodyOf (text [1] embedding {}).toList
    embedding.Valid ∧ ¬ GuardApart embedding ∧
      (arrayLine embedding).toList ∈ body ∧
      erased embedding.guard.toList (arrayLine embedding).toList =
        "alignas(4) static const uint32_t [] = \x7b".toList ∧
      body.map (erased embedding.guard.toList) ≠ body := by
  intro embedding body
  have valid : embedding.Valid := by decide
  refine ⟨valid, fun apart => apart.array rfl, arrayLine_mem_bodyOf valid, by decide, ?_⟩
  exact mt (map_erased_bodyOf valid).mp (Decidable.not_not.mpr (by decide))

end Header

end ShaderHeader
