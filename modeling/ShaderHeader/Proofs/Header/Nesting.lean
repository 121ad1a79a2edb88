import ShaderHeader.Proofs.Header.Definitions
import ShaderHeader.Proofs.Leads

/-!
# Nesting

A reader of a header keeps the names of the namespaces that are open, and closes the innermost
first.  The lines of a valid header can be read like this (`Header.nested_text`): what is closed was
opened, all that is opened is closed, and the array and its size are defined within just the
namespaces of the embedding.  The braces of the text nest accordingly.
-/

namespace ShaderHeader

namespace Header

/-! ## Namespaces -/

/-- What stands on a line between a text that it starts with and one that it ends with. -/
def between? (before after line : List Char) : Option (List Char) :=
  if before.isPrefixOf line && after.isSuffixOf (line.drop before.length) then
    some ((line.drop before.length).take (line.length - before.length - after.length))
  else none

/-- The name of the namespace that a line opens. -/
def opened? (line : List Char) : Option (List Char) :=
  between? "namespace ".toList " \x7b".toList line

/-- The name of the namespace that a line closes. -/
def closed? (line : List Char) : Option (List Char) :=
  between? "\x7d // namespace ".toList [] line

/-- The namespaces that are open after a line, the outermost first, if they are known before it.  A
line can open one more or close the innermost, and cannot close any other. -/
def scopeAfter? (scope : List (List Char)) (line : List Char) : Option (List (List Char)) :=
  match opened? line, closed? line with
  | some name, _ => some (scope ++ [name])
  | none, some name => if scope.getLast? = some name then some scope.dropLast else none
  | none, none => some scope

theorem between?_append (before name after : List Char) :
    between? before after (before ++ (name ++ after)) = some name := by
  have starts : before.isPrefixOf (before ++ (name ++ after)) = true :=
    List.isPrefixOf_iff_prefix.mpr ⟨_, rfl⟩
  have ends : after.isSuffixOf (name ++ after) = true :=
    List.isSuffixOf_iff_suffix.mpr ⟨name, rfl⟩
  have long : (before ++ (name ++ after)).length - before.length - after.length = name.length := by
    rw [List.length_append, List.length_append]
    omega
  rw [between?, List.drop_left, starts, ends, long, List.take_left]
  rfl

theorem between?_of_not_prefix {before line : List Char} (other : ¬ before <+: line)
    (after : List Char) : between? before after line = none := by
  rw [← List.isPrefixOf_iff_prefix, Bool.not_eq_true] at other
  rw [between?, other, Bool.false_and]
  rfl

/-- A line that starts with another character does not start with a text. -/
theorem not_prefix_of_head {c : Char} {rest line : List Char} (other : line.head? ≠ some c) :
    ¬ c :: rest <+: line := by
  rintro ⟨more, rfl⟩
  exact other rfl

/-- A text starts with what its first part starts with. -/
theorem head?_append {first : String} {c : Char} (head : first.toList.head? = some c)
    (more : String) : (first ++ more).toList.head? = some c := by
  rw [String.toList_append, List.head?_append, head, Option.some_or]

theorem ne_of_head {line : List Char} {c other : Char} (head : line.head? = some c)
    (different : c ≠ other) : line.head? ≠ some other := by
  rw [head]
  exact fun same => different (Option.some.inj same)

theorem opened?_of_head {line : List Char} (other : line.head? ≠ some 'n') : opened? line = none :=
  between?_of_not_prefix (not_prefix_of_head (c := 'n') other) _

theorem closed?_of_head {line : List Char} (other : line.head? ≠ some '\x7d') :
    closed? line = none :=
  between?_of_not_prefix (not_prefix_of_head (c := '\x7d') other) _

theorem opened?_openingLine (name : String) :
    opened? (openingLine name).toList = some name.toList := by
  unfold openingLine opened?
  rw [String.toList_append, String.toList_append, List.append_assoc]
  exact between?_append _ _ _

theorem closed?_closingLine (name : String) :
    closed? (closingLine name).toList = some name.toList := by
  have cut := between?_append "\x7d // namespace ".toList name.toList []
  rw [List.append_nil] at cut
  unfold closingLine closed?
  rw [String.toList_append]
  exact cut

theorem scopeAfter?_openingLine (scope : List (List Char)) (name : String) :
    scopeAfter? scope (openingLine name).toList = some (scope ++ [name.toList]) := by
  rw [scopeAfter?, opened?_openingLine]

theorem scopeAfter?_closingLine (scope : List (List Char)) (name : String) :
    scopeAfter? (scope ++ [name.toList]) (closingLine name).toList = some scope := by
  have unopened : opened? (closingLine name).toList = none :=
    opened?_of_head (ne_of_head (head?_append rfl name) (by decide))
  simp only [scopeAfter?, unopened, closed?_closingLine, List.getLast?_concat, ↓reduceIte,
    List.dropLast_concat]

theorem scopeAfter?_of_head_ne (scope : List (List Char)) {line : List Char}
    (unopened : line.head? ≠ some 'n') (unclosed : line.head? ≠ some '\x7d') :
    scopeAfter? scope line = some scope := by
  simp only [scopeAfter?, opened?_of_head unopened, closed?_of_head unclosed]

/-- A line that starts neither with the letter of the lines that open namespaces nor with the brace
of those that close them leaves the namespaces alone. -/
theorem scopeAfter?_of_head {scope : List (List Char)} {line : List Char} {c : Char}
    (head : line.head? = some c) (plain : c ≠ 'n' ∧ c ≠ '\x7d') :
    scopeAfter? scope line = some scope :=
  scopeAfter?_of_head_ne scope (ne_of_head head plain.1) (ne_of_head head plain.2)

variable {embedding : Embedding} {words : List UInt32} {layout : Layout}

theorem scopeAfter?_of_mem_gapLines (scope : List (List Char)) {line : String}
    (member : line ∈ gapLines embedding.namespaces) :
    scopeAfter? scope line.toList = some scope := by
  rw [eq_empty_of_mem_gapLines member]
  rfl

theorem head?_arrayLine (embedding : Embedding) :
    (arrayLine embedding).toList.head? = some 'a' :=
  head?_append (head?_append rfl _) _

theorem head?_sizeLine (embedding : Embedding) :
    (sizeLine embedding).toList.head? = some 's' :=
  head?_append (head?_append (head?_append (head?_append rfl _) _) _) _

/-- The lines before the array open the namespaces of the embedding. -/
theorem leads_openingLines (embedding : Embedding) :
    Leads scopeAfter? [] ((openingLines embedding).map String.toList)
      (embedding.namespaces.map String.toList) := by
  rw [Leads.map_iff, openingLines]
  refine .append (.append (.of_idle fun line member => ?_) ?_)
    (.of_idle fun line member => scopeAfter?_of_mem_gapLines _ member)
  · simp only [List.mem_cons, List.not_mem_nil, or_false] at member
    rcases member with rfl | rfl | rfl | rfl | rfl | rfl
    · exact scopeAfter?_of_head (head?_append rfl _) (by decide)
    · exact scopeAfter?_of_head (head?_append rfl _) (by decide)
    · rfl
    · exact scopeAfter?_of_head rfl (by decide)
    · exact scopeAfter?_of_head rfl (by decide)
    · rfl
  · refine Leads.opening (List.map String.toList) [] embedding.namespaces ?_
    intro before name after _
    rw [scopeAfter?_openingLine, List.map_append, List.map_singleton]

/-- The lines of the array leave the namespaces alone. -/
theorem leads_initializer (words : List UInt32) (layout : Layout) (scope : List (List Char)) :
    Leads scopeAfter? scope
      ((arrayLine embedding :: indentedLines words layout ++ ["\x7d;", ""]).map String.toList)
      scope := by
  rw [Leads.map_iff]
  refine .cons (scopeAfter?_of_head (head?_arrayLine embedding) (by decide))
    (.append (.of_idle fun line member => ?_) (.cons rfl (.cons rfl (.nil _))))
  have consists : ConsistsOf line fun c => c != 'n' && c != '\x7d' :=
    consistsOf_indentedLines_of (by decide) member
  exact scopeAfter?_of_head_ne _ (fun same => consists.not_mem (by decide) (List.mem_of_head? same))
    fun same => consists.not_mem (by decide) (List.mem_of_head? same)

/-- The lines from the size of the array on close the namespaces of the embedding. -/
theorem leads_endingLines (embedding : Embedding) :
    Leads scopeAfter? (embedding.namespaces.map String.toList)
      ((sizeLine embedding :: endingLines embedding).map String.toList) [] := by
  rw [Leads.map_iff, endingLines]
  have last (guard : String) : scopeAfter? [] ("#endif // " ++ guard).toList = some [] :=
    scopeAfter?_of_head (head?_append rfl guard) (by decide)
  refine .cons (scopeAfter?_of_head (head?_sizeLine embedding) (by decide)) (.append (.append
    (.cons rfl ?_) (.of_idle fun line member => scopeAfter?_of_mem_gapLines _ member))
    (.cons (last _) (.nil _)))
  refine Leads.closing (List.map String.toList) [] embedding.namespaces ?_
  intro before name after _
  rw [List.map_append, List.map_singleton, scopeAfter?_closingLine]

/-! ## Braces -/

/-- How deep in braces a text is after a character.  It cannot be deeper than a bound, nor close what
is not open. -/
def depthAfter? (bound depth : Nat) (c : Char) : Option Nat :=
  if c = '\x7b' then if depth < bound then some (depth + 1) else none
  else if c = '\x7d' then if depth = 0 then none else some (depth - 1)
  else some depth

/-- How deep in braces a text is after a line. -/
def depthAfterLine? (bound depth : Nat) (line : String) : Option Nat :=
  line.toList.foldlM (depthAfter? bound) depth

def isBraceless (c : Char) : Bool :=
  c != '\x7b' && c != '\x7d'

theorem isBraceless_of_isNamePart (c : Char) (part : isNamePart c = true) :
    isBraceless c = true := by
  rw [isBraceless, Bool.and_eq_true, bne_iff_ne, bne_iff_ne]
  constructor
  · rintro rfl
    revert part
    decide
  · rintro rfl
    revert part
    decide

section Depth

variable {bound depth : Nat}

theorem depthAfter?_of_isBraceless {c : Char} (braceless : isBraceless c = true) :
    depthAfter? bound depth c = some depth := by
  rw [isBraceless, Bool.and_eq_true, bne_iff_ne, bne_iff_ne] at braceless
  rw [depthAfter?, if_neg braceless.1, if_neg braceless.2]

theorem depthAfter?_open (shallow : depth < bound) :
    depthAfter? bound depth '\x7b' = some (depth + 1) :=
  if_pos shallow

theorem depthAfter?_close : depthAfter? bound (depth + 1) '\x7d' = some depth :=
  rfl

theorem depthAfterLine?_append {first second : String} {middle stop : Nat}
    (before : depthAfterLine? bound depth first = some middle)
    (after : depthAfterLine? bound middle second = some stop) :
    depthAfterLine? bound depth (first ++ second) = some stop := by
  rw [depthAfterLine?, String.toList_append]
  exact Leads.append before after

theorem depthAfterLine?_of_braceless {line : String} (braceless : ConsistsOf line isBraceless) :
    depthAfterLine? bound depth line = some depth :=
  Leads.of_idle fun c member => depthAfter?_of_isBraceless (braceless c member)

/-- A text is one deeper after an opening brace at its end. -/
theorem depthAfterLine?_of_opens {line : String} (rest : List Char)
    (spelled : line.toList = rest ++ ['\x7b']) (braceless : rest.all isBraceless = true)
    (shallow : depth < bound) : depthAfterLine? bound depth line = some (depth + 1) := by
  have idle : Leads (depthAfter? bound) depth rest depth :=
    .of_idle fun c member => depthAfter?_of_isBraceless (List.all_eq_true.mp braceless c member)
  rw [depthAfterLine?, spelled]
  exact idle.append (.cons (depthAfter?_open shallow) (.nil _))

/-- A text is one less deep after a closing brace at its start. -/
theorem depthAfterLine?_of_closes {line : String} (rest : List Char)
    (spelled : line.toList = '\x7d' :: rest) (braceless : rest.all isBraceless = true) :
    depthAfterLine? bound (depth + 1) line = some depth := by
  have idle : Leads (depthAfter? bound) depth rest depth :=
    .of_idle fun c member => depthAfter?_of_isBraceless (List.all_eq_true.mp braceless c member)
  rw [depthAfterLine?, spelled]
  exact idle.cons depthAfter?_close

theorem depthAfterLine?_openingLine {name : String} (braceless : ConsistsOf name isBraceless)
    (shallow : depth < bound) : depthAfterLine? bound depth (openingLine name) = some (depth + 1) :=
  depthAfterLine?_append (depthAfterLine?_of_braceless (.append (by decide) braceless))
    (depthAfterLine?_of_opens [' '] rfl rfl shallow)

theorem depthAfterLine?_closingLine {name : String} (braceless : ConsistsOf name isBraceless) :
    depthAfterLine? bound (depth + 1) (closingLine name) = some depth :=
  depthAfterLine?_append (depthAfterLine?_of_closes " // namespace ".toList rfl rfl)
    (depthAfterLine?_of_braceless braceless)

/-- Depth is the braces that are opened less those that are closed. -/
theorem count_of_leads {text : List Char} {stop : Nat} (within : depth ≤ bound)
    (leads : Leads (depthAfter? bound) depth text stop) :
    depth + text.count '\x7b' = stop + text.count '\x7d' ∧ stop ≤ bound := by
  induction text generalizing depth with
  | nil =>
      cases leads
      exact ⟨rfl, within⟩
  | cons c rest ih =>
      obtain ⟨middle, taken, later⟩ := leads.of_cons
      rw [List.count_cons, List.count_cons]
      unfold depthAfter? at taken
      by_cases opens : c = '\x7b'
      · subst opens
        rw [if_pos rfl, Option.ite_none_right_eq_some] at taken
        obtain ⟨shallow, same⟩ := taken
        cases same
        obtain ⟨counted, bounded⟩ := ih shallow later
        simp
        omega
      · by_cases closes : c = '\x7d'
        · subst closes
          rw [if_neg opens, if_pos rfl, Option.ite_none_left_eq_some] at taken
          obtain ⟨deep, same⟩ := taken
          cases same
          obtain ⟨counted, bounded⟩ := ih (by omega) later
          simp
          omega
        · rw [if_neg opens, if_neg closes] at taken
          cases taken
          simpa [opens, closes] using ih within later

/-- Line ends are no braces. -/
theorem leads_unlines {lines : List String} {stop : Nat}
    (leads : Leads (depthAfterLine? bound) depth lines stop) :
    Leads (depthAfter? bound) depth (unlines lines).toList stop := by
  rw [toList_unlines]
  induction lines generalizing depth with
  | nil => exact leads
  | cons line rest ih =>
      obtain ⟨middle, taken, later⟩ := leads.of_cons
      have ended : Leads (depthAfter? bound) middle ['\n'] middle :=
        .cons (depthAfter?_of_isBraceless rfl) (.nil _)
      rw [List.map_cons, List.flatMap_cons]
      exact .append (.append taken ended) (ih later)

end Depth

/-- The lines before the array are as deep as namespaces are open. -/
theorem depth_openingLines (valid : embedding.Valid) {bound : Nat}
    (deep : embedding.namespaces.length ≤ bound) :
    Leads (depthAfterLine? bound) 0 (openingLines embedding) embedding.namespaces.length := by
  obtain ⟨-, guarded, named⟩ := embedding.valid_iff.mp valid
  have guard := guarded.consistsOf.mono isBraceless_of_isNamePart
  refine .append (.append (.of_idle fun line member => depthAfterLine?_of_braceless ?_) ?_)
    (.of_idle fun line member => ?_)
  · simp only [List.mem_cons, List.not_mem_nil, or_false] at member
    rcases member with rfl | rfl | rfl | rfl | rfl | rfl
    · exact .append (by decide) guard
    · exact .append (by decide) guard
    · decide
    · decide
    · decide
    · decide
  · refine Leads.opening List.length [] embedding.namespaces ?_
    intro before name after cut
    rw [List.nil_append] at cut
    have inside : name ∈ embedding.namespaces := by
      rw [cut]
      exact List.mem_append_cons_self
    have shallow : before.length < bound := by
      rw [cut, List.length_append, List.length_cons] at deep
      omega
    rw [depthAfterLine?_openingLine ((named name inside).consistsOf.mono isBraceless_of_isNamePart)
      shallow, List.length_append, List.length_singleton]
  · rw [eq_empty_of_mem_gapLines member]
    rfl

/-- The array is one deeper. -/
theorem depth_initializer (valid : embedding.Valid) {bound depth : Nat} (shallow : depth < bound) :
    Leads (depthAfterLine? bound) depth
      (arrayLine embedding :: indentedLines words layout ++ ["\x7d;", ""]) depth := by
  have name := (embedding.valid_iff.mp valid).1.consistsOf.mono isBraceless_of_isNamePart
  have array : depthAfterLine? bound depth (arrayLine embedding) = some (depth + 1) :=
    depthAfterLine?_append (depthAfterLine?_of_braceless (.append (by decide) name))
      (depthAfterLine?_of_opens "[] = ".toList rfl rfl shallow)
  have closed : depthAfterLine? bound (depth + 1) "\x7d;" = some depth :=
    depthAfterLine?_of_closes [';'] rfl rfl
  refine .cons array (.append (.of_idle fun line member => ?_) (.cons closed (.cons rfl (.nil _))))
  exact depthAfterLine?_of_braceless (consistsOf_indentedLines_of (by decide) member)

/-- The lines from the size of the array on close what is open. -/
theorem depth_endingLines (valid : embedding.Valid) (bound : Nat) :
    Leads (depthAfterLine? bound) embedding.namespaces.length
      (sizeLine embedding :: endingLines embedding) 0 := by
  obtain ⟨arrayed, guarded, named⟩ := embedding.valid_iff.mp valid
  have guard := guarded.consistsOf.mono isBraceless_of_isNamePart
  have array := arrayed.consistsOf.mono isBraceless_of_isNamePart
  have sized : ConsistsOf embedding.sizeName isBraceless := array.append (by decide)
  have size : ConsistsOf (sizeLine embedding) isBraceless :=
    .append (.append (.append (.append (by decide) sized) (by decide)) array) (by decide)
  have last : ConsistsOf ("#endif // " ++ embedding.guard) isBraceless := .append (by decide) guard
  refine .cons (depthAfterLine?_of_braceless size) (.append (.append (.cons rfl ?_)
    (.of_idle fun line member => ?_)) (.cons (depthAfterLine?_of_braceless last) (.nil _)))
  · refine Leads.closing List.length [] embedding.namespaces ?_
    intro before name after cut
    rw [List.nil_append] at cut
    have inside : name ∈ embedding.namespaces := by
      rw [cut]
      exact List.mem_append_cons_self
    rw [List.length_append, List.length_singleton,
      depthAfterLine?_closingLine ((named name inside).consistsOf.mono isBraceless_of_isNamePart)]
  · rw [eq_empty_of_mem_gapLines member]
    rfl

/-- Of two items that are marked, the first is the one before which none is marked. -/
theorem before_of_marked {α : Type} {marked : α → Prop} {first rest before after : List α}
    {item other : α} (same : first ++ item :: rest = before ++ other :: after)
    (unmarked : ∀ x ∈ first, ¬ marked x) (isMarked : marked other) :
    before = first ∨ ∃ between, before = first ++ item :: between ∧
      rest = between ++ other :: after := by
  rcases List.append_eq_append_iff.mp same with ⟨more, longer, tail⟩ | ⟨more, shorter, tail⟩
  · cases more with
    | nil => exact .inl (longer.trans (List.append_nil first))
    | cons x between =>
        cases tail
        exact .inr ⟨between, longer, rfl⟩
  · cases more with
    | nil => exact .inl (shorter.trans (List.append_nil before)).symm
    | cons x between =>
        cases tail
        refine absurd isMarked (unmarked other ?_)
        rw [shorter]
        exact List.mem_append_cons_self

theorem arrayLine_ne_sizeLine (embedding : Embedding) :
    (arrayLine embedding).toList ≠ (sizeLine embedding).toList := by
  intro same
  have heads := congrArg List.head? same
  rw [head?_arrayLine, head?_sizeLine] at heads
  exact absurd heads (by decide)

/-- What is defined is defined where just the namespaces of the embedding are open. -/
theorem leads_definition (valid : embedding.Valid) {before after : List (List Char)}
    {line : List Char}
    (cut : (lines words embedding layout).map String.toList = before ++ line :: after)
    (defines : '=' ∈ line) :
    Leads scopeAfter? [] before (embedding.namespaces.map String.toList) := by
  rw [lines_eq_append, List.cons_append, List.cons_append, List.map_append, List.map_cons,
    List.map_append, List.map_cons] at cut
  rcases before_of_marked cut (idle_openingLines valid) defines with rfl | ⟨between, rfl, rest⟩
  · exact leads_openingLines embedding
  · refine (leads_openingLines embedding).append ?_
    rcases before_of_marked rest (idle_initializer words layout) defines with rfl | ⟨more, -, last⟩
    · exact leads_initializer words layout _
    · refine absurd defines (idle_endingLines valid line ?_)
      rw [last]
      exact List.mem_append_cons_self

/-- **Nesting.**  The lines of a valid header open and close namespaces so that each line closes the
one that was opened last, and in the end none is open.  The array and its size are defined once
each, where just the namespaces of the embedding are open.  Up to any place in the text no more
braces are closed than opened, and no more are open than there are namespaces and an array; in the
end all are closed. -/
theorem nested_text {embedding : Embedding} (valid : embedding.Valid) (words : List UInt32)
    (layout : Layout) :
    let header := text words embedding layout
    (linesOf header.toList).foldlM scopeAfter? [] = some [] ∧
      (definitions header = [(arrayLine embedding).toList, (sizeLine embedding).toList] ∧
        (arrayLine embedding).toList ≠ (sizeLine embedding).toList) ∧
      (∀ before line after, linesOf header.toList = before ++ line :: after →
        line ∈ definitions header →
        before.foldlM scopeAfter? [] = some (embedding.namespaces.map String.toList)) ∧
      (∀ count, let start := header.toList.take count
        start.count '\x7d' ≤ start.count '\x7b' ∧
          start.count '\x7b' ≤ start.count '\x7d' + (embedding.namespaces.length + 1)) ∧
      header.toList.count '\x7b' = header.toList.count '\x7d' := by
  intro header
  have deep : Leads (depthAfter? (embedding.namespaces.length + 1)) 0 header.toList 0 := by
    dsimp only [header]
    rw [text_eq_unlines, lines_eq_append]
    exact leads_unlines ((depth_openingLines valid (Nat.le_succ _)).append
      ((depth_initializer valid (Nat.lt_succ_self _)).append (depth_endingLines valid _)))
  refine ⟨?_, ⟨definitions_text valid, arrayLine_ne_sizeLine embedding⟩, ?_, fun count => ?_, ?_⟩
  · rw [linesOf_text valid, lines_eq_append, List.map_append, List.map_append]
    exact (leads_openingLines embedding).append
      ((leads_initializer words layout _).append (leads_endingLines embedding))
  · intro before line after cut defines
    rw [linesOf_text valid] at cut
    exact leads_definition valid cut (of_decide_eq_true (List.mem_filter.mp defines).2)
  · obtain ⟨middle, reached⟩ := deep.take count
    obtain ⟨counted, bounded⟩ := count_of_leads (Nat.zero_le _) reached
    dsimp only
    omega
  · obtain ⟨counted, -⟩ := count_of_leads (Nat.zero_le _) deep
    omega

/-- A namespace in one of the same name is opened and closed like any other. -/
theorem nested_text_twice :
    let embedding := { Embedding.usual with namespaces := ["gpu", "gpu"] }
    let lines := linesOf (text [1] embedding {}).toList
    embedding.Valid ∧ lines.foldlM scopeAfter? [] = some [] ∧
      ∃ before after, lines = before ++ (arrayLine embedding).toList :: after ∧
        (arrayLine embedding).toList ∈ definitions (text [1] embedding {}) ∧
        before.foldlM scopeAfter? [] = some ["gpu".toList, "gpu".toList] := by
  intro embedding lines
  have valid : embedding.Valid := by decide
  obtain ⟨closed, ⟨defined, -⟩, within, -⟩ := nested_text valid [1] {}
  have member : (arrayLine embedding).toList ∈ definitions (text [1] embedding {}) := by
    rw [defined]
    exact List.mem_cons_self
  obtain ⟨before, after, cut⟩ := List.append_of_mem (List.mem_filter.mp member).1
  exact ⟨valid, closed, before, after, cut, member, within before _ after cut member⟩

end Header

end ShaderHeader
