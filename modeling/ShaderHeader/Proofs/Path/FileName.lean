import ShaderHeader.Proofs.Path

/-!
# The name at the end of a path

`Path.fileName?` goes by the parts of a path, here its bytes are spelled out.  A path names a
file when it is a folder, the name, and bytes that change nothing
(`Path.fileName?_eq_some_iff`).  All others go nowhere, or to the directory above in the end
(`Path.fileName?_eq_none_iff`).
-/

namespace ShaderHeader

namespace Path

/-- Bytes in front of a part: none, or bytes that end in a slash. -/
def Leading (bytes : List UInt8) : Prop :=
  bytes = [] ∨ bytes.getLast? = some slash

/-- Bytes behind a part that change nothing: slashes, each with a dot behind it or without. -/
inductive Trailing : List UInt8 → Prop where
  | nil : Trailing []
  | slash {rest : List UInt8} (trailing : Trailing rest) : Trailing (slash :: rest)
  | slashDot {rest : List UInt8} (trailing : Trailing rest) : Trailing (slash :: dot ++ rest)

/-- A path ends in a part, up to bytes that change nothing. -/
def LastPart (path : Path) (part : Name) : Prop :=
  ∃ front behind, path.bytes = front ++ part ++ behind ∧ Leading front ∧ Trailing behind

/-- A path names a file when it ends in a name that is neither of the two with a meaning of
their own. -/
structure Names (path : Path) (name : Name) : Prop where
  last : path.LastPart name
  filled : name ≠ []
  whole : slash ∉ name
  ne_dot : name ≠ dot
  ne_dotDot : name ≠ dotDot

/-- A path that goes nowhere: it is empty, the root, or reduces to a dot. -/
def Idle (path : Path) : Prop :=
  ∃ part behind, (part = [] ∨ part = dot) ∧ Trailing behind ∧ path.bytes = part ++ behind

theorem isComponent_eq_false_iff {part : Name} :
    isComponent part = false ↔ part = [] ∨ part = dot := by
  rw [isComponent, Bool.and_eq_false_iff, bne_eq_false_iff_eq, bne_eq_false_iff_eq]

theorem slash_notMem_of_not_isComponent {part : Name} (unnamed : part = [] ∨ part = dot) :
    slash ∉ part := by
  rcases unnamed with rfl | rfl
  · exact List.not_mem_nil
  · decide

section Cutting

variable {path : Path} {part : Name} {behind : List UInt8}

/-- Bytes that change nothing are cut into parts that name nothing. -/
theorem exists_pieces_of_trailing (whole : slash ∉ part) (trailing : Trailing behind) :
    ∃ idle, pieces slash (part ++ behind) = part :: idle ∧
      ∀ other ∈ idle, isComponent other = false := by
  induction trailing generalizing part with
  | nil =>
      rw [List.append_nil]
      exact ⟨[], pieces_of_not_mem whole, fun _ member => (List.not_mem_nil member).elim⟩
  | slash _ ih =>
      obtain ⟨idle, cut, unnamed⟩ := @ih [] List.not_mem_nil
      rw [List.nil_append] at cut
      rw [pieces_append_separator whole, cut]
      exact ⟨[] :: idle, rfl, List.forall_mem_cons.mpr ⟨rfl, unnamed⟩⟩
  | slashDot _ ih =>
      obtain ⟨idle, cut, unnamed⟩ := @ih dot (by decide)
      rw [List.cons_append, pieces_append_separator whole, cut]
      exact ⟨dot :: idle, rfl, List.forall_mem_cons.mpr ⟨rfl, unnamed⟩⟩

/-- What stands in front of a part is cut on its own. -/
theorem exists_pieces_of_leading {front : List UInt8} (leading : Leading front) :
    ∃ before, ∀ rest, pieces slash (front ++ rest) = before ++ pieces slash rest := by
  rcases leading with rfl | ended
  · exact ⟨[], fun _ => rfl⟩
  · obtain ⟨start, rfl⟩ := List.getLast?_eq_some_iff.mp ended
    refine ⟨pieces slash start, fun rest => ?_⟩
    rw [List.append_assoc]
    exact pieces_append_cons start rest

theorem LastPart.getLast?_components (ends : path.LastPart part) (whole : slash ∉ part)
    (named : isComponent part = true) : path.components.getLast? = some part := by
  obtain ⟨front, behind, spelled, leading, trailing⟩ := ends
  obtain ⟨before, cut⟩ := exists_pieces_of_leading leading
  obtain ⟨idle, cutBehind, unnamed⟩ := exists_pieces_of_trailing whole trailing
  have none : idle.filter isComponent = [] :=
    List.filter_eq_nil_iff.mpr fun other member => by
      rw [unnamed other member]
      exact Bool.false_ne_true
  rw [components, parts, spelled, List.append_assoc, cut, cutBehind, List.filter_append,
    List.filter_cons_of_pos named, none]
  exact List.getLast?_concat

theorem Idle.components_eq_nil (idle : path.Idle) : path.components = [] := by
  obtain ⟨part, behind, unnamed, trailing, spelled⟩ := idle
  obtain ⟨others, cut, unnamedBehind⟩ :=
    exists_pieces_of_trailing (slash_notMem_of_not_isComponent unnamed) trailing
  rw [components, parts, spelled, cut, List.filter_eq_nil_iff]
  intro other member
  rw [Bool.not_eq_true]
  rcases List.mem_cons.mp member with rfl | member
  · exact isComponent_eq_false_iff.mpr unnamed
  · exact unnamedBehind other member

end Cutting

section Joining

variable {path : Path} {part : Name}

theorem joinParts_cons (first : Name) (rest : List Name) :
    joinParts (first :: rest) = first ++ rest.flatMap (slash :: ·) := by
  induction rest generalizing first with
  | nil => rw [joinParts, List.intercalate_singleton, List.flatMap_nil, List.append_nil]
  | cons next others ih =>
      rw [joinParts, List.intercalate_cons_cons, ← joinParts, ih, List.flatMap_cons]
      exact List.append_assoc _ _ _

/-- A part stands between what is in front of it and behind it. -/
theorem exists_leading_joinParts (before : List Name) (part : Name) (after : List Name) :
    ∃ front, Leading front ∧
      joinParts (before ++ part :: after) = front ++ part ++ after.flatMap (slash :: ·) := by
  cases before with
  | nil => exact ⟨[], .inl rfl, joinParts_cons part after⟩
  | cons first rest =>
      refine ⟨joinParts (first :: rest) ++ [slash], .inr List.getLast?_concat, ?_⟩
      rw [List.cons_append, joinParts_cons, joinParts_cons, List.flatMap_append, List.flatMap_cons]
      simp only [List.append_assoc, List.cons_append, List.nil_append]

/-- Parts that name nothing change nothing. -/
theorem trailing_flatMap {after : List Name} (idle : ∀ part ∈ after, isComponent part = false) :
    Trailing (after.flatMap (slash :: ·)) := by
  induction after with
  | nil => exact .nil
  | cons first rest ih =>
      obtain ⟨unnamed, others⟩ := List.forall_mem_cons.mp idle
      rw [List.flatMap_cons]
      rcases isComponent_eq_false_iff.mp unnamed with rfl | rfl
      · exact .slash (ih others)
      · exact .slashDot (ih others)

theorem joinParts_parts (path : Path) : joinParts path.parts = path.bytes :=
  intercalate_pieces path.bytes

theorem lastPart_of_getLast? (last : path.components.getLast? = some part) :
    path.LastPart part ∧ slash ∉ part ∧ isComponent part = true := by
  obtain ⟨earlier, kept⟩ := List.getLast?_eq_some_iff.mp last
  obtain ⟨start, rest, cut, -, keptBehind⟩ := List.filter_eq_append_iff.mp kept
  obtain ⟨skipped, after, rfl, -, named, none⟩ := List.filter_eq_cons_iff.mp keptBehind
  rw [← List.append_assoc] at cut
  have idle : ∀ other ∈ after, isComponent other = false := fun other member =>
    Bool.eq_false_iff.mpr (List.filter_eq_nil_iff.mp none other member)
  obtain ⟨front, leading, spelled⟩ := exists_leading_joinParts (start ++ skipped) part after
  rw [← cut, joinParts_parts] at spelled
  refine ⟨⟨front, _, spelled, leading, trailing_flatMap idle⟩, ?_, named⟩
  apply @slash_notMem_of_mem_parts path
  rw [cut]
  exact List.mem_append_right _ List.mem_cons_self

theorem idle_of_components_eq_nil (none : path.components = []) : path.Idle := by
  have idle := List.filter_eq_nil_iff.mp none
  cases cut : path.parts with
  | nil => exact (pieces_ne_nil path.bytes cut).elim
  | cons first rest =>
      rw [cut] at idle
      obtain ⟨unnamed, others⟩ := List.forall_mem_cons.mp idle
      refine ⟨first, rest.flatMap (slash :: ·), ?_, ?_, ?_⟩
      · exact isComponent_eq_false_iff.mp (Bool.eq_false_iff.mpr unnamed)
      · exact trailing_flatMap fun part member => Bool.eq_false_iff.mpr (others part member)
      · rw [← joinParts_parts path, cut, joinParts_cons]

end Joining

section FileName

variable {path : Path} {name : Name}

theorem fileName?_eq_filter (path : Path) :
    path.fileName? = path.components.getLast?.filter (· ≠ dotDot) := by
  unfold fileName?
  cases path.components.getLast? with
  | none => rfl
  | some last => by_cases above : last = dotDot <;> simp [above, Option.filter]

/-- **A path has a file name exactly when it names a file.** -/
theorem fileName?_eq_some_iff : path.fileName? = some name ↔ path.Names name := by
  rw [fileName?_eq_filter, Option.filter_eq_some_iff, decide_eq_true_eq]
  constructor
  · rintro ⟨last, below⟩
    obtain ⟨ends, whole, named⟩ := lastPart_of_getLast? last
    exact ⟨ends, ne_nil_of_isComponent named, whole, ne_dot_of_isComponent named, below⟩
  · rintro ⟨ends, filled, whole, notDot, below⟩
    refine ⟨ends.getLast?_components whole ?_, below⟩
    rw [isComponent, bne_iff_ne.mpr filled, bne_iff_ne.mpr notDot, Bool.and_self]

/-- **A path has no file name exactly when it goes nowhere or to the directory above.** -/
theorem fileName?_eq_none_iff : path.fileName? = none ↔ path.Idle ∨ path.LastPart dotDot := by
  rw [fileName?_eq_filter, Option.filter_eq_none_iff]
  constructor
  · intro none
    cases last : path.components.getLast? with
    | none => exact .inl (idle_of_components_eq_nil (List.getLast?_eq_none_iff.mp last))
    | some part =>
        have above : part = dotDot := Decidable.not_not.mp fun below =>
          none part last (decide_eq_true below)
        rw [above] at last
        exact .inr (lastPart_of_getLast? last).1
  · rintro (idle | ends) part last
    · rw [idle.components_eq_nil] at last
      cases last
    · rw [ends.getLast?_components (by decide) rfl] at last
      cases last
      decide

theorem fileName?_eq_none_iff_nameless : path.fileName? = none ↔ ∀ name, ¬ path.Names name := by
  rw [Option.eq_none_iff_forall_ne_some]
  exact forall_congr' fun name => not_congr fileName?_eq_some_iff

end FileName

section Join

theorem Leading.append {front bytes : List UInt8} (outer : Leading front) (inner : Leading bytes) :
    Leading (front ++ bytes) := by
  rcases inner with rfl | ended
  · rwa [List.append_nil]
  · right
    rw [List.getLast?_append, ended]
    rfl

/-- A continuation stands at the end of the path it continues, as a part of its own. -/
theorem exists_leading_join (path continuation : Path) :
    ∃ front, Leading front ∧ (path.join continuation).bytes = front ++ continuation.bytes := by
  unfold join
  by_cases alone : continuation.isAbsolute || path.bytes = []
  · rw [if_pos alone]
    exact ⟨[], .inl rfl, rfl⟩
  · rw [if_neg alone]
    by_cases ended : path.endsInSlash = true
    · rw [if_pos ended]
      exact ⟨path.bytes, .inr (eq_of_beq ended), rfl⟩
    · rw [if_neg ended]
      exact ⟨path.bytes ++ [slash], .inr List.getLast?_concat, List.append_cons _ _ _⟩

theorem LastPart.join {continuation : Path} {part : Name} (ends : continuation.LastPart part)
    (path : Path) : (path.join continuation).LastPart part := by
  obtain ⟨inner, behind, spelled, leading, trailing⟩ := ends
  obtain ⟨outer, leadingOuter, joined⟩ := exists_leading_join path continuation
  refine ⟨outer ++ inner, behind, ?_, leadingOuter.append leading, trailing⟩
  rw [joined, spelled]
  simp only [List.append_assoc]

end Join

end Path

end ShaderHeader
