import ShaderHeader.Disk.Resolve
import ShaderHeader.Proofs.Text.Pieces

/-!
# The folder a path spells

`Path.folder` works on the spelling of a path, a walk on the steps it asks for.  For a
path that ends in a component the two agree: the folder has the parts that stand
before that component, up to parts at its end that name nothing.
-/

namespace ShaderHeader

namespace Path

/-- The parts up to the last that names something. -/
def upToComponent (parts : List Name) : List Name :=
  (parts.reverse.dropWhile (!isComponent ·)).reverse

theorem mem_of_mem_upToComponent {parts : List Name} {part : Name}
    (member : part ∈ upToComponent parts) : part ∈ parts := by
  unfold upToComponent at member
  rw [List.mem_reverse] at member
  exact List.mem_reverse.mp ((List.dropWhile_sublist _).subset member)

theorem upToComponent_cons (first : Name) (rest : List Name) :
    upToComponent (first :: rest) =
      if upToComponent rest = [] then upToComponent [first] else first :: upToComponent rest := by
  unfold upToComponent
  rw [List.reverse_cons, List.dropWhile_append]
  by_cases empty : rest.reverse.dropWhile (!isComponent ·) = []
  · rw [empty]
    rfl
  · rw [if_neg (by rwa [List.isEmpty_iff]), if_neg (by rwa [List.reverse_eq_nil_iff]),
      List.reverse_append]
    rfl

theorem upToComponent_self (parts : List Name) :
    upToComponent (upToComponent parts) = upToComponent parts := by
  induction parts with
  | nil => rfl
  | cons first rest ih =>
      rw [upToComponent_cons]
      by_cases empty : upToComponent rest = []
      · rw [if_pos empty]
        cases named : isComponent first <;>
          simp [upToComponent, named]
      · rw [if_neg empty, upToComponent_cons, ih, if_neg empty]

/-- What follows the first part counts only up to its own last component. -/
theorem upToComponent_cons_congr {first : Name} {rest others : List Name}
    (same : upToComponent rest = upToComponent others) :
    upToComponent (first :: rest) = upToComponent (first :: others) := by
  rw [upToComponent_cons, upToComponent_cons first others, same]

/-- The parts before a last component, up to the component before it. -/
theorem partsBefore?_append {last : Name} (named : isComponent last = true) (before : List Name) :
    partsBefore? isComponent (before ++ [last]) = some (upToComponent before) := by
  unfold partsBefore? upToComponent
  rw [List.reverse_append, List.reverse_singleton, List.singleton_append,
    List.dropWhile_cons_of_neg (by simp [named])]

/-- Joined parts are cut where they were joined; no parts make a single empty one. -/
theorem upToComponent_pieces_joinParts {parts : List Name} (free : ∀ part ∈ parts, slash ∉ part) :
    upToComponent (pieces slash (joinParts parts)) = upToComponent parts := by
  by_cases empty : parts = []
  · subst empty
    rfl
  · unfold joinParts
    rw [pieces_intercalate empty free]

theorem parts_of_isAbsolute {path : Path} (absolute : path.isAbsolute = true) :
    path.parts = [] :: pieces slash path.bytes.tail := by
  obtain ⟨bytes⟩ := path
  cases bytes with
  | nil => cases absolute
  | cons byte rest =>
      have same : byte = slash := by simpa [isAbsolute] using absolute
      simp only [parts, pieces, same, ↓reduceIte, List.tail_cons]

/-- A path of several parts starts at the root when the first of them is empty. -/
theorem isAbsolute_of_parts {path : Path} {rest : List Name} (split : path.parts = [] :: rest)
    (more : rest ≠ []) : path.isAbsolute = true := by
  obtain ⟨bytes⟩ := path
  cases bytes with
  | nil =>
      cases split
      exact absurd rfl more
  | cons byte others =>
      by_cases same : byte = slash
      · rw [same]
        rfl
      · simp only [parts, pieces, if_neg same] at split
        cases behind : pieces slash others with
        | nil => exact absurd behind (pieces_ne_nil others)
        | cons piece pieces =>
            rw [behind] at split
            cases split

theorem isAbsolute_eq_false_of_parts {path : Path} {first : Name} {rest : List Name}
    (split : path.parts = first :: rest) (nonempty : first ≠ []) : path.isAbsolute = false := by
  rw [Bool.eq_false_iff]
  intro absolute
  rw [parts_of_isAbsolute absolute] at split
  cases split
  exact nonempty rfl

theorem ne_nil_of_isComponent {part : Name} (named : isComponent part = true) : part ≠ [] := by
  rintro rfl
  cases named

theorem ne_dot_of_isComponent {part : Name} (named : isComponent part = true) : part ≠ dot := by
  rintro rfl
  cases named

theorem slash_notMem_of_mem_parts {path : Path} {part : Name} (member : part ∈ path.parts) :
    slash ∉ part :=
  not_mem_of_mem_pieces member

section Folder

variable {path : Path} {before : List Name} {last : Name}

/-- The folder of a path that is a single component is the current one. -/
theorem folder_of_single (cut : path.parts = [last]) (named : isComponent last = true) :
    path.folder = ⟨dot⟩ := by
  have nonempty := ne_nil_of_isComponent named
  have relative := isAbsolute_eq_false_of_parts cut nonempty
  have parent : path.parent? = some ⟨[]⟩ := by
    unfold parent?
    rw [if_neg (by simp [relative]), cut]
    simp only [if_neg nonempty]
    rfl
  unfold folder
  rw [parent]
  rfl

theorem folder_of_absolute {rest : List Name} (cut : path.parts = [] :: (rest ++ [last]))
    (named : isComponent last = true) :
    path.folder = ⟨slash :: joinParts (upToComponent rest)⟩ := by
  have absolute := isAbsolute_of_parts cut (by simp)
  have parent : path.parent? = some ⟨slash :: joinParts (upToComponent rest)⟩ := by
    unfold parent?
    rw [if_pos absolute, cut, List.tail_cons, partsBefore?_append named]
    rfl
  unfold folder
  rw [parent]
  exact if_neg (List.cons_ne_nil _ _)

/-- The folder of a relative path keeps the first part, whatever that is. -/
theorem folder_of_relative {first : Name} {rest : List Name}
    (cut : path.parts = first :: (rest ++ [last])) (nonempty : first ≠ [])
    (named : isComponent last = true) :
    path.folder = ⟨joinParts (first :: upToComponent rest)⟩ ∧
      path.folder.parts = first :: upToComponent rest := by
  have relative := isAbsolute_eq_false_of_parts cut nonempty
  have parent : path.parent? = some ⟨joinParts (first :: upToComponent rest)⟩ := by
    unfold parent?
    rw [if_neg (by simp [relative]), cut]
    simp only [partsBefore?_append named]
  have free : ∀ part ∈ first :: upToComponent rest, slash ∉ part := by
    intro part member
    apply @slash_notMem_of_mem_parts path
    rw [cut]
    rcases List.mem_cons.mp member with rfl | member
    · exact List.mem_cons_self
    · exact List.mem_cons_of_mem _ (List.mem_append_left _ (mem_of_mem_upToComponent member))
  have cutJoined : pieces slash (joinParts (first :: upToComponent rest)) =
      first :: upToComponent rest :=
    pieces_intercalate (List.cons_ne_nil _ _) free
  have spelled : joinParts (first :: upToComponent rest) ≠ [] := by
    intro empty
    rw [empty] at cutJoined
    exact nonempty (List.cons.inj cutJoined).1.symm
  have folded : path.folder = ⟨joinParts (first :: upToComponent rest)⟩ := by
    unfold folder
    rw [parent]
    exact if_neg spelled
  refine ⟨folded, ?_⟩
  rw [folded]
  exact cutJoined

/-- **The folder of a path that ends in a component starts where the path does and has
the parts before that component**, up to the last of them that names something. -/
theorem folder_spec (cut : path.parts = before ++ [last]) (named : isComponent last = true) :
    path.folder.isAbsolute = path.isAbsolute ∧
      upToComponent path.folder.parts = upToComponent before := by
  cases before with
  | nil =>
      rw [folder_of_single cut named,
        isAbsolute_eq_false_of_parts cut (ne_nil_of_isComponent named)]
      exact ⟨rfl, rfl⟩
  | cons first rest =>
      have free : ∀ part ∈ upToComponent rest, slash ∉ part := by
        intro part member
        apply @slash_notMem_of_mem_parts path
        rw [cut]
        exact List.mem_append_left _ (List.mem_cons_of_mem _ (mem_of_mem_upToComponent member))
      by_cases absolute : first = []
      · subst absolute
        rw [folder_of_absolute cut named, isAbsolute_of_parts cut (by simp)]
        refine ⟨rfl, upToComponent_cons_congr ?_⟩
        rw [upToComponent_pieces_joinParts free, upToComponent_self]
      · obtain ⟨-, parts⟩ := folder_of_relative cut absolute named
        rw [isAbsolute_eq_false_of_parts cut absolute, isAbsolute_eq_false_of_parts parts absolute,
          parts]
        exact ⟨rfl, upToComponent_cons_congr (upToComponent_self rest)⟩

end Folder

theorem mem_parts_of_fileName? {path : Path} {name : Name} (named : path.fileName? = some name) :
    name ∈ path.parts := by
  unfold fileName? at named
  cases last : path.components.getLast? with
  | none =>
      rw [last] at named
      cases named
  | some part =>
      simp only [last] at named
      split at named
      · cases named
      · cases named
        exact (List.mem_filter.mp (List.mem_of_getLast? last)).1

/-- The last part of a path names an entry of the directory to which the others lead. -/
structure EndsIn (path : Path) (before : List Name) (name : Name) : Prop where
  cut : path.parts = before ++ [name]
  named : isComponent name = true
  below : name ≠ dotDot

namespace EndsIn

variable {path : Path} {before : List Name} {name : Name}

theorem fileName? (ends : path.EndsIn before name) : path.fileName? = some name := by
  unfold Path.fileName? components
  rw [ends.cut, List.filter_append, List.filter_cons_of_pos ends.named, List.filter_nil,
    List.getLast?_concat]
  exact if_neg ends.below

theorem steps (ends : path.EndsIn before name) :
    path.steps = before.map Step.ofPart ++ [.into name] := by
  have entered : Step.ofPart name = .into name := by
    unfold Step.ofPart
    rw [if_neg (ne_nil_of_isComponent ends.named), if_neg (ne_dot_of_isComponent ends.named),
      if_neg ends.below]
  unfold Path.steps
  rw [ends.cut, List.map_append, List.map_singleton, entered]

theorem not_endsInSlash (ends : path.EndsIn before name) : path.endsInSlash = false := by
  rw [Bool.eq_false_iff]
  intro ended
  obtain ⟨front, spelled⟩ := List.getLast?_eq_some_iff.mp (eq_of_beq ended)
  have cut : path.parts = pieces slash front ++ [[]] := by
    rw [parts, spelled, pieces_concat]
  rw [ends.cut] at cut
  obtain ⟨-, last⟩ := List.append_inj' cut rfl
  exact ne_nil_of_isComponent ends.named (List.head_eq_of_cons_eq last)

end EndsIn

end Path

end ShaderHeader
