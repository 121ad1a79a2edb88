import ShaderHeader.Proofs.Disk.Folder

/-!
# Disks without links

On a disk without links a path that only goes down leads to the place that it spells
(`Disk.locate_of_plain`).  Whether it leads there depends on the directories, their permission
bits and what stands at that place, so two such disks with the same directories are walked
alike.
-/

namespace ShaderHeader

namespace Path

/-- A relative path of names, each one further down. -/
def Plain (path : Path) : Prop :=
  ∀ part ∈ path.parts, isComponent part = true ∧ part ≠ dotDot

instance (path : Path) : Decidable path.Plain :=
  inferInstanceAs (Decidable (∀ part ∈ path.parts, isComponent part = true ∧ part ≠ dotDot))

/-- The parts of a path spell it. -/
theorem eq_of_parts {path other : Path} (same : path.parts = other.parts) : path = other := by
  unfold parts at same
  rw [pieces_eq_splitOn, pieces_eq_splitOn] at same
  have spelled := congrArg (List.intercalate [slash]) same
  rw [List.intercalate_splitOn, List.intercalate_splitOn] at spelled
  obtain ⟨bytes⟩ := path
  exact congrArg Path.mk spelled

namespace Plain

variable {path : Path}

theorem origin (plain : path.Plain) (here : Location) : path.origin here = here := by
  unfold Path.origin
  cases cut : path.parts with
  | nil => exact absurd cut (pieces_ne_nil path.bytes)
  | cons first rest =>
      have member : first ∈ path.parts := by
        rw [cut]
        exact List.mem_cons_self
      have nonempty := ne_nil_of_isComponent (plain first member).1
      rw [isAbsolute_eq_false_of_parts cut nonempty, if_neg Bool.false_ne_true]

/-- The steps into some of the parts. -/
theorem map_ofPart (plain : path.Plain) {names : List Name} (among : names ⊆ path.parts) :
    names.map Step.ofPart = names.map .into := by
  refine List.map_congr_left fun name member => ?_
  obtain ⟨named, below⟩ := plain name (among member)
  unfold Step.ofPart
  rw [if_neg (ne_nil_of_isComponent named), if_neg (ne_dot_of_isComponent named), if_neg below]

end Plain

end Path

namespace Disk

/-- No link stands on the disk. -/
def Linkless (disk : Disk) : Prop :=
  ∀ location target, disk.get? location ≠ some (.link target)

variable {disk other : Disk} {here folder found : Location} {path : Path}

section Plain

/-- A walk into names, none of them a link, ends at the last of them. -/
theorem walkWith_into {follow : Location → List Path.Step → Except Refusal Location}
    (linkless : disk.Linkless) {names : List Name}
    (arrives : disk.walkWith follow here (names.map .into) = .ok found) :
    found = here ++ names := by
  induction names generalizing here with
  | nil =>
      cases arrives
      exact (List.append_nil _).symm
  | cons name rest ih =>
      obtain ⟨-, goesOn⟩ := walkWith_cons_eq_ok_iff.mp arrives
      cases goesOn with
      | enter short stands plain goes => rw [ih goes, List.append_assoc, List.singleton_append]
      | link short stands goes => exact absurd stands (linkless _ _)

theorem walk_into (linkless : disk.Linkless) {links : Nat} {names : List Name}
    (arrives : disk.walk links here (names.map .into) = .ok found) : found = here ++ names := by
  cases links with
  | zero => exact walkWith_into linkless arrives
  | succ links => exact walkWith_into linkless arrives

/-- **A plain path leads to the place that it spells.** -/
theorem locate_of_plain (linkless : disk.Linkless) (plain : path.Plain)
    (leads : disk.locate here path = .ok found) : found = here ++ path.parts := by
  unfold locate at leads
  cases flaw : path.flaw? with
  | some refusal =>
      rw [flaw] at leads
      cases leads
  | none =>
      simp only [flaw, Path.steps, plain.origin, plain.map_ofPart (List.Subset.refl _)] at leads
      exact walk_into linkless leads

/-- The folder of a plain path is the place that the parts before its name spell. -/
theorem leadsInto_of_plain (linkless : disk.Linkless) (plain : path.Plain)
    {before : List Name} {name : Name} (ends : path.EndsIn before name)
    (into : disk.LeadsInto here path.folder folder) : folder = here ++ before := by
  obtain ⟨reached, arrives, passed⟩ := bind_eq_ok_iff.mp (walk_before ends into)
  obtain ⟨-, rfl⟩ := pass_eq_ok_iff.mp passed
  have among : before ⊆ path.parts := by
    rw [ends.cut]
    exact List.subset_append_left before [name]
  rw [plain.origin, plain.map_ofPart among] at arrives
  exact walk_into linkless arrives

end Plain

section SameDirectories

variable (linkless : disk.Linkless) (linkless' : other.Linkless)
variable (same : disk.SameDirectories other)
include linkless linkless' same

/-- A walk that arrives at a place does so on every disk with the same directories on which
something stands at that place. -/
theorem walkWith_of_sameDirectories
    {follow follow' : Location → List Path.Step → Except Refusal Location}
    (present : other.get? found ≠ none) {steps : List Path.Step}
    (arrives : disk.walkWith follow here steps = .ok found) :
    other.walkWith follow' here steps = .ok found := by
  induction steps generalizing here with
  | nil => exact arrives
  | cons step rest ih =>
      obtain ⟨open_, goesOn⟩ := walkWith_cons_eq_ok_iff.mp arrives
      refine walkWith_cons_eq_ok_iff.mpr ⟨(same.barrier? here step).trans open_, ?_⟩
      cases goesOn with
      | slash goes => exact .slash (ih goes)
      | stay goes => exact .stay (ih goes)
      | up goes => exact .up (ih goes)
      | link short stands goes => exact absurd stands (linkless _ _)
      | @enter name entry short stands plain goes =>
          -- what is entered is the end of the walk, or a directory in which it goes on
          have entered : other.get? (here ++ [name]) ≠ none := by
            cases rest with
            | nil =>
                cases goes
                exact present
            | cons next more =>
                obtain ⟨inner, -⟩ := walkWith_cons_eq_ok_iff.mp goes
                obtain ⟨directory, -⟩ := barrier?_eq_none_iff.mp inner
                obtain ⟨mode, there⟩ := (isDirectory_eq_true_iff disk _).mp directory
                rw [(same _ mode).mpr there]
                nofun
          obtain ⟨entry', there⟩ := Option.ne_none_iff_exists'.mp entered
          refine .enter short there ?_ (ih goes)
          rintro target rfl
          exact linkless' _ _ there

theorem locate_of_sameDirectories (present : other.get? found ≠ none)
    (leads : disk.locate here path = .ok found) : other.locate here path = .ok found := by
  unfold locate at leads ⊢
  cases flaw : path.flaw? with
  | some refusal =>
      rw [flaw] at leads
      cases leads
  | none =>
      rw [flaw] at leads
      exact walkWith_of_sameDirectories linkless linkless' same present leads

/-- **Which directory a path leads to is a matter of the directories alone.** -/
theorem locateDirectory_of_sameDirectories
    (leads : disk.locateDirectory here path = .ok found) :
    other.locateDirectory here path = .ok found := by
  obtain ⟨arrives, directory⟩ := locateDirectory_eq_ok_iff.mp leads
  obtain ⟨mode, stands⟩ := (isDirectory_eq_true_iff disk found).mp directory
  have present : other.get? found ≠ none := by
    rw [(same found mode).mpr stands]
    nofun
  exact locateDirectory_eq_ok_iff.mpr
    ⟨locate_of_sameDirectories linkless linkless' same present arrives,
      (same.isDirectory found).trans directory⟩

/-- A file that a plain path leads to reads the same where the same file stands. -/
theorem read_of_sameDirectories (plain : path.Plain) {bytes : List UInt8}
    (alike : other.get? (here ++ path.parts) = disk.get? (here ++ path.parts))
    (readable : disk.read here path = .ok bytes) : other.read here path = .ok bytes := by
  unfold read at readable
  cases leads : disk.locate here path with
  | error refusal =>
      rw [leads] at readable
      cases readable
  | ok found =>
      simp only [leads] at readable
      rw [locate_of_plain linkless plain leads] at readable leads
      rw [← alike] at readable
      have present : other.get? (here ++ path.parts) ≠ none := by
        intro absent
        rw [absent] at readable
        cases readable
      unfold read
      rw [locate_of_sameDirectories linkless linkless' same present leads]
      exact readable

end SameDirectories

end Disk

end ShaderHeader
