import ShaderHeader.Disk.Save

/-!
# Names for scratch files

A choice of scratch names that needs no search: a name longer than everything
already on the disk is not taken.
-/

namespace ShaderHeader

namespace ScratchNames

/-- How many bytes the names on a disk have together. -/
def extent (disk : Disk) : Nat :=
  (disk.entries.map fun (location, _) => location.flatten.length).foldr (· + ·) 0

/-- A dot, three letters, and as many zeros as it takes to be longer than every
name on the disk and every part of the path. -/
def longName (disk : Disk) (path : Path) : Name :=
  [0x2E, 0x74, 0x6D, 0x70] ++ List.replicate (extent disk + path.bytes.length) 0x30

theorem length_flatten_le_extent {disk : Disk} {location : Location} {entry : Entry}
    (stands : disk.get? location = some entry) :
    location.flatten.length ≤ extent disk := by
  obtain ⟨entries⟩ := disk
  simp only [Disk.get?, extent] at *
  induction entries with
  | nil => simp at stands
  | cons head rest ih =>
    obtain ⟨other, first⟩ := head
    rw [List.lookup_cons] at stands
    split at stands
    · next same =>
      have same : location = other := by simpa using same
      subst same
      simp only [List.map_cons, List.foldr_cons]
      omega
    · have := ih stands
      simp only [List.map_cons, List.foldr_cons]
      omega

theorem length_le_of_mem_pieces {separator : UInt8} {bytes : List UInt8} {part : Name}
    (member : part ∈ pieces separator bytes) : part.length ≤ bytes.length := by
  induction bytes generalizing part with
  | nil => simp_all [pieces]
  | cons byte rest ih =>
    simp only [pieces] at member
    split at member
    · rcases List.mem_cons.1 member with rfl | member
      · simp
      · exact Nat.le_succ_of_le (ih member)
    · split at member
      · simp_all
      · next name names split =>
        rcases List.mem_cons.1 member with rfl | member
        · have := @ih name (by simp [split])
          simpa using this
        · exact Nat.le_succ_of_le (ih (by simp [split, member]))

/-- Scratch names chosen by length. -/
def byLength : ScratchNames where
  name disk _ path := longName disk path
  fresh disk folder path := by
    cases stands : disk.get? (folder ++ [longName disk path]) with
    | none => rfl
    | some entry =>
      have := length_flatten_le_extent stands
      simp [longName] at this
      omega
  apart disk folder path := by
    intro member
    have := length_le_of_mem_pieces member
    simp [longName] at this
    omega

end ScratchNames

end ShaderHeader
