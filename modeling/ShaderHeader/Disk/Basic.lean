import ShaderHeader.Path

/-!
# Disks

A `Disk` says what stands at each location: a file, a directory or a symbolic
link.  Locations are absolute and already resolved, so two of them are the same
place exactly when they are equal; paths, with their dots and links, are a matter
of `Disk.locate`.

A disk is seen through `Disk.get?`.  The lemmas below say what each operation
does to that view.
-/

namespace ShaderHeader

/-- A place on a disk, as the names that lead to it from the root. -/
abbrev Location := List Name

/-- Permission bits. -/
abbrev Mode := Nat

/-- Whether permission bits let the owner read what they belong to. -/
def Mode.readable (mode : Mode) : Bool :=
  mode.testBit 8

/-- Whether permission bits let the owner write to what they belong to. -/
def Mode.writable (mode : Mode) : Bool :=
  mode.testBit 7

/-- Whether permission bits let the owner of a directory look names up in it. -/
def Mode.searchable (mode : Mode) : Bool :=
  mode.testBit 6

/-- Whether permission bits let the owner of a directory make, rename and remove
entries in it. -/
def Mode.editable (mode : Mode) : Bool :=
  mode.writable && mode.searchable

/-- What stands at a location. -/
inductive Entry where
  | file (mode : Mode) (bytes : List UInt8)
  | directory (mode : Mode)
  | link (target : Path)
deriving DecidableEq, Repr

/-- A disk, as the entries at its locations. -/
structure Disk where
  entries : List (Location × Entry)
deriving DecidableEq, Repr

namespace Disk

/-- What stands at a location, if anything does. -/
def get? (disk : Disk) (location : Location) : Option Entry :=
  disk.entries.lookup location

/-- Takes away what stands at a location. -/
def erase (disk : Disk) (location : Location) : Disk where
  entries := disk.entries.filter fun (other, _) => other != location

/-- Puts an entry at a location, in place of what stood there. -/
def insert (disk : Disk) (location : Location) (entry : Entry) : Disk where
  entries := (location, entry) :: (disk.erase location).entries

/-- Whether a location is a directory. -/
def isDirectory (disk : Disk) (location : Location) : Bool :=
  match disk.get? location with
  | some (.directory _) => true
  | _ => false

/-- Whether a location is a directory whose permission bits allow something. -/
def allows (disk : Disk) (permission : Mode → Bool) (location : Location) : Bool :=
  match disk.get? location with
  | some (.directory mode) => permission mode
  | _ => false

@[simp] theorem get?_erase_self (disk : Disk) (location : Location) :
    (disk.erase location).get? location = none := by
  simp only [get?, erase]
  induction disk.entries with
  | nil => rfl
  | cons head rest ih =>
    obtain ⟨other, entry⟩ := head
    by_cases same : other = location
    · simpa [same] using ih
    · have ne : (location == other) = false := by simpa using fun h => same h.symm
      simpa [same, List.lookup_cons, ne] using ih

@[simp] theorem get?_erase_of_ne (disk : Disk) {location other : Location}
    (ne : other ≠ location) :
    (disk.erase location).get? other = disk.get? other := by
  simp only [get?, erase]
  induction disk.entries with
  | nil => rfl
  | cons head rest ih =>
    obtain ⟨at_, entry⟩ := head
    by_cases same : at_ = location
    · subst same
      have off : (other == at_) = false := by simpa using ne
      simpa [List.lookup_cons, off] using ih
    · simp only [List.filter_cons, bne_iff_ne, ne_eq, same, not_false_eq_true, ↓reduceIte,
        List.lookup_cons]
      cases other == at_ <;> simp [ih]

@[simp] theorem get?_insert_self (disk : Disk) (location : Location) (entry : Entry) :
    (disk.insert location entry).get? location = some entry := by
  simp [get?, insert]

@[simp] theorem get?_insert_of_ne (disk : Disk) {location other : Location} (entry : Entry)
    (ne : other ≠ location) :
    (disk.insert location entry).get? other = disk.get? other := by
  have off : (other == location) = false := by simpa using ne
  rw [← get?_erase_of_ne disk ne]
  simp [get?, insert, List.lookup_cons, off]

end Disk

end ShaderHeader
