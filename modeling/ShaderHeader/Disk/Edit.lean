import ShaderHeader.Disk.Resolve

/-!
# Editing and listing disks

Writing files, making directories and links, removing entries, and a listing of
all that lies below a directory.  This is how a disk is prepared and looked at;
headers themselves are saved by `Disk.save`.
-/

namespace ShaderHeader

/-- Whether an entry is a directory. -/
def Entry.isDirectory : Entry → Bool
  | .directory _ => true
  | _ => false

namespace Disk

/-- A disk on which only the given directories stand, the root among them. -/
def ofDirectories (locations : List Location) : Disk where
  entries := ([] :: locations).map (·, .directory 0o755)

/-- The location at which a file of this path stands or would stand, links at its end
followed while the number of them lasts.  It must not be a directory. -/
def placeThrough (disk : Disk) : Nat → Location → Path → Except Refusal Location
  | 0, _, _ => .error .tooManyLinks
  | links + 1, here, path =>
    match disk.lastPlace? here path with
    | .error refusal => .error refusal
    | .ok none => .error .isADirectory
    | .ok (some place) =>
      if path.endsInSlash then .error .isADirectory
      else match disk.get? place with
        | some (.link target) => placeThrough disk links place.dropLast target
        | some (.directory _) => .error .isADirectory
        | _ => .ok place

/-- Writes a file in place, through links.  An old file has to be writable, and a new
one needs a directory that is editable. -/
def write (disk : Disk) (here : Location) (path : Path) (mode : Mode) (bytes : List UInt8) :
    Except Refusal Disk :=
  match disk.placeThrough (maxLinks + 1) here path with
  | .error refusal => .error refusal
  | .ok place =>
    match disk.get? place with
    | some (.file old _) =>
      if Mode.writable old then .ok (disk.insert place (.file mode bytes))
      else .error .notPermitted
    | _ =>
      if disk.allows Mode.editable place.dropLast then .ok (disk.insert place (.file mode bytes))
      else .error .notPermitted

/-- Puts an entry where a path leads, if nothing stands there.  Unless the entry is a
directory, the path must not end in a slash. -/
def add (disk : Disk) (here : Location) (path : Path) (entry : Entry) : Except Refusal Disk :=
  match disk.lastPlace? here path with
  | .error refusal => .error refusal
  | .ok none => .error .alreadyThere
  | .ok (some place) =>
    if (disk.get? place).isSome then .error .alreadyThere
    else if path.endsInSlash ∧ ¬ entry.isDirectory then .error .notFound
    else if disk.allows Mode.editable place.dropLast then .ok (disk.insert place entry)
    else .error .notPermitted

/-- Makes a directory. -/
def makeDirectory (disk : Disk) (here : Location) (path : Path) : Except Refusal Disk :=
  disk.add here path (.directory 0o755)

/-- Makes the directory a path names, or leaves the one that it leads to. -/
def ensureDirectory (disk : Disk) (here : Location) (path : Path) : Except Refusal Disk :=
  match disk.makeDirectory here path with
  | .ok made => .ok made
  | .error refusal =>
    match disk.locateDirectory here path with
    | .ok _ => .ok disk
    | .error _ => .error refusal

/-- Makes the directory a path names and, as far as they are missing, so many of those
it is in. -/
def ensureWay (disk : Disk) (here : Location) : Nat → Path → Except Refusal Disk
  | 0, path => disk.ensureDirectory here path
  | count + 1, path =>
    if path.bytes = [] then .ok disk
    else match disk.ensureDirectory here path, path.parent? with
      | .error .notFound, some parent => do
        let reached ← ensureWay disk here count parent
        reached.ensureDirectory here path
      | outcome, _ => outcome

/-- Makes the directory a path names and those on the way to it. -/
def makeDirectories (disk : Disk) (here : Location) (path : Path) : Except Refusal Disk :=
  disk.ensureWay here path.parts.length path

/-- Makes a link. -/
def makeLink (disk : Disk) (here : Location) (path target : Path) : Except Refusal Disk :=
  match target.flaw? with
  | some refusal => .error refusal
  | none => disk.add here path (.link target)

/-- Removes a file or a link. -/
def remove (disk : Disk) (here : Location) (path : Path) : Except Refusal Disk :=
  match disk.lastPlace? here path with
  | .error refusal => .error refusal
  | .ok none => .error .isADirectory
  | .ok (some place) =>
    match disk.get? place with
    | none => .error .notFound
    | some entry =>
      if path.endsInSlash ∧ ¬ entry.isDirectory then .error .notADirectory
      else if ¬ path.endsInSlash ∧ ¬ disk.allows Mode.editable place.dropLast then
        .error .notPermitted
      else if entry.isDirectory then .error .isADirectory
      else .ok (disk.erase place)

/-- Permission bits in octal, three digits or more. -/
def modeText (mode : Mode) : String :=
  let digits := Nat.toDigits 8 mode
  String.ofList (List.replicate (3 - digits.length) '0' ++ digits)

/-- One entry of a listing, given its name. -/
def describe (name : String) : Entry → String
  | .file mode bytes => name ++ " " ++ modeText mode ++ " " ++ toString bytes.length
  | .directory _ => name ++ "/"
  | .link target => name ++ " -> " ++ target.display

/-- All that lies below a location, in the order of its text. -/
def listing (disk : Disk) (base : Location) : List String :=
  let below := disk.entries.filterMap fun (location, entry) =>
    if base <+: location ∧ location ≠ base then
      some (describe (Utf8.decodeLossy (Path.joinParts (location.drop base.length))) entry)
    else none
  below.mergeSort fun a b => decide (a ≤ b)

end Disk

end ShaderHeader
