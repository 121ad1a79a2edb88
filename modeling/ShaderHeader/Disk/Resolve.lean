import ShaderHeader.Disk.Basic

/-!
# Resolving paths

How a path leads to a location.  A path is taken step by step from a directory:
every step needs a directory to start from, a link met on the way is replaced by
the steps of its target, and at most `Disk.maxLinks` links are followed.  Since
an empty part is a step too, a path that ends in a slash leads only to a
directory.

All entries belong to the user, who has no further privileges: permission bits
bind him.  To look up a part of a path, be it a dot, he has to be allowed to
search the directory it is looked up in; only an empty part is not looked up.
-/

namespace ShaderHeader

/-- Why a path, or what was to be done with it, is refused. -/
inductive Refusal where
  | notFound
  | alreadyThere
  | notPermitted
  | notADirectory
  | isADirectory
  | busy
  | nameTooLong
  | tooManyLinks
  | nulInPath
  | notText
deriving DecidableEq, Repr

/-- A refusal in the words of the system, with its number if it has one. -/
def Refusal.message : Refusal → String
  | .notFound => "No such file or directory (os error 2)"
  | .alreadyThere => "File exists (os error 17)"
  | .notPermitted => "Permission denied (os error 13)"
  | .notADirectory => "Not a directory (os error 20)"
  | .isADirectory => "Is a directory (os error 21)"
  | .busy => "Device or resource busy (os error 16)"
  | .nameTooLong => "File name too long (os error 36)"
  | .tooManyLinks => "Too many levels of symbolic links (os error 40)"
  | .nulInPath => "file name contained an unexpected NUL byte"
  | .notText => "stream did not contain valid UTF-8"

/-- One step on the way along a path. -/
inductive Path.Step where
  /-- Nothing but a slash: here has to be a directory. -/
  | slash
  | stay
  | up
  | into (name : Name)
deriving DecidableEq, Repr

/-- The step a part of a path asks for. -/
def Path.Step.ofPart (part : Name) : Path.Step :=
  if part = [] then .slash
  else if part = Path.dot then .stay
  else if part = Path.dotDot then .up
  else .into part

namespace Path

/-- The steps of a path. -/
def steps (path : Path) : List Step :=
  path.parts.map Step.ofPart

/-- Where the steps of a path start: at the root, or at the given directory. -/
def origin (path : Path) (here : Location) : Location :=
  if path.isAbsolute then [] else here

/-- A path has to be shorter than this. -/
def maxLength : Nat := 4096

/-- Why a path is refused before its first step: it holds a zero byte, is empty,
or is too long. -/
def flaw? (path : Path) : Option Refusal :=
  if path.bytes.contains 0 then some .nulInPath
  else if path.bytes = [] then some .notFound
  else if maxLength ≤ path.bytes.length then some .nameTooLong
  else none

end Path

namespace Disk

/-- The greatest number of bytes in a name. -/
def maxName : Nat := 255

/-- The greatest number of links followed along one path. -/
def maxLinks : Nat := 40

/-- Why a step cannot be taken from a location, if it cannot: there is no directory,
or it must not be searched. -/
def barrier? (disk : Disk) (here : Location) (step : Path.Step) : Option Refusal :=
  if ¬ disk.isDirectory here then some .notADirectory
  else if step ≠ .slash ∧ ¬ disk.allows Mode.searchable here then some .notPermitted
  else none

/-- Takes steps from a location.  A link is left to `follow`, which is given the
place where its target starts and all steps that remain. -/
def walkWith (disk : Disk) (follow : Location → List Path.Step → Except Refusal Location) :
    Location → List Path.Step → Except Refusal Location
  | here, [] => .ok here
  | here, step :: rest =>
    match disk.barrier? here step with
    | some refusal => .error refusal
    | none =>
      match step with
      | .slash => walkWith disk follow here rest
      | .stay => walkWith disk follow here rest
      | .up => walkWith disk follow here.dropLast rest
      | .into name =>
        if maxName < name.length then .error .nameTooLong
        else match disk.get? (here ++ [name]) with
          | none => .error .notFound
          | some (.link target) => follow (target.origin here) (target.steps ++ rest)
          | some _ => walkWith disk follow (here ++ [name]) rest

/-- Takes steps from a location, following at most the given number of links. -/
def walk (disk : Disk) : Nat → Location → List Path.Step → Except Refusal Location
  | 0 => walkWith disk fun _ _ => .error .tooManyLinks
  | links + 1 => walkWith disk (walk disk links)

/-- The location a path leads to from a working directory, links followed. -/
def locate (disk : Disk) (here : Location) (path : Path) : Except Refusal Location :=
  match path.flaw? with
  | some refusal => .error refusal
  | none => walk disk maxLinks (path.origin here) path.steps

/-- The contents of the file a path leads to.  A directory can be opened if it is
readable, but has no contents. -/
def read (disk : Disk) (here : Location) (path : Path) : Except Refusal (List UInt8) :=
  match disk.locate here path with
  | .error refusal => .error refusal
  | .ok location =>
    match disk.get? location with
    | some (.file mode bytes) => if Mode.readable mode then .ok bytes else .error .notPermitted
    | some (.directory mode) =>
      if Mode.readable mode then .error .isADirectory else .error .notPermitted
    | _ => .error .notFound

/-- The permission bits of the file or directory a path leads to. -/
def modeOf (disk : Disk) (here : Location) (path : Path) : Except Refusal Mode :=
  match disk.locate here path with
  | .error refusal => .error refusal
  | .ok location =>
    match disk.get? location with
    | some (.file mode _) => .ok mode
    | some (.directory mode) => .ok mode
    | _ => .error .notFound

/-- The location of the directory a path leads to. -/
def locateDirectory (disk : Disk) (here : Location) (path : Path) :
    Except Refusal Location :=
  match disk.locate here path with
  | .error refusal => .error refusal
  | .ok location => if disk.isDirectory location then .ok location else .error .notADirectory

/-- The location that a part of a path names in a folder, whatever stands there.  There is
none if it is a dot or two. -/
def placeIn? (disk : Disk) (folder : Location) (part : Name) :
    Except Refusal (Option Location) :=
  match disk.barrier? folder (.ofPart part) with
  | some refusal => .error refusal
  | none =>
    if part = Path.dot ∨ part = Path.dotDot then .ok none
    else if maxName < part.length then .error .nameTooLong
    else .ok (some (folder ++ [part]))

/-- The location that the last part of a path names, whatever stands there.  Only the
way to it follows links.  There is none if the last part is the root, a dot or two. -/
def lastPlace? (disk : Disk) (here : Location) (path : Path) :
    Except Refusal (Option Location) :=
  match path.flaw? with
  | some refusal => .error refusal
  | none =>
    match path.parts.reverse.dropWhile (· = []) with
    | [] => .ok none
    | last :: before =>
      match walk disk maxLinks (path.origin here) (before.reverse.map Path.Step.ofPart) with
      | .error refusal => .error refusal
      | .ok folder => disk.placeIn? folder last

/-- The location at which a file renamed to this path would stand.  The path has to
end in a name, the directory it is in has to be editable, and what stands there must
not be a directory. -/
def placeFor (disk : Disk) (here : Location) (path : Path) : Except Refusal Location :=
  match disk.lastPlace? here path with
  | .error refusal => .error refusal
  | .ok none => .error .busy
  | .ok (some place) =>
    if path.endsInSlash then .error .notADirectory
    else if ¬ disk.allows Mode.editable place.dropLast then .error .notPermitted
    else if disk.isDirectory place then .error .isADirectory
    else .ok place

end Disk

end ShaderHeader
