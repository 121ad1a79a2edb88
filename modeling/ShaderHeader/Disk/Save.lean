import ShaderHeader.Disk.Resolve

/-!
# Saving a file in one piece

A file is saved by writing a scratch file beside it and renaming that into place.
The work is a list of small steps, so that one can speak of the disk after any
number of them: `Save.steps` lists them, `Save.run` carries them out up to the
first that is refused, and `Disk.save` also takes the scratch file away again if
one was.

There is room on the disk and its device does not fail, so a scratch file that was
created can be written.  What may be refused is to look at what is there, to create
the scratch file and to rename it.
-/

namespace ShaderHeader

/-- A choice of names for scratch files.  In any folder of any disk it gives a
name that is not taken and is no part of the path to be saved at. -/
structure ScratchNames where
  name : Disk → Location → Path → Name
  fresh : ∀ (disk : Disk) folder path, disk.get? (folder ++ [name disk folder path]) = none
  apart : ∀ disk folder (path : Path), name disk folder path ∉ path.parts

/-- How the maker of scratch files words it that one could not be created.  It repeats
what the system says and adds something of its own about the path, which does not leave
the line. -/
structure ScratchWords where
  /-- What is added, by the folder in which the file was to be created. -/
  addition : Path → String
  oneLine : ∀ folder, '\n' ∉ (addition folder).toList

/-- Nothing is added to what the system says. -/
def ScratchWords.bare : ScratchWords where
  addition _ := ""
  oneLine _ := List.not_mem_nil

/-- Where work is done: the working directory, and what the maker of scratch files
chooses. -/
structure Site where
  directory : Location
  scratchNames : ScratchNames
  scratchWords : ScratchWords := .bare

/-- The path of the working directory, spelled from the root. -/
def Site.path (site : Site) : Path :=
  ⟨Path.slash :: Path.joinParts site.directory⟩

namespace Disk

/-- Whether every directory above a location may be searched, so that it can be reached
from the root. -/
def isReachable (disk : Disk) (location : Location) : Bool :=
  (List.range location.length).all fun depth => disk.allows Mode.searchable (location.take depth)

/-- The directory in which the scratch file for a path is created.  The way to it starts
at the root, and it has to be editable. -/
def editableFolder (disk : Disk) (site : Site) (path : Path) : Except Refusal Location :=
  if ¬ path.folder.isAbsolute ∧ ¬ disk.isReachable site.directory then .error .notPermitted
  else match disk.locateDirectory site.directory path.folder with
    | .error refusal => .error refusal
    | .ok folder =>
      if disk.allows Mode.editable folder then .ok folder else .error .notPermitted

end Disk

namespace Save

/-- A small step of saving a file. -/
inductive Step where
  /-- Ask for the permission bits of what is there now. -/
  | inspect
  /-- Create the scratch file, empty and private. -/
  | create
  /-- Add bytes to the scratch file. -/
  | append (bytes : List UInt8)
  /-- Wait until the scratch file is stored. -/
  | sync
  /-- Give the scratch file its permission bits. -/
  | setMode
  /-- Rename the scratch file into place. -/
  | publish
deriving DecidableEq, Repr

/-- Why a file was not saved: what was refused, and what is added to the words of the
system. -/
structure Setback where
  refusal : Refusal
  addition : String := ""
deriving DecidableEq, Repr

/-- How far the work has got: the disk, the permission bits the file is to have,
and the scratch file while there is one. -/
structure Progress where
  disk : Disk
  mode : Mode := 0o644
  scratch? : Option Location := none

/-- The permission bits of a scratch file before it gets its own. -/
def privateMode : Mode := 0o600

/-- How many bytes the name of a scratch file is held to have. -/
def scratchNameLength : Nat := 10

/-- The folder of the scratch file for a path.  It is spelled from the root, so that it
stays right when the working directory is changed: after the working directory unless it
is absolute. -/
def scratchFolder (site : Site) (path : Path) : Path :=
  site.path.join path.folder

/-- How long the path of the scratch file for a path is held to be: the folder, a slash,
and the name. -/
def scratchPathLength (site : Site) (path : Path) : Nat :=
  (scratchFolder site path).bytes.length + 1 + scratchNameLength

/-- The contents of a file with more bytes at its end. -/
def extend (bytes : List UInt8) : Entry → Entry
  | .file mode old => .file mode (old ++ bytes)
  | entry => entry

/-- A file with other permission bits. -/
def withMode (mode : Mode) : Entry → Entry
  | .file _ bytes => .file mode bytes
  | entry => entry

/-- Changes the scratch file, if there is one. -/
def Progress.updateScratch (progress : Progress) (change : Entry → Entry) : Progress :=
  match progress.scratch? with
  | none => progress
  | some scratch =>
    match progress.disk.get? scratch with
    | none => progress
    | some entry => { progress with disk := progress.disk.insert scratch (change entry) }

/-- Moves the scratch file, if there is one, to a place. -/
def Progress.moveScratch (progress : Progress) (place : Location) : Progress :=
  match progress.scratch? with
  | none => progress
  | some scratch =>
    match progress.disk.get? scratch with
    | none => progress
    | some entry =>
      { progress with
        disk := (progress.disk.erase scratch).insert place entry
        scratch? := none }

/-- The disk once the scratch file, if there is one, is taken away. -/
def Progress.withdraw (progress : Progress) : Disk :=
  match progress.scratch? with
  | none => progress.disk
  | some scratch => progress.disk.erase scratch

/-- What is added to the words of the system if a step is refused. -/
def Step.addition (site : Site) (path : Path) : Step → String
  | .create => site.scratchWords.addition (scratchFolder site path)
  | _ => ""

/-- Carries out a step, or refuses it and changes nothing. -/
def Step.apply (site : Site) (path : Path) (progress : Progress) :
    Step → Except Refusal Progress
  | .inspect =>
    match progress.disk.modeOf site.directory path with
    | .ok mode => .ok { progress with mode }
    | .error .notFound => .ok progress
    | .error refusal => .error refusal
  | .create =>
    if Path.maxLength ≤ scratchPathLength site path then .error .nameTooLong
    else match progress.disk.editableFolder site path with
      | .error refusal => .error refusal
      | .ok folder =>
        let scratch := folder ++ [site.scratchNames.name progress.disk folder path]
        .ok { progress with
          disk := progress.disk.insert scratch (.file privateMode [])
          scratch? := some scratch }
  | .append bytes => .ok (progress.updateScratch (extend bytes))
  | .sync => .ok progress
  | .setMode => .ok (progress.updateScratch (withMode progress.mode))
  | .publish =>
    match progress.disk.placeFor site.directory path with
    | .error refusal => .error refusal
    | .ok place => .ok (progress.moveScratch place)

/-- Carries out steps in order.  It stops at the first that is refused and then
says why. -/
def run (site : Site) (path : Path) (progress : Progress) :
    List Step → Progress × Option Setback
  | [] => (progress, none)
  | step :: rest =>
    match step.apply site path progress with
    | .ok next => run site path next rest
    | .error refusal => (progress, some { refusal, addition := step.addition site path })

/-- The steps of saving a file whose contents are written in the given pieces. -/
def steps (pieces : List (List UInt8)) : List Step :=
  [.inspect, .create] ++ pieces.map .append ++ [.sync, .setMode, .publish]

end Save

/-- Saves a file.  A new file gets the usual permission bits, an old one keeps
those it has; if a step is refused the scratch file is taken away. -/
def Disk.save (disk : Disk) (site : Site) (path : Path) (bytes : List UInt8) :
    Disk × Option Save.Setback :=
  match Save.run site path { disk } (Save.steps [bytes]) with
  | (progress, none) => (progress.disk, none)
  | (progress, some setback) => (progress.withdraw, some setback)

end ShaderHeader
