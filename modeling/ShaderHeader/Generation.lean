import ShaderHeader.Disk.Save
import ShaderHeader.Header
import ShaderHeader.Loading
import ShaderHeader.Log.Event

/-!
# Generating headers

Reading a module, laying out its header and saving it, for one embedding or for
a list of them, given as they are or in a configuration file.  An activity is a
function from the disk it finds to an `Outcome`: the disk it leaves, the events it
told, and its result.
-/

namespace ShaderHeader

/-- What a successful generation has done. -/
structure Report where
  source : Path
  destination : Path
  wordCount : Nat
  /-- The value of the generated size constant. -/
  byteSize : Nat
  dropped : Nat
deriving DecidableEq, Repr

/-- A line that tells a user which header was generated. -/
def Report.notice (report : Report) : String :=
  "Generated " ++ match report.destination.fileName? with
    | some name => Utf8.decodeLossy name
    | none => report.destination.display

/-- What is known of an activity besides the disk: the events it told, and its
result. -/
structure Account (α : Type) where
  events : List Event
  result : Except Failure α

/-- What an activity leaves behind. -/
structure Outcome (α : Type) extends Account α where
  disk : Disk

namespace Outcome

/-- An activity with a result that changed nothing and told nothing. -/
def quiet {α : Type} (disk : Disk) (result : Except Failure α) : Outcome α where
  disk := disk
  events := []
  result := result

/-- Goes on after an activity, unless it failed. -/
def andThen {α β : Type} (first : Outcome α) (next : α → Disk → Outcome β) : Outcome β :=
  match first.result with
  | .error failure => { disk := first.disk, events := first.events, result := .error failure }
  | .ok value =>
    let second := next value first.disk
    { second with events := first.events ++ second.events }

/-- Changes the result of an activity. -/
def map {α β : Type} (f : α → β) (outcome : Outcome α) : Outcome β where
  disk := outcome.disk
  events := outcome.events
  result := outcome.result.map f

end Outcome

/-- The warning about an incomplete word, if there is one. -/
def Words.warning (words : Words) (source : Path) (length : Nat) : List Event :=
  if words.dropped = 0 then [] else [.trailing source length words.dropped]

namespace Embedding

/-- The report on a generation that went well. -/
def report (embedding : Embedding) (words : Words) : Report where
  source := embedding.source
  destination := embedding.destination
  wordCount := words.size
  byteSize := words.byteSize
  dropped := words.dropped

/-- The bytes of the header for a module. -/
def headerBytes (embedding : Embedding) (bytes : List UInt8) : List UInt8 :=
  Utf8.encode (Header.ofModule bytes embedding)

/-- The account of a generation whose names are at fault: nothing was begun. -/
def refusedAccount (fault : Fault) : Account Report where
  events := []
  result := .error (.invalid fault)

/-- The account of a generation whose module could not be read. -/
def unreadAccount (embedding : Embedding) (refusal : Refusal) : Account Report where
  events := [.reading embedding.source]
  result := .error (.unreadSource embedding.source refusal)

/-- The account of a generation that has read a module, given why its header could
not be saved if it could not. -/
def account (embedding : Embedding) (bytes : List UInt8) (setback? : Option Save.Setback) :
    Account Report :=
  let words := Words.ofBytes bytes
  let begun := .reading embedding.source :: words.warning embedding.source bytes.length
    ++ [.writing embedding.destination words.size]
  match setback? with
  | some setback =>
    { events := begun
      result := .error
        (.unwrittenHeader embedding.destination setback.refusal setback.addition) }
  | none =>
    { events := begun ++ [.generated embedding.arrayName words.size words.byteSize]
      result := .ok (embedding.report words) }

/-- Generates a header: checks the names, reads the module, saves the header. -/
def generate (embedding : Embedding) (site : Site) (disk : Disk) : Outcome Report :=
  match embedding.fault? with
  | some fault => { refusedAccount fault with disk }
  | none =>
    match disk.read site.directory embedding.source with
    | .error refusal => { embedding.unreadAccount refusal with disk }
    | .ok bytes =>
      let (saved, setback?) := disk.save site embedding.destination (embedding.headerBytes bytes)
      { embedding.account bytes setback? with disk := saved }

/-- Generates several headers in order and stops at the first failure. -/
def generateAll (site : Site) : List Embedding → Disk → Outcome (List Report)
  | [], disk => .quiet disk (.ok [])
  | first :: rest, disk =>
    (first.generate site disk).andThen fun report disk =>
      (generateAll site rest disk).map (report :: ·)

/-- Generates the header that a configuration file describes. -/
def generateConfigured (site : Site) (file : Path) (disk : Disk) : Outcome Report :=
  (Outcome.quiet disk (ofFile disk site.directory file)).andThen fun embedding disk =>
    embedding.generate site disk

/-- Generates the headers that a configuration file lists.  All of the file is
loaded before the first of them. -/
def generateListed (site : Site) (file : Path) (disk : Disk) : Outcome (List Report) :=
  (Outcome.quiet disk (listOfFile disk site.directory file)).andThen fun embeddings disk =>
    generateAll site embeddings disk

end Embedding

end ShaderHeader
