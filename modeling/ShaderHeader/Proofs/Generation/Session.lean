import ShaderHeader.Proofs.Generation.Series

/-!
# Sessions

A session is any sequence of calls, each for one header or for a series of them, which may
go well or fail in any pattern.  It amounts to the turns that were begun, one after another
(`Session.run`), so what no turn does to an entry no session does (`Session.orderly`).
-/

namespace ShaderHeader

namespace Turn

/-- Turns that lead from one disk to another: each finds the disk that the one before it
leaves. -/
inductive Run : Disk → List Turn → Disk → Prop where
  | nil (disk : Disk) : Run disk [] disk
  | cons (turn : Turn) {turns : List Turn} {final : Disk}
      (rest : Run turn.outcome.disk turns final) : Run turn.disk (turn :: turns) final

/-- The last of some turns to write an entry. -/
def LastToWrite (turns : List Turn) (location : Location) (turn : Turn) : Prop :=
  ∃ earlier later, turns = earlier ++ turn :: later ∧ turn.Writes location ∧
    ∀ other ∈ later, ¬ other.Writes location

/-- An entry is the header that the last turn to write it made of the module it had read. -/
def Generated (turns : List Turn) (final : Disk) (location : Location) : Prop :=
  ∃ turn bytes mode, LastToWrite turns location turn ∧
    turn.disk.read turn.site.directory turn.embedding.source = .ok bytes ∧
    final.get? location = some (.file mode (turn.embedding.headerBytes bytes))

theorem unwritten_or_lastToWrite (turns : List Turn) (location : Location) :
    (∀ turn ∈ turns, ¬ turn.Writes location) ∨ ∃ turn, LastToWrite turns location turn := by
  induction turns with
  | nil => exact .inl nofun
  | cons first rest ih =>
      obtain unwritten | ⟨turn, earlier, later, rfl, writes, spared⟩ := ih
      -- the first turn matters only if none after it writes the entry
      · by_cases writes : first.Writes location
        · exact .inr ⟨first, [], rest, rfl, writes, unwritten⟩
        · exact .inl (List.forall_mem_cons.mpr ⟨writes, unwritten⟩)
      · exact .inr ⟨turn, first :: earlier, later, rfl, writes, spared⟩

namespace Run

variable {start between final moment : Disk} {turns more : List Turn} {turn : Turn}
variable {location : Location}

theorem append (first : Run start turns between) (second : Run between more final) :
    Run start (turns ++ more) final := by
  induction first with
  | nil => exact second
  | cons turn _ ih => exact .cons turn (ih second)

theorem rest (run : Run start (turn :: turns) final) : Run turn.outcome.disk turns final := by
  cases run with
  | cons _ rest => exact rest

/-- What follows a turn goes on from what it leaves. -/
theorem after_turn (earlier : List Turn) (run : Run start (earlier ++ turn :: turns) final) :
    Run turn.outcome.disk turns final := by
  induction earlier generalizing start with
  | nil => exact run.rest
  | cons _ _ ih => exact ih run.rest

/-- **What turns may make of an entry** is what one turn may. -/
theorem becomes (run : Run start turns final) (location : Location) :
    Entry.Becomes (start.get? location) (final.get? location) := by
  induction run with
  | nil disk => exact .kept _
  | cons turn _ ih => exact (turn.becomes location).trans ih

/-- The same holds from any moment of a run on. -/
theorem becomes_from (run : Run start turns final)
    (met : moment ∈ start :: turns.map (·.outcome.disk)) (location : Location) :
    Entry.Becomes (moment.get? location) (final.get? location) := by
  induction run with
  | nil disk =>
      rw [List.mem_singleton.mp met]
      exact .kept _
  | cons turn rest ih =>
      obtain rfl | later := List.mem_cons.mp met
      · exact (Run.cons turn rest).becomes location
      · exact ih later

theorem get?_of_unwritten (run : Run start turns final)
    (unwritten : ∀ turn ∈ turns, ¬ turn.Writes location) :
    final.get? location = start.get? location := by
  induction run with
  | nil disk => rfl
  | cons _ _ ih =>
      obtain ⟨first, others⟩ := List.forall_mem_cons.mp unwritten
      rw [ih others, get?_of_not_writes first]

/-- The header that a turn writes stays as long as none writes there again. -/
theorem generated (run : Run start turns final) (last : LastToWrite turns location turn) :
    Generated turns final location := by
  obtain ⟨earlier, later, rfl, writes, spared⟩ := last
  obtain ⟨bytes, mode, readable, written⟩ := get?_of_writes writes
  refine ⟨turn, bytes, mode, ⟨earlier, later, rfl, writes, spared⟩, readable, ?_⟩
  rw [(run.after_turn earlier).get?_of_unwritten spared, written]

theorem generated_of_changed (run : Run start turns final)
    (changed : final.get? location ≠ start.get? location) : Generated turns final location := by
  obtain unwritten | ⟨turn, last⟩ := unwritten_or_lastToWrite turns location
  · exact absurd (run.get?_of_unwritten unwritten) changed
  · exact run.generated last

end Run

end Turn

namespace Embedding

/-- The turns of a series that are begun: the first that fails is the last. -/
def begun (site : Site) : List Embedding → Disk → List Turn
  | [], _ => []
  | first :: rest, disk =>
    ⟨site, disk, first⟩ ::
      match (first.generate site disk).result with
      | .error _ => []
      | .ok _ => begun site rest (first.generate site disk).disk

/-- The turns that are begun lead to the disk that the series leaves. -/
theorem run_begun (site : Site) (embeddings : List Embedding) (disk : Disk) :
    Turn.Run disk (begun site embeddings disk) (generateAll site embeddings disk).disk := by
  induction embeddings generalizing disk with
  | nil => exact .nil disk
  | cons first rest ih =>
      rw [begun]
      refine .cons ⟨site, disk, first⟩ ?_
      cases result : (first.generate site disk).result with
      | error failure =>
          -- nothing follows, so the disk that the failed turn leaves must be the last one
          have stopped : (generateAll site (first :: rest) disk).disk =
              (first.generate site disk).disk := by
            rw [generateAll_cons_of_error result, disk_of_error result]
          rw [stopped]
          exact .nil _
      | ok report =>
          rw [generateAll_cons_of_ok result]
          exact ih _

end Embedding

/-- A call for one header or for a series of them. -/
inductive Call where
  | one (site : Site) (embedding : Embedding)
  | several (site : Site) (embeddings : List Embedding)

namespace Call

/-- The disk that a call leaves. -/
def final : Call → Disk → Disk
  | .one site embedding, disk => (embedding.generate site disk).disk
  | .several site embeddings, disk => (Embedding.generateAll site embeddings disk).disk

/-- The turns that are begun in a call. -/
def turns : Call → Disk → List Turn
  | .one site embedding, disk => [⟨site, disk, embedding⟩]
  | .several site embeddings, disk => Embedding.begun site embeddings disk

theorem run (call : Call) (disk : Disk) : Turn.Run disk (call.turns disk) (call.final disk) := by
  cases call with
  | one site embedding => exact .cons ⟨site, disk, embedding⟩ (.nil _)
  | several site embeddings => exact Embedding.run_begun site embeddings disk

end Call

namespace Session

open ShaderHeader.Embedding

/-- The disk that a session leaves. -/
def final (calls : List Call) (start : Disk) : Disk :=
  calls.foldl (fun disk call => call.final disk) start

/-- The turns that are begun in a session. -/
def turns : List Call → Disk → List Turn
  | [], _ => []
  | call :: rest, disk => call.turns disk ++ turns rest (call.final disk)

theorem run (calls : List Call) (start : Disk) :
    Turn.Run start (turns calls start) (final calls start) := by
  induction calls generalizing start with
  | nil => exact .nil start
  | cons call rest ih => exact (call.run start).append (ih (call.final start))

/-- What a session keeps and what it may change, given the disk on which it starts, its turns
and the disk that it leaves. -/
structure Orderly (start : Disk) (turns : List Turn) (final : Disk) : Prop where
  directories : ∀ location mode,
    final.get? location = some (.directory mode) ↔ start.get? location = some (.directory mode)
  present : ∀ location, start.get? location ≠ none → final.get? location ≠ none
  changed : ∀ location, final.get? location ≠ start.get? location →
    Turn.Generated turns final location
  /-- A file that is there at any moment has the permission bits that it keeps. -/
  files : ∀ moment ∈ start :: turns.map (·.outcome.disk), ∀ location mode old,
    moment.get? location = some (.file mode old) →
      ∃ bytes, final.get? location = some (.file mode bytes)
  created : ∀ location, start.get? location = none →
    final.get? location = none ∨ ∃ bytes, final.get? location = some (.file 0o644 bytes)
  links : ∀ location target, start.get? location = some (.link target) →
    final.get? location = some (.link target) ∨ Turn.Generated turns final location
  noLinks : ∀ location target, final.get? location = some (.link target) →
    start.get? location = some (.link target)

/-- **Every session is orderly**, whichever of its calls go well: directories stay as they are,
nothing is lost, what is new or changed is the header of the last turn to write it, files keep
their permission bits, new ones have the usual bits, and links are kept or replaced. -/
theorem orderly (calls : List Call) (start : Disk) :
    Orderly start (turns calls start) (final calls start) := by
  have ran := run calls start
  refine
    { directories := fun location mode => (ran.becomes location).directory_iff mode
      present := fun location => (ran.becomes location).ne_none
      changed := fun location => ran.generated_of_changed
      files := ?files, created := ?created, links := ?links, noLinks := ?noLinks }
  case files =>
    intro moment met location mode old stands
    have becomes := ran.becomes_from met location
    rw [stands] at becomes
    exact becomes.of_file
  case created =>
    intro location absent
    have becomes := ran.becomes location
    rw [absent] at becomes
    exact becomes.of_none
  case links =>
    intro location target stands
    by_cases same : (final calls start).get? location = start.get? location
    · exact .inl (same.trans stands)
    · exact .inr (ran.generated_of_changed same)
  case noLinks =>
    intro location target stands
    have becomes := ran.becomes location
    rw [stands] at becomes
    exact becomes.link

/-- A header takes the place of a link and keeps its permission bits when a series generates
it again and then fails. -/
theorem orderly_over_link :
    ∃ bytes, (final [.one smallSite small, .several smallSite [small, ontoFolder]]
      linkedDisk).get? [[0x64]] = some (.file 0o600 bytes) := by
  have valid : small.Valid := rfl
  have readable : linkedDisk.read smallSite.directory small.source = .ok [3, 2, 35, 7] := rfl
  have saved : linkedDisk.saveAtOnce smallSite small.destination
      (small.headerBytes [3, 2, 35, 7]) =
        .ok (linkedDisk.insert [[0x64]] (.file 0o600 (small.headerBytes [3, 2, 35, 7]))) := rfl
  have first : (small.generate smallSite linkedDisk).disk.get? [[0x64]] =
      some (.file 0o600 (small.headerBytes [3, 2, 35, 7])) := by
    rw [generate_of_saved valid readable saved, Disk.get?_insert_self]
  have among : (small.generate smallSite linkedDisk).disk ∈ linkedDisk ::
      (turns [.one smallSite small, .several smallSite [small, ontoFolder]] linkedDisk).map
        (·.outcome.disk) := by
    rw [turns, Call.turns, List.singleton_append, List.map_cons]
    exact .tail _ (.head _)
  exact (orderly _ _).files _ among _ _ _ first

end Session

end ShaderHeader
