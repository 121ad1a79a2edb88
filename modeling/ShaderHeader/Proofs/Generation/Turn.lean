import ShaderHeader.Proofs.Disk.Replacement
import ShaderHeader.Proofs.Generation.Outcome

/-!
# Turns

A turn is a single generation together with the disk that it finds.  `Turn.cases` lists all
that it can do: fail and change nothing, or put the header of the module it has read at the
entry that its destination names.
-/

namespace ShaderHeader

/-- A single generation, with where it is carried out and the disk that it finds. -/
structure Turn where
  site : Site
  disk : Disk
  embedding : Embedding

namespace Turn

/-- What a turn leaves behind. -/
def outcome (turn : Turn) : Outcome Report :=
  turn.embedding.generate turn.site turn.disk

/-- A turn writes an entry when it goes well and its destination names that entry. -/
def Writes (turn : Turn) (location : Location) : Prop :=
  (∃ report, turn.outcome.result = .ok report) ∧
    turn.disk.entryPlace? turn.site.directory turn.embedding.destination = some location

/-- **All that a turn can do.** -/
theorem cases (turn : Turn) :
    (∃ failure, turn.outcome.result = .error failure ∧ turn.outcome.disk = turn.disk) ∨
    ∃ bytes place mode,
      turn.outcome.result = .ok (turn.embedding.report (Words.ofBytes bytes)) ∧
      turn.disk.read turn.site.directory turn.embedding.source = .ok bytes ∧
      turn.disk.entryPlace? turn.site.directory turn.embedding.destination = some place ∧
      Entry.Becomes (turn.disk.get? place)
        (some (.file mode (turn.embedding.headerBytes bytes))) ∧
      turn.outcome.disk =
        turn.disk.insert place (.file mode (turn.embedding.headerBytes bytes)) := by
  obtain ⟨failure, met⟩ | ⟨bytes, after, valid, readable, saved⟩ :=
    turn.embedding.firstFault_or_saved turn.site turn.disk
  · exact .inl ⟨failure, met.generate⟩
  · obtain ⟨place, mode, named, becomes, rfl⟩ := Disk.saveAtOnce_spec saved
    have done := Embedding.generate_of_saved valid readable saved
    refine .inr ⟨bytes, place, mode, ?_, readable, named, becomes, ?_⟩
    · rw [outcome, done]
      rfl
    · rw [outcome, done]

variable {turn : Turn} {location : Location}

/-- What stands at a location becomes what may become of it. -/
theorem becomes (turn : Turn) (location : Location) :
    Entry.Becomes (turn.disk.get? location) (turn.outcome.disk.get? location) := by
  obtain ⟨-, -, unchanged⟩ | ⟨_, place, _, -, -, -, becomes, changed⟩ := turn.cases
  · rw [unchanged]
    exact .kept _
  · rw [changed]
    by_cases here : location = place
    · rw [here, Disk.get?_insert_self]
      exact becomes
    · rw [Disk.get?_insert_of_ne _ _ here]
      exact .kept _

/-- An entry that a turn writes is the header of the module it has read. -/
theorem get?_of_writes (writes : turn.Writes location) :
    ∃ bytes mode, turn.disk.read turn.site.directory turn.embedding.source = .ok bytes ∧
      turn.outcome.disk.get? location =
        some (.file mode (turn.embedding.headerBytes bytes)) := by
  obtain ⟨⟨report, succeeded⟩, named⟩ := writes
  obtain ⟨failure, failed, -⟩ | ⟨bytes, place, mode, -, readable, written, -, changed⟩ :=
    turn.cases
  · rw [succeeded] at failed
    cases failed
  · rw [named] at written
    cases written
    exact ⟨bytes, mode, readable, by rw [changed, Disk.get?_insert_self]⟩

/-- An entry that a turn does not write stays. -/
theorem get?_of_not_writes (spared : ¬ turn.Writes location) :
    turn.outcome.disk.get? location = turn.disk.get? location := by
  obtain ⟨-, -, unchanged⟩ | ⟨_, place, _, succeeded, -, named, -, changed⟩ := turn.cases
  · rw [unchanged]
  · have elsewhere : location ≠ place := by
      rintro rfl
      exact spared ⟨⟨_, succeeded⟩, named⟩
    rw [changed, Disk.get?_insert_of_ne _ _ elsewhere]

end Turn

/-- A generation that fails changes nothing. -/
theorem Embedding.disk_of_error {embedding : Embedding} {site : Site} {disk : Disk}
    {failure : Failure} (failed : (embedding.generate site disk).result = .error failure) :
    (embedding.generate site disk).disk = disk := by
  obtain ⟨-, -, unchanged⟩ | ⟨_, _, _, succeeded, -⟩ := Turn.cases ⟨site, disk, embedding⟩
  · exact unchanged
  · cases failed.symm.trans succeeded

end ShaderHeader
