import ShaderHeader.Proofs.Generation.Outcome

/-!
# Generations that are cut off

A generation may stop anywhere: between any two steps, and after any number of the bytes
it writes.  The entry at its destination is then the old one or the complete header, and
all that may lie about besides is one scratch file beside it.
-/

namespace ShaderHeader

namespace Embedding

/-- What a generation may leave on the disk when it is cut off: nothing new before it saves
the header; then what the first so many steps of saving do, in whatever pieces the header
is written.  A crash leaves this as it is, a failure takes the scratch file away. -/
inductive CutOff (embedding : Embedding) (site : Site) (disk : Disk) : Disk → Prop where
  | early : CutOff embedding site disk disk
  | crash (bytes : List UInt8) (pieces : List (List UInt8)) (count : Nat)
      (valid : embedding.Valid)
      (readable : disk.read site.directory embedding.source = .ok bytes)
      (written : pieces.flatten = embedding.headerBytes bytes) :
      CutOff embedding site disk
        (Save.run site embedding.destination { disk } ((Save.steps pieces).take count)).1.disk
  | failure (bytes : List UInt8) (pieces : List (List UInt8)) (count : Nat)
      (valid : embedding.Valid)
      (readable : disk.read site.directory embedding.source = .ok bytes)
      (written : pieces.flatten = embedding.headerBytes bytes) :
      CutOff embedding site disk
        (Save.run site embedding.destination { disk } ((Save.steps pieces).take count)).1.withdraw

variable {embedding : Embedding} {site : Site} {disk after : Disk}

/-- A generation that is not cut off is among those that are: it gets through all steps, or
fails on its own. -/
theorem cutOff_generate (embedding : Embedding) (site : Site) (disk : Disk) :
    embedding.CutOff site disk (embedding.generate site disk).disk := by
  obtain ⟨failure, met⟩ | ⟨bytes, after, valid, readable, saved⟩ :=
    firstFault_or_saved embedding site disk
  · rw [met.generate.2]
    exact .early
  · have written : [embedding.headerBytes bytes].flatten = embedding.headerBytes bytes :=
      List.flatten_singleton
    have ran := Save.run_steps site embedding.destination disk written
    rw [saved] at ran
    obtain ⟨progress, finished, same⟩ := ran
    have crashed : embedding.CutOff site disk _ :=
      .crash bytes _ (Save.steps [embedding.headerBytes bytes]).length valid readable written
    rw [List.take_length, finished, same] at crashed
    rw [generate_of_saved valid readable saved]
    exact crashed

/-- What a generation that was cut off leaves: the old disk, a scratch file besides, or the
disk with the header saved. -/
theorem CutOff.cases (cut : embedding.CutOff site disk after) :
    after = disk ∨
    (∃ scratch mode written, disk.scratchPlace site embedding.destination = .ok scratch ∧
      after = disk.insert scratch (.file mode written)) ∨
    ∃ bytes, disk.read site.directory embedding.source = .ok bytes ∧
      disk.saveAtOnce site embedding.destination (embedding.headerBytes bytes) = .ok after := by
  have reached {bytes : List UInt8} {pieces : List (List UInt8)} (count : Nat)
      (written : pieces.flatten = embedding.headerBytes bytes) :
      ∃ left, Save.Stage site embedding.destination disk (embedding.headerBytes bytes)
        (Save.run site embedding.destination { disk } ((Save.steps pieces).take count)).1 left := by
    have start : Save.Stage site embedding.destination disk (embedding.headerBytes bytes)
        { disk } (Save.steps pieces) := .begun pieces written
    obtain ⟨left, stage, -, -⟩ := start.run (List.take_append_drop count _).symm
    exact ⟨left, stage⟩
  cases cut with
  | early => exact .inl rfl
  | crash bytes pieces count valid readable written =>
      obtain ⟨left, stage⟩ := reached count written
      rcases stage.disk_cases with ⟨same, -⟩ | ⟨scratch, mode, part, placed, same, -⟩ | ⟨saved, -⟩
      · exact .inl same
      · exact .inr (.inl ⟨scratch, mode, part, placed, same⟩)
      · exact .inr (.inr ⟨bytes, readable, saved⟩)
  | failure bytes pieces count valid readable written =>
      obtain ⟨left, stage⟩ := reached count written
      obtain ⟨-, same⟩ | ⟨scratch, mode, part, placed, -, same⟩ | ⟨saved, same⟩ := stage.disk_cases
      · exact .inl same
      · exact .inl same
      · rw [same]
        exact .inr (.inr ⟨bytes, readable, saved⟩)

/-- A scratch file that was left beside the destination: it stands where nothing stood, in
the destination's folder and under another name. -/
structure IsScratch (embedding : Embedding) (site : Site) (disk after : Disk)
    (location : Location) : Prop where
  free : disk.get? location = none
  file : ∃ mode written, after.get? location = some (.file mode written)
  beside : ∃ folder name,
    disk.locateDirectory site.directory embedding.destination.folder = .ok folder ∧
      location = folder ++ [name] ∧ embedding.destination.fileName? ≠ some name

/-- A disk on which no part of a header is seen. -/
structure Whole (embedding : Embedding) (site : Site) (disk after : Disk) : Prop where
  /-- At the destination is what was there, or the complete header with the permission bits
  it is to have. -/
  entry : ∀ place, disk.entryPlace? site.directory embedding.destination = some place →
    after.get? place = disk.get? place ∨
    ∃ bytes mode, disk.read site.directory embedding.source = .ok bytes ∧
      disk.modeToBe site.directory embedding.destination = .ok mode ∧
      after.get? place = some (.file mode (embedding.headerBytes bytes))
  /-- Everywhere else is what was there, but for one scratch file at most. -/
  others : ∃ scratch? : Option Location,
    (∀ scratch ∈ scratch?, embedding.IsScratch site disk after scratch) ∧
    ∀ location, disk.entryPlace? site.directory embedding.destination ≠ some location →
      location ∉ scratch? → after.get? location = disk.get? location

theorem whole_self (embedding : Embedding) (site : Site) (disk : Disk) :
    embedding.Whole site disk disk where
  entry _ _ := .inl rfl
  others := by
    refine ⟨none, ?_, fun location _ _ => rfl⟩
    intro scratch impossible
    cases impossible

/-- A scratch file is beside the destination, whatever it holds. -/
theorem whole_scratch {scratch : Location} {mode : Mode} {written : List UInt8}
    (placed : disk.scratchPlace site embedding.destination = .ok scratch) :
    embedding.Whole site disk (disk.insert scratch (.file mode written)) := by
  obtain ⟨folder, name, into, spelled, apart, free⟩ := Disk.scratchPlace_spec placed
  have unnamed : embedding.destination.fileName? ≠ some name := by
    intro named
    exact apart (Path.mem_parts_of_fileName? named)
  constructor
  case entry =>
    intro place entry
    obtain ⟨found, last, leads, named, same⟩ := Disk.entryPlace?_eq_some_iff.mp entry
    cases into.leads.symm.trans leads
    left
    refine Disk.get?_insert_of_ne disk _ ?_
    intro clash
    rw [← same, spelled] at clash
    have equal := List.append_cancel_left clash
    cases equal
    exact unnamed named
  case others =>
    refine ⟨some scratch, ?_, ?_⟩
    · intro other same
      cases same
      exact ⟨free, ⟨mode, written, Disk.get?_insert_self disk _ _⟩, folder, name, into.leads,
        spelled, unnamed⟩
    · intro location _ other
      refine Disk.get?_insert_of_ne disk _ ?_
      intro same
      exact other (congrArg some same.symm)

/-- A saved header is complete and all there is. -/
theorem whole_saved {bytes : List UInt8}
    (readable : disk.read site.directory embedding.source = .ok bytes)
    (saved : disk.saveAtOnce site embedding.destination (embedding.headerBytes bytes) =
      .ok after) : embedding.Whole site disk after := by
  obtain ⟨mode, scratch, place, known, placed, lands, same⟩ := Disk.saveAtOnce_eq_ok_iff.mp saved
  obtain ⟨folder, before, name, into, ends, spelled⟩ := Disk.placeFor_scratch placed lands
  have entry : disk.entryPlace? site.directory embedding.destination = some place :=
    Disk.entryPlace?_eq_some_iff.mpr ⟨folder, name, into.leads, ends.fileName?, spelled.symm⟩
  rw [← same]
  constructor
  case entry =>
    intro other named
    rw [entry] at named
    cases named
    exact .inr ⟨bytes, mode, readable, known, Disk.get?_insert_self disk _ _⟩
  case others =>
    refine ⟨none, ?_, ?_⟩
    · intro scratch impossible
      cases impossible
    · intro location other _
      refine Disk.get?_insert_of_ne disk _ ?_
      intro same
      rw [same] at other
      exact other entry

/-- **No part of a header is ever seen at its destination.**  Wherever a generation is cut
off, the destination's entry is the old one or a file with the complete header and its
final permission bits; apart from it the disk differs in one scratch file at most, which
is beside it and where nothing stood.  An undisturbed generation is such a cut. -/
theorem whole_of_cutOff (embedding : Embedding) (site : Site) (disk : Disk) :
    embedding.CutOff site disk (embedding.generate site disk).disk ∧
      ∀ after, embedding.CutOff site disk after → embedding.Whole site disk after := by
  refine ⟨cutOff_generate embedding site disk, ?_⟩
  intro after cut
  rcases cut.cases with same | ⟨scratch, mode, written, placed, same⟩ | ⟨bytes, readable, saved⟩
  · rw [same]
    exact whole_self embedding site disk
  · rw [same]
    exact whole_scratch placed
  · exact whole_saved readable saved

/-- A crash after ten bytes of the header, with an old file at the destination. -/
theorem whole_after_ten_bytes :
    ∃ after, small.CutOff smallSite (smallDisk (.file 0o640 [1])) after ∧
      small.Whole smallSite (smallDisk (.file 0o640 [1])) after := by
  obtain ⟨-, whole⟩ := whole_of_cutOff small smallSite (smallDisk (.file 0o640 [1]))
  have written : [(small.headerBytes [3, 2, 35, 7]).take 10,
      (small.headerBytes [3, 2, 35, 7]).drop 10].flatten = small.headerBytes [3, 2, 35, 7] := by
    rw [List.flatten_cons, List.flatten_singleton, List.take_append_drop]
  have cut : small.CutOff smallSite (smallDisk (.file 0o640 [1])) _ :=
    .crash [3, 2, 35, 7] _ 3 (by decide) rfl written
  exact ⟨_, cut, whole _ cut⟩

end Embedding

end ShaderHeader
