import ShaderHeader.Disk.ScratchName
import ShaderHeader.Generation
import ShaderHeader.Proofs.Disk.Link
import ShaderHeader.Proofs.Disk.Save

/-!
# What a generation leaves behind

A generation that fails leaves the disk as it was and tells of the first fault it met;
one that succeeds changes a single entry.
-/

namespace ShaderHeader

namespace Embedding

/-- What a generation meets first, in the order in which it looks for faults: a name that
is no identifier, a module that cannot be read, and of saving the header the permission
bits, the scratch file and its renaming.  To a refused scratch file its maker adds words of
its own. -/
inductive FirstFault (embedding : Embedding) (site : Site) (disk : Disk) : Failure → Prop where
  | names {fault : Fault} (invalid : embedding.fault? = some fault) :
      FirstFault embedding site disk (.invalid fault)
  | source {refusal : Refusal} (valid : embedding.Valid)
      (unread : disk.read site.directory embedding.source = .error refusal) :
      FirstFault embedding site disk (.unreadSource embedding.source refusal)
  | mode {bytes : List UInt8} {refusal : Refusal} (valid : embedding.Valid)
      (readable : disk.read site.directory embedding.source = .ok bytes)
      (unknown : disk.modeOf site.directory embedding.destination = .error refusal)
      (present : refusal ≠ .notFound) :
      FirstFault embedding site disk (.unwrittenHeader embedding.destination refusal)
  | scratch {bytes : List UInt8} {mode : Mode} {refusal : Refusal} (valid : embedding.Valid)
      (readable : disk.read site.directory embedding.source = .ok bytes)
      (known : disk.modeToBe site.directory embedding.destination = .ok mode)
      (homeless : disk.scratchPlace site embedding.destination = .error refusal) :
      FirstFault embedding site disk (.unwrittenHeader embedding.destination refusal
        (site.scratchWords.addition (Save.scratchFolder site embedding.destination)))
  | rename {bytes : List UInt8} {mode : Mode} {scratch : Location} {refusal : Refusal}
      (valid : embedding.Valid)
      (readable : disk.read site.directory embedding.source = .ok bytes)
      (known : disk.modeToBe site.directory embedding.destination = .ok mode)
      (placed : disk.scratchPlace site embedding.destination = .ok scratch)
      (barred : (disk.insert scratch (.file mode (embedding.headerBytes bytes))).placeFor
        site.directory embedding.destination = .error refusal) :
      FirstFault embedding site disk (.unwrittenHeader embedding.destination refusal)

variable {embedding : Embedding} {site : Site} {disk after : Disk} {bytes : List UInt8}
variable {failure : Failure} {refusal : Refusal} {setback : Save.Setback}

theorem generate_of_invalid {fault : Fault} (invalid : embedding.fault? = some fault) :
    embedding.generate site disk = { refusedAccount fault with disk } := by
  unfold generate
  rw [invalid]

theorem generate_of_unread (valid : embedding.Valid)
    (unread : disk.read site.directory embedding.source = .error refusal) :
    embedding.generate site disk = { embedding.unreadAccount refusal with disk } := by
  unfold Valid at valid
  unfold generate
  rw [valid, unread]

/-- A generation that has read its module saves the header at once or not at all. -/
theorem generate_of_read (valid : embedding.Valid)
    (readable : disk.read site.directory embedding.source = .ok bytes) :
    embedding.generate site disk =
      match disk.saveAtOnce site embedding.destination (embedding.headerBytes bytes) with
      | .ok after => { embedding.account bytes none with disk := after }
      | .error setback => { embedding.account bytes (some setback) with disk } := by
  unfold Valid at valid
  unfold generate
  rw [valid, readable]
  simp only [Disk.save_eq]
  cases disk.saveAtOnce site embedding.destination (embedding.headerBytes bytes) <;> rfl

theorem generate_of_unsaved (valid : embedding.Valid)
    (readable : disk.read site.directory embedding.source = .ok bytes)
    (unsaved : disk.saveAtOnce site embedding.destination (embedding.headerBytes bytes) =
      .error setback) :
    embedding.generate site disk = { embedding.account bytes (some setback) with disk } := by
  rw [generate_of_read valid readable, unsaved]

theorem generate_of_saved (valid : embedding.Valid)
    (readable : disk.read site.directory embedding.source = .ok bytes)
    (saved : disk.saveAtOnce site embedding.destination (embedding.headerBytes bytes) =
      .ok after) :
    embedding.generate site disk = { embedding.account bytes none with disk := after } := by
  rw [generate_of_read valid readable, saved]

/-- A fault that is met first makes the generation fail, and nothing is changed. -/
theorem FirstFault.generate (met : embedding.FirstFault site disk failure) :
    (embedding.generate site disk).result = .error failure ∧
      (embedding.generate site disk).disk = disk := by
  have unwritten {bytes : List UInt8} {refusal : Refusal} {addition : String}
      (valid : embedding.Valid)
      (readable : disk.read site.directory embedding.source = .ok bytes)
      (unsaved : disk.saveAtOnce site embedding.destination (embedding.headerBytes bytes) =
        .error { refusal, addition }) :
      (embedding.generate site disk).result =
          .error (.unwrittenHeader embedding.destination refusal addition) ∧
        (embedding.generate site disk).disk = disk := by
    rw [generate_of_unsaved valid readable unsaved]
    exact ⟨rfl, rfl⟩
  cases met with
  | names invalid =>
      rw [generate_of_invalid invalid]
      exact ⟨rfl, rfl⟩
  | source valid unread =>
      rw [generate_of_unread valid unread]
      exact ⟨rfl, rfl⟩
  | mode valid readable unknown present =>
      have refused := Disk.modeToBe_eq_error_iff.mpr ⟨unknown, present⟩
      refine unwritten valid readable (Disk.saveAtOnce_eq_error_iff.mpr (.inl ?_))
      exact Save.told_of_error refused
  | scratch valid readable known homeless =>
      refine unwritten valid readable
        (Disk.saveAtOnce_eq_error_iff.mpr (.inr ⟨_, known, .inl ?_⟩))
      exact Save.told_of_error homeless
  | rename valid readable known placed barred =>
      refine unwritten valid readable
        (Disk.saveAtOnce_eq_error_iff.mpr (.inr ⟨_, known, .inr ⟨_, placed, ?_⟩⟩))
      exact Save.told_of_error barred

/-- A generation meets a fault, or it reads its module and saves the header. -/
theorem firstFault_or_saved (embedding : Embedding) (site : Site) (disk : Disk) :
    (∃ failure, embedding.FirstFault site disk failure) ∨
    ∃ bytes after, embedding.Valid ∧
      disk.read site.directory embedding.source = .ok bytes ∧
      disk.saveAtOnce site embedding.destination (embedding.headerBytes bytes) = .ok after := by
  cases valid : embedding.fault? with
  | some fault => exact .inl ⟨_, .names valid⟩
  | none =>
      cases readable : disk.read site.directory embedding.source with
      | error refusal => exact .inl ⟨_, .source valid readable⟩
      | ok bytes =>
          cases saved : disk.saveAtOnce site embedding.destination
              (embedding.headerBytes bytes) with
          | ok after => exact .inr ⟨bytes, after, valid, rfl, saved⟩
          | error setback =>
              left
              obtain told | ⟨mode, known, told | ⟨scratch, placed, told⟩⟩ :=
                Disk.saveAtOnce_eq_error_iff.mp saved
              · obtain ⟨refusal, refused⟩ := Save.exists_of_told_eq_error told
                obtain ⟨unknown, present⟩ := Disk.modeToBe_eq_error_iff.mp refused
                exact ⟨_, .mode valid readable unknown present⟩
              · obtain ⟨refusal, homeless⟩ := Save.exists_of_told_eq_error told
                exact ⟨_, .scratch valid readable known homeless⟩
              · obtain ⟨refusal, barred⟩ := Save.exists_of_told_eq_error told
                exact ⟨_, .rename valid readable known placed barred⟩

theorem saved_of_generate {embedding : Embedding} {site : Site} {disk : Disk} {report : Report}
    (succeeded : (embedding.generate site disk).result = .ok report) :
    ∃ bytes after, embedding.Valid ∧
      disk.read site.directory embedding.source = .ok bytes ∧
      disk.saveAtOnce site embedding.destination (embedding.headerBytes bytes) = .ok after := by
  obtain ⟨failure, met⟩ | saved := firstFault_or_saved embedding site disk
  · rw [met.generate.1] at succeeded
    cases succeeded
  · exact saved

/-- What stops a generation whose names are valid: its module cannot be read, or its header
cannot be written. -/
inductive Stopped (embedding : Embedding) : Failure → Prop where
  | unread (refusal : Refusal) : Stopped embedding (.unreadSource embedding.source refusal)
  | unwritten (refusal : Refusal) (addition : String) :
      Stopped embedding (.unwrittenHeader embedding.destination refusal addition)

theorem FirstFault.stopped (met : embedding.FirstFault site disk failure)
    (valid : embedding.Valid) : embedding.Stopped failure := by
  cases met with
  | names invalid => cases valid.symm.trans invalid
  | source => exact .unread _
  | mode => exact .unwritten _ _
  | scratch => exact .unwritten _ _
  | rename => exact .unwritten _ _

theorem stopped_of_generate (valid : embedding.Valid)
    (failed : (embedding.generate site disk).result = .error failure) :
    embedding.Stopped failure := by
  obtain ⟨first, met⟩ | ⟨bytes, after, -, readable, saved⟩ :=
    firstFault_or_saved embedding site disk
  · cases failed.symm.trans met.generate.1
    exact met.stopped valid
  · rw [generate_of_saved valid readable saved] at failed
    cases failed

/-- **A generation that fails changes nothing and tells of the first fault.** -/
theorem generate_error (embedding : Embedding) (site : Site) (disk : Disk) :
    (∀ failure, (embedding.generate site disk).result = .error failure →
      (embedding.generate site disk).disk = disk) ∧
    ∀ failure, (embedding.generate site disk).result = .error failure ↔
      embedding.FirstFault site disk failure := by
  obtain ⟨first, met⟩ | ⟨bytes, after, valid, readable, saved⟩ :=
    firstFault_or_saved embedding site disk
  · obtain ⟨failed, unchanged⟩ := met.generate
    refine ⟨fun _ _ => unchanged, fun failure => ⟨?_, fun met => met.generate.1⟩⟩
    intro failedToo
    rw [failed] at failedToo
    cases failedToo
    exact met
  · have succeeded : ∀ failure, (embedding.generate site disk).result ≠ .error failure := by
      intro failure failed
      rw [generate_of_saved valid readable saved] at failed
      cases failed
    refine ⟨fun failure failed => absurd failed (succeeded failure), fun failure => ⟨?_, ?_⟩⟩
    · intro failed
      exact absurd failed (succeeded failure)
    · intro met
      exact absurd met.generate.1 (succeeded failure)

/-- **Who must not write to the folder of a header does not change it**: the scratch file is
refused, and the old header stays, whatever its own permission bits are. -/
theorem generate_of_locked {mode : Mode} {folder : Location} (valid : embedding.Valid)
    (readable : disk.read site.directory embedding.source = .ok bytes)
    (known : disk.modeToBe site.directory embedding.destination = .ok mode)
    (room : Save.scratchPathLength site embedding.destination < Path.maxLength)
    (leads : disk.locateDirectory site.directory embedding.destination.folder = .ok folder)
    (locked : disk.allows Mode.editable folder = false) :
    (embedding.generate site disk).result =
        .error (.unwrittenHeader embedding.destination .notPermitted
          (site.scratchWords.addition (Save.scratchFolder site embedding.destination))) ∧
      (embedding.generate site disk).disk = disk := by
  have homeless := Disk.scratchPlace_of_locked room leads locked
  exact (FirstFault.scratch valid readable known homeless).generate

/-- The embedding of a module `s` in a header `d`. -/
def small : Embedding :=
  { Embedding.usual with source := ⟨[0x73]⟩, destination := ⟨[0x64]⟩ }

/-- The root, with scratch names that are longer than all others. -/
def smallSite : Site where
  directory := []
  scratchNames := .byLength

/-- A disk with a module `s` in its root, and an entry `d`. -/
def smallDisk (entry : Entry) : Disk where
  entries := [([], .directory 0o755), ([[0x73]], .file 0o600 [3, 2, 35, 7]), ([[0x64]], entry)]

/-- A directory where the header is to go is met last of all, and stays. -/
theorem generate_error_onto_directory :
    (small.generate smallSite (smallDisk (.directory 0o755))).disk =
        smallDisk (.directory 0o755) ∧
      small.FirstFault smallSite (smallDisk (.directory 0o755))
        (.unwrittenHeader ⟨[0x64]⟩ .isADirectory) := by
  have failed : (small.generate smallSite (smallDisk (.directory 0o755))).result =
      .error (.unwrittenHeader ⟨[0x64]⟩ .isADirectory) := rfl
  obtain ⟨unchanged, first⟩ := generate_error small smallSite (smallDisk (.directory 0o755))
  exact ⟨unchanged _ failed, (first _).mp failed⟩

/-- **A generation that succeeds changes one entry.**  The name of the destination in its
folder becomes a file with the header of the module that was there to read, and with the
permission bits of what the destination led to.  If that name was a link, what it led to
is among the entries that stay. -/
theorem generate_ok {report : Report}
    (succeeded : (embedding.generate site disk).result = .ok report) :
    ∃ bytes folder name mode,
      disk.read site.directory embedding.source = .ok bytes ∧
      disk.locateDirectory site.directory embedding.destination.folder = .ok folder ∧
      embedding.destination.fileName? = some name ∧
      (disk.modeOf site.directory embedding.destination = .ok mode ∨
        disk.modeOf site.directory embedding.destination = .error .notFound ∧ mode = 0o644) ∧
      (∀ location, (embedding.generate site disk).disk.get? location =
        if location = folder ++ [name] then some (.file mode (embedding.headerBytes bytes))
        else disk.get? location) ∧
      ∀ link target, disk.get? (folder ++ [name]) = some (.link link) →
        disk.locate site.directory embedding.destination = .ok target →
        target ≠ folder ++ [name] ∧
          (embedding.generate site disk).disk.get? target = disk.get? target := by
  obtain ⟨failure, met⟩ | ⟨bytes, after, valid, readable, saved⟩ :=
    firstFault_or_saved embedding site disk
  · rw [met.generate.1] at succeeded
    cases succeeded
  · obtain ⟨mode, scratch, place, known, placed, lands, same⟩ :=
      Disk.saveAtOnce_eq_ok_iff.mp saved
    obtain ⟨folder, before, name, into, ends, spelled⟩ :=
      Disk.placeFor_scratch placed lands
    have frame : ∀ location, (embedding.generate site disk).disk.get? location =
        if location = folder ++ [name] then some (.file mode (embedding.headerBytes bytes))
        else disk.get? location := by
      intro location
      rw [generate_of_saved valid readable saved, ← spelled, ← same]
      by_cases here : location = place
      · rw [if_pos here, here, Disk.get?_insert_self]
      · rw [if_neg here, Disk.get?_insert_of_ne disk _ here]
    refine ⟨bytes, folder, name, mode, readable, into.leads, ends.fileName?,
      Disk.modeToBe_eq_ok_iff.mp known, frame, ?_⟩
    intro link target stands leads
    have outside := Disk.outside_of_link ends into stands leads
    have apart : target ≠ folder ++ [name] := by
      rintro rfl
      exact outside (List.prefix_refl _)
    refine ⟨apart, ?_⟩
    rw [frame, if_neg apart]

/-- A link to the module is replaced by the header, and the module stays. -/
theorem generate_ok_over_link :
    (small.generate smallSite (smallDisk (.link ⟨[0x73]⟩))).result =
        .ok ⟨⟨[0x73]⟩, ⟨[0x64]⟩, 1, 4, 0⟩ ∧
      ∀ location, (small.generate smallSite (smallDisk (.link ⟨[0x73]⟩))).disk.get? location =
        if location = [[0x64]] then some (.file 0o600 (small.headerBytes [3, 2, 35, 7]))
        else (smallDisk (.link ⟨[0x73]⟩)).get? location := by
  have succeeded : (small.generate smallSite (smallDisk (.link ⟨[0x73]⟩))).result =
      .ok ⟨⟨[0x73]⟩, ⟨[0x64]⟩, 1, 4, 0⟩ := rfl
  obtain ⟨bytes, folder, name, mode, readable, located, named, known, frame, -⟩ :=
    generate_ok succeeded
  cases readable
  cases located
  cases named
  rcases known with known | ⟨absent, -⟩
  · cases known
    exact ⟨succeeded, frame⟩
  · cases absent

end Embedding

end ShaderHeader
