import ShaderHeader.Disk.Save
import ShaderHeader.Proofs.Disk.Folder
import ShaderHeader.Proofs.Except

/-!
# Saving at once

`Save.run` carries out the steps of a save one after the other.  `Save.Stage` says how
far the work has got while some of them remain: what the disk looks like, and what is
known of the path.  From it follow what is left behind whenever the work stops, and
that a save, whatever pieces its contents are written in, is `Disk.saveAtOnce`: either
one entry is put at the place the path names, or the disk stays as it was.
-/

namespace ShaderHeader

namespace Disk

/-- The permission bits a file saved at a path is to have: those of what the path leads
to, or the usual ones if it leads nowhere. -/
def modeToBe (disk : Disk) (here : Location) (path : Path) : Except Refusal Mode :=
  match disk.modeOf here path with
  | .error .notFound => .ok 0o644
  | found => found

/-- The permission bits are refused for any reason but that nothing is there. -/
theorem modeToBe_eq_error_iff {disk : Disk} {here : Location} {path : Path} {refusal : Refusal} :
    disk.modeToBe here path = .error refusal ↔
      disk.modeOf here path = .error refusal ∧ refusal ≠ .notFound := by
  unfold modeToBe
  split
  · next absent =>
      rw [absent]
      constructor
      · intro impossible
        cases impossible
      · rintro ⟨same, present⟩
        cases same
        exact absurd rfl present
  · next other =>
      constructor
      · intro refused
        refine ⟨refused, ?_⟩
        rintro rfl
        exact other refused
      · exact And.left

theorem modeToBe_eq_ok_iff {disk : Disk} {here : Location} {path : Path} {mode : Mode} :
    disk.modeToBe here path = .ok mode ↔
      disk.modeOf here path = .ok mode ∨
        disk.modeOf here path = .error .notFound ∧ mode = 0o644 := by
  unfold modeToBe
  split
  · next absent =>
      rw [absent]
      constructor
      · intro usual
        cases usual
        exact .inr ⟨rfl, rfl⟩
      · rintro (impossible | ⟨-, usual⟩)
        · cases impossible
        · rw [usual]
  · next other =>
      constructor
      · exact .inl
      · rintro (found | ⟨absent, -⟩)
        · exact found
        · exact absurd absent other

/-- The location of the scratch file for a path. -/
def scratchPlace (disk : Disk) (site : Site) (path : Path) : Except Refusal Location :=
  if Path.maxLength ≤ Save.scratchPathLength site path then .error .nameTooLong
  else match disk.editableFolder site path with
    | .error refusal => .error refusal
    | .ok folder => .ok (folder ++ [site.scratchNames.name disk folder path])

end Disk

/-- What a step has found out, or why it was refused, with what is added to that. -/
def Save.Step.told {α : Type} (step : Step) (site : Site) (path : Path)
    (result : Except Refusal α) : Except Setback α :=
  result.mapError fun refusal => { refusal, addition := step.addition site path }

section Told

variable {α : Type} {step : Save.Step} {site : Site} {path : Path} {result : Except Refusal α}

theorem Save.told_eq_ok_iff {value : α} :
    step.told site path result = .ok value ↔ result = .ok value :=
  mapError_eq_ok_iff

theorem Save.told_of_error {refusal : Refusal} (refused : result = .error refusal) :
    step.told site path result = .error { refusal, addition := step.addition site path } := by
  rw [refused]
  rfl

theorem Save.exists_of_told_eq_error {setback : Save.Setback}
    (told : step.told site path result = .error setback) : ∃ refusal, result = .error refusal := by
  cases result with
  | ok found => cases told
  | error refusal => exact ⟨refusal, rfl⟩

end Told

namespace Disk

/-- Saves a file by a single change.  What may refuse it comes in the order in which it is
asked: the permission bits, the scratch file, and its renaming beside everything else. -/
def saveAtOnce (disk : Disk) (site : Site) (path : Path) (bytes : List UInt8) :
    Except Save.Setback Disk := do
  let mode ← Save.Step.inspect.told site path (disk.modeToBe site.directory path)
  let scratch ← Save.Step.create.told site path (disk.scratchPlace site path)
  let place ← Save.Step.publish.told site path
    ((disk.insert scratch (.file mode bytes)).placeFor site.directory path)
  return disk.insert place (.file mode bytes)

section Outcome

variable {disk after : Disk} {site : Site} {path : Path} {bytes : List UInt8}
variable {setback : Save.Setback}

theorem saveAtOnce_eq_ok_iff :
    disk.saveAtOnce site path bytes = .ok after ↔ ∃ mode scratch place,
      disk.modeToBe site.directory path = .ok mode ∧ disk.scratchPlace site path = .ok scratch ∧
      (disk.insert scratch (.file mode bytes)).placeFor site.directory path = .ok place ∧
      disk.insert place (.file mode bytes) = after := by
  unfold saveAtOnce
  simp only [bind_eq_ok_iff, Save.told_eq_ok_iff, pure, Except.pure, Except.ok.injEq]
  constructor
  · rintro ⟨mode, known, scratch, placed, place, lands, same⟩
    exact ⟨mode, scratch, place, known, placed, lands, same⟩
  · rintro ⟨mode, scratch, place, known, placed, lands, same⟩
    exact ⟨mode, known, scratch, placed, place, lands, same⟩

theorem saveAtOnce_eq_error_iff :
    disk.saveAtOnce site path bytes = .error setback ↔
      Save.Step.inspect.told site path (disk.modeToBe site.directory path) = .error setback ∨
      ∃ mode, disk.modeToBe site.directory path = .ok mode ∧
        (Save.Step.create.told site path (disk.scratchPlace site path) = .error setback ∨
         ∃ scratch, disk.scratchPlace site path = .ok scratch ∧
          Save.Step.publish.told site path
            ((disk.insert scratch (.file mode bytes)).placeFor site.directory path) =
              .error setback) := by
  unfold saveAtOnce
  simp only [bind_eq_error_iff, Save.told_eq_ok_iff, pure, Except.pure, reduceCtorEq, and_false,
    exists_false, or_false]

end Outcome

section Scratch

variable {disk : Disk} {site : Site} {path : Path} {folder scratch : Location}

/-- The folder of a scratch file is found from the working directory.  Unless its path is
absolute, that directory has to be reached from the root. -/
theorem editableFolder_eq_ok_iff :
    disk.editableFolder site path = .ok folder ↔
      (path.folder.isAbsolute = true ∨ disk.isReachable site.directory = true) ∧
      disk.locateDirectory site.directory path.folder = .ok folder ∧
      disk.allows Mode.editable folder = true := by
  unfold editableFolder
  by_cases cut : ¬ path.folder.isAbsolute = true ∧ ¬ disk.isReachable site.directory = true
  · rw [if_pos cut]
    exact ⟨nofun, fun ⟨reached, _⟩ => (reached.elim cut.1 cut.2).elim⟩
  · rw [if_neg cut]
    have reached : path.folder.isAbsolute = true ∨ disk.isReachable site.directory = true :=
      Decidable.or_iff_not_not_and_not.mpr cut
    cases disk.locateDirectory site.directory path.folder with
    | error refusal => exact ⟨nofun, fun found => nomatch found.2.1⟩
    | ok location =>
        by_cases editable : disk.allows Mode.editable location = true
        · simp only [if_pos editable]
          constructor
          · rintro ⟨⟩
            exact ⟨reached, rfl, editable⟩
          · exact fun found => found.2.1
        · simp only [if_neg editable]
          refine ⟨nofun, ?_⟩
          rintro ⟨-, ⟨⟩, allowed⟩
          exact absurd allowed editable

theorem editableFolder_of_sameDirectories {other : Disk} (same : disk.SameDirectories other)
    (leads : other.locateDirectory site.directory path.folder = .ok folder)
    (found : disk.editableFolder site path = .ok folder) :
    other.editableFolder site path = .ok folder := by
  obtain ⟨reached, -, editable⟩ := editableFolder_eq_ok_iff.mp found
  refine editableFolder_eq_ok_iff.mpr ⟨?_, leads, (same.allows _ folder).trans editable⟩
  unfold isReachable at reached ⊢
  simp only [same.allows]
  exact reached

/-- The path of a folder that is editable leads into it. -/
theorem leadsInto_of_editableFolder (found : disk.editableFolder site path = .ok folder) :
    disk.LeadsInto site.directory path.folder folder := by
  obtain ⟨-, leads, editable⟩ := editableFolder_eq_ok_iff.mp found
  exact ⟨leads, searchable_of_editable editable⟩

theorem scratchPlace_eq_ok_iff :
    disk.scratchPlace site path = .ok scratch ↔
      Save.scratchPathLength site path < Path.maxLength ∧ ∃ folder,
        disk.editableFolder site path = .ok folder ∧
        folder ++ [site.scratchNames.name disk folder path] = scratch := by
  unfold scratchPlace
  by_cases long : Path.maxLength ≤ Save.scratchPathLength site path
  · rw [if_pos long]
    exact ⟨nofun, fun found => absurd found.1 (Nat.not_lt.mpr long)⟩
  · rw [if_neg long]
    cases disk.editableFolder site path with
    | error refusal => exact ⟨nofun, fun ⟨_, _, impossible, _⟩ => nomatch impossible⟩
    | ok folder =>
        constructor
        · rintro ⟨⟩
          exact ⟨Nat.not_le.mp long, folder, rfl, rfl⟩
        · rintro ⟨-, _, ⟨⟩, rfl⟩
          rfl

theorem scratchPlace_spec (placed : disk.scratchPlace site path = .ok scratch) :
    ∃ folder name, disk.LeadsInto site.directory path.folder folder ∧
      scratch = folder ++ [name] ∧ name ∉ path.parts ∧ disk.get? scratch = none := by
  obtain ⟨-, folder, found, rfl⟩ := scratchPlace_eq_ok_iff.mp placed
  exact ⟨folder, _, leadsInto_of_editableFolder found, rfl,
    site.scratchNames.apart disk folder path, site.scratchNames.fresh disk folder path⟩

/-- In a folder that is not editable no scratch file is created. -/
theorem scratchPlace_of_locked (room : Save.scratchPathLength site path < Path.maxLength)
    (leads : disk.locateDirectory site.directory path.folder = .ok folder)
    (locked : disk.allows Mode.editable folder = false) :
    disk.scratchPlace site path = .error .notPermitted := by
  have denied : disk.editableFolder site path = .error .notPermitted := by
    unfold editableFolder
    rw [leads]
    simp only [locked, Bool.false_eq_true, if_false, ite_self]
  unfold scratchPlace
  rw [if_neg (Nat.not_le.mpr room), denied]

/-- Nothing stands where a scratch file is created. -/
theorem get?_scratchPlace (placed : disk.scratchPlace site path = .ok scratch) :
    disk.get? scratch = none := by
  obtain ⟨folder, name, into, same, apart, free⟩ := scratchPlace_spec placed
  exact free

/-- **The place of a saved file is the path's name in the path's folder**, as it was before
the scratch file came. -/
theorem placeFor_scratch {entry : Entry} {place : Location}
    (placed : disk.scratchPlace site path = .ok scratch)
    (lands : (disk.insert scratch entry).placeFor site.directory path = .ok place) :
    ∃ folder before name, disk.LeadsInto site.directory path.folder folder ∧
      path.EndsIn before name ∧ place = folder ++ [name] := by
  obtain ⟨folder, scratchName, into, same, apart, free⟩ := scratchPlace_spec placed
  have extended := insert_extends free entry
  obtain ⟨before, name, ends, spelled⟩ :=
    placeFor_eq_folder_append lands (into.extended extended)
  exact ⟨folder, before, name, into, ends, spelled⟩

end Scratch

end Disk

namespace Save

section Step

variable (site : Site) (path : Path) (disk : Disk) (mode : Mode)

theorem apply_inspect :
    Step.inspect.apply site path { disk } =
      (disk.modeToBe site.directory path).map fun mode => { disk, mode } := by
  unfold Step.apply Disk.modeToBe
  match disk.modeOf site.directory path with
  | .ok mode => rfl
  | .error refusal => cases refusal <;> rfl

theorem apply_create :
    Step.create.apply site path { disk, mode } =
      (disk.scratchPlace site path).map fun scratch =>
        { disk := disk.insert scratch (.file privateMode []), mode, scratch? := some scratch } := by
  unfold Step.apply Disk.scratchPlace
  by_cases long : Path.maxLength ≤ scratchPathLength site path
  · simp only [if_pos long]
    rfl
  · simp only [if_neg long]
    cases disk.editableFolder site path <;> rfl

variable (scratch : Location)

/-- A change of the scratch file is a change of the entry that was put there. -/
theorem updateScratch_insert (entry : Entry) (change : Entry → Entry) :
    ({ disk := disk.insert scratch entry, mode, scratch? := some scratch } :
        Progress).updateScratch change =
      { disk := disk.insert scratch (change entry), mode, scratch? := some scratch } := by
  unfold Progress.updateScratch
  simp only [Disk.get?_insert_self, Disk.insert_insert]

theorem apply_append (old more : List UInt8) :
    (Step.append more).apply site path
        { disk := disk.insert scratch (.file privateMode old), mode, scratch? := some scratch } =
      .ok { disk := disk.insert scratch (.file privateMode (old ++ more)), mode,
            scratch? := some scratch } := by
  change Except.ok (Progress.updateScratch _ (extend more)) = _
  rw [updateScratch_insert]
  rfl

theorem apply_setMode (bytes : List UInt8) :
    Step.setMode.apply site path
        { disk := disk.insert scratch (.file privateMode bytes), mode, scratch? := some scratch } =
      .ok { disk := disk.insert scratch (.file mode bytes), mode, scratch? := some scratch } := by
  change Except.ok (Progress.updateScratch _ (withMode mode)) = _
  rw [updateScratch_insert]
  rfl

variable {disk scratch}

/-- Moving the scratch file leaves nothing behind where it was. -/
theorem moveScratch_insert (free : disk.get? scratch = none) (entry : Entry) (place : Location) :
    ({ disk := disk.insert scratch entry, mode, scratch? := some scratch } :
        Progress).moveScratch place =
      { disk := disk.insert place entry, mode } := by
  unfold Progress.moveScratch
  simp only [Disk.get?_insert_self, Disk.erase_insert free]

theorem apply_publish (free : disk.get? scratch = none) (entry : Entry) :
    Step.publish.apply site path
        { disk := disk.insert scratch entry, mode, scratch? := some scratch } =
      ((disk.insert scratch entry).placeFor site.directory path).map fun place =>
        { disk := disk.insert place entry, mode } := by
  unfold Step.apply
  cases landing : (disk.insert scratch entry).placeFor site.directory path with
  | error refusal => rfl
  | ok place =>
      change Except.ok _ = Except.ok _
      rw [moveScratch_insert mode free]

end Step

/-- How far a save has got when some of its steps remain. -/
inductive Stage (site : Site) (path : Path) (disk : Disk) (bytes : List UInt8) :
    Progress → List Step → Prop where
  | begun (pieces : List (List UInt8)) (written : pieces.flatten = bytes) :
      Stage site path disk bytes { disk } (steps pieces)
  | inspected (mode : Mode) (pieces : List (List UInt8)) (written : pieces.flatten = bytes)
      (known : disk.modeToBe site.directory path = .ok mode) :
      Stage site path disk bytes { disk, mode }
        (.create :: (pieces.map .append ++ [.sync, .setMode, .publish]))
  | writing (mode : Mode) (scratch : Location) (old : List UInt8) (pieces : List (List UInt8))
      (written : old ++ pieces.flatten = bytes)
      (known : disk.modeToBe site.directory path = .ok mode)
      (placed : disk.scratchPlace site path = .ok scratch) :
      Stage site path disk bytes
        { disk := disk.insert scratch (.file privateMode old), mode, scratch? := some scratch }
        (pieces.map .append ++ [.sync, .setMode, .publish])
  | synced (mode : Mode) (scratch : Location)
      (known : disk.modeToBe site.directory path = .ok mode)
      (placed : disk.scratchPlace site path = .ok scratch) :
      Stage site path disk bytes
        { disk := disk.insert scratch (.file privateMode bytes), mode, scratch? := some scratch }
        [.setMode, .publish]
  | ready (mode : Mode) (scratch : Location)
      (known : disk.modeToBe site.directory path = .ok mode)
      (placed : disk.scratchPlace site path = .ok scratch) :
      Stage site path disk bytes
        { disk := disk.insert scratch (.file mode bytes), mode, scratch? := some scratch }
        [.publish]
  | saved (mode : Mode) (after : Disk)
      (done : disk.saveAtOnce site path bytes = .ok after) :
      Stage site path disk bytes { disk := after, mode } []

namespace Stage

variable {site : Site} {path : Path} {disk : Disk} {bytes : List UInt8}
variable {progress next : Progress} {step : Step} {remaining rest : List Step} {refusal : Refusal}

/-- A step that is carried out leads from stage to stage. -/
theorem apply (stage : Stage site path disk bytes progress remaining)
    (split : remaining = step :: rest) (done : step.apply site path progress = .ok next) :
    Stage site path disk bytes next rest := by
  cases stage with
  | begun pieces written =>
      cases split
      rw [apply_inspect] at done
      obtain ⟨mode, known, rfl⟩ := map_eq_ok_iff.mp done
      exact .inspected mode pieces written known
  | inspected mode pieces written known =>
      cases split
      rw [apply_create] at done
      obtain ⟨scratch, placed, rfl⟩ := map_eq_ok_iff.mp done
      exact .writing mode scratch [] pieces written known placed
  | writing mode scratch old pieces written known placed =>
      cases pieces with
      | nil =>
          cases split
          cases done
          rw [List.flatten_nil, List.append_nil] at written
          rw [written]
          exact .synced mode scratch known placed
      | cons piece pieces =>
          cases split
          rw [apply_append] at done
          cases done
          rw [List.flatten_cons, ← List.append_assoc] at written
          exact .writing mode scratch (old ++ piece) pieces written known placed
  | synced mode scratch known placed =>
      cases split
      rw [apply_setMode] at done
      cases done
      exact .ready mode scratch known placed
  | ready mode scratch known placed =>
      cases split
      rw [apply_publish site path mode (Disk.get?_scratchPlace placed)] at done
      obtain ⟨place, lands, rfl⟩ := map_eq_ok_iff.mp done
      refine .saved mode _ (Disk.saveAtOnce_eq_ok_iff.mpr ?_)
      exact ⟨mode, scratch, place, known, placed, lands, rfl⟩
  | saved mode after done => cases split

/-- A step that is refused leaves a scratch file at most, and a save at once is refused
for the same reason. -/
theorem refused (stage : Stage site path disk bytes progress remaining)
    (split : remaining = step :: rest) (denied : step.apply site path progress = .error refusal) :
    progress.withdraw = disk ∧ disk.saveAtOnce site path bytes =
      .error { refusal, addition := step.addition site path } := by
  cases stage with
  | begun pieces written =>
      cases split
      rw [apply_inspect] at denied
      refine ⟨rfl, Disk.saveAtOnce_eq_error_iff.mpr (.inl ?_)⟩
      exact told_of_error (map_eq_error_iff.mp denied)
  | inspected mode pieces written known =>
      cases split
      rw [apply_create] at denied
      refine ⟨rfl, Disk.saveAtOnce_eq_error_iff.mpr (.inr ⟨mode, known, .inl ?_⟩)⟩
      exact told_of_error (map_eq_error_iff.mp denied)
  | writing mode scratch old pieces written known placed =>
      cases pieces with
      | nil =>
          cases split
          cases denied
      | cons piece pieces =>
          cases split
          cases denied
  | synced mode scratch known placed =>
      cases split
      cases denied
  | ready mode scratch known placed =>
      cases split
      have free := Disk.get?_scratchPlace placed
      rw [apply_publish site path mode free] at denied
      refine ⟨Disk.erase_insert free _, Disk.saveAtOnce_eq_error_iff.mpr (.inr ⟨mode, known, ?_⟩)⟩
      refine .inr ⟨scratch, placed, ?_⟩
      exact told_of_error (map_eq_error_iff.mp denied)
  | saved mode after done => cases split

/-- When no steps remain the file is saved. -/
theorem done (stage : Stage site path disk bytes progress remaining) (finished : remaining = []) :
    disk.saveAtOnce site path bytes = .ok progress.disk := by
  cases stage with
  | begun pieces => cases finished
  | inspected mode pieces => cases finished
  | writing mode scratch old pieces =>
      obtain ⟨-, impossible⟩ := List.append_eq_nil_iff.mp finished
      cases impossible
  | synced mode scratch => cases finished
  | ready mode scratch => cases finished
  | saved mode after done => exact done

/-- What a stage leaves on the disk: what was there, a scratch file besides, or the saved
file.  A scratch file is all there is to take away. -/
theorem disk_cases (stage : Stage site path disk bytes progress remaining) :
    progress.disk = disk ∧ progress.withdraw = disk ∨
    (∃ scratch mode written, disk.scratchPlace site path = .ok scratch ∧
      progress.disk = disk.insert scratch (.file mode written) ∧ progress.withdraw = disk) ∨
    disk.saveAtOnce site path bytes = .ok progress.disk ∧ progress.withdraw = progress.disk := by
  cases stage with
  | begun => exact .inl ⟨rfl, rfl⟩
  | inspected => exact .inl ⟨rfl, rfl⟩
  | writing mode scratch old pieces written known placed =>
      have free := Disk.get?_scratchPlace placed
      exact .inr (.inl ⟨scratch, privateMode, old, placed, rfl, Disk.erase_insert free _⟩)
  | synced mode scratch known placed =>
      have free := Disk.get?_scratchPlace placed
      exact .inr (.inl ⟨scratch, privateMode, bytes, placed, rfl, Disk.erase_insert free _⟩)
  | ready mode scratch known placed =>
      have free := Disk.get?_scratchPlace placed
      exact .inr (.inl ⟨scratch, mode, bytes, placed, rfl, Disk.erase_insert free _⟩)
  | saved mode after done => exact .inr (.inr ⟨done, rfl⟩)

/-- **A run leads from stage to stage.**  It ends with the steps it was not given, or
before a step that is refused. -/
theorem run {first : List Step} (stage : Stage site path disk bytes progress remaining)
    (split : remaining = first ++ rest) :
    ∃ left, Stage site path disk bytes (Save.run site path progress first).1 left ∧
      ((Save.run site path progress first).2 = none → left = rest) ∧
      ∀ setback, (Save.run site path progress first).2 = some setback → ∃ step later,
        left = step :: later ∧ setback.addition = step.addition site path ∧
        step.apply site path (Save.run site path progress first).1 = .error setback.refusal := by
  induction first generalizing progress remaining with
  | nil =>
      rw [split] at stage
      refine ⟨rest, stage, fun _ => rfl, ?_⟩
      intro setback stopped
      cases stopped
  | cons step more ih =>
      unfold Save.run
      cases result : step.apply site path progress with
      | ok next => exact ih (stage.apply split result) rfl
      | error cause =>
          rw [split] at stage
          refine ⟨_, stage, fun finished => (nomatch finished), ?_⟩
          intro setback stopped
          cases stopped
          exact ⟨step, more ++ rest, rfl, rfl, result⟩

end Stage

/-- **A save in pieces is a save at once**: all its steps are carried out and the file is
saved, or one is refused and taking the scratch file away gives the old disk back. -/
theorem run_steps (site : Site) (path : Path) (disk : Disk) {bytes : List UInt8}
    {pieces : List (List UInt8)} (written : pieces.flatten = bytes) :
    match disk.saveAtOnce site path bytes with
    | .ok after => ∃ progress,
        run site path { disk } (steps pieces) = (progress, none) ∧ progress.disk = after
    | .error setback => ∃ progress,
        run site path { disk } (steps pieces) = (progress, some setback) ∧
          progress.withdraw = disk := by
  have start : Stage site path disk bytes { disk } (steps pieces) := .begun pieces written
  obtain ⟨left, stage, finished, stopped⟩ := start.run (List.append_nil _).symm
  cases result : run site path { disk } (steps pieces) with
  | mk progress setback? =>
      rw [result] at stage finished stopped
      cases setback? with
      | none =>
          have ended := finished rfl
          rw [stage.done ended]
          exact ⟨progress, rfl, rfl⟩
      | some setback =>
          obtain ⟨step, later, split, added, denied⟩ := stopped setback rfl
          obtain ⟨withdrawn, refused⟩ := stage.refused split denied
          rw [refused, ← added]
          exact ⟨progress, rfl, withdrawn⟩

end Save

/-- **Saving a file either puts one entry where the path says or changes nothing.** -/
theorem Disk.save_eq (disk : Disk) (site : Site) (path : Path) (bytes : List UInt8) :
    disk.save site path bytes =
      match disk.saveAtOnce site path bytes with
      | .ok after => (after, none)
      | .error setback => (disk, some setback) := by
  have written : [bytes].flatten = bytes := by rw [List.flatten_singleton]
  have ran := Save.run_steps site path disk written
  unfold Disk.save
  cases saved : disk.saveAtOnce site path bytes with
  | ok after =>
      rw [saved] at ran
      obtain ⟨progress, result, same⟩ := ran
      rw [result, ← same]
  | error setback =>
      rw [saved] at ran
      obtain ⟨progress, result, same⟩ := ran
      simp only [result, same]

end ShaderHeader
