import ShaderHeader.Proofs.Disk.Replacement

/-!
# Paths that fit

Of what saving a file asks for, part is a matter of the path alone (`Path.Fits`).  The rest is
the directory of its folder, which has to be editable, and what stands there under its name: if
that is no link, a save at a path that fits depends on nothing else (`Disk.saveAtOnce_of_fits`).
-/

namespace ShaderHeader

/-- A path at which files can be saved if its folder and what stands there allow it. -/
structure Path.Fits (path : Path) (site : Site) (before : List Name) (name : Name) : Prop where
  flawless : path.flaw? = none
  ends : path.EndsIn before name
  short : name.length ≤ Disk.maxName
  /-- The path of the scratch file is not too long. -/
  room : Save.scratchPathLength site path < Path.maxLength

/-- The permission bits of a file that takes the place of what stands somewhere.  Of a link
they are not known from the link alone, and a directory is not replaced. -/
def Entry.successorMode? : Option Entry → Option Mode
  | none => some 0o644
  | some (.file mode _) => some mode
  | _ => none

/-- What becomes of an entry that is no link tells which bits its successor has. -/
theorem Entry.Becomes.successorMode? {before : Option Entry} {mode : Mode} {bytes : List UInt8}
    (becomes : Entry.Becomes before (some (.file mode bytes)))
    (plain : ∀ target, before ≠ some (.link target)) :
    Entry.successorMode? before = some mode := by
  cases becomes with
  | kept | created | rewritten => rfl
  | replaced target => exact absurd rfl (plain target)

namespace Disk

variable {disk after : Disk} {site : Site} {path : Path} {folder : Location}
variable {before : List Name} {name : Name} {mode : Mode} {bytes : List UInt8}

/-- **A file that is saved at once** is put under the path's name into the path's folder, and
the path fits. -/
theorem fits_of_saveAtOnce (saved : disk.saveAtOnce site path bytes = .ok after) :
    ∃ folder before name mode, path.Fits site before name ∧
      disk.editableFolder site path = .ok folder ∧
      Entry.Becomes (disk.get? (folder ++ [name])) (some (.file mode bytes)) ∧
      after = disk.insert (folder ++ [name]) (.file mode bytes) := by
  obtain ⟨place, mode, named, becomes, rfl⟩ := saveAtOnce_spec saved
  obtain ⟨_, scratch, _, -, placed, lands, -⟩ := saveAtOnce_eq_ok_iff.mp saved
  obtain ⟨room, folder, found, -⟩ := scratchPlace_eq_ok_iff.mp placed
  obtain ⟨flawless, -, before, name, _, ends, short, -⟩ := placeFor_spec lands
  obtain ⟨folder', last, leads, same, rfl⟩ := entryPlace?_eq_some_iff.mp named
  cases ends.fileName?.symm.trans same
  cases (leadsInto_of_editableFolder found).leads.symm.trans leads
  exact ⟨folder, before, name, mode, ⟨flawless, ends, short, room⟩, found, becomes, rfl⟩

theorem modeToBe_of_fits (fits : path.Fits site before name)
    (into : disk.LeadsInto site.directory path.folder folder)
    (known : Entry.successorMode? (disk.get? (folder ++ [name])) = some mode) :
    disk.modeToBe site.directory path = .ok mode := by
  have plain : ∀ target, disk.get? (folder ++ [name]) ≠ some (.link target) := by
    intro target stands
    rw [stands] at known
    cases known
  have located := locate_eq_enter fits.flawless fits.ends into plain
  unfold enter at located
  rw [if_neg (Nat.not_lt.mpr fits.short)] at located
  unfold modeToBe modeOf
  rw [located]
  match stands : disk.get? (folder ++ [name]) with
  | none =>
      rw [stands] at known
      cases known
      rfl
  | some (.file own old) =>
      rw [stands] at known
      cases known
      simp only [reduceCtorEq, ↓reduceIte, stands]
  | some (.link target) => exact absurd stands (plain target)
  | some (.directory own) =>
      rw [stands] at known
      cases known

/-- **A file can be saved at a path that fits**, in place of a file or of nothing. -/
theorem saveAtOnce_of_fits (fits : path.Fits site before name)
    (found : disk.editableFolder site path = .ok folder)
    (known : Entry.successorMode? (disk.get? (folder ++ [name])) = some mode) :
    disk.saveAtOnce site path bytes =
      .ok (disk.insert (folder ++ [name]) (.file mode bytes)) := by
  have placed : disk.scratchPlace site path =
      .ok (folder ++ [site.scratchNames.name disk folder path]) :=
    scratchPlace_eq_ok_iff.mpr ⟨fits.room, folder, found, rfl⟩
  obtain ⟨-, leads, editable⟩ := editableFolder_eq_ok_iff.mp found
  -- the scratch file hides neither the folder nor what stands under the name
  have extended := insert_extends (get?_scratchPlace placed) (.file mode bytes)
  have apart : folder ++ [name] ≠ folder ++ [site.scratchNames.name disk folder path] := by
    intro same
    apply site.scratchNames.apart disk folder path
    rw [← List.head_eq_of_cons_eq (List.append_cancel_left same), fits.ends.cut]
    exact List.mem_append_right before (List.mem_singleton_self name)
  have vacant : (disk.insert (folder ++ [site.scratchNames.name disk folder path])
      (.file mode bytes)).isDirectory (folder ++ [name]) = false := by
    unfold isDirectory
    rw [get?_insert_of_ne disk _ apart]
    split
    · next own stands =>
        rw [stands] at known
        cases known
    · rfl
  have lands := placeFor_of_endsIn fits.flawless fits.ends fits.short
    (extended.locateDirectory leads) (extended.allows editable) vacant
  have bits := modeToBe_of_fits fits (leadsInto_of_editableFolder found) known
  exact saveAtOnce_eq_ok_iff.mpr ⟨mode, _, _, bits, placed, lands, rfl⟩

/-- **Saving again changes nothing**, as long as the path's folder is still the same. -/
theorem saveAtOnce_again (saved : disk.saveAtOnce site path bytes = .ok after)
    (leads : after.locateDirectory site.directory path.folder =
      disk.locateDirectory site.directory path.folder) :
    after.saveAtOnce site path bytes = .ok after := by
  obtain ⟨folder, before, name, mode, fits, found, becomes, rfl⟩ := fits_of_saveAtOnce saved
  obtain ⟨-, located, -⟩ := editableFolder_eq_ok_iff.mp found
  have found' := editableFolder_of_sameDirectories (sameDirectories_insert becomes)
    (leads.trans located) found
  have known : Entry.successorMode? ((disk.insert (folder ++ [name]) (.file mode bytes)).get?
      (folder ++ [name])) = some mode := by
    rw [get?_insert_self]
    rfl
  rw [saveAtOnce_of_fits fits found' known, insert_insert]

end Disk

end ShaderHeader
