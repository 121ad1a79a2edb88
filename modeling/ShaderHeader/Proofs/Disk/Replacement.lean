import ShaderHeader.Proofs.Disk.Save

/-!
# What becomes of a saved entry

The permission bits of a saved file are looked up through links, while the file itself
takes the place of a link.  So an entry keeps its bits once it is a file, a new one has the
usual bits, and a link is replaced (`Entry.Becomes`).
-/

namespace ShaderHeader

/-- What may become of a place on a disk, and of what stands there, when files are saved. -/
inductive Entry.Becomes : Option Entry → Option Entry → Prop where
  | kept (stands : Option Entry) : Entry.Becomes stands stands
  | created (bytes : List UInt8) : Entry.Becomes none (some (.file 0o644 bytes))
  | rewritten (mode : Mode) (old new : List UInt8) :
      Entry.Becomes (some (.file mode old)) (some (.file mode new))
  | replaced (target : Path) (mode : Mode) (bytes : List UInt8) :
      Entry.Becomes (some (.link target)) (some (.file mode bytes))

/-- What may happen in two steps may happen in one. -/
theorem Entry.Becomes.trans {before between after : Option Entry}
    (first : Entry.Becomes before between) (second : Entry.Becomes between after) :
    Entry.Becomes before after := by
  cases first with
  | kept => exact second
  | created bytes =>
      cases second with
      | kept => exact .created bytes
      | rewritten mode old new => exact .created new
  | rewritten mode old new =>
      cases second with
      | kept => exact .rewritten mode old new
      | rewritten mode _ newer => exact .rewritten mode old newer
  | replaced target mode bytes =>
      cases second with
      | kept => exact .replaced target mode bytes
      | rewritten mode _ newer => exact .replaced target mode newer

namespace Entry.Becomes

variable {before after : Option Entry}

/-- Directories are neither made nor lost nor given other bits. -/
theorem directory_iff (becomes : Entry.Becomes before after) (mode : Mode) :
    after = some (.directory mode) ↔ before = some (.directory mode) := by
  cases becomes with
  | kept => exact Iff.rfl
  | created | rewritten | replaced => exact ⟨nofun, nofun⟩

theorem ne_none (becomes : Entry.Becomes before after) (present : before ≠ none) :
    after ≠ none := by
  cases becomes with
  | kept => exact present
  | created | rewritten | replaced => exact nofun

/-- A file keeps its permission bits. -/
theorem of_file {mode : Mode} {old : List UInt8}
    (becomes : Entry.Becomes (some (.file mode old)) after) :
    ∃ bytes, after = some (.file mode bytes) := by
  cases becomes with
  | kept => exact ⟨old, rfl⟩
  | rewritten _ _ new => exact ⟨new, rfl⟩

theorem of_none (becomes : Entry.Becomes none after) :
    after = none ∨ ∃ bytes, after = some (.file 0o644 bytes) := by
  cases becomes with
  | kept => exact .inl rfl
  | created bytes => exact .inr ⟨bytes, rfl⟩

/-- A link that is there afterwards was there before. -/
theorem link {target : Path} (becomes : Entry.Becomes before (some (.link target))) :
    before = some (.link target) := by
  cases becomes with
  | kept => rfl

end Entry.Becomes

namespace Disk

variable {disk : Disk} {here folder : Location} {steps : List Path.Step} {name : Name}

/-- Putting something where it may come to stand makes no directory and takes none away. -/
theorem sameDirectories_insert {place : Location} {entry : Entry}
    (becomes : Entry.Becomes (disk.get? place) (some entry)) :
    disk.SameDirectories (disk.insert place entry) := by
  intro location mode
  by_cases here : location = place
  · rw [here, get?_insert_self]
    exact becomes.directory_iff mode
  · rw [get?_insert_of_ne disk entry here]

/-- Enters a name in a folder, where no link has that name. -/
def enter (disk : Disk) (name : Name) (folder : Location) : Except Refusal Location :=
  if maxName < name.length then .error .nameTooLong
  else if disk.get? (folder ++ [name]) = none then .error .notFound
  else .ok (folder ++ [name])

/-- A step into a name that is no link's is taken where the steps before it lead, if this
holds where links are followed. -/
theorem walkWith_append_enter {follow : Location → List Path.Step → Except Refusal Location}
    (plain : ∀ target, disk.get? (folder ++ [name]) ≠ some (.link target))
    (open_ : disk.barrier? folder (.into name) = none)
    (alike : ∀ start steps, follow start steps = .ok folder →
      follow start (steps ++ [.into name]) = disk.enter name folder)
    (arrives : disk.walkWith follow here steps = .ok folder) :
    disk.walkWith follow here (steps ++ [.into name]) = disk.enter name folder := by
  induction steps generalizing here with
  | nil =>
      cases arrives
      rw [List.nil_append, walkWith, open_, enter]
      by_cases long : maxName < name.length
      · simp only [if_pos long]
      · simp only [if_neg long]
        cases stands : disk.get? (folder ++ [name]) with
        | none => simp only [if_pos]
        | some entry =>
            cases entry with
            | link target => exact absurd stands (plain target)
            | file | directory => simp only [walkWith, reduceCtorEq, if_false]
  | cons step rest ih =>
      obtain ⟨entered, goesOn⟩ := walkWith_cons_eq_ok_iff.mp arrives
      rw [List.cons_append]
      unfold walkWith
      rw [entered]
      cases goesOn with
      | slash goes => exact ih goes
      | stay goes => exact ih goes
      | up goes => exact ih goes
      | @enter _ entry short stands kept goes =>
          simp only [if_neg (Nat.not_lt.mpr short), stands]
          cases entry with
          | link target => exact absurd rfl (kept target)
          | file mode bytes => exact ih goes
          | directory mode => exact ih goes
      | link short stands goes =>
          -- the rest of the walk belongs to what follows the link, one link poorer
          simp only [if_neg (Nat.not_lt.mpr short), stands, ← List.append_assoc]
          exact alike _ _ goes

/-- A step into a name that is no link's is taken where the steps before it lead. -/
theorem walk_append_enter {links : Nat}
    (plain : ∀ target, disk.get? (folder ++ [name]) ≠ some (.link target))
    (open_ : disk.barrier? folder (.into name) = none)
    (arrives : disk.walk links here steps = .ok folder) :
    disk.walk links here (steps ++ [.into name]) = disk.enter name folder := by
  induction links generalizing here steps with
  | zero =>
      refine walkWith_append_enter plain open_ ?_ arrives
      intro start steps refused
      cases refused
  | succ links ih =>
      exact walkWith_append_enter plain open_ (fun _ _ arrives => ih arrives) arrives

section Mode

variable {path : Path} {before : List Name} {mode : Mode}

/-- A path whose name is no link's is followed by entering that name in its folder. -/
theorem locate_eq_enter (flawless : path.flaw? = none) (ends : path.EndsIn before name)
    (into : disk.LeadsInto here path.folder folder)
    (plain : ∀ target, disk.get? (folder ++ [name]) ≠ some (.link target)) :
    disk.locate here path = disk.enter name folder := by
  obtain ⟨reached, arrives, passed⟩ := bind_eq_ok_iff.mp (walk_before ends into)
  obtain ⟨open_, rfl⟩ := pass_eq_ok_iff.mp passed
  have looks : Path.Step.into name ≠ .slash := nofun
  rw [← barrier?_of_ne_slash disk reached looks] at open_
  rw [locate, flawless, ends.steps]
  exact walk_append_enter plain open_ arrives

/-- The same when the permission bits are known; then the name is not too long. -/
theorem locate_of_modeToBe (flawless : path.flaw? = none) (ends : path.EndsIn before name)
    (into : disk.LeadsInto here path.folder folder)
    (known : disk.modeToBe here path = .ok mode)
    (plain : ∀ target, disk.get? (folder ++ [name]) ≠ some (.link target)) :
    disk.locate here path =
      if disk.get? (folder ++ [name]) = none then .error .notFound
      else .ok (folder ++ [name]) := by
  have entered := locate_eq_enter flawless ends into plain
  unfold enter at entered
  by_cases long : maxName < name.length
  · rw [if_pos long] at entered
    unfold modeToBe modeOf at known
    rw [entered] at known
    cases known
  · rw [entered, if_neg long]

/-- **What becomes of a saved entry.** Where a file is saved there is afterwards a new file
with the usual permission bits, the old file with its own, or a file in place of a link. -/
theorem becomes_of_modeToBe (flawless : path.flaw? = none) (ends : path.EndsIn before name)
    (into : disk.LeadsInto here path.folder folder)
    (known : disk.modeToBe here path = .ok mode)
    (vacant : disk.isDirectory (folder ++ [name]) = false) (bytes : List UInt8) :
    Entry.Becomes (disk.get? (folder ++ [name])) (some (.file mode bytes)) := by
  have located := locate_of_modeToBe flawless ends into known
  unfold modeToBe modeOf at known
  cases stands : disk.get? (folder ++ [name]) with
  | none =>
      rw [located (by simp [stands]), if_pos stands] at known
      cases known
      exact .created bytes
  | some entry =>
      cases entry with
      | link target => exact .replaced target mode bytes
      | directory own =>
          rw [(isDirectory_eq_true_iff disk _).mpr ⟨own, stands⟩] at vacant
          cases vacant
      | file own old =>
          rw [located (by simp [stands]), stands, if_neg nofun] at known
          simp only [stands] at known
          cases known
          exact .rewritten mode old bytes

end Mode

/-- **A file that is saved at once** is put at the place the path names, and what stood
there becomes that file. -/
theorem saveAtOnce_spec {site : Site} {path : Path} {bytes : List UInt8} {after : Disk}
    (saved : disk.saveAtOnce site path bytes = .ok after) :
    ∃ place mode, disk.entryPlace? site.directory path = some place ∧
      Entry.Becomes (disk.get? place) (some (.file mode bytes)) ∧
      after = disk.insert place (.file mode bytes) := by
  obtain ⟨mode, scratch, place, known, placed, lands, rfl⟩ := saveAtOnce_eq_ok_iff.mp saved
  obtain ⟨flawless, vacant, -⟩ := placeFor_spec lands
  obtain ⟨folder, before, name, into, ends, rfl⟩ := placeFor_scratch placed lands
  obtain ⟨folder', other, into', rfl, apart, -⟩ := scratchPlace_spec placed
  cases into.leads.symm.trans into'.leads
  -- the scratch file is there when the place is looked at, but under another name
  have beside : folder ++ [name] ≠ folder ++ [other] := by
    intro same
    cases List.append_cancel_left same
    apply apart
    rw [ends.cut]
    exact List.mem_append_right _ (List.mem_singleton_self name)
  unfold isDirectory at vacant
  rw [get?_insert_of_ne disk _ beside] at vacant
  have entry : disk.entryPlace? site.directory path = some (folder ++ [name]) :=
    entryPlace?_eq_some_iff.mpr ⟨folder, name, into.leads, ends.fileName?, rfl⟩
  exact ⟨_, mode, entry, becomes_of_modeToBe flawless ends into known vacant bytes, rfl⟩

end Disk

end ShaderHeader
