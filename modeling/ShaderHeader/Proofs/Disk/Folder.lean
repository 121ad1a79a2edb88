import ShaderHeader.Proofs.Disk.Extension
import ShaderHeader.Proofs.Except
import ShaderHeader.Proofs.Path

/-!
# The folder a path leads to

A file saved at a path is written in the folder the path spells and then renamed to the
path.  Here it is shown that the renamed file stands in that very folder: slashes and dots
at the end of a walk only ask that it ends at a directory which may be searched, so the walk
along the folder's spelling and the walk before the last component arrive at one location.
-/

namespace ShaderHeader

namespace Path

/-- Whether a step leads nowhere else. -/
def Step.Idle (step : Step) : Prop :=
  step = .slash ∨ step = .stay

theorem idle_of_not_isComponent {part : Name} (unnamed : isComponent part = false) :
    (Step.ofPart part).Idle := by
  unfold Step.ofPart
  by_cases empty : part = []
  · rw [if_pos empty]
    exact .inl rfl
  · have dotted : part = dot := by simpa [isComponent, empty] using unnamed
    rw [if_neg empty, if_pos dotted]
    exact .inr rfl

theorem ofPart_ne_slash {part : Name} (nonempty : part ≠ []) : Step.ofPart part ≠ .slash := by
  unfold Step.ofPart
  rw [if_neg nonempty]
  split
  · nofun
  · split <;> nofun

/-- The parts after the last component ask for steps that lead nowhere else. -/
theorem exists_idle (parts : List Name) :
    ∃ idle : List Step, (∀ step ∈ idle, step.Idle) ∧
      parts.map Step.ofPart = (upToComponent parts).map Step.ofPart ++ idle := by
  induction parts with
  | nil => exact ⟨[], nofun, rfl⟩
  | cons first rest ih =>
      obtain ⟨idle, all, same⟩ := ih
      rw [upToComponent_cons, List.map_cons, same]
      by_cases empty : upToComponent rest = []
      · rw [if_pos empty, empty]
        cases named : isComponent first with
        | true =>
            refine ⟨idle, all, ?_⟩
            unfold upToComponent
            rw [List.reverse_singleton, List.dropWhile_cons_of_neg (by simp [named])]
            rfl
        | false =>
            refine ⟨.ofPart first :: idle, ?_, ?_⟩
            · exact List.forall_mem_cons.mpr ⟨idle_of_not_isComponent named, all⟩
            · unfold upToComponent
              rw [List.reverse_singleton, List.dropWhile_cons_of_pos (by simp [named])]
              rfl
      · rw [if_neg empty]
        exact ⟨idle, all, rfl⟩

end Path

namespace Disk

/-- Lets pass only where a step can be taken. -/
def pass (disk : Disk) (step : Path.Step) (location : Location) : Except Refusal Location :=
  match disk.barrier? location step with
  | some refusal => .error refusal
  | none => .ok location

theorem pass_eq_ok_iff {disk : Disk} {step : Path.Step} {location found : Location} :
    disk.pass step location = .ok found ↔
      disk.barrier? location step = none ∧ location = found := by
  unfold pass
  cases disk.barrier? location step with
  | none => exact ⟨fun same => ⟨rfl, Except.ok.inj same⟩, fun ⟨_, same⟩ => congrArg _ same⟩
  | some refusal => exact ⟨nofun, fun ⟨impossible, _⟩ => nomatch impossible⟩

/-- Who is stopped at a slash is stopped at a dot for the same reason, so asking for the slash
first makes no difference. -/
theorem pass_pass {step : Path.Step} (idle : step.Idle) (disk : Disk)
    (result : Except Refusal Location) :
    (result >>= disk.pass step) >>= disk.pass .stay = result >>= disk.pass .stay := by
  cases result with
  | error refusal => rfl
  | ok location =>
      change disk.pass step location >>= disk.pass .stay = disk.pass .stay location
      cases barred : disk.barrier? location step with
      | none =>
          rw [pass_eq_ok_iff.mpr ⟨barred, rfl⟩]
          rfl
      | some refusal =>
          have same : disk.barrier? location .stay = some refusal := by
            obtain rfl | rfl := idle
            · unfold barrier? at barred ⊢
              by_cases directory : disk.isDirectory location = true
              · rw [if_neg (not_not_intro directory), if_neg (fun looks => looks.1 rfl)] at barred
                cases barred
              · rw [if_pos directory] at barred ⊢
                exact barred
            · exact barred
          unfold pass
          rw [barred, same]
          rfl

section Walk

variable (disk : Disk)

/-- A last step that leads nowhere else asks only whether it can be taken, if it does so where
links are followed. -/
theorem walkWith_append_idle {follow : Location → List Path.Step → Except Refusal Location}
    {last : Path.Step} (idle : last.Idle)
    (alike : ∀ start steps, follow start (steps ++ [last]) =
      follow start steps >>= disk.pass last)
    (here : Location) (steps : List Path.Step) :
    disk.walkWith follow here (steps ++ [last]) =
      disk.walkWith follow here steps >>= disk.pass last := by
  induction steps generalizing here with
  | nil =>
      change disk.walkWith follow here [last] = disk.pass last here
      unfold walkWith pass
      obtain rfl | rfl := idle <;> rfl
  | cons step rest ih =>
      rw [List.cons_append]
      unfold walkWith
      cases disk.barrier? here step with
      | some refusal => rfl
      | none =>
          cases step with
          | slash => exact ih here
          | stay => exact ih here
          | up => exact ih here.dropLast
          | into name =>
              by_cases long : maxName < name.length
              · simp only [if_pos long]
                rfl
              · simp only [if_neg long]
                cases disk.get? (here ++ [name]) with
                | none => rfl
                | some entry =>
                    cases entry with
                    | file mode bytes => exact ih (here ++ [name])
                    | directory mode => exact ih (here ++ [name])
                    | link target =>
                        simp only [← List.append_assoc]
                        exact alike _ _

theorem walk_append_idle {last : Path.Step} (idle : last.Idle) (links : Nat) (here : Location)
    (steps : List Path.Step) :
    disk.walk links here (steps ++ [last]) = disk.walk links here steps >>= disk.pass last := by
  induction links generalizing here steps with
  | zero => exact disk.walkWith_append_idle idle (fun _ _ => rfl) here steps
  | succ links ih => exact disk.walkWith_append_idle idle ih here steps

theorem walk_append_idles (links : Nat) (here : Location) (steps : List Path.Step)
    {idle : List Path.Step} (all : ∀ step ∈ idle, step.Idle) :
    disk.walk links here (steps ++ idle) >>= disk.pass .stay =
      disk.walk links here steps >>= disk.pass .stay := by
  induction idle generalizing steps with
  | nil => rw [List.append_nil]
  | cons step rest ih =>
      obtain ⟨first, others⟩ := List.forall_mem_cons.mp all
      rw [List.append_cons, ih (steps ++ [step]) others, walk_append_idle disk first,
        pass_pass first]

/-- A walk to a directory that may be searched depends on the parts only up to their last
component. -/
theorem walk_upToComponent (links : Nat) (here : Location) (parts : List Name) :
    disk.walk links here ((Path.upToComponent parts).map Path.Step.ofPart) >>= disk.pass .stay =
      disk.walk links here (parts.map Path.Step.ofPart) >>= disk.pass .stay := by
  obtain ⟨idle, all, same⟩ := Path.exists_idle parts
  rw [same, walk_append_idles disk links here _ all]

end Walk

/-- A path leads to a directory that may be searched. -/
structure LeadsInto (disk : Disk) (here : Location) (path : Path) (folder : Location) : Prop where
  leads : disk.locateDirectory here path = .ok folder
  search : disk.allows Mode.searchable folder = true

section Place

variable {disk : Disk} {here folder place : Location} {path : Path}

theorem locateDirectory_eq_ok_iff :
    disk.locateDirectory here path = .ok folder ↔
      disk.locate here path = .ok folder ∧ disk.isDirectory folder = true := by
  unfold locateDirectory
  cases disk.locate here path with
  | error refusal => exact ⟨nofun, fun found => nomatch found.1⟩
  | ok location =>
      by_cases directory : disk.isDirectory location = true
      · simp only [if_pos directory]
        constructor
        · rintro ⟨⟩
          exact ⟨rfl, directory⟩
        · exact And.left
      · simp only [if_neg directory]
        refine ⟨nofun, ?_⟩
        rintro ⟨⟨⟩, stands⟩
        exact absurd stands directory

/-- What a path into a directory was found by. -/
theorem LeadsInto.walk (into : disk.LeadsInto here path folder) :
    disk.walk maxLinks (path.origin here) path.steps >>= disk.pass .stay = .ok folder := by
  obtain ⟨leads, search⟩ := into
  obtain ⟨located, directory⟩ := locateDirectory_eq_ok_iff.mp leads
  have open_ : disk.barrier? folder .stay = none :=
    barrier?_eq_none_iff.mpr ⟨directory, fun _ => search⟩
  unfold locate at located
  cases flaw : path.flaw? with
  | some refusal =>
      rw [flaw] at located
      cases located
  | none =>
      rw [flaw] at located
      exact bind_eq_ok_iff.mpr ⟨folder, located, pass_eq_ok_iff.mpr ⟨open_, rfl⟩⟩

/-- A path leads into a directory on every extension too. -/
theorem LeadsInto.extended {after : Disk} (into : disk.LeadsInto here path folder)
    (extended : after.Extends disk) : after.LeadsInto here path folder :=
  ⟨extended.locateDirectory into.leads, extended.allows into.search⟩

/-- A path ends in a slash when its last part is empty. -/
theorem endsInSlash_of_parts {before : List Name} (cut : path.parts = before ++ [[]])
    (spelled : path.bytes ≠ []) : path.endsInSlash = true := by
  unfold Path.endsInSlash
  rw [getLast?_of_pieces cut spelled]
  rfl

/-- If no slash ends a path, its last part is the last that is not empty. -/
theorem reverse_parts_of_dropWhile {before : List Name} {last : Name}
    (flawless : path.flaw? = none) (open_ : ¬ path.endsInSlash = true)
    (dropped : path.parts.reverse.dropWhile (· = []) = last :: before) :
    path.parts.reverse = last :: before ∧ last ≠ [] := by
  have spelled : path.bytes ≠ [] := by
    intro empty
    unfold Path.flaw? at flawless
    rw [empty] at flawless
    cases flawless
  cases split : path.parts.reverse with
  | nil =>
      rw [split] at dropped
      cases dropped
  | cons first others =>
      have nonempty : first ≠ [] := by
        rintro rfl
        apply open_
        have cut : path.parts = others.reverse ++ [[]] := by
          rw [← List.reverse_reverse path.parts, split, List.reverse_cons]
        exact endsInSlash_of_parts cut spelled
      rw [split, List.dropWhile_cons_of_neg (by simpa using nonempty)] at dropped
      cases dropped
      exact ⟨rfl, nonempty⟩

/-- A part is looked up in a directory that may be searched, and names a place there if it is
neither a dot nor two and not too long. -/
theorem placeIn?_eq_some_iff {part : Name} (nonempty : part ≠ []) :
    disk.placeIn? folder part = .ok (some place) ↔
      disk.barrier? folder .stay = none ∧ part ≠ Path.dot ∧ part ≠ Path.dotDot ∧
        part.length ≤ maxName ∧ folder ++ [part] = place := by
  unfold placeIn?
  rw [barrier?_of_ne_slash disk folder (Path.ofPart_ne_slash nonempty)]
  cases disk.barrier? folder .stay with
  | some refusal => exact ⟨nofun, fun found => nomatch found.1⟩
  | none =>
      by_cases dots : part = Path.dot ∨ part = Path.dotDot
      · simp only [if_pos dots]
        exact ⟨nofun, fun found => absurd dots (not_or.mpr ⟨found.2.1, found.2.2.1⟩)⟩
      · simp only [if_neg dots]
        obtain ⟨noDot, noDots⟩ := not_or.mp dots
        by_cases long : maxName < part.length
        · simp only [if_pos long]
          exact ⟨nofun, fun found => absurd found.2.2.2.1 (Nat.not_le.mpr long)⟩
        · simp only [if_neg long]
          constructor
          · rintro ⟨⟩
            exact ⟨trivial, noDot, noDots, Nat.not_lt.mp long, rfl⟩
          · rintro ⟨-, -, -, -, rfl⟩
            rfl

/-- Where the last part of a path is looked for: in the directory to which the parts
before it lead. -/
theorem lastPlace?_spec (found : disk.lastPlace? here path = .ok (some place)) :
    path.flaw? = none ∧ ∃ before last folder,
      path.parts.reverse.dropWhile (· = []) = last :: before ∧
      last ≠ Path.dot ∧ last ≠ Path.dotDot ∧ last.length ≤ maxName ∧
      disk.walk maxLinks (path.origin here) (before.reverse.map Path.Step.ofPart) >>=
        disk.pass .stay = .ok folder ∧
      place = folder ++ [last] := by
  unfold lastPlace? at found
  cases flaw : path.flaw? with
  | some refusal =>
      rw [flaw] at found
      cases found
  | none =>
      rw [flaw] at found
      refine ⟨rfl, ?_⟩
      cases split : path.parts.reverse.dropWhile (· = []) with
      | nil =>
          rw [split] at found
          cases found
      | cons last before =>
          have nonempty : last ≠ [] := by
            have head := List.head?_dropWhile_not (· = []) path.parts.reverse
            rw [split] at head
            simpa using head
          simp only [split] at found
          cases walked : disk.walk maxLinks (path.origin here)
              (before.reverse.map Path.Step.ofPart) with
          | error refusal =>
              rw [walked] at found
              cases found
          | ok folder =>
              rw [walked] at found
              obtain ⟨open_, noDot, noDots, short, rfl⟩ :=
                (placeIn?_eq_some_iff nonempty).mp found
              refine ⟨before, last, folder, rfl, noDot, noDots, short, ?_, rfl⟩
              rw [walked]
              exact pass_eq_ok_iff.mpr ⟨open_, rfl⟩

/-- What a rename asks of its target: it ends in a name, in an editable directory to which the
parts before it lead, and is no directory itself. -/
theorem placeFor_spec (lands : disk.placeFor here path = .ok place) :
    path.flaw? = none ∧ disk.isDirectory place = false ∧
    ∃ before name folder, path.EndsIn before name ∧ name.length ≤ maxName ∧
      disk.walk maxLinks (path.origin here) (before.map Path.Step.ofPart) >>=
        disk.pass .stay = .ok folder ∧
      place = folder ++ [name] := by
  unfold placeFor at lands
  match found : disk.lastPlace? here path with
  | .error refusal =>
      rw [found] at lands
      cases lands
  | .ok none =>
      rw [found] at lands
      cases lands
  | .ok (some place') =>
      simp only [found] at lands
      by_cases slashed : path.endsInSlash = true
      · rw [if_pos slashed] at lands
        cases lands
      · rw [if_neg slashed] at lands
        by_cases editable : disk.allows Mode.editable place'.dropLast = true
        case neg =>
          rw [if_pos editable] at lands
          cases lands
        rw [if_neg (not_not_intro editable)] at lands
        by_cases directory : disk.isDirectory place' = true
        · rw [if_pos directory] at lands
          cases lands
        · rw [if_neg directory] at lands
          cases lands
          obtain ⟨flawless, before, name, folder, dropped, noDot, noDots, short, walked, same⟩ :=
            lastPlace?_spec found
          obtain ⟨reversed, nonempty⟩ := reverse_parts_of_dropWhile flawless slashed dropped
          refine ⟨flawless, Bool.eq_false_iff.mpr directory, before.reverse, name, folder,
            ⟨?_, ?_, noDots⟩, short, walked, same⟩
          · rw [← List.reverse_reverse path.parts, reversed, List.reverse_cons]
          · simp [Path.isComponent, nonempty, noDot]

/-- The location of the entry that a path names: its name in its folder. -/
def entryPlace? (disk : Disk) (here : Location) (path : Path) : Option Location :=
  match disk.locateDirectory here path.folder, path.fileName? with
  | .ok folder, some name => some (folder ++ [name])
  | _, _ => none

theorem entryPlace?_eq_some_iff :
    disk.entryPlace? here path = some place ↔ ∃ folder name,
      disk.locateDirectory here path.folder = .ok folder ∧ path.fileName? = some name ∧
        folder ++ [name] = place := by
  unfold entryPlace?
  cases disk.locateDirectory here path.folder <;> cases path.fileName? <;> simp

/-- A walk before the last name of a path ends where the path's folder leads. -/
theorem walk_before {before : List Name} {name : Name} (ends : path.EndsIn before name)
    (into : disk.LeadsInto here path.folder folder) :
    disk.walk maxLinks (path.origin here) (before.map Path.Step.ofPart) >>=
      disk.pass .stay = .ok folder := by
  obtain ⟨start, parts⟩ := Path.folder_spec ends.cut ends.named
  have origin : path.folder.origin here = path.origin here := by
    unfold Path.origin
    rw [start]
  rw [← walk_upToComponent, ← parts, walk_upToComponent, ← origin]
  exact into.walk

/-- What a rename asks of its target is enough. -/
theorem placeFor_of_endsIn {before : List Name} {name : Name} (flawless : path.flaw? = none)
    (ends : path.EndsIn before name) (short : name.length ≤ maxName)
    (leads : disk.locateDirectory here path.folder = .ok folder)
    (editable : disk.allows Mode.editable folder = true)
    (vacant : disk.isDirectory (folder ++ [name]) = false) :
    disk.placeFor here path = .ok (folder ++ [name]) := by
  have nonempty := Path.ne_nil_of_isComponent ends.named
  have dropped : path.parts.reverse.dropWhile (· = []) = name :: before.reverse := by
    rw [ends.cut, List.reverse_append, List.reverse_singleton, List.singleton_append,
      List.dropWhile_cons_of_neg (by simpa using nonempty)]
  obtain ⟨reached, arrives, passed⟩ :=
    bind_eq_ok_iff.mp (walk_before ends ⟨leads, searchable_of_editable editable⟩)
  obtain ⟨open_, rfl⟩ := pass_eq_ok_iff.mp passed
  have last : disk.lastPlace? here path = .ok (some (reached ++ [name])) := by
    unfold lastPlace?
    simp only [flawless, dropped, List.reverse_reverse, arrives]
    exact (placeIn?_eq_some_iff nonempty).mpr
      ⟨open_, Path.ne_dot_of_isComponent ends.named, ends.below, short, rfl⟩
  unfold placeFor
  simp only [last, List.dropLast_concat]
  rw [if_neg (by rw [ends.not_endsInSlash]; nofun), if_neg (not_not_intro editable),
    if_neg (by rw [vacant]; nofun)]

/-- **A file renamed to a path stands in the folder that the path spells**, under the
name of the path. -/
theorem placeFor_eq_folder_append (lands : disk.placeFor here path = .ok place)
    (into : disk.LeadsInto here path.folder folder) :
    ∃ before name, path.EndsIn before name ∧ place = folder ++ [name] := by
  obtain ⟨-, -, before, name, found, ends, -, walked, spelled⟩ := placeFor_spec lands
  rw [walk_before ends into] at walked
  cases walked
  exact ⟨before, name, ends, spelled⟩

end Place

end Disk

end ShaderHeader
