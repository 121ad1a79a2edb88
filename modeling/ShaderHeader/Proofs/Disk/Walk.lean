import ShaderHeader.Disk.Resolve

/-!
# The first step of a walk

All that a walk which arrives can do first.  It takes its step in a directory that lets it,
and either goes on itself or meets a link and leaves the rest of the way to `follow`.
-/

namespace ShaderHeader

namespace Disk

variable {disk : Disk} {follow : Location → List Path.Step → Except Refusal Location}
variable {here found : Location} {step : Path.Step} {rest : List Path.Step}

theorem isDirectory_eq_true_iff (disk : Disk) (location : Location) :
    disk.isDirectory location = true ↔ ∃ mode, disk.get? location = some (.directory mode) := by
  unfold isDirectory
  split
  · next mode stands => exact ⟨fun _ => ⟨mode, stands⟩, fun _ => rfl⟩
  · next other =>
      constructor
      · intro impossible
        cases impossible
      · rintro ⟨mode, stands⟩
        exact absurd stands (other mode)

theorem allows_eq_true_iff (disk : Disk) (permission : Mode → Bool) (location : Location) :
    disk.allows permission location = true ↔
      ∃ mode, disk.get? location = some (.directory mode) ∧ permission mode = true := by
  unfold allows
  split
  · next mode stands =>
      constructor
      · exact fun allowed => ⟨mode, stands, allowed⟩
      · rintro ⟨_, same, allowed⟩
        cases stands.symm.trans same
        exact allowed
  · next other =>
      constructor
      · intro impossible
        cases impossible
      · rintro ⟨mode, stands, -⟩
        exact absurd stands (other mode)

/-- A directory that is editable may be searched. -/
theorem searchable_of_editable {location : Location}
    (allowed : disk.allows Mode.editable location = true) :
    disk.allows Mode.searchable location = true := by
  obtain ⟨mode, stands, editable⟩ := (allows_eq_true_iff disk _ location).mp allowed
  obtain ⟨-, searchable⟩ := Bool.and_eq_true_iff.mp editable
  exact (allows_eq_true_iff disk _ location).mpr ⟨mode, stands, searchable⟩

/-- A slash asks for a directory, and any other step for one that may be searched. -/
theorem barrier?_eq_none_iff :
    disk.barrier? here step = none ↔ disk.isDirectory here = true ∧
      (step ≠ .slash → disk.allows Mode.searchable here = true) := by
  unfold barrier?
  by_cases directory : disk.isDirectory here = true
  · rw [if_neg (not_not_intro directory)]
    by_cases barred : step ≠ .slash ∧ ¬ disk.allows Mode.searchable here = true
    · rw [if_pos barred]
      exact ⟨nofun, fun open_ => absurd (open_.2 barred.1) barred.2⟩
    · rw [if_neg barred]
      refine ⟨fun _ => ⟨directory, fun looks => ?_⟩, fun _ => rfl⟩
      exact Decidable.byContradiction fun closed => barred ⟨looks, closed⟩
  · rw [if_pos directory]
    exact ⟨nofun, fun open_ => absurd open_.1 directory⟩

/-- All steps but a slash meet the same barrier. -/
theorem barrier?_of_ne_slash (disk : Disk) (here : Location) (looks : step ≠ .slash) :
    disk.barrier? here step = disk.barrier? here .stay := by
  have stays : Path.Step.stay ≠ .slash := nofun
  unfold barrier?
  simp only [looks, stays, ne_eq, not_false_eq_true, true_and]

/-- How a walk goes on from a directory with its first step. -/
inductive GoesOn (disk : Disk) (follow : Location → List Path.Step → Except Refusal Location)
    (here : Location) (rest : List Path.Step) (found : Location) : Path.Step → Prop where
  | slash (goes : disk.walkWith follow here rest = .ok found) :
      GoesOn disk follow here rest found .slash
  | stay (goes : disk.walkWith follow here rest = .ok found) :
      GoesOn disk follow here rest found .stay
  | up (goes : disk.walkWith follow here.dropLast rest = .ok found) :
      GoesOn disk follow here rest found .up
  | enter {name : Name} {entry : Entry} (short : name.length ≤ maxName)
      (stands : disk.get? (here ++ [name]) = some entry) (plain : ∀ target, entry ≠ .link target)
      (goes : disk.walkWith follow (here ++ [name]) rest = .ok found) :
      GoesOn disk follow here rest found (.into name)
  | link {name : Name} {target : Path} (short : name.length ≤ maxName)
      (stands : disk.get? (here ++ [name]) = some (.link target))
      (goes : follow (target.origin here) (target.steps ++ rest) = .ok found) :
      GoesOn disk follow here rest found (.into name)

theorem walkWith_cons_of_barrier? (open_ : disk.barrier? here step = none) :
    disk.walkWith follow here (step :: rest) = .ok found ↔
      disk.GoesOn follow here rest found step := by
  unfold walkWith
  rw [open_]
  cases step with
  | slash => exact ⟨.slash, fun | .slash goes => goes⟩
  | stay => exact ⟨.stay, fun | .stay goes => goes⟩
  | up => exact ⟨.up, fun | .up goes => goes⟩
  | into name =>
      by_cases long : maxName < name.length
      · simp only [if_pos long]
        constructor
        · intro impossible
          cases impossible
        · intro goes
          cases goes with
          | enter short => exact absurd long (Nat.not_lt.mpr short)
          | link short => exact absurd long (Nat.not_lt.mpr short)
      · have short := Nat.not_lt.mp long
        simp only [if_neg long]
        constructor
        · intro arrives
          cases stands : disk.get? (here ++ [name]) with
          | none =>
              rw [stands] at arrives
              cases arrives
          | some entry =>
              rw [stands] at arrives
              cases entry with
              | link target => exact .link short stands arrives
              | file mode bytes => exact .enter short stands (fun _ => Entry.noConfusion) arrives
              | directory mode => exact .enter short stands (fun _ => Entry.noConfusion) arrives
        · intro goes
          cases goes with
          | link _ stands arrives =>
              rw [stands]
              exact arrives
          | @enter _ entry _ stands plain arrives =>
              rw [stands]
              cases entry with
              | link target => exact absurd rfl (plain target)
              | file mode bytes => exact arrives
              | directory mode => exact arrives

/-- **A walk that arrives meets no barrier to its first step and goes on from there.** -/
theorem walkWith_cons_eq_ok_iff :
    disk.walkWith follow here (step :: rest) = .ok found ↔
      disk.barrier? here step = none ∧ disk.GoesOn follow here rest found step := by
  cases barred : disk.barrier? here step with
  | none =>
      rw [walkWith_cons_of_barrier? barred]
      exact ⟨fun goes => ⟨rfl, goes⟩, And.right⟩
  | some refusal =>
      unfold walkWith
      rw [barred]
      exact ⟨nofun, fun arrives => nomatch arrives.1⟩

end Disk

end ShaderHeader
