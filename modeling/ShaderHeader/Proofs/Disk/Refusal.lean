import ShaderHeader.Proofs.Disk.Save

/-!
# Refusals of the system

Two refusals come before the system is asked: a path may hold a zero byte, and contents may be
no text.  All others are made by the system, which gives them a number.  A path without a zero
byte meets no others, whatever the links on its way hold.
-/

namespace ShaderHeader

/-- Refusals that the system makes and gives a number. -/
def Refusal.OfSystem : Refusal → Prop
  | .nulInPath | .notText => False
  | _ => True

namespace Disk

/-- Nothing but the system refuses. -/
def OnlyBySystem {α : Type} (result : Except Refusal α) : Prop :=
  ∀ refusal, result = .error refusal → refusal.OfSystem

section Results

variable {α : Type} {refusal : Refusal}

theorem onlyBySystem_ok (value : α) : OnlyBySystem (Except.ok value) := by
  intro refusal impossible
  cases impossible

theorem onlyBySystem_error (own : refusal.OfSystem) :
    OnlyBySystem (Except.error refusal : Except Refusal α) := by
  rintro other ⟨⟩
  exact own

end Results

variable {disk : Disk} {site : Site} {here : Location} {path : Path}

theorem ofSystem_of_flaw {refusal : Refusal} (clean : 0 ∉ path.bytes)
    (flawed : path.flaw? = some refusal) : refusal.OfSystem := by
  unfold Path.flaw? at flawed
  rw [if_neg (by simpa using clean)] at flawed
  split at flawed
  · cases flawed
    trivial
  · split at flawed
    · cases flawed
      trivial
    · cases flawed

theorem ofSystem_of_barrier {step : Path.Step} {refusal : Refusal}
    (barred : disk.barrier? here step = some refusal) : refusal.OfSystem := by
  unfold barrier? at barred
  split at barred
  · cases barred
    trivial
  · split at barred
    · cases barred
      trivial
    · cases barred

/-- A walk refuses what the system refuses, if it does so where links are followed. -/
theorem walkWith_onlyBySystem {follow : Location → List Path.Step → Except Refusal Location}
    (onward : ∀ start steps, OnlyBySystem (follow start steps)) (here : Location)
    (steps : List Path.Step) : OnlyBySystem (disk.walkWith follow here steps) := by
  induction steps generalizing here with
  | nil => exact onlyBySystem_ok here
  | cons step rest ih =>
      unfold walkWith
      split
      · next barred => exact onlyBySystem_error (ofSystem_of_barrier barred)
      · cases step with
        | slash => exact ih here
        | stay => exact ih here
        | up => exact ih here.dropLast
        | into name =>
            dsimp only
            split
            · exact onlyBySystem_error trivial
            · split
              · exact onlyBySystem_error trivial
              · exact onward _ _
              · exact ih (here ++ [name])

theorem walk_onlyBySystem (links : Nat) (here : Location) (steps : List Path.Step) :
    OnlyBySystem (disk.walk links here steps) := by
  induction links generalizing here steps with
  | zero =>
      have followed (_ : Location) (_ : List Path.Step) :
          OnlyBySystem (Except.error .tooManyLinks : Except Refusal Location) :=
        onlyBySystem_error trivial
      exact walkWith_onlyBySystem followed here steps
  | succ links ih => exact walkWith_onlyBySystem ih here steps

theorem locate_onlyBySystem (clean : 0 ∉ path.bytes) : OnlyBySystem (disk.locate here path) := by
  unfold locate
  split
  · next flawed => exact onlyBySystem_error (ofSystem_of_flaw clean flawed)
  · exact walk_onlyBySystem maxLinks _ _

theorem read_onlyBySystem (clean : 0 ∉ path.bytes) : OnlyBySystem (disk.read here path) := by
  unfold read
  split
  · next unlocated => exact onlyBySystem_error (locate_onlyBySystem clean _ unlocated)
  · split
    · split
      · exact onlyBySystem_ok _
      · exact onlyBySystem_error trivial
    · split
      · exact onlyBySystem_error trivial
      · exact onlyBySystem_error trivial
    · exact onlyBySystem_error trivial

theorem modeOf_onlyBySystem (clean : 0 ∉ path.bytes) : OnlyBySystem (disk.modeOf here path) := by
  unfold modeOf
  split
  · next unlocated => exact onlyBySystem_error (locate_onlyBySystem clean _ unlocated)
  · split
    · exact onlyBySystem_ok _
    · exact onlyBySystem_ok _
    · exact onlyBySystem_error trivial

theorem locateDirectory_onlyBySystem (clean : 0 ∉ path.bytes) :
    OnlyBySystem (disk.locateDirectory here path) := by
  unfold locateDirectory
  split
  · next unlocated => exact onlyBySystem_error (locate_onlyBySystem clean _ unlocated)
  · split
    · exact onlyBySystem_ok _
    · exact onlyBySystem_error trivial

theorem editableFolder_onlyBySystem (clean : 0 ∉ path.folder.bytes) :
    OnlyBySystem (disk.editableFolder site path) := by
  unfold editableFolder
  split
  · exact onlyBySystem_error trivial
  · split
    · next unlocated => exact onlyBySystem_error (locateDirectory_onlyBySystem clean _ unlocated)
    · split
      · exact onlyBySystem_ok _
      · exact onlyBySystem_error trivial

theorem scratchPlace_onlyBySystem (clean : 0 ∉ path.folder.bytes) :
    OnlyBySystem (disk.scratchPlace site path) := by
  unfold scratchPlace
  split
  · exact onlyBySystem_error trivial
  · split
    · next unfound => exact onlyBySystem_error (editableFolder_onlyBySystem clean _ unfound)
    · exact onlyBySystem_ok _

theorem placeIn?_onlyBySystem (disk : Disk) (folder : Location) (part : Name) :
    OnlyBySystem (disk.placeIn? folder part) := by
  unfold placeIn?
  split
  · next barred => exact onlyBySystem_error (ofSystem_of_barrier barred)
  · split
    · exact onlyBySystem_ok _
    · split
      · exact onlyBySystem_error trivial
      · exact onlyBySystem_ok _

theorem lastPlace?_onlyBySystem (clean : 0 ∉ path.bytes) :
    OnlyBySystem (disk.lastPlace? here path) := by
  unfold lastPlace?
  split
  · next flawed => exact onlyBySystem_error (ofSystem_of_flaw clean flawed)
  · split
    · exact onlyBySystem_ok _
    · split
      · next lost => exact onlyBySystem_error (walk_onlyBySystem maxLinks _ _ _ lost)
      · exact placeIn?_onlyBySystem disk _ _

theorem placeFor_onlyBySystem (clean : 0 ∉ path.bytes) :
    OnlyBySystem (disk.placeFor here path) := by
  unfold placeFor
  split
  · next unplaced => exact onlyBySystem_error (lastPlace?_onlyBySystem clean _ unplaced)
  · exact onlyBySystem_error trivial
  · split
    · exact onlyBySystem_error trivial
    · split
      · exact onlyBySystem_error trivial
      · split
        · exact onlyBySystem_error trivial
        · exact onlyBySystem_ok _

end Disk

end ShaderHeader
