import ShaderHeader.Proofs.Disk.Walk

/-!
# Extensions of a disk

A disk extends another one when everything that stands on that one stands on it too.
What a path leads to on a disk, it leads to on every extension: a walk only ever asks
for entries that are there.  Putting an entry where nothing stands is an extension, and
taking it away again gives the very disk there was before.

Two disks may also have the same directories.  Then the same permissions are granted on both.
-/

namespace ShaderHeader

namespace Disk

/-- Taking away what was put where nothing stood gives the old disk back. -/
theorem erase_insert {disk : Disk} {location : Location} (free : disk.get? location = none)
    (entry : Entry) : (disk.insert location entry).erase location = disk := by
  have absent : ∀ stored ∈ disk.entries, (stored.1 != location) = true := by
    intro stored member
    rw [bne_comm]
    exact List.lookup_eq_none_iff.mp free stored member
  unfold insert erase
  rw [List.filter_cons_of_neg (by simp), List.filter_filter]
  simp only [Bool.and_self]
  rw [List.filter_eq_self.mpr absent]

theorem insert_insert (disk : Disk) (location : Location) (first second : Entry) :
    (disk.insert location first).insert location second = disk.insert location second := by
  unfold insert erase
  rw [List.filter_cons_of_neg (by simp), List.filter_filter]
  simp only [Bool.and_self]

/-- A disk extends another one when everything that stands there stands on it too. -/
def Extends (after before : Disk) : Prop :=
  ∀ location entry, before.get? location = some entry → after.get? location = some entry

theorem insert_extends {disk : Disk} {location : Location} (free : disk.get? location = none)
    (entry : Entry) : (disk.insert location entry).Extends disk := by
  intro other found stands
  have apart : other ≠ location := by
    rintro rfl
    rw [free] at stands
    cases stands
  rw [get?_insert_of_ne disk entry apart, stands]

namespace Extends

variable {after before : Disk} {here found : Location}

theorem isDirectory (extended : after.Extends before)
    (directory : before.isDirectory here = true) : after.isDirectory here = true := by
  obtain ⟨mode, stands⟩ := (isDirectory_eq_true_iff before here).mp directory
  exact (isDirectory_eq_true_iff after here).mpr ⟨mode, extended here _ stands⟩

theorem allows (extended : after.Extends before) {permission : Mode → Bool}
    (allowed : before.allows permission here = true) : after.allows permission here = true := by
  obtain ⟨mode, stands, granted⟩ := (allows_eq_true_iff before permission here).mp allowed
  exact (allows_eq_true_iff after permission here).mpr ⟨mode, extended here _ stands, granted⟩

/-- A step that can be taken can be taken on every extension. -/
theorem barrier? (extended : after.Extends before) {step : Path.Step}
    (open_ : before.barrier? here step = none) : after.barrier? here step = none := by
  obtain ⟨directory, searchable⟩ := barrier?_eq_none_iff.mp open_
  exact barrier?_eq_none_iff.mpr
    ⟨extended.isDirectory directory, fun looks => extended.allows (searchable looks)⟩

/-- A walk that arrives does so on every extension, if links are followed alike. -/
theorem walkWith (extended : after.Extends before)
    {follow follow' : Location → List Path.Step → Except Refusal Location}
    (alike : ∀ start steps found, follow start steps = .ok found → follow' start steps = .ok found)
    {steps : List Path.Step} (arrives : before.walkWith follow here steps = .ok found) :
    after.walkWith follow' here steps = .ok found := by
  induction steps generalizing here with
  | nil => exact arrives
  | cons step rest ih =>
      obtain ⟨open_, goesOn⟩ := walkWith_cons_eq_ok_iff.mp arrives
      refine walkWith_cons_eq_ok_iff.mpr ⟨extended.barrier? open_, ?_⟩
      cases goesOn with
      | slash goes => exact .slash (ih goes)
      | stay goes => exact .stay (ih goes)
      | up goes => exact .up (ih goes)
      | enter short stands plain goes =>
          exact .enter short (extended _ _ stands) plain (ih goes)
      | link short stands goes => exact .link short (extended _ _ stands) (alike _ _ _ goes)

/-- A walk that arrives does so on every extension. -/
theorem walk (extended : after.Extends before) {links : Nat} {steps : List Path.Step}
    (arrives : before.walk links here steps = .ok found) :
    after.walk links here steps = .ok found := by
  induction links generalizing here found steps with
  | zero =>
      refine extended.walkWith (fun _ _ _ refused => ?_) arrives
      cases refused
  | succ links ih => exact extended.walkWith (fun _ _ _ arrives => ih arrives) arrives

/-- A path that leads somewhere leads there on every extension. -/
theorem locate (extended : after.Extends before) {path : Path}
    (leads : before.locate here path = .ok found) : after.locate here path = .ok found := by
  unfold Disk.locate at leads ⊢
  cases flaw : path.flaw? with
  | some refusal =>
      rw [flaw] at leads
      cases leads
  | none =>
      rw [flaw] at leads
      exact extended.walk leads

/-- A path that leads to a directory leads to it on every extension. -/
theorem locateDirectory (extended : after.Extends before) {path : Path}
    (leads : before.locateDirectory here path = .ok found) :
    after.locateDirectory here path = .ok found := by
  unfold Disk.locateDirectory at leads ⊢
  cases located : before.locate here path with
  | error refusal =>
      rw [located] at leads
      cases leads
  | ok location =>
      rw [located] at leads
      rw [extended.locate located]
      by_cases directory : before.isDirectory location = true
      · simp only [if_pos directory] at leads
        simp only [if_pos (extended.isDirectory directory)]
        exact leads
      · simp only [if_neg directory] at leads
        cases leads

end Extends

/-- The same locations are directories on both disks, with the same permission bits. -/
def SameDirectories (disk other : Disk) : Prop :=
  ∀ location mode,
    other.get? location = some (.directory mode) ↔ disk.get? location = some (.directory mode)

namespace SameDirectories

variable {disk other : Disk}

theorem symm (same : disk.SameDirectories other) : other.SameDirectories disk :=
  fun location mode => (same location mode).symm

theorem isDirectory (same : disk.SameDirectories other) (location : Location) :
    other.isDirectory location = disk.isDirectory location := by
  rw [Bool.eq_iff_iff, isDirectory_eq_true_iff, isDirectory_eq_true_iff]
  exact exists_congr (same location)

theorem allows (same : disk.SameDirectories other) (permission : Mode → Bool)
    (location : Location) : other.allows permission location = disk.allows permission location := by
  rw [Bool.eq_iff_iff, allows_eq_true_iff, allows_eq_true_iff]
  exact exists_congr fun mode => and_congr_left' (same location mode)

theorem barrier? (same : disk.SameDirectories other) (location : Location) (step : Path.Step) :
    other.barrier? location step = disk.barrier? location step := by
  unfold Disk.barrier?
  rw [same.isDirectory, same.allows]

end SameDirectories

end Disk

end ShaderHeader
