import ShaderHeader.Proofs.Disk.Fitting
import ShaderHeader.Proofs.Disk.Linkless
import ShaderHeader.Proofs.Generation.Series

/-!
# Independent generations

On a disk without links, embeddings whose paths are plain do not disturb each other if no two
have the same destination and none reads what another one generates.  Each of them then goes well
in a series exactly when it does alone (`Embedding.Generates`), and puts the same header in the
same place, so the order of the series does not matter (`Embedding.generateAll_perm`).
-/

namespace ShaderHeader

namespace Embedding

/-- The place that the destination of an embedding spells. -/
def place (embedding : Embedding) (site : Site) : Location :=
  site.directory ++ embedding.destination.parts

/-- What lets a generation at a plain path go well, with what it reads and with the permission
bits of the header. -/
structure Generates (embedding : Embedding) (site : Site) (disk : Disk) (bytes : List UInt8)
    (mode : Mode) : Prop where
  valid : embedding.Valid
  readable : disk.read site.directory embedding.source = .ok bytes
  housed : ∃ before name, embedding.destination.Fits site before name ∧
    disk.editableFolder site embedding.destination = .ok (site.directory ++ before)
  known : Entry.successorMode? (disk.get? (embedding.place site)) = some mode

/-- Disks that have the same directories, and the same entries where an embedding reads and
writes. -/
structure AlikeTo (embedding : Embedding) (site : Site) (disk other : Disk) : Prop where
  directories : disk.SameDirectories other
  source : other.get? (site.directory ++ embedding.source.parts) =
    disk.get? (site.directory ++ embedding.source.parts)
  place : other.get? (embedding.place site) = disk.get? (embedding.place site)

/-- Embeddings with plain paths, each with a destination of its own that none of them reads. -/
structure Independent (embeddings : List Embedding) : Prop where
  plain : ∀ embedding ∈ embeddings, embedding.source.Plain ∧ embedding.destination.Plain
  distinct : embeddings.Pairwise (·.destination ≠ ·.destination)
  unread : ∀ embedding ∈ embeddings, ∀ other ∈ embeddings,
    embedding.destination ≠ other.source

variable {embedding next : Embedding} {embeddings rest : List Embedding} {site : Site}
variable {disk other : Disk} {bytes : List UInt8} {mode : Mode} {report : Report}

namespace Independent

theorem tail (independent : Independent (embedding :: rest)) : Independent rest where
  plain := fun _ member => independent.plain _ (List.mem_cons_of_mem _ member)
  distinct := (List.pairwise_cons.mp independent.distinct).2
  unread := fun _ member _ listed =>
    independent.unread _ (List.mem_cons_of_mem _ member) _ (List.mem_cons_of_mem _ listed)

theorem perm (independent : Independent embeddings) {others : List Embedding}
    (reordered : others.Perm embeddings) : Independent others where
  plain := fun _ member => independent.plain _ (reordered.mem_iff.mp member)
  distinct := (reordered.pairwise_iff (fun apart => apart.symm)).mpr independent.distinct
  unread := fun _ member _ listed =>
    independent.unread _ (reordered.mem_iff.mp member) _ (reordered.mem_iff.mp listed)

end Independent

theorem AlikeTo.symm (alike : embedding.AlikeTo site disk other) :
    embedding.AlikeTo site other disk :=
  ⟨alike.directories.symm, alike.source.symm, alike.place.symm⟩

theorem place_of_endsIn {before : List Name} {name : Name}
    (ends : embedding.destination.EndsIn before name) :
    embedding.place site = site.directory ++ before ++ [name] := by
  rw [place, ends.cut, List.append_assoc]

namespace Generates

theorem generate (generates : embedding.Generates site disk bytes mode) :
    embedding.generate site disk =
      { embedding.account bytes none with
        disk := disk.insert (embedding.place site)
          (.file mode (embedding.headerBytes bytes)) } := by
  obtain ⟨valid, readable, ⟨before, name, fits, found⟩, known⟩ := generates
  rw [place_of_endsIn fits.ends] at known ⊢
  exact generate_of_saved valid readable (Disk.saveAtOnce_of_fits fits found known)

/-- **What goes well on one disk goes well on every disk that is alike.** -/
theorem transfer (generates : embedding.Generates site disk bytes mode)
    (linkless : disk.Linkless) (linkless' : other.Linkless) (plain : embedding.source.Plain)
    (alike : embedding.AlikeTo site disk other) : embedding.Generates site other bytes mode := by
  obtain ⟨valid, readable, ⟨before, name, fits, found⟩, known⟩ := generates
  have same := alike.directories
  obtain ⟨leads, -⟩ := Disk.leadsInto_of_editableFolder found
  have leads' := Disk.locateDirectory_of_sameDirectories linkless linkless' same leads
  refine ⟨valid, ?_, ⟨before, name, fits, ?_⟩, alike.place ▸ known⟩
  · exact Disk.read_of_sameDirectories linkless linkless' same plain alike.source readable
  · exact Disk.editableFolder_of_sameDirectories same leads' found

end Generates

/-- A generation at a plain path that goes well had what it takes. -/
theorem exists_generates (linkless : disk.Linkless) (plain : embedding.destination.Plain)
    (succeeded : (embedding.generate site disk).result = .ok report) :
    ∃ bytes mode, embedding.Generates site disk bytes mode := by
  obtain ⟨bytes, after, valid, readable, saved⟩ := saved_of_generate succeeded
  obtain ⟨folder, before, name, mode, fits, found, becomes, -⟩ := Disk.fits_of_saveAtOnce saved
  have into := Disk.leadsInto_of_editableFolder found
  rw [Disk.leadsInto_of_plain linkless plain fits.ends into] at found becomes
  rw [← place_of_endsIn fits.ends] at becomes
  exact ⟨bytes, mode, valid, readable, ⟨before, name, fits, found⟩,
    becomes.successorMode? (linkless _)⟩

/-- No generation makes a link. -/
theorem linkless_generate (linkless : disk.Linkless) (embedding : Embedding) (site : Site) :
    (embedding.generate site disk).disk.Linkless := by
  intro location target stands
  have becomes := Turn.becomes ⟨site, disk, embedding⟩ location
  have after : (Turn.outcome ⟨site, disk, embedding⟩).disk.get? location =
      some (.link target) := stands
  rw [after] at becomes
  exact linkless location target becomes.link

/-- No generation makes a directory, takes one away or changes its permission bits. -/
theorem sameDirectories_generate (embedding : Embedding) (site : Site) (disk : Disk) :
    disk.SameDirectories (embedding.generate site disk).disk := by
  intro location mode
  have becomes := Turn.becomes ⟨site, disk, embedding⟩ location
  exact becomes.directory_iff mode

/-- **A generation does not disturb one that is independent of it.** -/
theorem alikeTo_generate (generates : embedding.Generates site disk bytes mode)
    (distinct : embedding.destination ≠ next.destination)
    (unread : embedding.destination ≠ next.source) :
    next.AlikeTo site disk (embedding.generate site disk).disk := by
  have elsewhere {path : Path} (apart : embedding.destination ≠ path) :
      (embedding.generate site disk).disk.get? (site.directory ++ path.parts) =
        disk.get? (site.directory ++ path.parts) := by
    rw [generates.generate]
    refine Disk.get?_insert_of_ne disk _ fun same => apart ?_
    exact Path.eq_of_parts (List.append_cancel_left same).symm
  exact ⟨sameDirectories_generate embedding site disk, elsewhere unread, elsewhere distinct⟩

/-- Generations that go well alone do so after an independent one. -/
theorem generates_after (linkless : disk.Linkless) (independent : Independent (embedding :: rest))
    (generates : embedding.Generates site disk bytes mode) {found : List UInt8} {bits : Mode}
    (member : next ∈ rest) :
    next.Generates site (embedding.generate site disk).disk found bits ↔
      next.Generates site disk found bits := by
  have plain := (independent.plain next (List.mem_cons_of_mem _ member)).1
  have distinct := (List.pairwise_cons.mp independent.distinct).1 next member
  have unread := independent.unread _ List.mem_cons_self next (List.mem_cons_of_mem _ member)
  have alike := alikeTo_generate generates distinct unread
  have linkless' := linkless_generate linkless embedding site
  exact ⟨fun after => after.transfer linkless' linkless plain alike.symm,
    fun alone => alone.transfer linkless linkless' plain alike⟩

/-- **Independent generations that go well alone go well as a series**, with the same reports
and headers, and nothing else is changed. -/
theorem generateAll_of_generates (linkless : disk.Linkless) (independent : Independent embeddings)
    {bytesOf : Embedding → List UInt8} {modeOf : Embedding → Mode}
    (each : ∀ embedding ∈ embeddings,
      embedding.Generates site disk (bytesOf embedding) (modeOf embedding)) :
    (generateAll site embeddings disk).result =
        .ok (embeddings.map fun embedding => embedding.report (Words.ofBytes (bytesOf embedding))) ∧
      (∀ embedding ∈ embeddings,
        (generateAll site embeddings disk).disk.get? (embedding.place site) =
          some (.file (modeOf embedding) (embedding.headerBytes (bytesOf embedding)))) ∧
      ∀ location, (∀ embedding ∈ embeddings, location ≠ embedding.place site) →
        (generateAll site embeddings disk).disk.get? location = disk.get? location := by
  induction embeddings generalizing disk with
  | nil => exact ⟨rfl, nofun, fun _ _ => rfl⟩
  | cons first rest ih =>
      have generates := each first List.mem_cons_self
      have later : ∀ next ∈ rest, next.Generates site (first.generate site disk).disk
          (bytesOf next) (modeOf next) := fun next member =>
        (generates_after linkless independent generates member).mpr
          (each next (List.mem_cons_of_mem _ member))
      obtain ⟨reports, written, kept⟩ :=
        ih (linkless_generate linkless first site) independent.tail later
      have succeeded : (first.generate site disk).result =
          .ok (first.report (Words.ofBytes (bytesOf first))) := by
        rw [generates.generate]
        rfl
      -- no later generation writes where the first one did
      have apart : ∀ next ∈ rest, first.place site ≠ next.place site := by
        intro next member same
        have distinct := (List.pairwise_cons.mp independent.distinct).1 next member
        exact distinct (Path.eq_of_parts (List.append_cancel_left same))
      have series := generateAll_cons_of_ok succeeded rest
      rw [series]
      refine ⟨?_, List.forall_mem_cons.mpr ⟨?_, written⟩, ?_⟩
      · simp only [Outcome.following, reports]
        rfl
      · refine (kept _ apart).trans ?_
        rw [generates.generate]
        exact Disk.get?_insert_self disk _ _
      · intro location elsewhere
        obtain ⟨notFirst, others⟩ := List.forall_mem_cons.mp elsewhere
        refine (kept location others).trans ?_
        rw [generates.generate]
        exact Disk.get?_insert_of_ne disk _ notFirst

/-- In a series of independent generations that goes well, each would go well alone. -/
theorem generates_of_generateAll (linkless : disk.Linkless) (independent : Independent embeddings)
    {reports : List Report} (succeeded : (generateAll site embeddings disk).result = .ok reports) :
    ∀ embedding ∈ embeddings, ∃ bytes mode, embedding.Generates site disk bytes mode := by
  have succeed := succeed_of_generateAll succeeded
  clear succeeded
  induction embeddings generalizing disk reports with
  | nil => exact nofun
  | cons first rest ih =>
      obtain ⟨report, others, succeeded, later, rfl⟩ := succeed_cons.mp succeed
      have plain := (independent.plain first List.mem_cons_self).2
      obtain ⟨bytes, mode, generates⟩ := exists_generates linkless plain succeeded
      refine List.forall_mem_cons.mpr ⟨⟨bytes, mode, generates⟩, fun next member => ?_⟩
      obtain ⟨found, bits, after⟩ :=
        ih (linkless_generate linkless first site) independent.tail later next member
      exact ⟨found, bits, (generates_after linkless independent generates member).mp after⟩

/-- What a series of independent generations reports and leaves, it does in every order. -/
theorem exists_reportOf (linkless : disk.Linkless) (independent : Independent embeddings)
    {reports : List Report} (succeeded : (generateAll site embeddings disk).result = .ok reports) :
    ∃ reportOf : Embedding → Report, ∀ others, others.Perm embeddings →
      (generateAll site others disk).result = .ok (others.map reportOf) ∧
      ∀ location, (generateAll site others disk).disk.get? location =
        (generateAll site embeddings disk).disk.get? location := by
  have each := generates_of_generateAll linkless independent succeeded
  have found : ∀ embedding, ∃ bytes mode,
      embedding ∈ embeddings → embedding.Generates site disk bytes mode := by
    intro embedding
    by_cases member : embedding ∈ embeddings
    · obtain ⟨bytes, mode, generates⟩ := each embedding member
      exact ⟨bytes, mode, fun _ => generates⟩
    · exact ⟨[], 0, fun listed => absurd listed member⟩
  obtain ⟨bytesOf, found⟩ := Classical.skolem.mp found
  obtain ⟨modeOf, alone⟩ := Classical.skolem.mp found
  obtain ⟨-, written, kept⟩ := generateAll_of_generates linkless independent alone
  refine ⟨fun embedding => embedding.report (Words.ofBytes (bytesOf embedding)), ?_⟩
  intro others reordered
  obtain ⟨reports', written', kept'⟩ :=
    generateAll_of_generates linkless (independent.perm reordered)
      fun embedding member => alone embedding (reordered.mem_iff.mp member)
  refine ⟨reports', fun location => ?_⟩
  by_cases among : ∃ embedding ∈ embeddings, location = embedding.place site
  · obtain ⟨embedding, member, rfl⟩ := among
    rw [written embedding member, written' embedding (reordered.mem_iff.mpr member)]
  · have elsewhere : ∀ embedding ∈ embeddings, location ≠ embedding.place site :=
      fun embedding member same => among ⟨embedding, member, same⟩
    rw [kept location elsewhere, kept' location fun embedding member =>
      elsewhere embedding (reordered.mem_iff.mp member)]

/-- **The order of independent generations does not matter.**  A series of them goes well if and
only if it does in every other order; then the reports are the same, in the new order, and the
same stands everywhere on the disk. -/
theorem generateAll_perm (linkless : disk.Linkless) (independent : Independent embeddings) :
    (∀ others, others.Perm embeddings →
      ((∃ reports, (generateAll site embeddings disk).result = .ok reports) ↔
        ∃ reports, (generateAll site others disk).result = .ok reports)) ∧
    ∀ reports, (generateAll site embeddings disk).result = .ok reports →
      ∃ reportOf : Embedding → Report, ∀ others, others.Perm embeddings →
        (generateAll site others disk).result = .ok (others.map reportOf) ∧
        ∀ location, (generateAll site others disk).disk.get? location =
          (generateAll site embeddings disk).disk.get? location := by
  refine ⟨fun others reordered => ⟨?there, ?back⟩, fun reports succeeded =>
    exists_reportOf linkless independent succeeded⟩
  case there =>
    rintro ⟨reports, succeeded⟩
    obtain ⟨reportOf, alike⟩ := exists_reportOf linkless independent succeeded
    exact ⟨_, (alike others reordered).1⟩
  case back =>
    rintro ⟨reports, succeeded⟩
    obtain ⟨reportOf, alike⟩ := exists_reportOf linkless (independent.perm reordered) succeeded
    exact ⟨_, (alike embeddings reordered.symm).1⟩

/-- The embedding of the module `s` in a header `e`. -/
def outer : Embedding :=
  { small with destination := ⟨[0x65]⟩ }

/-- The embedding of the module `s` in a header `d/e`. -/
def inner : Embedding :=
  { small with destination := ⟨[0x64, 0x2f, 0x65]⟩ }

/-- Two headers of one name, one of them in a directory, can be generated in either order. -/
theorem generateAll_perm_two :
    (generateAll smallSite [inner, outer] (smallDisk (.directory 0o755))).result =
        .ok [⟨⟨[0x73]⟩, ⟨[0x64, 0x2f, 0x65]⟩, 1, 4, 0⟩, ⟨⟨[0x73]⟩, ⟨[0x65]⟩, 1, 4, 0⟩] ∧
      (generateAll smallSite [outer, inner] (smallDisk (.directory 0o755))).result =
        .ok [⟨⟨[0x73]⟩, ⟨[0x65]⟩, 1, 4, 0⟩, ⟨⟨[0x73]⟩, ⟨[0x64, 0x2f, 0x65]⟩, 1, 4, 0⟩] ∧
      ∀ location,
        (generateAll smallSite [outer, inner] (smallDisk (.directory 0o755))).disk.get? location =
          (generateAll smallSite [inner, outer] (smallDisk (.directory 0o755))).disk.get?
            location := by
  have linkless : (smallDisk (.directory 0o755)).Linkless := by
    intro location target stands
    obtain ⟨front, back, entries, -⟩ := List.lookup_eq_some_iff.mp stands
    have listed : (location, .link target) ∈ (smallDisk (.directory 0o755)).entries := by
      rw [entries]
      exact List.mem_append_right front List.mem_cons_self
    simp [smallDisk] at listed
  have independent : Independent [inner, outer] :=
    { plain := by decide
      distinct := by decide
      unread := by decide }
  have succeeded : (generateAll smallSite [inner, outer] (smallDisk (.directory 0o755))).result =
      .ok [⟨⟨[0x73]⟩, ⟨[0x64, 0x2f, 0x65]⟩, 1, 4, 0⟩, ⟨⟨[0x73]⟩, ⟨[0x65]⟩, 1, 4, 0⟩] := rfl
  obtain ⟨reportOf, alike⟩ := (generateAll_perm linkless independent).2 _ succeeded
  have given := (alike [inner, outer] (.refl _)).1
  obtain ⟨swapped, same⟩ := alike [outer, inner] (.swap inner outer [])
  rw [succeeded] at given
  obtain ⟨first, second⟩ := List.cons.inj (Except.ok.inj given)
  rw [List.map_cons, List.map_cons, ← first, ← List.head_eq_of_cons_eq second] at swapped
  exact ⟨succeeded, swapped, same⟩

end Embedding

end ShaderHeader
