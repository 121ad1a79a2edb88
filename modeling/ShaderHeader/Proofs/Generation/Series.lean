import ShaderHeader.Proofs.Generation.Turn

/-!
# Series of generations

Generating several headers is taking turns: each is generated on the disk that the turns
before it leave, up to the first that fails.  `Embedding.turns` takes all the turns of a
series, also those after a failure, and knows of no common result; it is what
`Embedding.generateAll` is compared with.
-/

namespace ShaderHeader

namespace Outcome

/-- The outcome of what follows after turns that went well: their events and reports come
before its own. -/
def following (outcome : Outcome (List Report)) (events : List Event) (reports : List Report) :
    Outcome (List Report) where
  disk := outcome.disk
  events := events ++ outcome.events
  result := outcome.result.map (reports ++ ·)

variable (outcome : Outcome (List Report))

theorem following_nil : outcome.following [] [] = outcome := by
  obtain ⟨⟨events, result⟩, disk⟩ := outcome
  cases result <;> rfl

theorem following_following (events events' : List Event) (reports reports' : List Report) :
    (outcome.following events' reports').following events reports =
      outcome.following (events ++ events') (reports ++ reports') := by
  obtain ⟨⟨told, result⟩, disk⟩ := outcome
  unfold following
  cases result with
  | error failure => simp only [Except.map, List.append_assoc]
  | ok more => simp only [Except.map, List.append_assoc]

end Outcome

namespace Embedding

/-- The turns of a series, whether they go well or not: each finds the disk that the one
before it leaves. -/
def turns (site : Site) : List Embedding → Disk → List Turn
  | [], _ => []
  | first :: rest, disk =>
    ⟨site, disk, first⟩ :: turns site rest (first.generate site disk).disk

/-- The disk that the turns of a series leave. -/
def diskAfter (site : Site) (embeddings : List Embedding) (disk : Disk) : Disk :=
  embeddings.foldl (fun disk embedding => (embedding.generate site disk).disk) disk

/-- The events that turns tell, in their order. -/
def eventsOf (turns : List Turn) : List Event :=
  turns.flatMap fun turn => turn.outcome.events

/-- Turns go well with these reports, one for each and in their order. -/
def Succeed (turns : List Turn) (reports : List Report) : Prop :=
  turns.map (·.outcome.result) = reports.map .ok

/-- The first entry of a series that fails, after others that go well. -/
structure FailsFirst (site : Site) (disk : Disk) (embeddings before : List Embedding)
    (entry : Embedding) (failure : Failure) : Prop where
  listed : before ++ [entry] <+: embeddings
  succeed : ∃ reports, Succeed (turns site before disk) reports
  failed : (entry.generate site (diskAfter site before disk)).result = .error failure

variable {site : Site} {disk : Disk} {first entry : Embedding} {embeddings before : List Embedding}
variable {report : Report} {reports : List Report} {failure : Failure}

theorem generateAll_cons_of_ok (succeeded : (first.generate site disk).result = .ok report)
    (rest : List Embedding) :
    generateAll site (first :: rest) disk =
      (generateAll site rest (first.generate site disk).disk).following
        (first.generate site disk).events [report] := by
  rw [generateAll, Outcome.andThen, succeeded]
  rfl

/-- After a failure nothing more is done, and the failure itself changes nothing. -/
theorem generateAll_cons_of_error (failed : (first.generate site disk).result = .error failure)
    (rest : List Embedding) :
    generateAll site (first :: rest) disk =
      { disk := disk, events := (first.generate site disk).events, result := .error failure } := by
  rw [generateAll, Outcome.andThen, failed, disk_of_error failed]

theorem succeed_nil : Succeed [] reports ↔ reports = [] := by
  unfold Succeed
  rw [List.map_nil, eq_comm, List.map_eq_nil_iff]

theorem succeed_cons {turn : Turn} {rest : List Turn} :
    Succeed (turn :: rest) reports ↔ ∃ report others, turn.outcome.result = .ok report ∧
      Succeed rest others ∧ reports = report :: others := by
  unfold Succeed
  rw [List.map_cons, eq_comm, List.map_eq_cons_iff]
  constructor
  · rintro ⟨report, others, same, succeeded, succeed⟩
    exact ⟨report, others, succeeded.symm, succeed.symm, same⟩
  · rintro ⟨report, others, succeeded, succeed, same⟩
    exact ⟨report, others, same, succeeded.symm, succeed.symm⟩

theorem eventsOf_turns_concat (site : Site) (before : List Embedding) (entry : Embedding)
    (disk : Disk) :
    eventsOf (turns site (before ++ [entry]) disk) =
      eventsOf (turns site before disk) ++
        (entry.generate site (diskAfter site before disk)).events := by
  induction before generalizing disk with
  | nil => exact List.append_nil _
  | cons first rest ih =>
      have later := ih (first.generate site disk).disk
      unfold eventsOf at later ⊢
      rw [List.cons_append, turns, turns, List.flatMap_cons, later, List.flatMap_cons,
        List.append_assoc]
      rfl

/-- **Turns that go well hand over to the rest of the series.** -/
theorem generateAll_append (succeed : Succeed (turns site before disk) reports)
    (more : List Embedding) :
    generateAll site (before ++ more) disk =
      (generateAll site more (diskAfter site before disk)).following
        (eventsOf (turns site before disk)) reports := by
  induction before generalizing disk reports with
  | nil =>
      rw [succeed_nil.mp succeed]
      exact (Outcome.following_nil _).symm
  | cons first rest ih =>
      obtain ⟨report, others, succeeded, later, rfl⟩ := succeed_cons.mp succeed
      rw [List.cons_append, generateAll_cons_of_ok succeeded, ih later,
        Outcome.following_following]
      rfl

theorem generateAll_of_succeed (succeed : Succeed (turns site embeddings disk) reports) :
    generateAll site embeddings disk =
      { disk := diskAfter site embeddings disk
        events := eventsOf (turns site embeddings disk)
        result := .ok reports } := by
  have all := generateAll_append succeed []
  rw [List.append_nil] at all
  rw [all]
  simp only [Outcome.following, generateAll, Outcome.quiet, Except.map, List.append_nil]

theorem generateAll_of_failsFirst
    (fails : FailsFirst site disk embeddings before entry failure) :
    generateAll site embeddings disk =
      { disk := diskAfter site before disk
        events := eventsOf (turns site (before ++ [entry]) disk)
        result := .error failure } := by
  obtain ⟨⟨later, rfl⟩, ⟨reports, succeed⟩, failed⟩ := fails
  rw [List.append_assoc, generateAll_append succeed, List.singleton_append,
    generateAll_cons_of_error failed, eventsOf_turns_concat]
  rfl

theorem length_turns (site : Site) (embeddings : List Embedding) (disk : Disk) :
    (turns site embeddings disk).length = embeddings.length := by
  induction embeddings generalizing disk with
  | nil => rfl
  | cons first rest ih => rw [turns, List.length_cons, ih, List.length_cons]

theorem Succeed.length_eq (succeed : Succeed (turns site embeddings disk) reports) :
    reports.length = embeddings.length := by
  have lengths := congrArg List.length succeed
  rw [List.length_map, List.length_map, length_turns] at lengths
  exact lengths.symm

/-- An entry that fails first does so whatever a series lists after it. -/
theorem FailsFirst.instead (fails : FailsFirst site disk embeddings before entry failure)
    (others : List Embedding) :
    FailsFirst site disk (before ++ entry :: others) before entry failure where
  listed := ⟨others, by rw [List.append_assoc, List.singleton_append]⟩
  succeed := fails.succeed
  failed := fails.failed

/-- All the turns of a series go well, or there is a first that fails. -/
theorem succeed_or_failsFirst (site : Site) (embeddings : List Embedding) (disk : Disk) :
    (∃ reports, Succeed (turns site embeddings disk) reports) ∨
      ∃ before entry failure, FailsFirst site disk embeddings before entry failure := by
  induction embeddings generalizing disk with
  | nil => exact .inl ⟨[], rfl⟩
  | cons first rest ih =>
      cases result : (first.generate site disk).result with
      | error failure =>
          exact .inr ⟨[], first, failure, ⟨rest, rfl⟩, ⟨[], rfl⟩, result⟩
      | ok report =>
          have joined {turns : List Turn} {reports : List Report} (succeed : Succeed turns reports) :
              Succeed (⟨site, disk, first⟩ :: turns) (report :: reports) :=
            succeed_cons.mpr ⟨report, reports, result, succeed, rfl⟩
          obtain ⟨reports, succeed⟩ | ⟨before, entry, failure, listed, ⟨reports, succeed⟩, failed⟩ :=
            ih (first.generate site disk).disk
          · exact .inl ⟨report :: reports, joined succeed⟩
          · refine .inr ⟨first :: before, entry, failure, ?_, ⟨_, joined succeed⟩, failed⟩
            exact (List.prefix_cons_inj first).mpr listed

theorem succeed_of_generateAll
    (succeeded : (generateAll site embeddings disk).result = .ok reports) :
    Succeed (turns site embeddings disk) reports := by
  obtain ⟨others, succeed⟩ | ⟨_, _, _, fails⟩ := succeed_or_failsFirst site embeddings disk
  · rw [generateAll_of_succeed succeed] at succeeded
    cases succeeded
    exact succeed
  · rw [generateAll_of_failsFirst fails] at succeeded
    cases succeeded

theorem failsFirst_of_generateAll
    (failed : (generateAll site embeddings disk).result = .error failure) :
    ∃ before entry, FailsFirst site disk embeddings before entry failure := by
  obtain ⟨others, succeed⟩ | ⟨before, entry, _, fails⟩ :=
    succeed_or_failsFirst site embeddings disk
  · rw [generateAll_of_succeed succeed] at failed
    cases failed
  · rw [generateAll_of_failsFirst fails] at failed
    cases failed
    exact ⟨before, entry, fails⟩

/-- **A series is its turns up to the first failure.**  It goes well exactly when all turns
do, with their reports; then the disk is the one that they leave.  Otherwise it fails the
way the first entry does that fails, and leaves the disk that those before it left; what it
tells ends with that entry, and it does not depend on what the series lists after it. -/
theorem generateAll_eq_turns (site : Site) (embeddings : List Embedding) (disk : Disk) :
    (∀ reports, (generateAll site embeddings disk).result = .ok reports ↔
      Succeed (turns site embeddings disk) reports) ∧
    (∀ reports, (generateAll site embeddings disk).result = .ok reports →
      reports.length = embeddings.length ∧
      (generateAll site embeddings disk).disk = diskAfter site embeddings disk ∧
      (generateAll site embeddings disk).events = eventsOf (turns site embeddings disk)) ∧
    (∀ failure, (generateAll site embeddings disk).result = .error failure ↔
      ∃ before entry, FailsFirst site disk embeddings before entry failure) ∧
    ∀ before entry failure, FailsFirst site disk embeddings before entry failure →
      (generateAll site embeddings disk).disk = diskAfter site before disk ∧
      (generateAll site embeddings disk).events =
        eventsOf (turns site (before ++ [entry]) disk) ∧
      ∀ others, generateAll site (before ++ entry :: others) disk =
        generateAll site embeddings disk := by
  refine ⟨fun reports => ⟨succeed_of_generateAll, ?good⟩, ?left,
    fun failure => ⟨failsFirst_of_generateAll, ?bad⟩, ?cutOff⟩
  case good =>
    intro succeed
    rw [generateAll_of_succeed succeed]
  case left =>
    intro reports succeeded
    have succeed := succeed_of_generateAll succeeded
    rw [generateAll_of_succeed succeed]
    exact ⟨succeed.length_eq, rfl, rfl⟩
  case bad =>
    rintro ⟨before, entry, fails⟩
    rw [generateAll_of_failsFirst fails]
  case cutOff =>
    intro before entry failure fails
    rw [generateAll_of_failsFirst fails]
    exact ⟨rfl, rfl, fun others => generateAll_of_failsFirst (fails.instead others)⟩

/-- The embedding of the file `d` in a header that is to take the place of its folder. -/
def ontoFolder : Embedding :=
  { small with source := ⟨[0x64]⟩, destination := ⟨[0x2e]⟩ }

/-- A disk on which `d` is a link to the module `s`. -/
def linkedDisk : Disk :=
  smallDisk (.link ⟨[0x73]⟩)

/-- The second of three entries reads what the first generates, and fails: the header of the
first stays. -/
theorem generateAll_eq_turns_onto_folder :
    FailsFirst smallSite linkedDisk [small, ontoFolder, small] [small] ontoFolder
        (.unwrittenHeader ⟨[0x2e]⟩ .busy) ∧
      (generateAll smallSite [small, ontoFolder, small] linkedDisk).disk =
        (small.generate smallSite linkedDisk).disk := by
  have fails : FailsFirst smallSite linkedDisk [small, ontoFolder, small] [small] ontoFolder
      (.unwrittenHeader ⟨[0x2e]⟩ .busy) :=
    { listed := ⟨[small], rfl⟩
      succeed := ⟨[⟨⟨[0x73]⟩, ⟨[0x64]⟩, 1, 4, 0⟩], rfl⟩
      failed := rfl }
  obtain ⟨-, -, -, cutOff⟩ :=
    generateAll_eq_turns smallSite [small, ontoFolder, small] linkedDisk
  exact ⟨fails, (cutOff _ _ _ fails).1⟩

end Embedding

end ShaderHeader
