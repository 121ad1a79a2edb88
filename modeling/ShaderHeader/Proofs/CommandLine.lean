import ShaderHeader.CommandLine
import ShaderHeader.Proofs.Disk.Refusal
import ShaderHeader.Proofs.Generation.Outcome

/-!
# What a run of the program tells

A run generates the usual header, and all but the events it shows is made from the outcome of
that alone: the exit code, the line on the standard output, and the complaint that ends the
error output.  Of the events the filter picks some and keeps their order.
-/

namespace ShaderHeader

/-! ## Patterns and lines -/

/-- How often a pattern stands in a text. -/
def occurrences (pattern : List Char) : List Char → Nat
  | [] => 0
  | first :: rest =>
    (if pattern.isPrefixOf (first :: rest) then 1 else 0) + occurrences pattern rest

theorem isPrefixOf_append_cons {pattern : List Char} {mark : Char} (absent : mark ∉ pattern)
    (text rest : List Char) :
    pattern.isPrefixOf (text ++ mark :: rest) = pattern.isPrefixOf text := by
  induction text generalizing pattern with
  | nil =>
      cases pattern with
      | nil => rfl
      | cons first others =>
          have different : first ≠ mark := fun same => absent (same ▸ List.mem_cons_self)
          simp only [List.nil_append, List.isPrefixOf, beq_eq_false_iff_ne.mpr different,
            Bool.false_and]
  | cons head tail ih =>
      cases pattern with
      | nil => rfl
      | cons first others =>
          have later := ih fun member => absent (List.mem_cons_of_mem _ member)
          simp only [List.cons_append, List.isPrefixOf, later]

/-- A pattern stands on one side of a mark that it does not hold. -/
theorem occurrences_append_cons {pattern : List Char} {mark : Char} (absent : mark ∉ pattern)
    (some : pattern ≠ []) (text rest : List Char) :
    occurrences pattern (text ++ mark :: rest) =
      occurrences pattern text + occurrences pattern rest := by
  induction text with
  | nil =>
      have apart : pattern.isPrefixOf (mark :: rest) = false := by
        rw [← List.nil_append (mark :: rest), isPrefixOf_append_cons absent]
        cases pattern with
        | nil => exact absurd rfl some
        | cons first others => rfl
      simp only [List.nil_append, occurrences, apart, Bool.false_eq_true, if_false]
  | cons head tail ih =>
      rw [List.cons_append, occurrences, occurrences, ih, ← List.cons_append,
        isPrefixOf_append_cons absent, Nat.add_assoc]

/-- A text without a line end in it. -/
def OneLine (text : String) : Prop :=
  '\n' ∉ text.toList

instance (text : String) : Decidable (OneLine text) :=
  inferInstanceAs (Decidable (_ ∉ _))

theorem oneLine_append {text other : String} :
    OneLine (text ++ other) ↔ OneLine text ∧ OneLine other := by
  unfold OneLine
  rw [String.toList_append, List.mem_append, not_or]

theorem oneLine_toString (number : Nat) : OneLine (toString number) := by
  unfold OneLine
  rw [Nat.toString_eq_ofList_toDigits, String.toList_ofList]
  intro member
  have digit : '\n'.isDigit = true := Nat.isDigit_of_mem_toDigits (by decide) (by decide) member
  exact absurd digit (by decide)

/-! ## What a generation tells -/

namespace Event

/-- The events of generating a header: they carry the paths and the name of its embedding. -/
inductive Of (embedding : Embedding) : Event → Prop where
  | reading : Of embedding (.reading embedding.source)
  | trailing (length dropped : Nat) : Of embedding (.trailing embedding.source length dropped)
  | writing (words : Nat) : Of embedding (.writing embedding.destination words)
  | generated (words bytes : Nat) : Of embedding (.generated embedding.arrayName words bytes)

variable {embedding : Embedding} {event : Event}

theorem of_mem_account {bytes : List UInt8} {setback? : Option Save.Setback}
    (member : event ∈ (embedding.account bytes setback?).events) : Of embedding event := by
  have begun (told : event ∈ .reading embedding.source ::
      (Words.ofBytes bytes).warning embedding.source bytes.length ++
        [.writing embedding.destination (Words.ofBytes bytes).size]) : Of embedding event := by
    rw [List.mem_append, List.mem_cons, List.mem_singleton] at told
    rcases told with (rfl | warned) | rfl
    · exact .reading
    · unfold Words.warning at warned
      split at warned
      · cases warned
      · rw [List.mem_singleton.mp warned]
        exact .trailing ..
    · exact .writing _
  cases setback? with
  | some setback => exact begun member
  | none =>
      rcases List.mem_append.mp member with told | last
      · exact begun told
      · rw [List.mem_singleton.mp last]
        exact .generated ..

theorem of_mem_generate {site : Site} {disk : Disk}
    (member : event ∈ (embedding.generate site disk).events) : Of embedding event := by
  unfold Embedding.generate at member
  split at member
  · cases member
  · split at member
    · rw [List.mem_singleton.mp member]
      exact .reading
    · exact of_mem_account member

theorem column_level (event : Event) :
    event.level.column = " WARN" ∨ event.level.column = "DEBUG" := by
  have warn : Level.column .warn = " WARN" := by decide
  have debug : Level.column .debug = "DEBUG" := by decide
  cases event with
  | trailing => exact .inl warn
  | reading => exact .inr debug
  | writing => exact .inr debug
  | generated => exact .inr debug

theorem Of.oneLine_line (of : Of embedding event) (source : OneLine embedding.source.display)
    (destination : OneLine embedding.destination.display) (array : OneLine embedding.arrayName) :
    OneLine event.line := by
  have column : OneLine event.level.column := by
    obtain column | column := event.column_level <;> rw [column] <;> decide
  unfold line
  simp only [oneLine_append]
  refine ⟨⟨⟨⟨column, by decide⟩, by decide⟩, by decide⟩, ?_⟩
  cases of with
  | reading =>
      unfold message
      simp only [oneLine_append]
      exact ⟨by decide, source⟩
  | trailing length dropped =>
      unfold message
      simp only [oneLine_append]
      exact ⟨⟨⟨⟨⟨by decide, source⟩, by decide⟩, oneLine_toString _⟩, by decide⟩, oneLine_toString _⟩
  | writing words =>
      unfold message
      simp only [oneLine_append]
      exact ⟨⟨⟨by decide, destination⟩, by decide⟩, oneLine_toString _⟩
  | generated words bytes =>
      unfold message
      simp only [oneLine_append]
      exact ⟨⟨⟨⟨⟨by decide, array⟩, by decide⟩, oneLine_toString _⟩, by decide⟩, oneLine_toString _⟩

end Event

namespace Embedding

variable {embedding : Embedding} {site : Site} {disk : Disk} {failure : Failure}

/-- Paths without a zero byte are refused by nobody but the system. -/
theorem FirstFault.ofSystem (met : embedding.FirstFault site disk failure)
    (source : 0 ∉ embedding.source.bytes) (destination : 0 ∉ embedding.destination.bytes)
    (folder : 0 ∉ embedding.destination.folder.bytes) :
    ∀ refusal, failure.refusal? = some refusal → refusal.OfSystem := by
  intro refusal refused
  cases met with
  | names => cases refused
  | source _ unread =>
      cases refused
      exact Disk.read_onlyBySystem source _ unread
  | mode _ _ unknown =>
      cases refused
      exact Disk.modeOf_onlyBySystem destination _ unknown
  | scratch _ _ _ homeless =>
      cases refused
      exact Disk.scratchPlace_onlyBySystem folder _ homeless
  | rename _ _ _ _ barred =>
      cases refused
      exact Disk.placeFor_onlyBySystem destination _ barred

end Embedding

/-! ## The error output -/

namespace Invocation

/-- The lines on the error output, in order and without their times. -/
def errorLines (run : Invocation) : List String :=
  run.shown.map Event.line ++ run.complaint?.toList

/-- Whether a line says that something failed. -/
def isComplaint (line : String) : Bool :=
  "Error:".toList.isPrefixOf line.toList

theorem isComplaint_line (event : Event) : isComplaint event.line = false := by
  unfold isComplaint Event.line
  simp only [String.toList_append]
  obtain column | column := event.column_level
  · rw [column]
    rfl
  · rw [column]
    rfl

/-- Of all lines the complaint alone says that something failed. -/
theorem filter_errorLines {run : Invocation}
    (complains : ∀ line, run.complaint? = some line → isComplaint line = true) :
    run.errorLines.filter isComplaint = run.complaint?.toList := by
  have log : (run.shown.map Event.line).filter isComplaint = [] := by
    rw [List.filter_eq_nil_iff]
    intro line member
    obtain ⟨event, -, rfl⟩ := List.mem_map.mp member
    rw [isComplaint_line]
    exact Bool.false_ne_true
  have last : run.complaint?.toList.filter isComplaint = run.complaint?.toList := by
    rw [List.filter_eq_self]
    exact fun line member => complains line (Option.mem_toList.mp member)
  rw [errorLines, List.filter_append, log, last, List.nil_append]

def sourceName : String :=
  "vector_multiply.spv"

def destinationName : String :=
  "../include/parallax/shaders/vector_multiply.hpp"

/-- What can be said to have failed. -/
def grievances : List String :=
  ["Failed to read shader module " ++ sourceName, "Failed to write header " ++ destinationName]

/-- The complaint that something was refused, with what is added to the words of the system. -/
def complaintOf (grievance : String) (refusal : Refusal) (addition : String) : String :=
  "Error: Failed to generate " ++ destinationName ++ ": " ++ grievance ++ ": " ++
    refusal.message ++ addition

theorem isComplaint_complaintOf (grievance : String) (refusal : Refusal) (addition : String) :
    isComplaint (complaintOf grievance refusal addition) = true := by
  unfold isComplaint complaintOf
  simp only [String.toList_append]
  rfl

variable {grievance addition : String} {refusal : Refusal}

theorem oneLine_complaintOf (among : grievance ∈ grievances) (added : OneLine addition) :
    OneLine (complaintOf grievance refusal addition) := by
  have each : ∀ grievance ∈ grievances, OneLine grievance := by decide
  have message : OneLine refusal.message := by cases refusal <;> decide
  unfold complaintOf
  simp only [oneLine_append]
  exact ⟨⟨⟨⟨by decide, each _ among⟩, by decide⟩, message⟩, added⟩

/-- The system ends what it says with a bracket, behind the number that it gives. -/
theorem message_ofSystem (own : refusal.OfSystem) :
    ∃ words, refusal.message.toList = words ++ [')'] ∧
      occurrences "os error".toList (' ' :: words) = 1 := by
  refine ⟨refusal.message.toList.dropLast, ?_⟩
  cases refusal with
  | nulInPath => exact own.elim
  | notText => exact own.elim
  | _ => decide

/-- The system is quoted once, and nothing but the addition comes after that. -/
theorem occurrences_complaintOf (among : grievance ∈ grievances) (own : refusal.OfSystem)
    (addition : String) :
    occurrences "os error".toList (complaintOf grievance refusal addition).toList =
      1 + occurrences "os error".toList addition.toList := by
  have heading : occurrences "os error".toList
      ("Error: Failed to generate ".toList ++ destinationName.toList) = 0 := by
    decide
  have each : ∀ grievance ∈ grievances,
      occurrences "os error".toList (' ' :: grievance.toList) = 0 := by
    decide
  obtain ⟨words, closed, quoted⟩ := message_ofSystem own
  have cut : (complaintOf grievance refusal addition).toList =
      ("Error: Failed to generate ".toList ++ destinationName.toList) ++
        ':' :: ((' ' :: grievance.toList) ++ ':' :: ((' ' :: words) ++ ')' :: addition.toList)) := by
    unfold complaintOf
    simp only [String.toList_append, closed, List.append_assoc]
    rfl
  rw [cut, occurrences_append_cons (by decide) (by decide),
    occurrences_append_cons (by decide) (by decide),
    occurrences_append_cons (by decide) (by decide), heading, each _ among, quoted, Nat.zero_add,
    Nat.zero_add]

/-! ## How a run ends -/

/-- A run that ends well confirms what the generation has done. -/
structure Confirms (generation : Outcome Report) (after : Disk) (run : Invocation) : Prop where
  succeeded : ∃ report, generation.result = .ok report
  done : after = generation.disk
  exitCode : run.exitCode = 0
  notice : run.notice? = some "Generated vector_multiply.hpp"
  complaint : run.complaint? = none

/-- What is added to the words of the system: nothing, unless the scratch file was refused, to
which its maker adds what it says about the folder of the header. -/
inductive Added (site : Site) (disk : Disk) (refusal : Refusal) : String → Prop where
  | nothing : Added site disk refusal ""
  | scratch
      (homeless : disk.scratchPlace site Embedding.usual.destination = .error refusal) :
      Added site disk refusal
        (site.scratchWords.addition (Save.scratchFolder site Embedding.usual.destination))

theorem Added.oneLine {site : Site} {disk : Disk} (added : Added site disk refusal addition) :
    OneLine addition := by
  cases added with
  | nothing => decide
  | scratch => exact site.scratchWords.oneLine _

/-- A run that ends badly changes nothing and complains: it names the header that it was to
generate, what failed and at which path, and once why the system refused it.  What is added to
that comes last. -/
structure Complains (grievance : String) (refusal : Refusal) (addition : String) (disk : Disk)
    (generation : Outcome Report) (after : Disk) (run : Invocation) : Prop where
  failed : ∃ failure, generation.result = .error failure ∧ failure.message = grievance ∧
    failure.refusal? = some refusal ∧ failure.addition = addition
  unchanged : after = disk
  exitCode : run.exitCode = 1
  notice : run.notice? = none
  complaint : run.complaint? = some (complaintOf grievance refusal addition)
  once : occurrences "os error".toList (complaintOf grievance refusal addition).toList =
    1 + occurrences "os error".toList addition.toList

theorem valid_usual : Embedding.usual.Valid := by
  decide

theorem display_source : Embedding.usual.source.display = sourceName :=
  rfl

theorem display_destination : Embedding.usual.destination.display = destinationName :=
  rfl

theorem notice_report (words : Words) :
    (Embedding.usual.report words).notice = "Generated vector_multiply.hpp" :=
  rfl

variable {site : Site} {disk : Disk} {failure : Failure}

theorem complaint_of_refusal (refused : failure.refusal? = some refusal) :
    complaint .usual failure = complaintOf failure.message refusal failure.addition := by
  unfold complaint complaintOf Failure.fullMessage
  rw [refused, display_destination]
  simp only [String.append_assoc]

theorem refused_of_stopped (stopped : Embedding.usual.Stopped failure) :
    failure.message ∈ grievances ∧ ∃ refusal, failure.refusal? = some refusal := by
  cases stopped with
  | unread refusal =>
      refine ⟨?_, refusal, rfl⟩
      change "Failed to read shader module " ++ Embedding.usual.source.display ∈ grievances
      rw [display_source]
      exact List.mem_cons_self
  | unwritten refusal addition =>
      refine ⟨?_, refusal, rfl⟩
      change "Failed to write header " ++ Embedding.usual.destination.display ∈ grievances
      rw [display_destination]
      exact List.mem_cons_of_mem _ List.mem_cons_self

theorem added_of_firstFault (met : Embedding.usual.FirstFault site disk failure)
    (refused : failure.refusal? = some refusal) : Added site disk refusal failure.addition := by
  cases met with
  | scratch valid readable known homeless =>
      cases refused
      exact .scratch homeless
  | names | source | mode | rename => exact .nothing

/-- How a run ends, by the outcome of the generation. -/
theorem confirms_or_complains (site : Site) (setting? : Option String) (disk : Disk) :
    Confirms (Embedding.usual.generate site disk) (perform site setting? disk).1
        (perform site setting? disk).2 ∨
      ∃ grievance ∈ grievances, ∃ refusal addition, Added site disk refusal addition ∧
        Complains grievance refusal addition disk (Embedding.usual.generate site disk)
          (perform site setting? disk).1 (perform site setting? disk).2 := by
  unfold perform ofAccount
  obtain ⟨failure, met⟩ | ⟨bytes, after, valid, readable, saved⟩ :=
    Embedding.usual.firstFault_or_saved site disk
  · right
    obtain ⟨failed, unchanged⟩ := met.generate
    obtain ⟨among, refusal, refused⟩ := refused_of_stopped (met.stopped valid_usual)
    have own := met.ofSystem (by decide) (by decide) (by decide) refusal refused
    refine ⟨failure.message, among, refusal, _, added_of_firstFault met refused, ?_⟩
    simp only [failed, unchanged, complaint_of_refusal refused]
    exact ⟨⟨failure, failed, rfl, refused, rfl⟩, rfl, rfl, rfl, rfl,
      occurrences_complaintOf among own _⟩
  · left
    rw [Embedding.generate_of_saved valid readable saved]
    exact ⟨⟨_, rfl⟩, rfl, rfl, congrArg some (notice_report _), rfl⟩

theorem shown_sublist (setting? : Option String) (account : Account Report) :
    (ofAccount setting? account).shown.Sublist account.events := by
  obtain ⟨events, result⟩ := account
  cases result with
  | ok report => exact List.filter_sublist
  | error failure => exact List.filter_sublist

/-- Another filter shows other events and changes nothing else. -/
theorem ofAccount_setting (setting? other? : Option String) (account : Account Report) :
    ∃ shown, ofAccount other? account = { ofAccount setting? account with shown } := by
  obtain ⟨events, result⟩ := account
  cases result with
  | ok report => exact ⟨_, rfl⟩
  | error failure => exact ⟨_, rfl⟩

/-- A run complains in a single line that is told from those of events. -/
theorem line_of_complaint (site : Site) (setting? : Option String) (disk : Disk) {line : String}
    (said : (perform site setting? disk).2.complaint? = some line) :
    isComplaint line = true ∧ OneLine line := by
  obtain confirms | ⟨grievance, among, refusal, addition, added, complains⟩ :=
    confirms_or_complains site setting? disk
  · cases said.symm.trans confirms.complaint
  · cases said.symm.trans complains.complaint
    exact ⟨isComplaint_complaintOf grievance refusal addition,
      oneLine_complaintOf among added.oneLine⟩

/-- **A run tells how the generation went, whatever events it shows.**  It confirms a header
that is in place, or complains once, in a single line at the end of the error output, and then
nothing has changed.  The other lines there are those of events of the generation, in order,
and nothing else depends on the setting of the filter. -/
theorem perform_faithful (site : Site) (disk : Disk) (setting? : Option String) :
    let generation := Embedding.usual.generate site disk
    let after := (perform site setting? disk).1
    let run := (perform site setting? disk).2
    (Confirms generation after run ∨ ∃ grievance ∈ grievances, ∃ refusal addition,
      Added site disk refusal addition ∧
        Complains grievance refusal addition disk generation after run) ∧
    (∃ log, log.Sublist (generation.events.map Event.line) ∧
      run.errorLines = log ++ run.complaint?.toList ∧
      run.errorLines.filter isComplaint = run.complaint?.toList ∧
      ∀ line ∈ run.errorLines, OneLine line) ∧
    (∀ other?, ∃ shown, perform site other? disk = (after, { run with shown })) ∧
    ∀ fault, generation.result ≠ .error (.invalid fault) := by
  intro generation after run
  have ending := confirms_or_complains site setting? disk
  have among := shown_sublist setting? generation.toAccount
  refine ⟨ending, ⟨_, among.map Event.line, rfl, ?_, ?_⟩, ?_, ?_⟩
  · exact filter_errorLines fun line said => (line_of_complaint site setting? disk said).1
  · intro line member
    obtain member | member := List.mem_append.mp member
    · obtain ⟨event, told, rfl⟩ := List.mem_map.mp member
      have own := Event.of_mem_generate (among.subset told)
      exact own.oneLine_line (by decide) (by decide) (by decide)
    · exact (line_of_complaint site setting? disk (Option.mem_toList.mp member)).2
  · intro other?
    obtain ⟨shown, same⟩ := ofAccount_setting setting? other? generation.toAccount
    exact ⟨shown, congrArg (Prod.mk generation.disk) same⟩
  · intro fault failed
    cases Embedding.stopped_of_generate valid_usual failed

/-- A character inside quotes, where a line end is spelled by two characters. -/
def quoted (character : Char) : List Char :=
  if character = '\n' then ['\\', 'n'] else [character]

/-- The words of a maker of scratch files that tells where it wanted to have one. -/
def pathWords : ScratchWords where
  addition folder :=
    " at path \"" ++ String.ofList (folder.display.toList.flatMap quoted) ++ "/.tmpAbCdEf\""
  oneLine folder := by
    have each : ∀ character : Char, '\n' ∉ quoted character := by
      intro character
      unfold quoted
      split
      · decide
      · next other => exact fun member => other (List.mem_singleton.mp member).symm
    have path : OneLine (String.ofList (folder.display.toList.flatMap quoted)) := by
      unfold OneLine
      rw [String.toList_ofList, List.mem_flatMap]
      rintro ⟨character, -, member⟩
      exact each character member
    exact oneLine_append.mpr ⟨oneLine_append.mpr ⟨by decide, path⟩, by decide⟩

/-- The root, with words for refused scratch files. -/
def lockedSite : Site :=
  { Embedding.smallSite with scratchWords := pathWords }

/-- A disk with the usual module, and with a folder for its header in which the user must not
write. -/
def lockedDisk : Disk :=
  let names := ["include", "parallax", "shaders"].map Utf8.encode
  { entries := [([], .directory 0o755), ([Utf8.encode sourceName], .file 0o644 [3, 2, 35, 7]),
      (names.take 1, .directory 0o755), (names.take 2, .directory 0o755),
      (names, .directory 0o555)] }

theorem addition_lockedSite :
    lockedSite.scratchWords.addition
        (Save.scratchFolder lockedSite Embedding.usual.destination) =
      " at path \"/../include/parallax/shaders/.tmpAbCdEf\"" := by
  have folder : Save.scratchFolder lockedSite Embedding.usual.destination =
      .ofString "/../include/parallax/shaders" := by
    decide
  have shown : (Path.ofString "/../include/parallax/shaders").display =
      "/../include/parallax/shaders" := rfl
  have unchanged : "/../include/parallax/shaders".toList.flatMap quoted =
      "/../include/parallax/shaders".toList := by
    decide
  rw [folder]
  change _ ++ String.ofList ((Path.ofString _).display.toList.flatMap quoted) ++ _ = _
  rw [shown, unchanged]
  rfl

/-- Where the user must not write, a run complains alike whether it shows events or not. -/
theorem perform_faithful_locked :
    let complaint := complaintOf ("Failed to write header " ++ destinationName) .notPermitted
      " at path \"/../include/parallax/shaders/.tmpAbCdEf\""
    ((perform lockedSite none lockedDisk).2.exitCode = 1 ∧
      (perform lockedSite none lockedDisk).2.complaint? = some complaint) ∧
    (perform lockedSite (some "debug") lockedDisk).2.exitCode = 1 ∧
      (perform lockedSite (some "debug") lockedDisk).2.errorLines.filter isComplaint =
        [complaint] := by
  intro complaint
  have failed : (Embedding.usual.generate lockedSite lockedDisk).result =
      .error (.unwrittenHeader Embedding.usual.destination .notPermitted
        (lockedSite.scratchWords.addition
          (Save.scratchFolder lockedSite Embedding.usual.destination))) := rfl
  rw [addition_lockedSite] at failed
  have each (setting? : Option String) :
      (perform lockedSite setting? lockedDisk).2.exitCode = 1 ∧
        (perform lockedSite setting? lockedDisk).2.complaint? = some complaint ∧
        (perform lockedSite setting? lockedDisk).2.errorLines.filter isComplaint =
          [complaint] := by
    obtain ⟨confirms | ⟨_, -, _, _, -, complains⟩, ⟨-, -, -, complaints, -⟩, -⟩ :=
      perform_faithful lockedSite lockedDisk setting?
    · obtain ⟨report, succeeded⟩ := confirms.succeeded
      cases failed.symm.trans succeeded
    · obtain ⟨failure, same, rfl, refused, rfl⟩ := complains.failed
      cases failed.symm.trans same
      cases refused
      have said : (perform lockedSite setting? lockedDisk).2.complaint? = some complaint :=
        complains.complaint
      refine ⟨complains.exitCode, said, ?_⟩
      rw [complaints, said]
      rfl
  obtain ⟨code, said, -⟩ := each none
  obtain ⟨codeToo, -, complaints⟩ := each (some "debug")
  exact ⟨⟨code, said⟩, codeToo, complaints⟩

end Invocation

end ShaderHeader
