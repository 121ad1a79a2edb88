import ShaderHeader.Proofs.Generation.Series
import ShaderHeader.Proofs.Words

/-!
# What generations tell

A generation tells how far it gets, and of the module nothing but its length.  A series tells what
its entries tell, one after another up to and including the first that fails; so the warnings about
incomplete words are those of the modules that were read (`Embedding.events_eq_traces`).
-/

namespace ShaderHeader

/-- How far a generation gets, with the length of the module that it has read. -/
inductive Course where
  | refused
  | unread
  | unsaved (length : Nat)
  | saved (length : Nat)

/-- The length of the module, if it was read. -/
def Course.length? : Course → Option Nat
  | .refused | .unread => none
  | .unsaved length | .saved length => some length

/-- The course of a turn: names are checked first, then the module is read, then the header is
saved. -/
def Turn.course (turn : Turn) : Course :=
  if ¬ turn.embedding.Valid then .refused
  else match turn.disk.read turn.site.directory turn.embedding.source with
    | .error _ => .unread
    | .ok bytes =>
      let header := turn.embedding.headerBytes bytes
      match (turn.disk.save turn.site turn.embedding.destination header).2 with
      | some _ => .unsaved bytes.length
      | none => .saved bytes.length

/-- The warning that a module of this length calls for. -/
def Event.warnings (source : Path) (length : Nat) : List Event :=
  if length % 4 = 0 then [] else [.trailing source length (length % 4)]

namespace Embedding

/-- What is told until a header is about to be written. -/
def preamble (embedding : Embedding) (length : Nat) : List Event :=
  .reading embedding.source ::
    (Event.warnings embedding.source length ++ [.writing embedding.destination (length / 4)])

/-- What is told on a course. -/
def trace (embedding : Embedding) : Course → List Event
  | .refused => []
  | .unread => [.reading embedding.source]
  | .unsaved length => embedding.preamble length
  | .saved length =>
    embedding.preamble length ++ [.generated embedding.arrayName (length / 4) (4 * (length / 4))]

end Embedding

namespace Turn

/-- Turns up to and including the first that fails. -/
def taken : List Turn → List Turn
  | [] => []
  | turn :: rest =>
    match turn.outcome.result with
    | .error _ => [turn]
    | .ok _ => turn :: taken rest

/-- The warning that the module of a turn calls for, if it was read. -/
def warnings (turn : Turn) : List Event :=
  match turn.course.length? with
  | none => []
  | some length => Event.warnings turn.embedding.source length

end Turn

namespace Embedding

theorem events_account (embedding : Embedding) (bytes : List UInt8)
    (setback? : Option Save.Setback) :
    (embedding.account bytes setback?).events =
      embedding.trace (match setback? with
        | some _ => .unsaved bytes.length
        | none => .saved bytes.length) := by
  have begun : (.reading embedding.source ::
      ((Words.ofBytes bytes).warning embedding.source bytes.length ++
        [.writing embedding.destination (Words.ofBytes bytes).size])) =
      embedding.preamble bytes.length := by
    rw [preamble, Event.warnings, Words.warning, Words.dropped_ofBytes, Words.size_ofBytes]
  have counted : (Words.ofBytes bytes).byteSize = 4 * (bytes.length / 4) := by
    rw [← Words.size_ofBytes, Words.byteSize]
  cases setback? with
  | some setback => exact begun
  | none =>
      rw [trace, ← begun, ← counted, ← Words.size_ofBytes]
      rfl

end Embedding

namespace Turn

/-- **A turn tells its course**, and it goes well when the header is saved. -/
theorem events_outcome (turn : Turn) :
    turn.outcome.events = turn.embedding.trace turn.course ∧
      ((∃ report, turn.outcome.result = .ok report) ↔ ∃ length, turn.course = .saved length) := by
  obtain ⟨site, disk, embedding⟩ := turn
  unfold outcome course
  dsimp only
  cases names : embedding.fault? with
  | some fault =>
      have invalid : ¬ embedding.Valid := by
        rw [Embedding.Valid, names]
        nofun
      rw [Embedding.generate_of_invalid names, if_pos invalid]
      exact ⟨rfl, nofun, nofun⟩
  | none =>
      have valid : embedding.Valid := names
      rw [if_neg (not_not_intro valid)]
      cases readable : disk.read site.directory embedding.source with
      | error refusal =>
          rw [Embedding.generate_of_unread valid readable]
          exact ⟨rfl, nofun, nofun⟩
      | ok bytes =>
          dsimp only
          rw [Disk.save_eq]
          cases saved : disk.saveAtOnce site embedding.destination
              (embedding.headerBytes bytes) with
          | error setback =>
              rw [Embedding.generate_of_unsaved valid readable saved]
              exact ⟨Embedding.events_account .., nofun, nofun⟩
          | ok after =>
              rw [Embedding.generate_of_saved valid readable saved]
              refine ⟨Embedding.events_account .., fun _ => ⟨_, rfl⟩, fun _ => ⟨_, rfl⟩⟩

/-- Of what a turn tells, only the warning about its module is a warning. -/
theorem filter_trace (turn : Turn) :
    (turn.embedding.trace turn.course).filter (·.level = .warn) = turn.warnings := by
  have warned (source : Path) (length : Nat) :
      (Event.warnings source length).filter (·.level = .warn) =
        Event.warnings source length := by
    unfold Event.warnings
    by_cases whole : length % 4 = 0
    · rw [if_pos whole, List.filter_nil]
    · rw [if_neg whole]
      rfl
  have begun (length : Nat) : (turn.embedding.preamble length).filter (·.level = .warn) =
      Event.warnings turn.embedding.source length := by
    rw [Embedding.preamble, List.filter_cons_of_neg (by simp [Event.level]), List.filter_append,
      warned]
    exact List.append_nil _
  unfold warnings
  cases turn.course with
  | refused => rfl
  | unread => rfl
  | unsaved length => exact begun length
  | saved length =>
      rw [Embedding.trace, List.filter_append, begun]
      exact List.append_nil _

end Turn

namespace Embedding

/-- A series tells what its turns tell, as far as they are taken. -/
theorem events_generateAll (site : Site) (embeddings : List Embedding) (disk : Disk) :
    (generateAll site embeddings disk).events =
      eventsOf (Turn.taken (turns site embeddings disk)) := by
  induction embeddings generalizing disk with
  | nil => rfl
  | cons first rest ih =>
      have here : (Turn.mk site disk first).outcome = first.generate site disk := rfl
      rw [turns, Turn.taken, here]
      cases result : (first.generate site disk).result with
      | error failure =>
          rw [generateAll_cons_of_error result]
          exact (List.append_nil _).symm
      | ok report =>
          rw [generateAll_cons_of_ok result, Outcome.following, ih]
          rfl

/-- **What generations tell.** A generation tells its course, and it succeeds exactly when the
header is saved.  A series tells the courses of its entries in order, up to and including the first
entry that fails, so it warns of each module with an incomplete word that was read by then, once
and under its own path, and of nothing else. -/
theorem events_eq_traces (site : Site) (embeddings : List Embedding) (disk : Disk) :
    (∀ turn : Turn, turn.outcome.events = turn.embedding.trace turn.course ∧
        ((∃ report, turn.outcome.result = .ok report) ↔
          ∃ length, turn.course = .saved length)) ∧
      (generateAll site embeddings disk).events =
        (Turn.taken (turns site embeddings disk)).flatMap
          (fun turn => turn.embedding.trace turn.course) ∧
      (generateAll site embeddings disk).events.filter (·.level = .warn) =
        (Turn.taken (turns site embeddings disk)).flatMap Turn.warnings := by
  have told : (generateAll site embeddings disk).events =
      (Turn.taken (turns site embeddings disk)).flatMap
        (fun turn => turn.embedding.trace turn.course) := by
    rw [events_generateAll, eventsOf]
    simp only [(Turn.events_outcome _).1]
  refine ⟨Turn.events_outcome, told, ?_⟩
  rw [told, List.filter_flatMap]
  simp only [Turn.filter_trace]

end Embedding

end ShaderHeader
