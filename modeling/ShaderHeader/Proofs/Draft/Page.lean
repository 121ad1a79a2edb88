import ShaderHeader.Draft
import ShaderHeader.Layout

/-!
# Drafts line by line

Edits come down to steps, of which only the end of a line and what is written show on the page.
`Draft.page` says what a page holds without a draft: line by line, the strings that are written
on it, after the indentation that is in force when the first of them is written.  A draft that
is edited holds just this page (`Draft.text_editAll`).
-/

namespace ShaderHeader

namespace Draft

/-- What a draft can be told to do in one step. -/
inductive Step where
  | write (s : String)
  | newline
  | indent
  | outdent
deriving DecidableEq, Repr

mutual

/-- The steps of an edit. -/
def Edit.steps : Edit → List Step
  | .write s => [.write s]
  | .writeLine s => [.write s, .newline]
  | .newline => [.newline]
  | .indent => [.indent]
  | .outdent => [.outdent]
  | .indented body => .indent :: Edit.stepsAll body ++ [.outdent]

/-- The steps of edits, one after another. -/
def Edit.stepsAll : List Edit → List Step
  | [] => []
  | first :: rest => first.steps ++ Edit.stepsAll rest

end

/-- Takes a step. -/
def step (draft : Draft) : Step → Draft
  | .write s => draft.write s
  | .newline => draft.newline
  | .indent => draft.indent
  | .outdent => draft.outdent

mutual

theorem edit_eq_foldl (draft : Draft) : ∀ one : Edit, draft.edit one = one.steps.foldl step draft
  | .write _ | .writeLine _ | .newline | .indent | .outdent => rfl
  | .indented body => by
      rw [edit, Edit.steps, List.cons_append, List.foldl_cons, List.foldl_append,
        editAll_eq_foldl]
      rfl

/-- Edits do what their steps do. -/
theorem editAll_eq_foldl (draft : Draft) :
    ∀ edits : List Edit, draft.editAll edits = (Edit.stepsAll edits).foldl step draft
  | [] => rfl
  | first :: rest => by
      rw [editAll, Edit.stepsAll, List.foldl_append, ← edit_eq_foldl, editAll_eq_foldl]

end

/-- What is written on each line from a level on, each string with the level that is in force
when it is written.  There is one more line than there are line ends. -/
def written (level : Nat) : List Step → List (List (Nat × String))
  | [] => [[]]
  | .write s :: rest => (written level rest).modifyHead ((level, s) :: ·)
  | .newline :: rest => [] :: written level rest
  | .indent :: rest => written (level + 1) rest
  | .outdent :: rest => written (level - 1) rest

/-- All that is written on a line, without indentation. -/
def bareLine (line : List (Nat × String)) : String :=
  String.join (line.map Prod.snd)

/-- What a line holds: all that is written on it, after the indentation of the level in force
when something is first written.  On a line on which nothing is written stands nothing. -/
def wholeLine (unit : String) (line : List (Nat × String)) : String :=
  match line.find? fun writing => writing.2 ≠ "" with
  | none => ""
  | some (level, _) => String.join (List.replicate level unit) ++ bareLine line

/-- What steps leave on a page, with line ends between its lines. -/
def page (unit : String) (steps : List Step) : String :=
  "\n".intercalate ((written 0 steps).map (wholeLine unit))

theorem indentation_eq (unit : String) (level : Nat) :
    indentation unit level = String.join (List.replicate level unit) := by
  induction level with
  | zero => rfl
  | succ level ih => rw [indentation, ih, List.replicate_succ, String.join_cons]

theorem written_ne_nil (level : Nat) (steps : List Step) : written level steps ≠ [] := by
  induction steps generalizing level with
  | nil => exact List.cons_ne_nil _ _
  | cons first rest ih =>
      cases first with
      | write s =>
          rw [written]
          cases lines : written level rest with
          | nil => exact absurd lines (ih level)
          | cons line others => exact List.cons_ne_nil _ _
      | newline => exact List.cons_ne_nil _ _
      | indent => exact ih (level + 1)
      | outdent => exact ih (level - 1)

theorem wholeLine_blank (unit : String) (level : Nat) (line : List (Nat × String)) :
    wholeLine unit ((level, "") :: line) = wholeLine unit line := by
  unfold wholeLine bareLine
  rw [List.find?_cons, List.map_cons, String.join_cons, String.empty_append]
  rfl

theorem wholeLine_filled (unit : String) (level : Nat) {s : String} (filled : s ≠ "")
    (line : List (Nat × String)) :
    wholeLine unit ((level, s) :: line) = indentation unit level ++ (s ++ bareLine line) := by
  have found : ((level, s) :: line).find? (fun writing => writing.2 ≠ "") = some (level, s) :=
    List.find?_cons_of_pos (decide_eq_true filled)
  unfold wholeLine
  simp only [found, indentation_eq, bareLine, List.map_cons, String.join_cons]

theorem bareLine_cons (writing : Nat × String) (line : List (Nat × String)) :
    bareLine (writing :: line) = writing.2 ++ bareLine line := by
  unfold bareLine
  rw [List.map_cons, String.join_cons]

/-- What is still to come on the line at which a draft stands. -/
def restOfLine (draft : Draft) (line : List (Nat × String)) : String :=
  if draft.atLineStart then wholeLine draft.unit line else bareLine line

theorem restOfLine_nil (draft : Draft) : draft.restOfLine [] = "" := by
  unfold restOfLine
  exact ite_self _

@[simp] theorem level_write (draft : Draft) (s : String) :
    (draft.write s).level = draft.level := by
  unfold write
  split <;> rfl

@[simp] theorem unit_write (draft : Draft) (s : String) : (draft.write s).unit = draft.unit := by
  unfold write
  split <;> rfl

/-- A string that is written is the first of what is still to come on the line. -/
theorem text_write (draft : Draft) (s : String) (line : List (Nat × String)) :
    (draft.write s).text ++ (draft.write s).restOfLine line =
      draft.text ++ draft.restOfLine ((draft.level, s) :: line) := by
  unfold write restOfLine
  cases start : draft.atLineStart with
  | false => simp [bareLine_cons, String.append_assoc]
  | true =>
      by_cases blank : s = ""
      · subst blank
        simp [wholeLine_blank]
      · simp [blank, wholeLine_filled, String.append_assoc]

/-- **Steps line by line.**  Steps add to a draft the lines that are written by them; the first of
these continues the line at which the draft stands. -/
theorem text_foldl_step {draft : Draft} {steps : List Step} {first : List (Nat × String)}
    {others : List (List (Nat × String))} (lines : written draft.level steps = first :: others) :
    (steps.foldl step draft).text = draft.text ++
      "\n".intercalate (draft.restOfLine first :: others.map (wholeLine draft.unit)) := by
  induction steps generalizing draft first others with
  | nil =>
      cases lines
      rw [List.map_nil, String.intercalate_singleton, restOfLine_nil, String.append_empty]
      rfl
  | cons one rest ih =>
      rw [List.foldl_cons]
      cases one with
      | write s =>
          rw [written] at lines
          cases later : written draft.level rest with
          | nil => exact absurd later (written_ne_nil _ _)
          | cons line more =>
              rw [later] at lines
              cases lines
              have next : written (draft.write s).level rest = line :: others := by
                rw [level_write, later]
              rw [step, ih next, unit_write, ← String.intercalate_cons_append,
                ← String.intercalate_cons_append, text_write]
      | newline =>
          cases lines
          cases later : written draft.level rest with
          | nil => exact absurd later (written_ne_nil _ _)
          | cons line more =>
              have next : written draft.newline.level rest = line :: more := later
              rw [step, ih next, restOfLine_nil, List.map_cons, String.intercalate_cons_cons,
                String.empty_append, ← String.append_assoc]
              rfl
      | indent =>
          have next : written draft.indent.level rest = first :: others := lines
          exact ih next
      | outdent =>
          have next : written draft.outdent.level rest = first :: others := lines
          exact ih next

/-- Writing a string in two parts is writing it. -/
theorem write_write (draft : Draft) (s t : String) :
    (draft.write s).write t = draft.write (s ++ t) := by
  unfold write
  cases start : draft.atLineStart with
  | false => simp [String.append_assoc]
  | true =>
      by_cases blank : s = ""
      · subst blank
        simp
      · simp [blank, String.append_assoc]

/-- Writing strings one after another is writing them as one. -/
theorem foldl_step_write (draft : Draft) (strings : List String) :
    (strings.map Step.write).foldl step draft = draft.write (String.join strings) := by
  induction strings generalizing draft with
  | nil =>
      rw [String.join_nil, write]
      simp
  | cons first rest ih =>
      rw [List.map_cons, List.foldl_cons, ih, String.join_cons, ← write_write]
      rfl

/-- Whether a step neither writes anything nor ends the line. -/
def Step.isIdle : Step → Bool
  | .write s => s = ""
  | .newline => false
  | .indent | .outdent => true

/-- Idle steps leave the text alone. -/
theorem text_of_idle (draft : Draft) {steps : List Step}
    (idle : ∀ one ∈ steps, one.isIdle = true) : (steps.foldl step draft).text = draft.text := by
  induction steps generalizing draft with
  | nil => rfl
  | cons one rest ih =>
      obtain ⟨first, others⟩ := List.forall_mem_cons.mp idle
      rw [List.foldl_cons, ih _ others]
      cases one with
      | write s =>
          rw [Step.isIdle, decide_eq_true_eq] at first
          subst first
          simp [step, write]
      | newline => cases first
      | indent | outdent => rfl

/-- A draft that is begun and edited holds the page of its edits. -/
theorem text_editAll (unit : String) (edits : List Edit) :
    (({ unit := unit } : Draft).editAll edits).text = page unit (Edit.stepsAll edits) := by
  rw [editAll_eq_foldl, page]
  cases lines : written 0 (Edit.stepsAll edits) with
  | nil => exact absurd lines (written_ne_nil _ _)
  | cons first others =>
      rw [text_foldl_step lines, String.empty_append]
      rfl

/-- **Drafts line by line.**  A draft that is edited holds the page of its edits, and is finished
by ending the last line unless it is ended.  So it does not matter how strings that are written one
after another are divided, and a line on which nothing is written is blank at every level. -/
theorem finish_editAll (layout : Layout) (edits : List Edit) :
    let fresh : Draft := { unit := layout.indent.text }
    let text := page layout.indent.text (Edit.stepsAll edits)
    (fresh.editAll edits).text = text ∧
      (fresh.editAll edits).finish =
        (if text.toList.getLast? = some '\n' then text else text ++ "\n") ∧
      (fresh.editAll []).finish = "\n" ∧
      (∀ (draft : Draft) others strings before after,
        Edit.stepsAll edits = before ++ strings.map Step.write ++ after →
        Edit.stepsAll others = before ++ Step.write (String.join strings) :: after →
        draft.editAll others = draft.editAll edits) ∧
      ∀ draft : Draft, (∀ one ∈ Edit.stepsAll edits, one.isIdle = true) →
        (draft.editAll edits).newline.text = draft.text ++ "\n" := by
  intro fresh text
  have held : (fresh.editAll edits).text = text := text_editAll layout.indent.text edits
  refine ⟨held, ?_, rfl, ?_, ?_⟩
  · rw [finish, held]
  · intro draft others strings before after divided whole
    rw [editAll_eq_foldl, editAll_eq_foldl, divided, whole, List.foldl_append, List.foldl_append,
      List.foldl_append, List.foldl_cons, foldl_step_write]
    rfl
  · intro draft idle
    rw [editAll_eq_foldl, newline, text_of_idle draft idle]

/-- A line at level one whose text is written in three parts, a blank line at level two, and a line
without an end at level zero, whether the first line is written in parts or not. -/
theorem finish_editAll_divided :
    let fresh : Draft := { unit := Indent.text (.spaces 2) }
    let blank : List Edit := [.indent, .write ""]
    let rest : List Edit := [.newline, .indented [.newline], .outdent, .outdent, .write "c"]
    let divided : List Edit := .indent :: .write "a" :: .write "" :: .write "b" :: rest
    (fresh.editAll divided).finish = "  ab\n\nc\n" ∧
      fresh.editAll (.indent :: .write "ab" :: rest) = fresh.editAll divided ∧
      ((fresh.editAll divided).editAll blank).newline.text = (fresh.editAll divided).text ++ "\n" := by
  intro fresh blank rest divided
  obtain ⟨-, finished, -, same, -⟩ := finish_editAll { indent := .spaces 2 } divided
  obtain ⟨-, -, -, -, idle⟩ := finish_editAll { indent := .spaces 2 } blank
  refine ⟨finished.trans (by decide +kernel), ?_, idle (fresh.editAll divided) (by decide)⟩
  exact same fresh (.indent :: .write "ab" :: rest) ["a", "", "b"] [.indent] (Edit.stepsAll rest)
    rfl rfl

end Draft

end ShaderHeader
