import ShaderHeader.Proofs.Draft.Page

/-!
# The level of a draft

A step back at level zero is forgotten, so where edits lead is not told by how many of their steps
go deeper and how many go back.  Once a step has been forgotten only what comes after it counts:
the level is the greater of where all steps would lead if none were forgotten, and of the largest
rise of an end of them (`Draft.level_editAll`).
-/

namespace ShaderHeader

namespace Draft

/-- How much deeper a step leads. -/
def Step.rise : Step → Int
  | .indent => 1
  | .outdent => -1
  | .write _ | .newline => 0

/-- How much deeper steps lead altogether. -/
def rise : List Step → Int
  | [] => 0
  | first :: rest => first.rise + rise rest

/-- A number is the largest rise of an end of steps; one of these ends is empty. -/
structure LargestRise (steps : List Step) (number : Int) : Prop where
  reached : ∃ ending, ending <:+ steps ∧ rise ending = number
  bound : ∀ ending, ending <:+ steps → rise ending ≤ number

/-- Steps that go back as often as they go deeper, and never more often up to any of them. -/
structure Balanced (steps : List Step) : Prop where
  ahead : ∀ front, front <+: steps → front.count .outdent ≤ front.count .indent
  even : steps.count .outdent = steps.count .indent

/-- Edits made of writing and of indented edits alone. -/
inductive Edit.Nested : Edit → Prop where
  | write (s : String) : Nested (.write s)
  | writeLine (s : String) : Nested (.writeLine s)
  | newline : Nested .newline
  | indented {body : List Edit} (inside : ∀ one ∈ body, Nested one) : Nested (.indented body)

/-- The largest rise of an end, computed from the last step on. -/
def highestRise : List Step → Int
  | [] => 0
  | first :: rest => max (rise (first :: rest)) (highestRise rest)

variable {steps : List Step}

theorem Step.neg_one_le_rise (one : Step) : -1 ≤ one.rise := by
  unfold rise
  split <;> decide

theorem rise_append (front back : List Step) : rise (front ++ back) = rise front + rise back := by
  induction front with
  | nil => exact (Int.zero_add _).symm
  | cons first rest ih => rw [List.cons_append, rise, rise, ih, Int.add_assoc]

theorem rise_eq_count (steps : List Step) :
    rise steps = steps.count .indent - steps.count .outdent := by
  induction steps with
  | nil => rfl
  | cons first rest ih =>
      rw [rise, ih, List.count_cons, List.count_cons]
      cases first with
      | write s => simp [Step.rise]
      | newline => simp [Step.rise]
      | indent => simp [Step.rise]; omega
      | outdent => simp [Step.rise]; omega

theorem largestRise_highestRise (steps : List Step) : LargestRise steps (highestRise steps) := by
  induction steps with
  | nil =>
      refine ⟨⟨[], List.suffix_rfl, rfl⟩, fun ending suffix => ?_⟩
      rw [List.suffix_nil.mp suffix]
      exact Int.le_refl _
  | cons first rest ih =>
      obtain ⟨⟨ending, suffix, high⟩, bound⟩ := ih
      rw [highestRise]
      constructor
      · by_cases whole : highestRise rest ≤ rise (first :: rest)
        · exact ⟨first :: rest, List.suffix_rfl, (Int.max_eq_left whole).symm⟩
        · refine ⟨ending, List.suffix_cons_iff.mpr (.inr suffix), ?_⟩
          rw [high, Int.max_eq_right (Int.le_of_not_le whole)]
      · intro other suffix
        obtain rfl | later := List.suffix_cons_iff.mp suffix
        · exact Int.le_max_left _ _
        · exact Int.le_trans (bound other later) (Int.le_max_right _ _)

/-- The empty end has a rise of zero. -/
theorem LargestRise.nonneg {number : Int} (largest : LargestRise steps number) : 0 ≤ number :=
  largest.bound [] (List.nil_suffix)

/-- What a single step does to the level: a step back at level zero does nothing. -/
theorem level_step (draft : Draft) (one : Step) :
    ((draft.step one).level : Int) = max (draft.level + one.rise) 0 := by
  cases one with
  | write s =>
      rw [step, level_write, Step.rise]
      omega
  | newline =>
      change (draft.level : Int) = _
      rw [Step.rise]
      omega
  | indent =>
      change ((draft.level + 1 : Nat) : Int) = _
      rw [Step.rise]
      omega
  | outdent =>
      change ((draft.level - 1 : Nat) : Int) = _
      rw [Step.rise]
      omega

/-- **The level that steps lead to.** -/
theorem level_foldl_step (draft : Draft) (steps : List Step) :
    ((steps.foldl step draft).level : Int) = max (draft.level + rise steps) (highestRise steps) := by
  induction steps generalizing draft with
  | nil =>
      rw [List.foldl_nil, rise, highestRise]
      omega
  | cons first rest ih =>
      -- where the first step is forgotten, its rise would be missing from all that follows
      have whole : rise rest ≤ highestRise rest :=
        (largestRise_highestRise rest).bound rest List.suffix_rfl
      have least := first.neg_one_le_rise
      rw [List.foldl_cons, ih, level_step, highestRise, rise]
      omega

/-- Steps go back to where they began, wherever that is, when they are balanced and only then. -/
theorem balanced_iff :
    Balanced steps ↔ ∀ draft : Draft, (steps.foldl step draft).level = draft.level := by
  have largest := largestRise_highestRise steps
  constructor
  · rintro ⟨ahead, even⟩ draft
    have none : highestRise steps = 0 := by
      obtain ⟨ending, ⟨front, rfl⟩, high⟩ := largest.reached
      have before := ahead front (List.prefix_append _ _)
      have whole := rise_append front ending
      rw [rise_eq_count, rise_eq_count front] at whole
      have least := largest.nonneg
      omega
    have level := level_foldl_step draft steps
    rw [none, rise_eq_count] at level
    omega
  · intro returns
    have low := level_foldl_step { unit := "", level := 0 } steps
    have high := level_foldl_step { unit := "", level := (rise steps).natAbs } steps
    rw [returns] at low high
    have total : rise steps = 0 := by
      dsimp only at low high
      omega
    have none : highestRise steps ≤ 0 := by
      dsimp only at low
      omega
    constructor
    · rintro front ⟨ending, rfl⟩
      have after := largest.bound ending (List.suffix_append _ _)
      rw [rise_append, rise_eq_count front] at total
      omega
    · rw [rise_eq_count] at total
      omega

theorem level_editAll_of_each {edits : List Edit}
    (each : ∀ one ∈ edits, ∀ draft : Draft, (draft.edit one).level = draft.level) (draft : Draft) :
    (draft.editAll edits).level = draft.level := by
  induction edits generalizing draft with
  | nil => rw [editAll]
  | cons first rest ih =>
      obtain ⟨here, later⟩ := List.forall_mem_cons.mp each
      rw [editAll, ih later, here]

theorem level_edit_of_nested {one : Edit} (nested : one.Nested) (draft : Draft) :
    (draft.edit one).level = draft.level := by
  induction nested generalizing draft with
  | write s => rw [edit, level_write]
  | writeLine s =>
      rw [edit]
      exact level_write draft s
  | newline => rw [edit, newline]
  | indented inside ih =>
      rw [edit, outdent, level_editAll_of_each ih]
      exact Nat.add_sub_cancel ..

theorem level_foldl_step_le (draft : Draft) (steps : List Step) :
    (steps.foldl step draft).level ≤ draft.level + steps.count .indent := by
  have largest := largestRise_highestRise steps
  obtain ⟨ending, suffix, high⟩ := largest.reached
  have fewer : ending.count .indent ≤ steps.count .indent := suffix.sublist.count_le _
  have level := level_foldl_step draft steps
  rw [← high, rise_eq_count, rise_eq_count] at level
  omega

/-- **The level of a draft.** Edits lead to the greater of where their steps would lead if levels
could be negative, and of the largest rise of an end of their steps.  They come back to the level
at which they began, whatever it is, exactly when they are balanced, as they are when made of
writing and of indented edits alone.  A level never exceeds the one at the beginning by more than
the steps that go deeper, and a step back at level zero might as well be left out. -/
theorem level_editAll (edits : List Edit) :
    (∃ highest, LargestRise (Edit.stepsAll edits) highest ∧ ∀ draft : Draft,
        ((draft.editAll edits).level : Int) =
          max (draft.level + rise (Edit.stepsAll edits)) highest) ∧
      (Balanced (Edit.stepsAll edits) ↔
        ∀ draft : Draft, (draft.editAll edits).level = draft.level) ∧
      ((∀ one ∈ edits, one.Nested) → Balanced (Edit.stepsAll edits)) ∧
      (∀ draft : Draft,
        (draft.editAll edits).level ≤ draft.level + (Edit.stepsAll edits).count .indent) ∧
      ∀ (draft : Draft) others before after,
        Edit.stepsAll edits = before ++ .outdent :: after →
        Edit.stepsAll others = before ++ after →
        (before.foldl step draft).level = 0 → draft.editAll edits = draft.editAll others := by
  have returns : Balanced (Edit.stepsAll edits) ↔
      ∀ draft : Draft, (draft.editAll edits).level = draft.level := by
    simp only [balanced_iff, editAll_eq_foldl]
  refine ⟨⟨_, largestRise_highestRise _, fun draft => ?_⟩, returns, ?_, ?_, ?_⟩
  · rw [editAll_eq_foldl]
    exact level_foldl_step draft _
  · intro nested
    exact returns.mpr (level_editAll_of_each fun one member =>
      level_edit_of_nested (nested one member))
  · intro draft
    rw [editAll_eq_foldl]
    exact level_foldl_step_le draft _
  · intro draft others before after whole less bottom
    have forgotten : (before.foldl step draft).outdent = before.foldl step draft := by
      rw [outdent, bottom, Nat.zero_sub, ← bottom]
    rw [editAll_eq_foldl, editAll_eq_foldl, whole, less, List.foldl_append, List.foldl_append,
      List.foldl_cons]
    exact congrArg (fun draft => after.foldl step draft) forgotten

/-- Two of four steps that go back are forgotten, one of them within an indented edit, and the
level is one higher than at the beginning although the steps rise by less than nothing. -/
theorem level_editAll_forgotten :
    let fresh : Draft := { unit := " " }
    let edits : List Edit := [.outdent, .indented [.outdent, .outdent, .indent, .indent], .write "a"]
    let fewer : List Edit := [.outdent, .indented [.outdent, .indent, .indent], .write "a"]
    let nested : List Edit := [.writeLine "a", .indented [.newline, .indented [.write "b"]]]
    rise (Edit.stepsAll edits) = -1 ∧ LargestRise (Edit.stepsAll edits) 1 ∧
      (fresh.editAll edits).level = 1 ∧ fresh.editAll edits = fresh.editAll fewer ∧
      (fresh.indent.editAll nested).level = 1 := by
  intro fresh edits fewer nested
  obtain ⟨⟨highest, largest, level⟩, -, -, -, forgotten⟩ := level_editAll edits
  obtain ⟨-, returns, balanced, -, -⟩ := level_editAll nested
  have rises : rise (Edit.stepsAll edits) = -1 := rfl
  have ends : (fresh.editAll edits).level = 1 := rfl
  have one : highest = 1 := by
    have reached := level fresh
    rw [ends, rises] at reached
    dsimp only [fresh] at reached
    omega
  have inside : ∀ one ∈ nested, one.Nested := by
    simp only [nested, List.forall_mem_cons, List.not_mem_nil, false_implies, implies_true, and_true]
    exact ⟨.writeLine "a", .indented (by simp [Edit.Nested.newline, Edit.Nested.indented,
      Edit.Nested.write])⟩
  refine ⟨rises, one ▸ largest, ends, ?_, returns.mp (balanced inside) fresh.indent⟩
  exact forgotten fresh fewer [.outdent, .indent, .outdent]
    [.indent, .indent, .outdent, .write "a"] rfl rfl rfl

end Draft

end ShaderHeader
