import ShaderHeader.Text.Pieces

/-!
# Laws of separated pieces

Joining with a separator undoes cutting at it.  Cutting undoes joining, as long as no
piece holds the separator.
-/

namespace ShaderHeader

variable {α : Type} [DecidableEq α] {separator : α}

theorem pieces_eq_splitOn (list : List α) : pieces separator list = list.splitOn separator := by
  induction list with
  | nil => rfl
  | cons first rest ih =>
      rw [List.splitOn_cons_eq_if_modifyHead, pieces, ih]
      by_cases same : first = separator
      · simp only [same, ↓reduceIte, BEq.rfl]
      · simp only [same, ↓reduceIte, beq_iff_eq]
        cases split : List.splitOn separator rest with
        | nil => exact (List.splitOn_ne_nil separator rest split).elim
        | cons piece others => rfl

theorem pieces_ne_nil (list : List α) : pieces separator list ≠ [] := by
  rw [pieces_eq_splitOn]
  exact List.splitOn_ne_nil separator list

/-- Cutting a joined list gives the pieces back. -/
theorem pieces_intercalate {parts : List (List α)} (nonempty : parts ≠ [])
    (free : ∀ part ∈ parts, separator ∉ part) :
    pieces separator ([separator].intercalate parts) = parts := by
  rw [pieces_eq_splitOn]
  exact List.splitOn_intercalate separator free nonempty

theorem not_mem_of_mem_pieces {list part : List α} (member : part ∈ pieces separator list) :
    separator ∉ part := by
  induction list generalizing part with
  | nil =>
      rw [pieces, List.mem_singleton] at member
      rw [member]
      exact List.not_mem_nil
  | cons first rest ih =>
      rw [pieces] at member
      by_cases same : first = separator
      · rw [if_pos same, List.mem_cons] at member
        rcases member with rfl | member
        · exact List.not_mem_nil
        · exact ih member
      · rw [if_neg same] at member
        cases split : pieces separator rest with
        | nil => exact (pieces_ne_nil rest split).elim
        | cons piece others =>
            simp only [split, List.mem_cons] at member ih
            rcases member with rfl | member
            · rw [List.mem_cons, not_or]
              exact ⟨Ne.symm same, ih (.inl rfl)⟩
            · exact ih (.inr member)

/-- A list ends in the separator when its last piece is empty. -/
theorem getLast?_of_pieces {list : List α} {before : List (List α)}
    (cut : pieces separator list = before ++ [[]]) (nonempty : list ≠ []) :
    list.getLast? = some separator := by
  induction list generalizing before with
  | nil => exact absurd rfl nonempty
  | cons first rest ih =>
      rw [List.getLast?_cons]
      rw [pieces] at cut
      by_cases same : first = separator
      · rw [if_pos same] at cut
        by_cases ended : rest = []
        · rw [ended, same]
          rfl
        · cases before with
          | nil => exact absurd (List.cons.inj cut).2 (pieces_ne_nil rest)
          | cons piece before =>
              rw [ih (List.cons.inj cut).2 ended]
              rfl
      · rw [if_neg same] at cut
        cases split : pieces separator rest with
        | nil => exact absurd split (pieces_ne_nil rest)
        | cons piece others =>
            rw [split] at cut
            cases before with
            | nil => cases cut
            | cons _ before =>
                have behind : others = before ++ [[]] := (List.cons.inj cut).2
                have continues : rest ≠ [] := by
                  rintro rfl
                  rw [pieces, behind] at split
                  cases before <;> cases split
                have cutBehind : pieces separator rest = (piece :: before) ++ [[]] := by
                  rw [split, behind, List.cons_append]
                rw [ih cutBehind continues]
                rfl

/-- A separator ends the pieces before it and begins those after it. -/
theorem pieces_append_cons (front rest : List α) :
    pieces separator (front ++ separator :: rest) =
      pieces separator front ++ pieces separator rest := by
  rw [pieces_eq_splitOn, pieces_eq_splitOn, pieces_eq_splitOn]
  exact List.splitOn_append_cons_self front rest

/-- A separator at the end opens an empty piece. -/
theorem pieces_concat (list : List α) :
    pieces separator (list ++ [separator]) = pieces separator list ++ [[]] :=
  pieces_append_cons list []

theorem pieces_of_not_mem {list : List α} (free : separator ∉ list) :
    pieces separator list = [list] := by
  rw [pieces_eq_splitOn]
  exact List.splitOn_eq_singleton free

/-- Joining undoes cutting. -/
theorem intercalate_pieces (list : List α) :
    [separator].intercalate (pieces separator list) = list := by
  rw [pieces_eq_splitOn]
  exact List.intercalate_splitOn separator

/-- The first piece ends where the separator first stands. -/
theorem pieces_append_separator {first : List α} (free : separator ∉ first) (rest : List α) :
    pieces separator (first ++ separator :: rest) = first :: pieces separator rest := by
  rw [pieces_eq_splitOn, pieces_eq_splitOn]
  exact List.splitOn_append_cons_self_of_not_mem free rest

end ShaderHeader
