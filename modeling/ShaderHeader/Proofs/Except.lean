/-!
# Results that may be errors

When a computation made of two has a given result, and when it has a given error.
-/

namespace ShaderHeader

variable {ε α β : Type} {first : Except ε α} {result : β} {cause : ε}

theorem map_eq_ok_iff {f : α → β} : first.map f = .ok result ↔
    ∃ value, first = .ok value ∧ f value = result := by
  cases first with
  | error other =>
      constructor
      · intro same
        cases same
      · rintro ⟨_, same, _⟩
        cases same
  | ok value =>
      constructor
      · intro same
        exact ⟨value, rfl, Except.ok.inj same⟩
      · rintro ⟨_, same, returned⟩
        cases same
        exact congrArg _ returned

theorem map_eq_error_iff {f : α → β} : first.map f = .error cause ↔ first = .error cause := by
  cases first with
  | error other =>
      constructor
      · intro same
        cases same
        rfl
      · intro same
        cases same
        rfl
  | ok value =>
      constructor
      · intro same
        cases same
      · intro same
        cases same

/-- To word an error otherwise changes nothing else. -/
theorem mapError_eq_ok_iff {δ : Type} {f : ε → δ} {value : α} :
    first.mapError f = .ok value ↔ first = .ok value := by
  cases first with
  | error other =>
      constructor
      · intro same
        cases same
      · intro same
        cases same
  | ok found =>
      constructor
      · intro same
        cases same
        rfl
      · intro same
        cases same
        rfl

theorem bind_eq_ok_iff {next : α → Except ε β} :
    (first >>= next) = .ok result ↔ ∃ value, first = .ok value ∧ next value = .ok result := by
  cases first with
  | error cause =>
      constructor
      · intro same
        cases same
      · rintro ⟨_, same, _⟩
        cases same
  | ok value =>
      constructor
      · intro same
        exact ⟨value, rfl, same⟩
      · rintro ⟨_, same, returned⟩
        cases same
        exact returned

theorem bind_eq_error_iff {next : α → Except ε β} :
    (first >>= next) = .error cause ↔
      first = .error cause ∨ ∃ value, first = .ok value ∧ next value = .error cause := by
  cases first with
  | error other =>
      constructor
      · intro same
        cases same
        exact .inl rfl
      · rintro (same | ⟨_, same, _⟩)
        · cases same
          rfl
        · cases same
  | ok value =>
      constructor
      · intro same
        exact .inr ⟨value, rfl, same⟩
      · rintro (same | ⟨_, same, refused⟩)
        · cases same
        · cases same
          exact refused

end ShaderHeader
