import ShaderHeader.Proofs.Toml.Scanner

/-!
# Progress

No scanner gives back more than it is given (`Shrinks`), and the scanner of lines takes a character
at least (`Takes`).  So lines can be read off any text one after another, until one is refused
(`exists_readsAll`).
-/

namespace ShaderHeader

namespace Toml

open Scanner

variable {α β : Type}

/-- A scanner leaves no more than it is given. -/
class Shrinks (p : Scanner α) : Prop where
  length_le : ∀ {text value rest}, Reads p text value rest → rest.length ≤ text.length

/-- A scanner leaves less than it is given. -/
class Takes (p : Scanner α) : Prop where
  length_lt : ∀ {text value rest}, Reads p text value rest → rest.length < text.length

section Combinators

variable {p q : Scanner α} {next : α → Scanner β} {text rest : List Char} {value : α} {result : β}

theorem Scanner.Reads.of_bind (reads : Reads (p >>= next) text result rest) :
    ∃ value middle, Reads p text value middle ∧ Reads (next value) middle result rest := by
  change (p text).bind _ = _ at reads
  obtain ⟨⟨value, middle⟩, taken, later⟩ := Option.bind_eq_some_iff.mp reads
  exact ⟨value, middle, taken, later⟩

theorem Scanner.Reads.of_map {f : α → β} (reads : Reads (f <$> p) text result rest) :
    ∃ value, Reads p text value rest := by
  change (p text).bind _ = _ at reads
  obtain ⟨⟨value, middle⟩, taken, same⟩ := Option.bind_eq_some_iff.mp reads
  cases same
  exact ⟨value, taken⟩

theorem Scanner.Reads.of_orElse (reads : Reads (p <|> q) text value rest) :
    Reads p text value rest ∨ Reads q text value rest := by
  change (p text <|> q text) = _ at reads
  unfold Reads
  cases first : p text with
  | none =>
      rw [first] at reads
      exact .inr reads
  | some result =>
      rw [first] at reads
      exact .inl reads

theorem Shrinks.bind (first : Shrinks p) (second : ∀ value, Shrinks (next value)) :
    Shrinks (p >>= next) where
  length_le reads := by
    obtain ⟨value, middle, taken, later⟩ := reads.of_bind
    exact Nat.le_trans ((second value).length_le later) (first.length_le taken)

theorem Takes.bind (first : Takes p) (second : ∀ value, Shrinks (next value)) :
    Takes (p >>= next) where
  length_lt reads := by
    obtain ⟨value, middle, taken, later⟩ := reads.of_bind
    exact Nat.lt_of_le_of_lt ((second value).length_le later) (first.length_lt taken)

/-- It is enough that the second of two scanners takes a character. -/
theorem Shrinks.bind_takes (first : Shrinks p) (second : ∀ value, Takes (next value)) :
    Takes (p >>= next) where
  length_lt reads := by
    obtain ⟨value, middle, taken, later⟩ := reads.of_bind
    exact Nat.lt_of_lt_of_le ((second value).length_lt later) (first.length_le taken)

instance [Takes p] : Shrinks p where
  length_le reads := Nat.le_of_lt (Takes.length_lt reads)

instance (value : α) : Shrinks (pure value : Scanner α) where
  length_le reads := by
    cases reads
    exact Nat.le_refl _

instance : Shrinks (failure : Scanner α) where
  length_le reads := by cases reads

instance [first : Shrinks p] [second : ∀ value, Shrinks (next value)] : Shrinks (p >>= next) :=
  first.bind second

instance [first : Takes p] [second : ∀ value, Shrinks (next value)] : Takes (p >>= next) :=
  first.bind second

instance [Shrinks p] [Shrinks q] : Shrinks (p <|> q) where
  length_le reads := reads.of_orElse.elim Shrinks.length_le Shrinks.length_le

instance [Takes p] [Takes q] : Takes (p <|> q) where
  length_lt reads := reads.of_orElse.elim Takes.length_lt Takes.length_lt

instance (f : α → β) [Shrinks p] : Shrinks (f <$> p) where
  length_le reads := by
    obtain ⟨value, taken⟩ := reads.of_map
    exact Shrinks.length_le taken

instance (f : α → β) [Takes p] : Takes (f <$> p) where
  length_lt reads := by
    obtain ⟨value, taken⟩ := reads.of_map
    exact Takes.length_lt taken

instance (test : Char → Bool) : Takes (satisfy test) where
  length_lt {text value rest} reads := by
    cases text with
    | nil => cases reads
    | cons c more =>
        obtain ⟨-, same⟩ := Option.ite_none_right_eq_some.mp reads
        cases same
        exact Nat.lt_succ_self _

instance (c : Char) : Takes (char c) where
  length_lt {text value rest} reads := by
    cases text with
    | nil => cases reads
    | cons d more =>
        obtain ⟨-, same⟩ := Option.ite_none_right_eq_some.mp reads
        cases same
        exact Nat.lt_succ_self _

instance : Shrinks atEnd where
  length_le {text value rest} reads := by
    cases text with
    | nil =>
        cases reads
        exact Nat.le_refl _
    | cons c more => cases reads

instance (front : List Char) : Shrinks (exact front) := by
  induction front with
  | nil => exact inferInstanceAs (Shrinks (pure ()))
  | cons c front ih => exact inferInstanceAs (Shrinks (do char c; exact front))

instance (c : Char) (front : List Char) : Takes (exact (c :: front)) :=
  inferInstanceAs (Takes (do char c; exact front))

instance [Shrinks p] : Shrinks (optional p) :=
  inferInstanceAs (Shrinks (some <$> p <|> pure none))

instance [Shrinks p] (limit : Nat) : Shrinks (upTo p limit) := by
  induction limit with
  | zero => exact inferInstanceAs (Shrinks (pure []))
  | succ limit ih =>
      unfold upTo
      infer_instance

instance [Shrinks p] : Shrinks (many p) where
  length_le {text _ _} reads :=
    have reads : Reads (upTo p text.length) text _ _ := reads
    Shrinks.length_le reads

instance [Shrinks p] : Shrinks (many1 p) := by
  unfold many1
  infer_instance

instance [Takes p] : Takes (many1 p) := by
  unfold many1
  infer_instance

instance [Shrinks p] (count : Nat) : Shrinks (times p count) := by
  induction count with
  | zero => exact inferInstanceAs (Shrinks (pure []))
  | succ count ih =>
      unfold times
      infer_instance

instance {separator : Scanner Unit} [Shrinks p] [Shrinks separator] :
    Shrinks (separated p separator) := by
  unfold separated
  infer_instance

instance {separator : Scanner Unit} [Takes p] [Shrinks separator] :
    Takes (separated p separator) := by
  unfold separated
  infer_instance

theorem shrinks_match (f : α → Option β) (value : α) :
    Shrinks (match f value with
      | some result => (pure result : Scanner β)
      | none => failure) := by
  split
  · infer_instance
  · infer_instance

instance (f : α → Option β) [first : Shrinks p] : Shrinks (filterMap p f) :=
  first.bind (shrinks_match f)

instance (f : α → Option β) [first : Takes p] : Takes (filterMap p f) :=
  first.bind (shrinks_match f)

end Combinators

section Blanks

instance : Shrinks blanks := by
  unfold blanks
  infer_instance

instance : Takes newline := by
  unfold newline
  infer_instance

instance : Takes comment := by
  unfold comment
  infer_instance

instance : Shrinks lineEnd := by
  unfold lineEnd
  infer_instance

instance : Shrinks lineTail := by
  unfold lineTail
  infer_instance

instance : Shrinks spacing := by
  unfold spacing
  infer_instance

end Blanks

section Strings

instance : Takes hexDigit := by
  unfold hexDigit
  infer_instance

instance (length : Nat) : Shrinks (codePoint length) := by
  unfold codePoint
  infer_instance

instance : Takes escaped := by
  unfold escaped
  refine Takes.bind inferInstance fun c => ?_
  split <;> infer_instance

instance : Takes basicChar := by
  unfold basicChar
  infer_instance

instance : Takes literalChar := by
  unfold literalChar
  infer_instance

instance : Takes basicString := by
  unfold basicString
  infer_instance

instance : Takes literalString := by
  unfold literalString
  infer_instance

instance (quote : Char) : Shrinks (innerQuote quote) where
  length_le reads := by
    obtain ⟨-, same⟩ := Option.ite_none_left_eq_some.mp reads
    cases same
    rw [List.length_drop]
    exact Nat.sub_le _ _

instance : Shrinks continuation := by
  unfold continuation
  infer_instance

instance : Shrinks innerNewline := by
  unfold innerNewline
  infer_instance

instance : Shrinks multilineBasicPiece := by
  unfold multilineBasicPiece
  infer_instance

instance (quote : Char) (piece : Scanner (List Char)) [Shrinks piece] :
    Shrinks (multiline quote piece) := by
  unfold multiline
  infer_instance

instance : Shrinks multilineBasicString := by
  unfold multilineBasicString
  infer_instance

instance : Shrinks multilineLiteralString := by
  unfold multilineLiteralString
  infer_instance

instance : Shrinks string := by
  unfold string
  infer_instance

end Strings

section Numbers

instance (base : Nat) : Shrinks (digit base) := by
  unfold digit
  infer_instance

instance (base : Nat) : Shrinks (digits base) := by
  unfold digits
  infer_instance

instance : Shrinks sign := by
  unfold sign
  infer_instance

instance : Shrinks signOrNone := by
  unfold signOrNone
  infer_instance

instance : Shrinks wholePart := by
  unfold wholePart
  refine Shrinks.bind inferInstance fun first => ?_
  split <;> infer_instance

instance (marker : Char) (base : Nat) : Shrinks (markedInteger marker base) := by
  unfold markedInteger
  infer_instance

instance : Shrinks integer := by
  unfold integer plainInteger
  infer_instance

instance : Shrinks fraction := by
  unfold fraction
  infer_instance

instance : Shrinks exponent := by
  unfold exponent
  infer_instance

instance : Shrinks finiteDecimal := by
  unfold finiteDecimal
  refine .bind inferInstance fun negative => .bind inferInstance fun whole => ?_
  refine .bind inferInstance fun (places, power) => ?_
  dsimp only
  split <;> infer_instance

instance : Shrinks specialDecimal := by
  unfold specialDecimal
  infer_instance

instance : Shrinks decimal := by
  unfold decimal
  infer_instance

instance (length least greatest : Nat) : Shrinks (dateField length least greatest) := by
  unfold dateField
  infer_instance

instance : Shrinks date := by
  unfold date
  infer_instance

instance : Shrinks nanoseconds := by
  unfold nanoseconds
  infer_instance

instance : Shrinks time := by
  unfold time
  infer_instance

instance : Shrinks offset := by
  unfold offset
  infer_instance

instance : Shrinks timeOfDate := by
  unfold timeOfDate
  infer_instance

instance : Shrinks dateTime := by
  unfold dateTime
  infer_instance

end Numbers

section Statements

instance : Takes keyPart := by
  unfold keyPart
  infer_instance

instance : Takes key := by
  have part : Takes (do blanks; let part ← keyPart; blanks; return part) :=
    Shrinks.bind_takes inferInstance fun _ => inferInstance
  unfold key
  infer_instance

instance : Shrinks boolean := by
  unfold boolean
  infer_instance

instance : Shrinks scalar := by
  unfold scalar
  infer_instance

instance (item : Scanner Value) [Shrinks item] : Shrinks (array item) := by
  unfold array
  infer_instance

instance (item : Scanner Value) [Shrinks item] : Takes (pair item) := by
  unfold pair
  infer_instance

instance (item : Scanner Value) [Shrinks item] : Shrinks (inlineTable item) := by
  unfold inlineTable
  refine .bind inferInstance fun _ => .bind inferInstance fun pairs => ?_
  refine .bind inferInstance fun _ => .bind inferInstance fun _ => ?_
  split <;> infer_instance

instance (depth : Nat) : Shrinks (value depth) := by
  induction depth with
  | zero =>
      unfold value
      infer_instance
  | succ depth ih =>
      unfold value
      infer_instance

instance (count : Nat) : Takes (bracketed (count + 1)) :=
  inferInstanceAs (Takes (do
    exact ('[' :: List.replicate count '[')
    let key ← key
    exact (List.replicate (count + 1) ']')
    return key))

instance : Takes statement := by
  unfold statement
  infer_instance

instance : Takes line := by
  unfold line
  infer_instance

end Statements

/-- **A scanner that takes something can be repeated** on any text until it refuses. -/
theorem exists_readsAll (p : Scanner α) [Takes p] (text : List Char) :
    ∃ values rest, ReadsAll p text values rest := by
  cases taken : p text with
  | none => exact ⟨[], text, .stop taken⟩
  | some result =>
      obtain ⟨value, middle⟩ := result
      have first : Reads p text value middle := taken
      have shorter := Takes.length_lt first
      obtain ⟨values, rest, later⟩ := exists_readsAll p middle
      exact ⟨value :: values, rest, .more first shorter later⟩
termination_by text.length

end Toml

end ShaderHeader
