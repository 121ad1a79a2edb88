import ShaderHeader.Toml.Statement

/-!
# What scanners read

A scanner reads a value off the front of a text (`Scanner.Reads`) or refuses it
(`Scanner.Refuses`).  Both are passed along by the ways in which scanners are put together.  A
scanner that is repeated reads one stretch after another until it refuses (`Scanner.ReadsAll`).
-/

namespace ShaderHeader

namespace Toml

namespace Scanner

variable {α β : Type}

/-- A scanner reads a value off a text and leaves the rest. -/
def Reads (p : Scanner α) (text : List Char) (value : α) (rest : List Char) : Prop :=
  p text = some (value, rest)

/-- A scanner refuses a text. -/
def Refuses (p : Scanner α) (text : List Char) : Prop :=
  p text = none

/-- A text does not go on with a character that satisfies a test. -/
def Stops (test : Char → Bool) (text : List Char) : Prop :=
  ∀ c, text.head? = some c → test c = false

variable {p q : Scanner α} {next : α → Scanner β} {f : α → β} {test : Char → Bool}
variable {text middle rest : List Char} {value : α} {result : β} {c expected : Char}

theorem stops_nil (test : Char → Bool) : Stops test [] :=
  nofun

theorem stops_cons (fails : test c = false) : Stops test (c :: rest) := by
  rintro _ ⟨⟩
  exact fails

section Combinators

theorem reads_pure (value : α) (text : List Char) : Reads (pure value) text value text :=
  rfl

theorem Reads.bind (first : Reads p text value middle)
    (second : Reads (next value) middle result rest) : Reads (p >>= next) text result rest := by
  unfold Reads at first
  change (p text).bind _ = _
  rw [first]
  exact second

theorem Refuses.bind (first : Refuses p text) : Refuses (p >>= next) text := by
  unfold Refuses at first
  change (p text).bind _ = _
  rw [first]
  rfl

/-- A sequence refuses when what comes second does. -/
theorem Reads.bind_refuses (first : Reads p text value middle)
    (second : Refuses (next value) middle) : Refuses (p >>= next) text := by
  unfold Reads at first
  change (p text).bind _ = _
  rw [first]
  exact second

theorem Reads.map (first : Reads p text value rest) : Reads (f <$> p) text (f value) rest := by
  unfold Reads at first
  change (p text).bind _ = _
  rw [first]
  rfl

theorem Refuses.map (first : Refuses p text) : Refuses (f <$> p) text := by
  unfold Refuses at first
  change (p text).bind _ = _
  rw [first]
  rfl

theorem Reads.orElse (first : Reads p text value rest) : Reads (p <|> q) text value rest := by
  unfold Reads at first
  change (p text <|> q text) = _
  rw [first]
  rfl

/-- The second of two scanners is asked where the first one refuses. -/
theorem Refuses.orElse (first : Refuses p text) (second : Reads q text value rest) :
    Reads (p <|> q) text value rest := by
  unfold Refuses at first
  change (p text <|> q text) = _
  rw [first]
  exact second

theorem Refuses.orElse_refuses (first : Refuses p text) (second : Refuses q text) :
    Refuses (p <|> q) text := by
  unfold Refuses at first
  change (p text <|> q text) = _
  rw [first]
  exact second

theorem Refuses.optional (first : Refuses p text) : Reads (optional p) text none text :=
  Refuses.orElse first.map (reads_pure none text)

theorem Reads.optional (first : Reads p text value rest) :
    Reads (optional p) text (some value) rest :=
  first.map.orElse

theorem Reads.filterMap {f : α → Option β} (first : Reads p text value rest)
    (passes : f value = some result) : Reads (filterMap p f) text result rest := by
  refine Reads.bind first ?_
  rw [passes]
  exact reads_pure result rest

theorem Refuses.filterMap {f : α → Option β} (first : Refuses p text) :
    Refuses (filterMap p f) text :=
  first.bind

end Combinators

section Characters

theorem reads_satisfy (passes : test c = true) (rest : List Char) :
    Reads (satisfy test) (c :: rest) c rest := by
  unfold Reads satisfy
  exact if_pos passes

theorem refuses_satisfy (stops : Stops test text) : Refuses (satisfy test) text := by
  unfold Refuses
  cases text with
  | nil => rfl
  | cons c rest =>
      have fails := stops c rfl
      exact if_neg (by rw [fails]; nofun)

theorem reads_char (c : Char) (rest : List Char) : Reads (char c) (c :: rest) () rest :=
  if_pos rfl

theorem refuses_char (stops : Stops (· == expected) text) : Refuses (char expected) text := by
  unfold Refuses
  cases text with
  | nil => rfl
  | cons c rest =>
      exact if_neg (by simpa using stops c rfl)

theorem reads_exact (front rest : List Char) : Reads (exact front) (front ++ rest) () rest := by
  induction front with
  | nil => exact reads_pure () rest
  | cons c front ih => exact (reads_char c _).bind ih

theorem refuses_exact {front : List Char} (stops : Stops (· == c) text) :
    Refuses (exact (c :: front)) text :=
  (refuses_char stops).bind

end Characters

section Repetition

/-- A scanner reads values off a text one after another until it refuses the rest.  Each of them
takes a character at least. -/
inductive ReadsAll (p : Scanner α) : List Char → List α → List Char → Prop where
  | stop {rest : List Char} (refuses : Refuses p rest) : ReadsAll p rest [] rest
  | more {text middle rest : List Char} {value : α} {values : List α}
      (first : Reads p text value middle) (shorter : middle.length < text.length)
      (later : ReadsAll p middle values rest) : ReadsAll p text (value :: values) rest

variable {values : List α}

theorem ReadsAll.upTo (all : ReadsAll p text values rest) {limit : Nat}
    (enough : text.length ≤ limit) : Reads (upTo p limit) text values rest := by
  induction all generalizing limit with
  | stop refuses =>
      cases limit with
      | zero => exact reads_pure [] _
      | succ limit => exact refuses.bind.orElse (reads_pure [] _)
  | more first shorter _ ih =>
      cases limit with
      | zero => omega
      | succ limit =>
          have within : Reads (Scanner.upTo p limit) _ _ _ := ih (by omega)
          refine (first.bind (within.bind ?_)).orElse
          exact reads_pure _ _

/-- **A repeated scanner reads all that it can**: the length of the text is no limit. -/
theorem ReadsAll.many (all : ReadsAll p text values rest) : Reads (many p) text values rest :=
  all.upTo (Nat.le_refl _)

theorem readsAll_satisfy {front : List Char} (all : ∀ c ∈ front, test c = true)
    (stops : Stops test rest) : ReadsAll (satisfy test) (front ++ rest) front rest := by
  induction front with
  | nil => exact .stop (refuses_satisfy stops)
  | cons c front ih =>
      obtain ⟨first, others⟩ := List.forall_mem_cons.mp all
      refine .more (reads_satisfy first _) ?_ (ih others)
      rw [List.cons_append, List.length_cons]
      exact Nat.lt_succ_self _

/-- The longest stretch of characters that satisfy a test is read, if there are any. -/
theorem reads_many1_satisfy {front : List Char} (some : front ≠ [])
    (all : ∀ c ∈ front, test c = true) (stops : Stops test rest) :
    Reads (many1 (satisfy test)) (front ++ rest) front rest := by
  cases front with
  | nil => exact absurd rfl some
  | cons c front =>
      obtain ⟨first, others⟩ := List.forall_mem_cons.mp all
      exact (reads_satisfy first _).bind
        ((readsAll_satisfy others stops).many.bind (reads_pure _ _))

theorem reads_separated {separator : Scanner Unit} (first : Reads p text value middle)
    (further : ReadsAll (do separator; p) middle values rest) :
    Reads (separated p separator) text (value :: values) rest :=
  first.bind (further.many.bind (reads_pure (value :: values) rest))

end Repetition

theorem readAll?_of_reads (reads : Reads p text value []) : readAll? p text = some value := by
  unfold Reads at reads
  unfold readAll?
  rw [reads]

theorem readAll?_of_rest (reads : Reads p text value rest) (some : rest ≠ []) :
    readAll? p text = none := by
  unfold Reads at reads
  unfold readAll?
  rw [reads]
  cases rest with
  | nil => exact absurd rfl some
  | cons c rest => rfl

end Scanner

end Toml

end ShaderHeader
