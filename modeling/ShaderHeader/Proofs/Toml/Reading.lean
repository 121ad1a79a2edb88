import ShaderHeader.Proofs.Toml.Progress
import ShaderHeader.Proofs.Toml.Written

/-!
# Written statements are read

Every way to write a text, a list of texts or a line is read as what it was written for, layer by
layer: characters, texts, items, lists, keys, lines (`readAll?_statements`).  Where a layer has to
know where it ends, it asks something of the text that follows.
-/

namespace ShaderHeader

namespace Toml

open Scanner

section All

variable {α β : Type} {p : Scanner β} [Takes p] {writes : α → List Char → Prop}
variable {items : List α} {values : List β} {text rest back : List Char}

/-- **A repeated scanner reads items that are written one after another**, if it reads each of
them in front of all that may follow, and then goes on with what does follow. -/
theorem WritesAll.readsAll (f : α → β) (follows : List Char → Prop)
    (reads : ∀ {item front later}, writes item front → follows later →
      Reads p (front ++ later) (f item) later)
    (visible : ∀ {item front}, writes item front → ∀ later, follows (front ++ later))
    (written : WritesAll writes items text) (ends : follows rest)
    (goesOn : ReadsAll p rest values back) :
    ReadsAll p (text ++ rest) (items.map f ++ values) back ∧ follows (text ++ rest) := by
  induction written with
  | nil => exact ⟨goesOn, ends⟩
  | @cons item items front back first _ ih =>
      obtain ⟨later, follows⟩ := ih
      have one := reads first follows
      rw [List.append_assoc]
      exact ⟨.more one (Takes.length_lt one) later, visible first _⟩

end All

section Texts

variable {c : Char} {text : String} {spelled digits later : List Char}

theorem reads_codePoint {length : Nat} (long : digits.length = length) (code : SpellsCode digits c)
    (later : List Char) : Reads (codePoint length) (digits ++ later) c later := by
  obtain ⟨values, spelled, value⟩ := code
  have reads : Reads (times hexDigit length) (digits ++ later) values later := by
    clear value
    induction digits generalizing length values with
    | nil =>
        cases values with
        | nil =>
            cases long
            exact reads_pure [] later
        | cons => cases spelled
    | cons digit digits ih =>
        cases values with
        | nil => cases spelled
        | cons value values =>
            obtain ⟨first, others⟩ := List.cons.inj spelled
            cases long
            have one : Reads hexDigit (digit :: (digits ++ later)) value (digits ++ later) :=
              (reads_satisfy rfl _).filterMap first
            exact one.bind ((ih rfl values others).bind (reads_pure _ _))
  refine reads.filterMap ?_
  have valid : c.toNat.isValidChar := c.valid
  rw [value, charOf?, if_pos valid, Char.ofNat_toNat]

theorem reads_basicChar (written : WritesChar c spelled) (later : List Char) :
    Reads basicChar (spelled ++ later) c later := by
  have escape {front : List Char} (reads : Reads escaped (front ++ later) c later) :
      Reads basicChar ('\\' :: (front ++ later)) c later :=
    (refuses_satisfy (stops_cons rfl)).orElse ((reads_char '\\' _).bind reads)
  cases written with
  | plain text noQuote noBackslash =>
      refine (reads_satisfy ?_ later).orElse
      rw [text, bne_iff_ne.mpr noQuote, bne_iff_ne.mpr noBackslash]
      rfl
  | @letter letter listed =>
      refine @escape [letter] ?_
      simp only [escapeLetters, List.mem_cons, Prod.mk.injEq, List.not_mem_nil, or_false] at listed
      rcases listed with ⟨rfl, rfl⟩ | ⟨rfl, rfl⟩ | ⟨rfl, rfl⟩ | ⟨rfl, rfl⟩ | ⟨rfl, rfl⟩ |
        ⟨rfl, rfl⟩ | ⟨rfl, rfl⟩ <;> rfl
  | @four digits length code =>
      exact @escape ('u' :: digits) ((reads_satisfy rfl _).bind (reads_codePoint length code later))
  | @eight digits length code =>
      exact @escape ('U' :: digits) ((reads_satisfy rfl _).bind (reads_codePoint length code later))

/-- No written character begins with a quote. -/
theorem WritesChar.exists_cons (written : WritesChar c spelled) :
    ∃ first others, spelled = first :: others ∧ first ≠ '"' := by
  cases written with
  | plain _ noQuote => exact ⟨c, [], rfl, noQuote⟩
  | letter | four | eight => exact ⟨'\\', _, rfl, by decide⟩

theorem reads_basicString (written : WritesText text spelled) (later : List Char) :
    Reads basicString (spelled ++ later) text later := by
  obtain ⟨characters⟩ := written
  rename_i inner
  have all : ReadsAll basicChar (inner ++ '"' :: later) (text.toList.map id ++ [])
      ('"' :: later) := by
    refine (characters.readsAll id (fun _ => True) ?_ (fun _ _ => trivial) trivial (.stop ?_)).1
    · exact fun written _ => reads_basicChar written _
    · exact (refuses_satisfy (stops_cons rfl)).orElse_refuses (refuses_char (stops_cons rfl)).bind
  rw [List.map_id, List.append_nil] at all
  have closed :
      Reads (do char '"'; return String.ofList text.toList) ('"' :: later) text later := by
    rw [String.ofList_toList]
    exact (reads_char '"' later).bind (reads_pure text later)
  rw [List.cons_append, List.append_assoc]
  exact (reads_char '"' _).bind (all.many.bind closed)

/-- The quote that opens a text is not taken for one of three. -/
theorem refuses_multilineBasicString (written : WritesText text spelled)
    (apart : Stops (· == '"') later) : Refuses multilineBasicString (spelled ++ later) := by
  obtain ⟨characters⟩ := written
  refine Refuses.bind ?_
  rw [List.cons_append, List.append_assoc]
  refine (reads_char '"' _).bind_refuses ?_
  generalize text.toList = list at characters
  cases characters with
  | nil => exact (reads_char '"' later).bind_refuses (refuses_exact apart)
  | cons first others =>
      obtain ⟨c, more, rfl, noQuote⟩ := first.exists_cons
      exact refuses_exact (stops_cons (beq_eq_false_iff_ne.mpr noQuote))

/-- **A written text is read**, in front of anything but a quote. -/
theorem reads_string (written : WritesText text spelled) (apart : Stops (· == '"') later) :
    Reads string (spelled ++ later) text later :=
  (refuses_multilineBasicString written apart).orElse (reads_basicString written later).orElse

theorem reads_value_string (depth : Nat) (written : WritesText text spelled)
    (apart : Stops (· == '"') later) :
    Reads (value depth) (spelled ++ later) (.string text) later := by
  have reads : Reads scalar (spelled ++ later) (.string text) later :=
    (reads_string written apart).map.orElse
  cases depth with
  | zero => exact reads
  | succ depth => exact reads.orElse

end Texts

section Spacing

variable {gap ending later : List Char}

/-- A character that spacing may begin with. -/
def beginsSpacing (c : Char) : Bool :=
  isBlank c || c == '\n' || c == '\r' || c == '#'

theorem reads_blanks (blank : IsGap gap) (stops : Stops isBlank later) :
    Reads blanks (gap ++ later) () later :=
  (readsAll_satisfy blank stops).many.bind (reads_pure () later)

theorem reads_newline (ended : IsLineEnd ending) (later : List Char) :
    Reads newline (ending ++ later) () later := by
  cases ended with
  | feed => exact (reads_char '\n' later).orElse
  | returned => exact (refuses_char (stops_cons rfl)).orElse (reads_exact ['\r', '\n'] later)

theorem IsLineEnd.stops (ended : IsLineEnd ending) {test : Char → Bool} (feed : test '\n' = false)
    (returned : test '\r' = false) (later : List Char) : Stops test (ending ++ later) := by
  cases ended with
  | feed => exact stops_cons feed
  | returned => exact stops_cons returned

theorem reads_spacing (around : IsSpacing gap) (stops : Stops beginsSpacing later) :
    Reads spacing (gap ++ later) () later := by
  have narrow {test : Char → Bool} (wider : ∀ c, beginsSpacing c = false → test c = false) :
      Stops test later := fun c head => wider c (stops c head)
  have ends : Refuses newline later ∧ Refuses comment later ∧ Refuses (satisfy isBlank) later := by
    refine ⟨(refuses_char (narrow ?_)).orElse_refuses (refuses_exact (narrow ?_)),
      (refuses_char (narrow ?_)).bind, refuses_satisfy (narrow ?_)⟩
    all_goals
      intro c other
      simp only [beginsSpacing, Bool.or_eq_false_iff] at other
      simp only [other]
  obtain ⟨noNewline, noComment, noBlank⟩ := ends
  have all : ∃ units, ReadsAll (((fun _ => ()) <$> satisfy isBlank) <|> newline <|>
      (do comment; newline)) (gap ++ later) units later := by
    induction around with
    | nil => exact ⟨_, .stop (noBlank.map.orElse_refuses (noNewline.orElse_refuses noComment.bind))⟩
    | @blank c gap first _ ih =>
        obtain ⟨units, rest⟩ := ih
        have one := reads_satisfy first (gap ++ later)
        exact ⟨_, .more one.map.orElse (Nat.lt_succ_self _) rest⟩
    | @line ending gap ended _ ih =>
        obtain ⟨units, rest⟩ := ih
        rw [List.append_assoc]
        have dark : Refuses (satisfy isBlank) (ending ++ (gap ++ later)) :=
          refuses_satisfy (ended.stops rfl rfl _)
        have one := reads_newline ended (gap ++ later)
        exact ⟨_, .more (dark.map.orElse one.orElse) (Takes.length_lt one) rest⟩
    | @comment text ending gap plain ended _ ih =>
        obtain ⟨units, rest⟩ := ih
        rw [List.cons_append, List.append_assoc, List.append_assoc]
        have read : Reads comment ('#' :: (text ++ (ending ++ (gap ++ later)))) ()
            (ending ++ (gap ++ later)) :=
          (reads_char '#' _).bind ((readsAll_satisfy plain (ended.stops rfl rfl _)).many.bind
            (reads_pure () _))
        have dark : Refuses (satisfy isBlank) ('#' :: (text ++ (ending ++ (gap ++ later)))) :=
          refuses_satisfy (stops_cons rfl)
        have within : Refuses newline ('#' :: (text ++ (ending ++ (gap ++ later)))) :=
          (refuses_char (stops_cons rfl)).orElse_refuses (refuses_exact (stops_cons rfl))
        have one : Reads (do comment; newline) _ () (gap ++ later) :=
          read.bind (reads_newline ended (gap ++ later))
        exact ⟨_, .more (dark.map.orElse (within.orElse one)) (Takes.length_lt one) rest⟩
  obtain ⟨units, all⟩ := all
  exact all.many.bind (reads_pure () later)

end Spacing

section Lists

variable {depth : Nat} {meant : Value} {items : List Value}
variable {text : String} {texts : List String} {gap spelled ending later : List Char}

/-- A character that may stand behind a value: spacing, or what separates or closes values. -/
def endsValue (c : Char) : Bool :=
  beginsSpacing c || c == ',' || c == ']' || c == '\x7d'

/-- A text goes on in a way in which it may go on behind a value. -/
def Ended (later : List Char) : Prop :=
  ∀ c, later.head? = some c → endsValue c = true

theorem Ended.stops_beq (ended : Ended later) {c : Char} (other : endsValue c = false) :
    Stops (· == c) later := by
  intro first head
  rw [beq_eq_false_iff_ne]
  rintro rfl
  rw [ended first head] at other
  cases other

theorem ended_cons {c : Char} (ends : endsValue c = true) (rest : List Char) :
    Ended (c :: rest) := by
  rintro _ ⟨⟩
  exact ends

theorem IsSpacing.ended (around : IsSpacing gap) (ended : Ended later) : Ended (gap ++ later) := by
  cases around with
  | nil => exact ended
  | blank blank =>
      refine ended_cons ?_ _
      rw [endsValue, beginsSpacing, blank]
      rfl
  | line lineEnd => cases lineEnd with
    | feed | returned => exact ended_cons rfl _
  | comment => exact ended_cons rfl _

/-- A text is read as a value wherever it stands among values, if these are not too deep in one
another. -/
structure StandsFor (depth : Nat) (meant : Value) (spelled : List Char) : Prop where
  opens : ∀ later, Stops beginsSpacing (spelled ++ later)
  reads : ∀ later, Ended later → Reads (value depth) (spelled ++ later) meant later

theorem WritesText.exists_cons (written : WritesText text spelled) :
    ∃ others, spelled = '"' :: others := by
  obtain ⟨characters⟩ := written
  exact ⟨_, rfl⟩

/-- **A written text stands for itself.** -/
theorem WritesText.standsFor (written : WritesText text spelled) (depth : Nat) :
    StandsFor depth (.string text) spelled where
  opens later := by
    obtain ⟨others, rfl⟩ := written.exists_cons
    exact stops_cons rfl
  reads later ended := reads_value_string depth written (ended.stops_beq (by decide))

/-- What may stand after an item of a list or of a table in braces. -/
inductive Delimited : List Char → Prop where
  | comma (later : List Char) : Delimited (',' :: later)
  | bracket (later : List Char) : Delimited (']' :: later)
  | brace (later : List Char) : Delimited ('\x7d' :: later)

theorem Delimited.ended (delimited : Delimited later) : Ended later := by
  cases delimited with
  | comma | bracket | brace => exact ended_cons rfl _

theorem Delimited.stops (delimited : Delimited later) {test : Char → Bool}
    (comma : test ',' = false) (bracket : test ']' = false) (brace : test '\x7d' = false) :
    Stops test later := by
  cases delimited with
  | comma later => exact stops_cons comma
  | bracket later => exact stops_cons bracket
  | brace later => exact stops_cons brace

/-- An item with the spacing around it. -/
def item (depth : Nat) : Scanner Value := do
  spacing
  let value ← value depth
  spacing
  return value

instance (depth : Nat) : Shrinks (item depth) := by
  unfold item
  infer_instance

theorem reads_item (written : Spaced (StandsFor depth) meant spelled) (ends : Delimited later) :
    Reads (item depth) (spelled ++ later) meant later := by
  obtain ⟨opening, stands, closing⟩ := written
  rw [List.append_assoc, List.append_assoc]
  refine (reads_spacing opening (stands.opens _)).bind ?_
  refine (stands.reads _ (closing.ended ends.ended)).bind ?_
  exact (reads_spacing closing (ends.stops rfl rfl rfl)).bind (reads_pure _ _)

/-- No item begins where an array is closed. -/
theorem refuses_item (depth : Nat) (around : IsSpacing gap) (later : List Char) :
    Refuses (item depth) (gap ++ ']' :: later) := by
  refine (reads_spacing around (stops_cons rfl)).bind_refuses (Refuses.bind ?_)
  cases depth with
  | zero => rfl
  | succ depth => rfl

theorem readsAll_further (written : WritesAll (Further (Spaced (StandsFor depth))) items spelled)
    (closes : ClosesArray ending) (later : List Char) :
    ReadsAll (do char ','; item depth) (spelled ++ (ending ++ later)) items (ending ++ later) ∧
      Delimited (spelled ++ (ending ++ later)) := by
  have closed : Delimited (ending ++ later) ∧
      Refuses (do char ','; item depth) (ending ++ later) := by
    cases closes with
    | plain => exact ⟨.bracket later, (refuses_char (stops_cons rfl)).bind⟩
    | comma around =>
        rw [List.cons_append, List.append_assoc]
        exact ⟨.comma _, (reads_char ',' _).bind_refuses (refuses_item depth around later)⟩
  rw [← List.map_id items, ← List.append_nil (items.map id)]
  refine written.readsAll id Delimited ?_ ?_ closed.1 (.stop closed.2)
  · rintro meant _ later ⟨written⟩ ends
    exact (reads_char ',' _).bind (reads_item written ends)
  · rintro meant _ ⟨written⟩ later
    exact .comma _

/-- **A written array is read**, in front of anything. -/
theorem reads_array (written : WritesArray (StandsFor depth) items spelled) (later : List Char) :
    Reads (array (value depth)) (spelled ++ later) (.array items) later := by
  have closed (values : List Value) {gap : List Char} (around : IsSpacing gap) :
      Reads (do spacing; char ']'; return Value.array values) (gap ++ ']' :: later)
        (Value.array values) later :=
    (reads_spacing around (stops_cons rfl)).bind ((reads_char ']' later).bind (reads_pure _ _))
  cases written with
  | none around =>
      rw [List.cons_append, List.append_assoc]
      refine (reads_char '[' _).bind (Reads.bind ?_ (closed [] around))
      exact (refuses_item depth around later).bind.bind.orElse (reads_pure [] _)
  | some first others closes =>
      obtain ⟨further, ends⟩ := readsAll_further others closes later
      rw [List.cons_append, List.append_assoc, List.append_assoc]
      have list := reads_separated (reads_item first ends) further
      refine (reads_char '[' _).bind ?_
      cases closes with
      | plain =>
          refine Reads.bind (Reads.orElse (list.bind ?_)) (closed _ .nil)
          exact (refuses_char (stops_cons rfl)).optional.bind (reads_pure _ _)
      | comma around =>
          rw [List.cons_append, List.append_assoc] at list ⊢
          refine Reads.bind (Reads.orElse (list.bind ?_)) (closed _ around)
          exact (reads_char ',' _).optional.bind (reads_pure _ _)

theorem WritesArray.reads_value (written : WritesArray (StandsFor depth) items spelled)
    (later : List Char) : Reads (value (depth + 1)) (spelled ++ later) (.array items) later := by
  refine Refuses.orElse ?_ (reads_array written later).orElse
  cases written with
  | none | some => rfl

/-- **A written array stands for the values of its items.** -/
theorem WritesArray.standsFor (written : WritesArray (StandsFor depth) items spelled) :
    StandsFor (depth + 1) (.array items) spelled where
  opens later := by
    cases written with
    | none | some => exact stops_cons rfl
  reads later _ := written.reads_value later

/-- A list of texts is an array of them. -/
theorem WritesTexts.writesArray (written : WritesTexts texts spelled) (depth : Nat) :
    WritesArray (StandsFor depth) (texts.map .string) spelled := by
  have item {text : String} {spelled : List Char} (written : WritesItem text spelled) :
      Spaced (StandsFor depth) (.string text) spelled := by
    obtain ⟨opening, written, closing⟩ := written
    exact .around opening.isSpacing (written.standsFor depth) closing.isSpacing
  cases written with
  | none blank => exact .none blank.isSpacing
  | some first others =>
      rw [List.append_assoc]
      refine .some (item first) (others.map ?_) .plain
      rintro text spelled ⟨written⟩
      exact .comma (item written)

/-- **A written value is read**, in front of anything but a quote. -/
theorem reads_value {written : Value} (writes : WritesValue written spelled)
    (apart : Stops (· == '"') later) :
    Reads (value maxDepth) (spelled ++ later) written later := by
  cases writes with
  | text written => exact reads_value_string maxDepth written apart
  -- `maxDepth` is one more than the depth that is left for the items
  | texts written => exact (written.writesArray 78).reads_value later

end Lists

section Lines

variable {name : String} {before gap spelled later : List Char}

/-- A character that could belong to a key, or to what may stand between its parts. -/
def continuesKey (c : Char) : Bool :=
  isBareKeyChar c || isBlank c || c == '.'

theorem beq_of_isBareKeyChar {c other : Char} (bare : isBareKeyChar c = true)
    (special : isBareKeyChar other = false) : (c == other) = false := by
  rw [beq_eq_false_iff_ne]
  rintro rfl
  rw [bare] at special
  cases special

theorem isBlank_of_isBareKeyChar {c : Char} (bare : isBareKeyChar c = true) :
    isBlank c = false := by
  rw [isBlank, beq_of_isBareKeyChar bare (by decide), beq_of_isBareKeyChar bare (by decide)]
  rfl

theorem IsBareKey.stops (bare : IsBareKey name) {test : Char → Bool}
    (apart : ∀ c, isBareKeyChar c = true → test c = false) (rest : List Char) :
    Stops test (name.toList ++ rest) := by
  obtain ⟨some, consists⟩ := bare
  cases spelled : name.toList with
  | nil => exact absurd spelled some
  | cons c more =>
      have member : c ∈ name.toList := by
        rw [spelled]
        exact List.mem_cons_self
      exact stops_cons (apart c (consists c member))

/-- A written key opens with none of the characters that have a meaning of their own. -/
theorem IsBareKey.stops_beq (bare : IsBareKey name) {c : Char} (special : isBareKeyChar c = false)
    (rest : List Char) : Stops (· == c) (name.toList ++ rest) :=
  bare.stops (fun _ part => beq_of_isBareKeyChar part special) rest

theorem reads_keyPart (named : WritesKey name spelled) (stops : Stops isBareKeyChar later) :
    Reads keyPart (spelled ++ later) name later := by
  cases named with
  | quoted written => exact (reads_basicString written later).orElse
  | bare bare =>
      have noQuote := refuses_char (bare.stops_beq (c := '"') (by decide) later)
      have noTick := refuses_char (bare.stops_beq (c := '\'') (by decide) later)
      have reads := (reads_many1_satisfy bare.1 bare.2 stops).map (f := String.ofList)
      rw [String.ofList_toList] at reads
      exact noQuote.bind.orElse (noTick.bind.orElse reads)

theorem WritesKey.stops (named : WritesKey name spelled) {test : Char → Bool}
    (apart : ∀ c, isBareKeyChar c = true → test c = false) (quote : test '"' = false)
    (rest : List Char) : Stops test (spelled ++ rest) := by
  cases named with
  | bare bare => exact bare.stops apart rest
  | quoted written =>
      obtain ⟨others, rfl⟩ := written.exists_cons
      exact stops_cons quote

/-- **A written key is read**, with the blanks around it. -/
theorem reads_key (opening : IsGap before) (named : WritesKey name spelled) (blank : IsGap gap)
    (ends : Stops continuesKey later) :
    Reads key (before ++ (spelled ++ (gap ++ later))) ⟨[], name⟩ later := by
  have other {c : Char} (head : later.head? = some c) :
      isBareKeyChar c = false ∧ isBlank c = false ∧ (c == '.') = false := by
    have stopped := ends c head
    simpa only [continuesKey, Bool.or_eq_false_iff, and_assoc] using stopped
  have noPart : Stops isBareKeyChar (gap ++ later) := by
    cases gap with
    | nil => exact fun c head => (other head).1
    | cons c gap =>
        refine stops_cons (Bool.eq_false_iff.mpr fun bare => ?_)
        have white := blank c List.mem_cons_self
        rw [isBlank_of_isBareKeyChar bare] at white
        cases white
  have opens := named.stops (fun _ => isBlank_of_isBareKeyChar) rfl (gap ++ later)
  have noBlank : Stops isBlank later := fun c head => (other head).2.1
  have spaced : Reads (do blanks; let part ← keyPart; blanks; return part)
      (before ++ (spelled ++ (gap ++ later))) name later :=
    (reads_blanks opening opens).bind ((reads_keyPart named noPart).bind
      ((reads_blanks blank noBlank).bind (reads_pure name later)))
  have single : Refuses (char '.') later := refuses_char fun c head => (other head).2.2
  exact (reads_separated spaced (.stop single.bind)).filterMap rfl

theorem WritesValue.stops_blank {value : Value} (writes : WritesValue value spelled)
    (later : List Char) : Stops isBlank (spelled ++ later) := by
  cases writes with
  | text written =>
      obtain ⟨others, rfl⟩ := written.exists_cons
      exact stops_cons rfl
  | texts written =>
      cases written with
      | none | some => exact stops_cons rfl

theorem reads_pair {written : Value} (bare : IsBareKey name) (writes : WritesValue written spelled)
    (apart : Stops (· == '"') later) :
    Reads (pair (value maxDepth)) (name.toList ++ ([' ', '=', ' '] ++ (spelled ++ later)))
      (⟨[], name⟩, written) later := by
  refine (reads_key isGap_nil (.bare bare) isGap_blank (stops_cons rfl)).bind ?_
  refine (reads_char '=' _).bind ?_
  refine (reads_blanks isGap_blank (writes.stops_blank later)).bind ?_
  exact (reads_value writes apart).bind (reads_pure _ later)

theorem reads_lineTail (later : List Char) : Reads lineTail ('\n' :: later) () later := by
  have noComment : Refuses comment ('\n' :: later) := (refuses_char (stops_cons rfl)).bind
  have ends : Reads lineEnd ('\n' :: later) () later := (reads_char '\n' later).orElse.orElse
  exact (reads_blanks isGap_nil (stops_cons rfl)).bind (noComment.optional.bind ends)

theorem reads_statement {written : Statement} (writes : WritesLine written spelled)
    (later : List Char) : ∃ front, spelled = front ++ ['\n'] ∧
      Reads statement (front ++ '\n' :: later) written ('\n' :: later) := by
  cases writes with
  | @assign name value spelled bare written =>
      refine ⟨name.toList ++ ([' ', '=', ' '] ++ spelled), by simp, ?_⟩
      rw [List.append_assoc, List.append_assoc]
      -- both kinds of header are asked first
      have noHeader (count : Nat) (rest : List Char) :
          Refuses (bracketed (count + 1)) (name.toList ++ rest) :=
        (refuses_exact (bare.stops_beq (by decide) rest)).bind
      have apart : Stops (· == '"') ('\n' :: later) := stops_cons rfl
      have reads := reads_pair bare written apart
      exact (noHeader 1 _).map.orElse ((noHeader 0 _).map.orElse reads.map)
  | @elementHeader name bare =>
      refine ⟨['[', '['] ++ (name.toList ++ [']', ']']), by simp, ?_⟩
      rw [List.append_assoc, List.append_assoc]
      have header : Reads (bracketed 2)
          (['[', '['] ++ (name.toList ++ ([']', ']'] ++ '\n' :: later))) ⟨[], name⟩
          ('\n' :: later) := by
        refine (reads_exact ['[', '['] _).bind ?_
        refine (reads_key isGap_nil (.bare bare) isGap_nil (stops_cons rfl)).bind ?_
        exact (reads_exact [']', ']'] _).bind (reads_pure _ _)
      exact header.map.orElse

/-- A line opens with a character of a key or with a bracket. -/
theorem WritesLine.stops {written : Statement} (writes : WritesLine written spelled)
    {test : Char → Bool} (part : ∀ c, isBareKeyChar c = true → test c = false)
    (bracket : test '[' = false) (rest : List Char) : Stops test (spelled ++ rest) := by
  cases writes with
  | assign bare =>
      rw [List.append_assoc]
      exact bare.stops part _
  | elementHeader => exact stops_cons bracket

theorem WritesLine.stops_beq {written : Statement} (writes : WritesLine written spelled)
    {c : Char} (special : isBareKeyChar c = false) (apart : ('[' == c) = false)
    (rest : List Char) : Stops (· == c) (spelled ++ rest) :=
  writes.stops (fun _ part => beq_of_isBareKeyChar part special) apart rest

theorem reads_line {written : Statement} (writes : WritesLine written spelled)
    (later : List Char) : Reads line (spelled ++ later) (some written) later := by
  have noNewline : Refuses newline (spelled ++ later) :=
    (refuses_char (writes.stops_beq (by decide) (by decide) later)).orElse_refuses
      (refuses_exact (writes.stops_beq (by decide) (by decide) later))
  have noComment : Refuses comment (spelled ++ later) :=
    (refuses_char (writes.stops_beq (by decide) (by decide) later)).bind
  obtain ⟨front, rfl, reads⟩ := reads_statement writes later
  rw [List.append_assoc] at noNewline noComment ⊢
  refine noNewline.bind.orElse (noComment.bind.orElse ?_)
  exact reads.bind ((reads_lineTail later).bind (reads_pure _ later))

/-- A text goes on with nothing that is skipped in front of lines. -/
def Visible (text : List Char) : Prop :=
  Stops (fun c => isBlank c || c == '\uFEFF') text

theorem Visible.stops_blank {text : List Char} (visible : Visible text) : Stops isBlank text :=
  fun c head => (Bool.or_eq_false_iff.mp (visible c head)).1

theorem Visible.stops_mark {text : List Char} (visible : Visible text) :
    Stops (· == '\uFEFF') text :=
  fun c head => (Bool.or_eq_false_iff.mp (visible c head)).2

/-- A line, with the blanks in front of the next. -/
def nextLine : Scanner (Option Statement) := do
  let line ← line
  blanks
  return line

instance : Takes nextLine := by
  unfold nextLine
  infer_instance

/-- The statements of a text are those of its lines, if nothing is skipped in front of them. -/
theorem reads_statements_of_readsAll {lines : List (Option Statement)} {text rest : List Char}
    (visible : Visible text) (all : ReadsAll nextLine text lines rest) :
    Reads statements text (lines.filterMap id) rest := by
  refine (refuses_char visible.stops_mark).optional.bind ?_
  exact (reads_blanks isGap_nil visible.stops_blank).bind (all.many.bind (reads_pure _ rest))

/-- Written statements are read, and then the lines behind them. -/
theorem WritesAll.readsAll_nextLine {list : List Statement} {lines : List (Option Statement)}
    {text rest back : List Char} (written : WritesAll WritesLine list text) (ends : Visible rest)
    (goesOn : ReadsAll nextLine rest lines back) :
    ReadsAll nextLine (text ++ rest) (list.map some ++ lines) back ∧ Visible (text ++ rest) := by
  -- a line opens with neither a blank nor a mark, so nothing is skipped in front of it
  have apart : ∀ c, isBareKeyChar c = true → (isBlank c || c == '\uFEFF') = false := by
    intro c part
    rw [isBlank_of_isBareKeyChar part, beq_of_isBareKeyChar part (by decide)]
    rfl
  refine written.readsAll some Visible ?_ ?_ ends goesOn
  · intro statement front later writes visible
    exact (reads_line writes later).bind
      ((reads_blanks isGap_nil visible.stops_blank).bind (reads_pure _ later))
  · exact fun writes later => writes.stops apart (by decide) later

/-- **Written statements are read**, as far as a line that is refused. -/
theorem reads_statements {list : List Statement} {text rest : List Char}
    (written : WritesAll WritesLine list text) (ends : Visible rest) (refuses : Refuses line rest) :
    Reads statements (text ++ rest) list rest := by
  obtain ⟨lines, visible⟩ := written.readsAll_nextLine ends (.stop refuses.bind)
  have kept : (list.map some ++ []).filterMap id = list := by
    rw [List.append_nil, List.filterMap_map, Function.id_comp, List.filterMap_some]
  have reads := reads_statements_of_readsAll visible lines
  rwa [kept] at reads

/-- Statements are all of a text that is written for them. -/
theorem readAll?_statements {list : List Statement} {text : List Char}
    (written : WritesAll WritesLine list text) : statements.readAll? text = some list := by
  have reads : Reads statements (text ++ []) list [] := reads_statements written (stops_nil _) rfl
  rw [List.append_nil] at reads
  exact readAll?_of_reads reads

/-- **A line that is refused spoils the text**, whatever was read in front of it. -/
theorem readAll?_of_refused {list : List Statement} {text rest : List Char}
    (written : WritesAll WritesLine list text) (some : rest ≠ []) (ends : Visible rest)
    (refuses : Refuses line rest) : statements.readAll? (text ++ rest) = none :=
  readAll?_of_rest (reads_statements written ends refuses) some

end Lines

end Toml

end ShaderHeader
