import ShaderHeader.Proofs.Identifier
import ShaderHeader.Toml.Statement

/-!
# Written statements

How strings, lists of strings and statements about them are written.  There are several ways to
write one text: any character may be escaped, and blanks may stand around the items of a list.
`spellText` and `spellTexts` choose one of them.
-/

namespace ShaderHeader

namespace Toml

/-- Items written one after another. -/
inductive WritesAll {α : Type} (writes : α → List Char → Prop) : List α → List Char → Prop where
  | nil : WritesAll writes [] []
  | cons {item : α} {items : List α} {front back : List Char} (first : writes item front)
      (others : WritesAll writes items back) : WritesAll writes (item :: items) (front ++ back)

/-- The letters that stand for characters after a backslash. -/
def escapeLetters : List (Char × Char) := [
  ('b', '\x08'), ('t', '\t'), ('n', '\n'), ('f', '\x0c'), ('r', '\r'), ('"', '"'), ('\\', '\\')]

/-- Hexadecimal digits, in upper or lower case, that spell the code point of a character. -/
def SpellsCode (digits : List Char) (c : Char) : Prop :=
  ∃ values : List Nat, digits.map hexValue? = values.map some ∧ ofDigits 16 values = c.toNat

/-- The ways to write a character between double quotes.  Quotes, backslashes and control
characters other than the tab have to be escaped. -/
inductive WritesChar : Char → List Char → Prop where
  | plain {c : Char} (text : isText c = true) (noQuote : c ≠ '"') (noBackslash : c ≠ '\\') :
      WritesChar c [c]
  | letter {c letter : Char} (listed : (letter, c) ∈ escapeLetters) : WritesChar c ['\\', letter]
  | four {c : Char} {digits : List Char} (length : digits.length = 4)
      (code : SpellsCode digits c) : WritesChar c ('\\' :: 'u' :: digits)
  | eight {c : Char} {digits : List Char} (length : digits.length = 8)
      (code : SpellsCode digits c) : WritesChar c ('\\' :: 'U' :: digits)

inductive WritesText : String → List Char → Prop where
  | quoted {text : String} {spelled : List Char}
      (characters : WritesAll WritesChar text.toList spelled) :
      WritesText text ('"' :: (spelled ++ ['"']))

/-- Blanks that may stand around an item. -/
def IsGap (gap : List Char) : Prop :=
  ∀ c ∈ gap, isBlank c = true

theorem isGap_nil : IsGap [] :=
  nofun

theorem isGap_blank : IsGap [' '] := by
  simp [IsGap, isBlank]

/-- The ways to write an item of a list. -/
inductive WritesItem : String → List Char → Prop where
  | spaced {text : String} {before spelled after : List Char} (opening : IsGap before)
      (written : WritesText text spelled) (closing : IsGap after) :
      WritesItem text (before ++ spelled ++ after)

inductive WritesFurther : String → List Char → Prop where
  | comma {text : String} {spelled : List Char} (written : WritesItem text spelled) :
      WritesFurther text (',' :: spelled)

/-- The ways to write a list of texts on one line. -/
inductive WritesTexts : List String → List Char → Prop where
  | none {gap : List Char} (blank : IsGap gap) : WritesTexts [] ('[' :: (gap ++ [']']))
  | some {text : String} {texts : List String} {front back : List Char}
      (first : WritesItem text front) (others : WritesAll WritesFurther texts back) :
      WritesTexts (text :: texts) ('[' :: (front ++ back ++ [']']))

/-- Ends of a line. -/
inductive IsLineEnd : List Char → Prop where
  | feed : IsLineEnd ['\n']
  | returned : IsLineEnd ['\r', '\n']

/-- Blanks, line ends and comments that may stand around an item of an array. -/
inductive IsSpacing : List Char → Prop where
  | nil : IsSpacing []
  | blank {c : Char} {rest : List Char} (blank : isBlank c = true) (others : IsSpacing rest) :
      IsSpacing (c :: rest)
  | line {ending rest : List Char} (ended : IsLineEnd ending) (others : IsSpacing rest) :
      IsSpacing (ending ++ rest)
  | comment {text ending rest : List Char} (plain : ∀ c ∈ text, isText c = true)
      (ended : IsLineEnd ending) (others : IsSpacing rest) :
      IsSpacing ('#' :: (text ++ (ending ++ rest)))

theorem IsGap.isSpacing {gap : List Char} (blank : IsGap gap) : IsSpacing gap := by
  induction gap with
  | nil => exact .nil
  | cons c gap ih =>
      obtain ⟨first, others⟩ := List.forall_mem_cons.mp blank
      exact .blank first (ih others)

/-- An item with spacing around it. -/
inductive Spaced {α : Type} (writes : α → List Char → Prop) : α → List Char → Prop where
  | around {item : α} {before spelled after : List Char} (opening : IsSpacing before)
      (written : writes item spelled) (closing : IsSpacing after) :
      Spaced writes item (before ++ spelled ++ after)

/-- An item with a comma in front of it. -/
inductive Further {α : Type} (writes : α → List Char → Prop) : α → List Char → Prop where
  | comma {item : α} {spelled : List Char} (written : writes item spelled) :
      Further writes item (',' :: spelled)

/-- The end of an array, perhaps with a comma after its last item. -/
inductive ClosesArray : List Char → Prop where
  | plain : ClosesArray [']']
  | comma {gap : List Char} (around : IsSpacing gap) : ClosesArray (',' :: (gap ++ [']']))

/-- The ways to write an array, perhaps on several lines. -/
inductive WritesArray {α : Type} (writes : α → List Char → Prop) : List α → List Char → Prop where
  | none {gap : List Char} (around : IsSpacing gap) : WritesArray writes [] ('[' :: (gap ++ [']']))
  | some {item : α} {items : List α} {front back ending : List Char}
      (first : Spaced writes item front) (others : WritesAll (Further (Spaced writes)) items back)
      (closes : ClosesArray ending) :
      WritesArray writes (item :: items) ('[' :: (front ++ (back ++ ending)))

/-- The ways to write a text, or a list of texts. -/
inductive WritesValue : Value → List Char → Prop where
  | text {text : String} {spelled : List Char} (written : WritesText text spelled) :
      WritesValue (.string text) spelled
  | texts {texts : List String} {spelled : List Char} (written : WritesTexts texts spelled) :
      WritesValue (.array (texts.map .string)) spelled

/-- A key that is written without quotes. -/
def IsBareKey (key : String) : Prop :=
  key.toList ≠ [] ∧ ConsistsOf key isBareKeyChar

instance (key : String) : Decidable (IsBareKey key) :=
  inferInstanceAs (Decidable (_ ∧ _))

/-- The ways to write a key without dots. -/
inductive WritesKey : String → List Char → Prop where
  | bare {name : String} (bare : IsBareKey name) : WritesKey name name.toList
  | quoted {name : String} {spelled : List Char} (written : WritesText name spelled) :
      WritesKey name spelled

/-- The ways to write a key and its value in braces. -/
inductive WritesPair {α : Type} (writes : α → List Char → Prop) :
    String × α → List Char → Prop where
  | equals {name : String} {item : α} {before spelledName between gap spelled after : List Char}
      (opening : IsGap before) (named : WritesKey name spelledName) (middle : IsGap between)
      (space : IsGap gap) (written : writes item spelled) (closing : IsGap after) :
      WritesPair writes (name, item)
        (before ++ (spelledName ++ (between ++ '=' :: (gap ++ (spelled ++ after)))))

/-- The ways to write a table in braces. -/
inductive WritesBraces {α : Type} (writes : α → List Char → Prop) :
    List (String × α) → List Char → Prop where
  | none {gap : List Char} (blank : IsGap gap) :
      WritesBraces writes [] ('\x7b' :: (gap ++ ['\x7d']))
  | some {entry : String × α} {entries : List (String × α)} {front back : List Char}
      (first : WritesPair writes entry front)
      (others : WritesAll (Further (WritesPair writes)) entries back) :
      WritesBraces writes (entry :: entries) ('\x7b' :: (front ++ (back ++ ['\x7d'])))

/-- The ways to write a line that gives a key its value, or a header in double brackets. -/
inductive WritesLine : Statement → List Char → Prop where
  | assign {key : String} {value : Value} {spelled : List Char} (bare : IsBareKey key)
      (written : WritesValue value spelled) :
      WritesLine (.assign ⟨[], key⟩ value) (key.toList ++ ([' ', '=', ' '] ++ (spelled ++ ['\n'])))
  | elementHeader {key : String} (bare : IsBareKey key) :
      WritesLine (.elementHeader ⟨[], key⟩) (['[', '['] ++ (key.toList ++ [']', ']', '\n']))

theorem WritesAll.append {α : Type} {writes : α → List Char → Prop} {items more : List α}
    {front back : List Char} (first : WritesAll writes items front)
    (second : WritesAll writes more back) : WritesAll writes (items ++ more) (front ++ back) := by
  induction first with
  | nil => exact second
  | cons opening _ ih =>
      rw [List.cons_append, List.append_assoc]
      exact .cons opening ih

/-- What is written as an item is also written as what this item stands for. -/
theorem WritesAll.map {α β : Type} {writes : α → List Char → Prop}
    {writesImage : β → List Char → Prop} {f : α → β}
    (each : ∀ {item front}, writes item front → writesImage (f item) front) {items : List α}
    {text : List Char} (written : WritesAll writes items text) :
    WritesAll writesImage (items.map f) text := by
  induction written with
  | nil => exact .nil
  | cons first _ ih => exact .cons (each first) ih

section Spelling

/-- One way to write a character between double quotes: as itself if that is possible. -/
def spellChar (c : Char) : List Char :=
  if c = '"' ∨ c = '\\' then ['\\', c]
  else if isText c then [c]
  else ['\\', 'u', '0', '0', Nat.digitChar (c.toNat / 16), Nat.digitChar (c.toNat % 16)]

/-- One way to write a text between double quotes. -/
def spellText (text : String) : List Char :=
  '"' :: (text.toList.flatMap spellChar ++ ['"'])

/-- One way to write a list of texts: with a blank after each comma. -/
def spellTexts : List String → List Char
  | [] => ['[', ']']
  | text :: texts =>
    '[' :: (spellText text ++
      texts.flatMap (fun further => ',' :: ' ' :: spellText further) ++ [']'])

theorem writesAll_flatMap {α : Type} {writes : α → List Char → Prop} {spell : α → List Char}
    (each : ∀ item, writes item (spell item)) (items : List α) :
    WritesAll writes items (items.flatMap spell) := by
  induction items with
  | nil => exact .nil
  | cons item items ih => exact .cons (each item) ih

/-- A character that cannot stand as itself is one of the first 128. -/
theorem spellsCode_of_not_isText {c : Char} (control : isText c = false) :
    SpellsCode ['0', '0', Nat.digitChar (c.toNat / 16), Nat.digitChar (c.toNat % 16)] c := by
  have low : c.toNat < 128 := by
    simp only [isText, Bool.or_eq_false_iff, Bool.and_eq_false_iff, decide_eq_false_iff_not,
      bne_eq_false_iff_eq] at control
    omega
  have digits : ∀ code < 128,
      hexValue? (Nat.digitChar (code / 16)) = some (code / 16) ∧
        hexValue? (Nat.digitChar (code % 16)) = some (code % 16) := by decide
  obtain ⟨high, rest⟩ := digits c.toNat low
  refine ⟨[0, 0, c.toNat / 16, c.toNat % 16], ?_, ?_⟩
  · simp only [List.map_cons, List.map_nil, high, rest]
    rfl
  · simp only [ofDigits, List.foldl_cons, List.foldl_nil]
    omega

theorem writesChar_spellChar (c : Char) : WritesChar c (spellChar c) := by
  unfold spellChar
  by_cases marked : c = '"' ∨ c = '\\'
  · rw [if_pos marked]
    refine .letter ?_
    rcases marked with rfl | rfl
    · decide
    · decide
  · rw [if_neg marked]
    obtain ⟨noQuote, noBackslash⟩ := not_or.mp marked
    by_cases text : isText c = true
    · rw [if_pos text]
      exact .plain text noQuote noBackslash
    · rw [if_neg text]
      exact .four rfl (spellsCode_of_not_isText (Bool.eq_false_iff.mpr text))

/-- **Every text can be written.** -/
theorem writesText_spellText (text : String) : WritesText text (spellText text) :=
  .quoted (writesAll_flatMap writesChar_spellChar text.toList)

/-- One way to write items between brackets or braces: with a blank after each comma. -/
def spellAmong {α : Type} (opening closing : Char) (spell : α → List Char) : List α → List Char
  | [] => [opening, closing]
  | item :: items =>
    opening :: (spell item ++
      (items.flatMap (fun further => ',' :: ' ' :: spell further) ++ [closing]))

section Among

variable {α β : Type} {writes : β → List Char → Prop} {f : α → β} {spell : α → List Char}

/-- **Every array can be written** whose items can. -/
theorem writesArray_spellAmong (each : ∀ item, writes (f item) (spell item)) (items : List α) :
    WritesArray writes (items.map f) (spellAmong '[' ']' spell items) := by
  have spaced {before : List Char} (opening : IsGap before) (item : α) :
      Spaced writes (f item) (before ++ spell item) := by
    have written : Spaced writes (f item) (before ++ spell item ++ []) :=
      .around opening.isSpacing (each item) .nil
    rwa [List.append_nil] at written
  cases items with
  | nil => exact .none .nil
  | cons item items =>
      have further : ∀ item, Further (Spaced writes) (f item) (',' :: ' ' :: spell item) :=
        fun item => .comma (spaced isGap_blank item)
      have others := (writesAll_flatMap further items).map (f := f) id
      exact .some (spaced isGap_nil item) others .plain

end Among

/-- One way to write a key and its value in braces. -/
def spellPair {α : Type} (key : α → String) (spell : α → List Char) (item : α) : List Char :=
  (key item).toList ++ ([' ', '=', ' '] ++ spell item)

section Pairs

variable {α β : Type} {writes : β → List Char → Prop} {f : α → β} {key : α → String}
variable {spell : α → List Char}

/-- **Every table can be written** in braces, if its values can. -/
theorem writesBraces_spellAmong (bare : ∀ item, IsBareKey (key item))
    (each : ∀ item, writes (f item) (spell item)) (items : List α) :
    WritesBraces writes (items.map fun item => (key item, f item))
      (spellAmong '\x7b' '\x7d' (spellPair key spell) items) := by
  have pair {before : List Char} (opening : IsGap before) (item : α) :
      WritesPair writes (key item, f item) (before ++ spellPair key spell item) := by
    have written := WritesPair.equals opening (.bare (bare item)) isGap_blank isGap_blank
      (each item) isGap_nil
    rwa [List.append_nil] at written
  cases items with
  | nil => exact .none isGap_nil
  | cons item items =>
      have further : ∀ item, Further (WritesPair writes) (key item, f item)
          (',' :: ' ' :: spellPair key spell item) :=
        fun item => .comma (pair isGap_blank item)
      have others := (writesAll_flatMap further items).map (f := fun item => (key item, f item)) id
      exact .some (pair isGap_nil item) others

end Pairs

theorem writesItem_spaced {before : List Char} (opening : IsGap before) (text : String) :
    WritesItem text (before ++ spellText text) := by
  have written : WritesItem text (before ++ spellText text ++ []) :=
    .spaced opening (writesText_spellText text) isGap_nil
  rwa [List.append_nil] at written

/-- **Every list of texts can be written.** -/
theorem writesTexts_spellTexts (texts : List String) : WritesTexts texts (spellTexts texts) := by
  have further : ∀ text, WritesFurther text (',' :: ' ' :: spellText text) :=
    fun text => .comma (writesItem_spaced isGap_blank text)
  cases texts with
  | nil => exact .none isGap_nil
  | cons text texts =>
      exact .some (writesItem_spaced isGap_nil text) (writesAll_flatMap further texts)

end Spelling

end Toml

end ShaderHeader
