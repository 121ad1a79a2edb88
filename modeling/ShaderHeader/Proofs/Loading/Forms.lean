import Mathlib.Data.List.Forall2
import ShaderHeader.Proofs.Loading.Settings
import ShaderHeader.Proofs.Toml.Exchange

/-!
# Entries by position and by key

An entry of a list of embeddings gives the first fields either by position, in brackets, or by key,
in braces.  Which of the forms is chosen makes no difference (`Embedding.listOfToml_forms`): what is
loaded depends on the values that the entries give, and any of them may be switched to the other
form, whatever stands in the rest of the text.
-/

namespace ShaderHeader

open Toml

namespace Field

/-- All fields, by their position. -/
def all : List Field :=
  [.source, .destination, .arrayName, .guard, .namespaces]

theorem getElem?_all (field : Field) : all[field.position]? = some field := by
  cases field <;> rfl

theorem position_lt (field : Field) : field.position < all.length := by
  cases field <;> decide

end Field

/-- An entry of a list of embeddings, whichever form it has. -/
inductive ListEntry where
  /-- The values of the first fields, and of no others. -/
  | given (values : List Value)
  | other (value : Value)

namespace ListEntry

/-- The embedding that an entry describes. -/
def embedding? : ListEntry → Option Embedding
  | .given values => Embedding.ofItems? values
  | .other value => Embedding.ofEntry? value

/-- The values that are an entry.  Fields may be given in brackets, in their order and with more
values after the last field, or in braces, in any order. -/
inductive IsForm : ListEntry → Value → Prop where
  | byPosition {values further : List Value} (few : values.length ≤ Field.all.length)
      (complete : further ≠ [] → values.length = Field.all.length) :
      IsForm (.given values) (.array (values ++ further))
  | byKey {values : List Value} {table : Table} (few : values.length ≤ Field.all.length)
      (named : table.Perm ((Field.all.map Field.key).zip values)) :
      IsForm (.given values) (.table .inline table)
  | other (value : Value) : IsForm (.other value) value

/-- The texts that are an entry, in brackets or in braces. -/
inductive Writes : ListEntry → List Char → Prop where
  | byPosition {values further : List Value} {spelled : List Char}
      (few : values.length ≤ Field.all.length)
      (complete : further ≠ [] → values.length = Field.all.length)
      (written : WritesArray (StandsFor 77) (values ++ further) spelled) :
      Writes (.given values) spelled
  | byKey {values : List Value} {table : Table} {spelled : List Char}
      (few : values.length ≤ Field.all.length)
      (named : table.Perm ((Field.all.map Field.key).zip values))
      (written : WritesBraces (StandsFor 77) table spelled) : Writes (.given values) spelled
  | other {value : Value} {spelled : List Char} (stands : StandsFor 78 value spelled) :
      Writes (.other value) spelled

/-! ## Fields by key -/

section Keys

variable {table other : Table} {key : String} {value : Value} {values : List Value}

theorem lookup_eq_some_iff_mem (distinct : table.Distinct) :
    table.lookup key = some value ↔ (key, value) ∈ table := by
  constructor
  · intro found
    obtain ⟨before, after, rfl, -⟩ := List.lookup_eq_some_iff.mp found
    exact List.mem_append_cons_self
  · intro member
    obtain ⟨before, after, rfl⟩ := List.append_of_mem member
    have absent := List.lookup_eq_none_iff.mp (lookup_eq_none_of_distinct distinct)
    exact List.lookup_eq_some_iff.mpr ⟨before, after, rfl, absent⟩

theorem distinct_of_perm (same : table.Perm other) (distinct : other.Distinct) : table.Distinct :=
  (same.map Prod.fst).nodup_iff.mpr distinct

/-- The order of keys makes no difference. -/
theorem lookup_of_perm (same : table.Perm other) (distinct : other.Distinct) (key : String) :
    table.lookup key = other.lookup key := by
  apply Option.ext
  intro value
  rw [lookup_eq_some_iff_mem (distinct_of_perm same distinct), lookup_eq_some_iff_mem distinct,
    same.mem_iff]

theorem map_fst_zip_sublist (keys : List String) (values : List Value) :
    ((keys.zip values).map Prod.fst).Sublist keys := by
  induction keys generalizing values with
  | nil => exact .slnil
  | cons key keys ih =>
      cases values with
      | nil => exact List.nil_sublist _
      | cons value values => exact (ih values).cons_cons key

/-- The key at a position has the value at that position. -/
theorem lookup_zip {keys : List String} (different : keys.Nodup) (values : List Value) {i : Nat}
    (found : keys[i]? = some key) : (keys.zip values).lookup key = values[i]? := by
  induction keys generalizing values i with
  | nil => cases found
  | cons first keys ih =>
      obtain ⟨apart, others⟩ := List.nodup_cons.mp different
      cases values with
      | nil => rfl
      | cons value values =>
          cases i with
          | zero =>
              cases found
              exact List.lookup_cons_self
          | succ i =>
              have other : (key == first) = false := by
                rw [beq_eq_false_iff_ne]
                rintro rfl
                exact apart (List.mem_of_getElem? found)
              rw [List.zip_cons_cons, List.lookup_cons, other]
              exact ih others values found

theorem nodup_keys : (Field.all.map Field.key).Nodup := by
  decide

theorem lookup_of_named (named : table.Perm ((Field.all.map Field.key).zip values))
    (field : Field) : table.lookup field.key = values[field.position]? := by
  have found : (Field.all.map Field.key)[field.position]? = some field.key := by
    rw [List.getElem?_map, field.getElem?_all, Option.map_some]
  rw [lookup_of_perm named (nodup_keys.sublist (map_fst_zip_sublist _ values)),
    lookup_zip nodup_keys values found]

end Keys

/-- **Both forms of an entry describe the same embedding.** -/
theorem ofEntry?_of_isForm {entry : ListEntry} {value : Value} (form : entry.IsForm value) :
    Embedding.ofEntry? value = entry.embedding? := by
  cases form with
  | other => rfl
  | @byPosition values further few complete =>
      change Embedding.ofItems? (values ++ further) = Embedding.ofItems? values
      refine congrArg Embedding.ofFields? (funext fun field => ?_)
      have inside := field.position_lt
      by_cases given : field.position < values.length
      · exact List.getElem?_append_left given
      · have none : further = [] := by
          by_contra more
          have all := complete more
          omega
        rw [none, List.append_nil]
  | byKey few named =>
      exact congrArg Embedding.ofFields? (funext (lookup_of_named named))

/-- A text stands for one of the forms of the entry that it is. -/
theorem Writes.exists_isForm {entry : ListEntry} {spelled : List Char}
    (written : entry.Writes spelled) :
    ∃ value, entry.IsForm value ∧ StandsFor 78 value spelled := by
  cases written with
  | byPosition few complete written => exact ⟨_, .byPosition few complete, written.standsFor⟩
  | byKey few named written =>
      have distinct := distinct_of_perm named (nodup_keys.sublist (map_fst_zip_sublist _ _))
      exact ⟨_, .byKey few named, written.standsFor distinct⟩
  | other stands => exact ⟨_, .other _, stands⟩

end ListEntry

/-! ## Lists of entries -/

/-- What is loaded from a list of entries, by what they give. -/
def ListEntry.loaded (entries : List ListEntry) : Except Failure (List Embedding) :=
  match entries.mapM ListEntry.embedding? with
  | none => .error .malformed
  | some embeddings => embeddings.mapM Embedding.checked

/-- A text describes a table in which the list of embeddings is an array of these entries. -/
def ListEntry.Listed (entries : List ListEntry) (text : String) : Prop :=
  ∃ table items, parse? text = some table ∧ table.lookup "shaders" = some (.array items) ∧
    List.Forall₂ ListEntry.IsForm entries items

/-- The ways to write that the list of embeddings is an array of these entries. -/
inductive ListEntry.WritesList (entries : List ListEntry) : List Char → Prop where
  | assign {name between gap array : List Char} (named : WritesKey "shaders" name)
      (middle : IsGap between) (space : IsGap gap)
      (written : WritesArray ListEntry.Writes entries array) :
      WritesList entries (name ++ (between ++ '=' :: (gap ++ array)))

namespace ListEntry

variable {entries : List ListEntry} {items others : List Value} {text : String}
variable {spelled before after : List Char} {list : List Statement}

theorem mapM_of_forms (forms : List.Forall₂ IsForm entries items) :
    items.mapM Embedding.ofEntry? = entries.mapM embedding? := by
  induction forms with
  | nil => rfl
  | cons form _ ih => rw [List.mapM_cons, List.mapM_cons, ofEntry?_of_isForm form, ih]

theorem listOfToml_of_listed (listed : Listed entries text) :
    Embedding.listOfToml text = loaded entries := by
  obtain ⟨table, items, parsed, found, forms⟩ := listed
  have listed : Embedding.listOfTable? table = entries.mapM embedding? := by
    unfold Embedding.listOfTable?
    rw [found]
    exact mapM_of_forms forms
  unfold Embedding.listOfToml
  rw [parsed, Option.bind_some]
  exact listed ▸ rfl

/-- A written array of entries is an array of their forms. -/
theorem exists_isForm_of_writesArray {array : List Char}
    (written : WritesArray Writes entries array) :
    ∃ items, List.Forall₂ IsForm entries items ∧ WritesArray (StandsFor 78) items array := by
  have spaced {entry : ListEntry} {spelled : List Char}
      (written : Spaced Writes entry spelled) :
      ∃ value, entry.IsForm value ∧ Spaced (StandsFor 78) value spelled := by
    obtain ⟨opening, written, closing⟩ := written
    obtain ⟨value, form, stands⟩ := written.exists_isForm
    exact ⟨value, form, .around opening stands closing⟩
  cases written with
  | none around => exact ⟨[], .nil, .none around⟩
  | @some entry entries front back ending first others closes =>
      obtain ⟨value, form, one⟩ := spaced first
      have further : ∃ items, List.Forall₂ IsForm entries items ∧
          WritesAll (Further (Spaced (StandsFor 78))) items back := by
        clear first form one closes
        induction others with
        | nil => exact ⟨[], .nil, .nil⟩
        | cons next _ ih =>
            obtain ⟨written⟩ := next
            obtain ⟨value, form, one⟩ := spaced written
            obtain ⟨items, forms, further⟩ := ih
            exact ⟨value :: items, .cons form forms, .cons (.comma one) further⟩
      obtain ⟨items, forms, further⟩ := further
      exact ⟨value :: items, .cons form forms, .some one further closes⟩

theorem WritesList.exists_isForm (written : WritesList entries spelled) :
    ∃ items, List.Forall₂ IsForm entries items ∧
      SpellsStatement (.assign ⟨[], "shaders"⟩ (.array items)) spelled := by
  obtain ⟨named, middle, space, written⟩ := written
  obtain ⟨items, forms, array⟩ := exists_isForm_of_writesArray written
  exact ⟨items, forms, spellsStatement_array named middle space array⟩

/-- A text that is an entry. -/
structure Written where
  entry : ListEntry
  text : List Char
  writes : entry.Writes text

/-- One way to write a list of written entries. -/
def spell (written : List Written) : List Char :=
  "shaders = ".toList ++ spellAmong '[' ']' Written.text written

/-- **Every list of written entries can be written.** -/
theorem writesList_spell (written : List Written) :
    WritesList (written.map Written.entry) (spell written) :=
  .assign (.bare (by decide)) isGap_blank isGap_blank
    (writesArray_spellAmong Written.writes written)

/-- Written entries are listed by the text that says nothing else. -/
theorem listed_of_writesList_alone (written : WritesList entries spelled) :
    Listed entries (String.ofList (spelled ++ ['\n'])) := by
  obtain ⟨items, forms, spells⟩ := written.exists_isForm
  exact ⟨_, items, parse?_of_spells spells, List.lookup_cons_self, forms⟩

/-- Two ways to write the same entries, between the same lines, are both refused or both listed. -/
theorem listed_of_writesList {respelled : List Char} (whole : WholeLines list before)
    (plain : ∀ statement ∈ list, statement.IsAssignment) (after : List Char)
    (written : WritesList entries spelled) (rewritten : WritesList entries respelled) :
    let text := String.ofList (before ++ (spelled ++ after))
    let other := String.ofList (before ++ (respelled ++ after))
    (parse? text = none ∧ parse? other = none) ∨ (Listed entries text ∧ Listed entries other) := by
  obtain ⟨items, forms, spells⟩ := written.exists_isForm
  obtain ⟨others, otherForms, respells⟩ := rewritten.exists_isForm
  have both := parse?_exchanged whole plain spells respells (.arrays items others) after
  dsimp only
  generalize made : parse? (String.ofList (before ++ (spelled ++ after))) = first at both
  generalize remade : parse? (String.ofList (before ++ (respelled ++ after))) = second at both
  cases both with
  | none => exact .inl ⟨rfl, rfl⟩
  | some tables =>
      have found := lookup_parse? whole plain spells made
      have refound := lookup_parse? whole plain respells remade
      exact .inr ⟨⟨_, items, made, found, forms⟩, ⟨_, others, remade, refound, otherForms⟩⟩

end ListEntry

/-! ## Entries of settings -/

namespace Settings

variable {settings : Settings} {count : Nat} {fields : List Field}

/-- The entry that gives the first fields, with the values of the settings. -/
def leading (settings : Settings) (count : Nat) : ListEntry :=
  .given ((Field.all.take count).map fun field => settings.value (.field field))

/-- One way to give fields in brackets. -/
def spellByPosition (settings : Settings) (fields : List Field) : List Char :=
  spellAmong '[' ']' (fun field => settings.spell (.field field)) fields

/-- One way to give fields in braces. -/
def spellByKey (settings : Settings) (fields : List Field) : List Char :=
  spellAmong '\x7b' '\x7d' (spellPair Field.key fun field => settings.spell (.field field)) fields

theorem standsFor_spell (settings : Settings) (depth : Nat) (field : Field) :
    StandsFor (depth + 1) (settings.value (.field field)) (settings.spell (.field field)) := by
  cases field with
  | namespaces => exact ((writesTexts_spellTexts _).writesArray depth).standsFor
  | source | destination | arrayName | guard => exact (writesText_spellText _).standsFor (depth + 1)

theorem length_leading (settings : Settings) (count : Nat) :
    ((Field.all.take count).map fun field => settings.value (.field field)).length ≤
      Field.all.length := by
  rw [List.length_map]
  exact List.length_take_le' _ _

theorem writes_spellByPosition (settings : Settings) (count : Nat) :
    (settings.leading count).Writes (settings.spellByPosition (Field.all.take count)) := by
  refine .byPosition (settings.length_leading count) (absurd rfl) ?_
  rw [List.append_nil]
  exact writesArray_spellAmong (settings.standsFor_spell 76) _

theorem zip_map_take {α β γ : Type} (f : α → β) (g : α → γ) (list : List α) (count : Nat) :
    (list.map f).zip ((list.take count).map g) =
      (list.take count).map fun item => (f item, g item) := by
  induction list generalizing count with
  | nil => rw [List.take_nil, List.map_nil, List.map_nil, List.zip_nil_left, List.map_nil]
  | cons item list ih =>
      cases count with
      | zero => rw [List.take_zero, List.map_nil, List.zip_nil_right, List.map_nil]
      | succ count =>
          rw [List.take_succ_cons, List.map_cons, List.map_cons, List.map_cons, List.zip_cons_cons,
            ih]

theorem writes_spellByKey (settings : Settings) (order : fields.Perm (Field.all.take count)) :
    (settings.leading count).Writes (settings.spellByKey fields) := by
  refine .byKey (settings.length_leading count) ?_
    (writesBraces_spellAmong Field.isBareKey_key (settings.standsFor_spell 76) fields)
  rw [zip_map_take]
  exact order.map _

/-- A field is read as its own value if it is one of the first, and as the usual one otherwise. -/
theorem fieldOf?_leading {α : Type} {read? : Value → Option α} {usual own : α} {field : Field}
    (reads : read? (settings.value (.field field)) = some own) :
    fieldOf? read? usual
        (((Field.all.take count).map fun field => settings.value (.field field))[field.position]?) =
      some (if field.position < count then own else usual) := by
  rw [List.getElem?_map, List.getElem?_take]
  by_cases first : field.position < count
  · rw [if_pos first, if_pos first, field.getElem?_all]
    exact reads
  · rw [if_neg first, if_neg first]
    rfl

/-- The first fields have their own values, and the others the usual ones. -/
theorem embedding?_leading (settings : Settings) (count : Nat) :
    (settings.leading count).embedding? =
      some (settings.embedding.only fun field => field.position < count) := by
  unfold leading ListEntry.embedding? Embedding.ofItems?
  exact Embedding.ofFields?_eq_some (fieldOf?_leading rfl) (fieldOf?_leading rfl)
    (fieldOf?_leading rfl) (fieldOf?_leading rfl) (fieldOf?_leading (textsOf?_strings _))

end Settings

/-- **The form of an entry makes no difference.**  A text that lists entries loads what their
values say, whichever forms they have.  Every spelling of a list of entries is such a text, if
nothing else is said.  Between any other lines two spellings of the same entries, in brackets or
in braces, load alike: both texts are refused, or both list the entries.  And an entry that gives
the first fields can be spelled by position, or by key in any order; the fields that it does not
give are the usual ones. -/
theorem Embedding.listOfToml_forms (entries : List ListEntry) :
    (∀ text, ListEntry.Listed entries text → listOfToml text = ListEntry.loaded entries) ∧
      (∀ spelled, ListEntry.WritesList entries spelled →
        ListEntry.Listed entries (String.ofList (spelled ++ ['\n']))) ∧
      (∀ list before spelled respelled after, WholeLines list before →
        (∀ statement ∈ list, statement.IsAssignment) →
        ListEntry.WritesList entries spelled → ListEntry.WritesList entries respelled →
        let text := String.ofList (before ++ (spelled ++ after))
        let other := String.ofList (before ++ (respelled ++ after))
        listOfToml text = listOfToml other ∧
          ((parse? text = none ∧ parse? other = none) ∨
            (ListEntry.Listed entries text ∧ ListEntry.Listed entries other))) ∧
      ∀ (settings : Settings) (count : Nat),
        (settings.leading count).embedding? =
            some (settings.embedding.only fun field => field.position < count) ∧
          (settings.leading count).Writes (settings.spellByPosition (Field.all.take count)) ∧
          ∀ fields : List Field, fields.Perm (Field.all.take count) →
            (settings.leading count).Writes (settings.spellByKey fields) := by
  refine ⟨fun text => ListEntry.listOfToml_of_listed,
    fun spelled => ListEntry.listed_of_writesList_alone, ?_, ?_⟩
  · intro list before spelled respelled after whole plain written rewritten
    have both := ListEntry.listed_of_writesList whole plain after written rewritten
    refine ⟨?_, both⟩
    rcases both with ⟨none, otherNone⟩ | ⟨listed, otherListed⟩
    · unfold listOfToml
      rw [none, otherNone]
    · exact (ListEntry.listOfToml_of_listed listed).trans
        (ListEntry.listOfToml_of_listed otherListed).symm
  · intro settings count
    exact ⟨settings.embedding?_leading count, settings.writes_spellByPosition count,
      fun fields => settings.writes_spellByKey⟩

/-- Settings that are spelled without escapes. -/
def Settings.plain : Settings :=
  { Settings.marked with source := "a.spv" }

/-- An entry in brackets and one in braces trade their forms.  The second gives no field. -/
theorem Embedding.listOfToml_forms_two :
    let text := "shaders = [[\"a.spv\", \"out.hpp\", \"DATA\"], \x7b\x7d]"
    let other := "shaders = [\x7barray_name = \"DATA\", source_path = \"a.spv\", " ++
      "destination_path = \"out.hpp\"\x7d, []]"
    let embeddings := [
      { usual with
        source := .ofString "a.spv", destination := .ofString "out.hpp", arrayName := "DATA" },
      usual]
    listOfToml (text ++ "\n") = .ok embeddings ∧ listOfToml (other ++ "\n") = .ok embeddings ∧
      ∀ after, listOfToml ("title = \"Two\"\n" ++ (text ++ after)) =
        listOfToml ("title = \"Two\"\n" ++ (other ++ after)) := by
  intro text other embeddings
  obtain ⟨listed, alone, switched, -⟩ :=
    listOfToml_forms [Settings.plain.leading 3, Settings.plain.leading 0]
  obtain ⟨-, -, -, forms⟩ := listOfToml_forms []
  obtain ⟨-, position, key⟩ := forms Settings.plain 3
  obtain ⟨-, nonePosition, noneKey⟩ := forms Settings.plain 0
  have written := ListEntry.writesList_spell [⟨_, _, position⟩, ⟨_, _, noneKey [] (.refl _)⟩]
  have rewritten := ListEntry.writesList_spell
    [⟨_, _, key [.arrayName, .source, .destination] (by decide)⟩, ⟨_, _, nonePosition⟩]
  have loads : ListEntry.loaded [Settings.plain.leading 3, Settings.plain.leading 0] =
      .ok embeddings := rfl
  refine ⟨(listed _ (alone _ written)).trans loads, (listed _ (alone _ rewritten)).trans loads, ?_⟩
  intro after
  have title : WritesLine (.assign ⟨[], "title"⟩ (.string "Two")) "title = \"Two\"\n".toList :=
    .assign (by decide) (.text (writesText_spellText "Two"))
  have whole := (WritesAll.cons title .nil).wholeLines
  have plain : ∀ statement ∈ [Statement.assign ⟨[], "title"⟩ (.string "Two")],
      statement.IsAssignment := by
    rw [List.forall_mem_singleton]
    trivial
  have same := (switched _ _ _ _ after.toList whole plain written rewritten).1
  rw [List.append_nil, String.ofList_append, String.ofList_append, String.ofList_append,
    String.ofList_append, String.ofList_toList, String.ofList_toList] at same
  exact same

end ShaderHeader
