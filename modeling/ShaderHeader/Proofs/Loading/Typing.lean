import ShaderHeader.Proofs.Except
import ShaderHeader.Proofs.Loading.Settings

/-!
# Values of the wrong type

A text is refused as malformed when it is no TOML, or when its table gives a field a value that
the field cannot have, and for no other reason (`ofToml_eq_malformed_iff`,
`listOfToml_eq_malformed_iff`).  What is loaded has passed the check of its names.
-/

namespace ShaderHeader

open Toml

/-- The values that a field can have. -/
inductive Field.Accepts : Field → Value → Prop where
  | text {field : Field} (single : field ≠ .namespaces) (text : String) :
      Accepts field (.string text)
  | texts (texts : List String) : Accepts .namespaces (.array (texts.map .string))

/-- A field is given a value that it cannot have. -/
def IllTyped (given : Field → Option Value) : Prop :=
  ∃ field value, given field = some value ∧ ¬ field.Accepts value

def IllTypedTable (table : Table) : Prop :=
  IllTyped fun field => table.lookup field.key

/-- An entry of a list is no entry, or gives a field a value that it cannot have.  A moment gives
no field. -/
def IllTypedEntry : Value → Prop
  | .table _ table => IllTypedTable table
  | .array items => IllTyped fun field => items[field.position]?
  | .dateTime _ => False
  | _ => True

/-- The list in a table is no list, or one of its entries is ill-typed. -/
def IllTypedList (table : Table) : Prop :=
  match table.lookup "shaders" with
  | none => False
  | some (.array items) => ∃ item ∈ items, IllTypedEntry item
  | some (.tables elements) => ∃ element ∈ elements, IllTypedTable element
  | some _ => True

/-- Items are read as a list when each of them is read. -/
theorem mapM_eq_none_iff {α β : Type} {read? : α → Option β} {items : List α} :
    items.mapM read? = none ↔ ∃ item ∈ items, read? item = none := by
  induction items with
  | nil => simp
  | cons first rest ih =>
      have step : (first :: rest).mapM read? = none ↔
          read? first = none ∨ rest.mapM read? = none := by
        rw [List.mapM_cons]
        cases read? first with
        | none => simp
        | some value => cases rest.mapM read? <;> simp
      rw [step, ih]
      simp only [List.mem_cons, exists_eq_or_imp]

namespace Embedding

section Fields

variable {given : Field → Option Value} {embedding : Embedding} {value : Value}

theorem textOf?_eq_some_iff {text : String} : textOf? value = some text ↔ value = .string text := by
  cases value <;> simp [textOf?]

theorem mapM_textOf?_eq_some {items : List Value} {texts : List String}
    (read : items.mapM textOf? = some texts) : items = texts.map .string := by
  induction items generalizing texts with
  | nil =>
      cases read
      rfl
  | cons first rest ih =>
      rw [List.mapM_cons] at read
      obtain ⟨text, head, tail⟩ := Option.bind_eq_some_iff.mp read
      obtain ⟨others, later, same⟩ := Option.bind_eq_some_iff.mp tail
      cases same
      rw [textOf?_eq_some_iff.mp head, ih later, List.map_cons]

theorem not_accepts_iff_textOf? {field : Field} (single : field ≠ .namespaces) :
    ¬ field.Accepts value ↔ textOf? value = none := by
  constructor
  · intro refuses
    rw [Option.eq_none_iff_forall_not_mem]
    intro text read
    apply refuses
    rw [textOf?_eq_some_iff.mp read]
    exact .text single text
  · intro unread accepts
    cases accepts with
    | text => cases unread
    | texts => exact single rfl

theorem not_accepts_iff_textsOf? :
    ¬ Field.Accepts .namespaces value ↔ textsOf? value = none := by
  constructor
  · intro refuses
    rw [Option.eq_none_iff_forall_not_mem]
    intro texts read
    apply refuses
    cases value with
    | array items =>
        rw [mapM_textOf?_eq_some read]
        exact .texts texts
    | _ => cases read
  · intro unread accepts
    cases accepts with
    | text single => exact single rfl
    | texts texts =>
        rw [Settings.textsOf?_strings] at unread
        cases unread

theorem fieldOf?_eq_none_iff {α : Type} {read? : Value → Option α} {usual : α}
    {given? : Option Value} :
    fieldOf? read? usual given? = none ↔ ∃ value, given? = some value ∧ read? value = none := by
  cases given? with
  | none => simp [fieldOf?]
  | some value => simp [fieldOf?]

/-- The field of an embedding is not read. -/
def Unread (given : Field → Option Value) : Field → Prop
  | .source => fieldOf? (fun value => (textOf? value).map Path.ofString) usual.source
      (given .source) = none
  | .destination => fieldOf? (fun value => (textOf? value).map Path.ofString) usual.destination
      (given .destination) = none
  | .arrayName => fieldOf? textOf? usual.arrayName (given .arrayName) = none
  | .guard => fieldOf? textOf? usual.guard (given .guard) = none
  | .namespaces => fieldOf? textsOf? usual.namespaces (given .namespaces) = none

theorem unread_iff (field : Field) :
    Unread given field ↔ ∃ value, given field = some value ∧ ¬ field.Accepts value := by
  cases field with
  | namespaces => simp only [Unread, fieldOf?_eq_none_iff, not_accepts_iff_textsOf?]
  | source | destination | arrayName | guard =>
      simp only [Unread, fieldOf?_eq_none_iff, Option.map_eq_none_iff, ne_eq, reduceCtorEq,
        not_false_eq_true, not_accepts_iff_textOf?]

theorem ofFields?_eq_none_iff : ofFields? given = none ↔ IllTyped given := by
  have fields : IllTyped given ↔ ∃ field, Unread given field :=
    exists_congr fun field => (unread_iff field).symm
  rw [fields]
  constructor
  · intro unread
    apply Classical.byContradiction
    intro none
    have each (field : Field) : ¬ Unread given field := fun unread => none ⟨field, unread⟩
    obtain ⟨source, readSource⟩ := Option.ne_none_iff_exists'.mp (each .source)
    obtain ⟨destination, readDestination⟩ := Option.ne_none_iff_exists'.mp (each .destination)
    obtain ⟨array, readArray⟩ := Option.ne_none_iff_exists'.mp (each .arrayName)
    obtain ⟨guard, readGuard⟩ := Option.ne_none_iff_exists'.mp (each .guard)
    obtain ⟨namespaces, readNamespaces⟩ := Option.ne_none_iff_exists'.mp (each .namespaces)
    have read : ofFields? given = some ⟨source, destination, array, guard, namespaces⟩ :=
      ofFields?_eq_some readSource readDestination readArray readGuard readNamespaces
    cases unread.symm.trans read
  · rintro ⟨field, unread⟩
    rw [Option.eq_none_iff_forall_not_mem]
    intro embedding read
    have inverted : ofFields? given = some embedding := read
    unfold ofFields? at inverted
    simp only [Option.bind_eq_bind, Option.bind_eq_some_iff] at inverted
    obtain ⟨_, source, _, destination, _, array, _, guard, _, namespaces, -⟩ := inverted
    cases field with
    | source => cases source.symm.trans unread
    | destination => cases destination.symm.trans unread
    | arrayName => cases array.symm.trans unread
    | guard => cases guard.symm.trans unread
    | namespaces => cases namespaces.symm.trans unread

theorem ofTable?_eq_none_iff {table : Table} : ofTable? table = none ↔ IllTypedTable table :=
  ofFields?_eq_none_iff

theorem ofItems?_eq_none_iff {items : List Value} :
    ofItems? items = none ↔ IllTyped fun field => items[field.position]? :=
  ofFields?_eq_none_iff

theorem ofEntry?_eq_none_iff : ofEntry? value = none ↔ IllTypedEntry value := by
  cases value with
  | table origin table =>
      simp only [IllTypedEntry, ofEntry?]
      exact ofTable?_eq_none_iff
  | array items =>
      simp only [IllTypedEntry, ofEntry?]
      exact ofItems?_eq_none_iff
  | _ => simp [IllTypedEntry, ofEntry?]

theorem listOfTable?_eq_none_iff {table : Table} :
    listOfTable? table = none ↔ IllTypedList table := by
  unfold listOfTable? IllTypedList
  cases table.lookup "shaders" with
  | none => simp
  | some value =>
      cases value with
      | array items => simp only [mapM_eq_none_iff, ofEntry?_eq_none_iff]
      | tables elements => simp only [mapM_eq_none_iff, ofTable?_eq_none_iff]
      | _ => simp

end Fields

/-! ## Loading texts -/

/-- A text is no TOML, or its table is ill-typed. -/
def Malformed (illTyped : Table → Prop) (text : String) : Prop :=
  parse? text = none ∨ ∃ table, parse? text = some table ∧ illTyped table

theorem malformed_iff {α : Type} {ofTable? : Table → Option α} {illTyped : Table → Prop}
    (unread : ∀ table, ofTable? table = none ↔ illTyped table) (text : String) :
    (parse? text).bind ofTable? = none ↔ Malformed illTyped text := by
  unfold Malformed
  cases parse? text with
  | none => simp
  | some table => simp [unread]

variable {embedding loaded : Embedding} {embeddings listed : List Embedding} {failure : Failure}
variable {text : String}

theorem checked_eq_ok_iff : embedding.checked = .ok loaded ↔ embedding.Valid ∧ embedding = loaded := by
  unfold checked Valid
  cases embedding.fault? with
  | none => simp
  | some fault => simp

theorem checked_ne_malformed (embedding : Embedding) : embedding.checked ≠ .error .malformed := by
  unfold checked
  cases embedding.fault? with
  | none => simp
  | some fault => simp

theorem mapM_checked_ne_malformed (embeddings : List Embedding) :
    embeddings.mapM checked ≠ .error .malformed := by
  induction embeddings with
  | nil =>
      intro impossible
      cases impossible
  | cons first rest ih =>
      intro failed
      rw [List.mapM_cons] at failed
      obtain failed | ⟨_, -, failed⟩ := bind_eq_error_iff.mp failed
      · exact checked_ne_malformed first failed
      · obtain failed | ⟨_, -, impossible⟩ := bind_eq_error_iff.mp failed
        · exact ih failed
        · cases impossible

/-- All entries of a list that has passed the check are valid. -/
theorem mapM_checked_eq_ok (passed : embeddings.mapM checked = .ok listed) :
    ∀ embedding ∈ listed, embedding.Valid := by
  induction embeddings generalizing listed with
  | nil =>
      cases passed
      exact nofun
  | cons first rest ih =>
      rw [List.mapM_cons] at passed
      obtain ⟨head, one, passed⟩ := bind_eq_ok_iff.mp passed
      obtain ⟨tail, others, same⟩ := bind_eq_ok_iff.mp passed
      cases same
      obtain ⟨valid, rfl⟩ := checked_eq_ok_iff.mp one
      exact List.forall_mem_cons.mpr ⟨valid, ih others⟩

theorem ofToml_eq_malformed_iff :
    ofToml text = .error .malformed ↔ Malformed IllTypedTable text := by
  rw [← malformed_iff fun _ => ofTable?_eq_none_iff]
  unfold ofToml
  cases (parse? text).bind ofTable? with
  | none => simp
  | some embedding => simp [checked_ne_malformed]

theorem listOfToml_eq_malformed_iff :
    listOfToml text = .error .malformed ↔ Malformed IllTypedList text := by
  rw [← malformed_iff fun _ => listOfTable?_eq_none_iff]
  unfold listOfToml
  cases (parse? text).bind listOfTable? with
  | none => simp
  | some embeddings => simp [mapM_checked_ne_malformed]

theorem valid_of_ofToml (read : ofToml text = .ok loaded) : loaded.Valid := by
  unfold ofToml at read
  split at read
  · cases read
  · obtain ⟨valid, rfl⟩ := checked_eq_ok_iff.mp read
    exact valid

theorem valid_of_listOfToml (read : listOfToml text = .ok listed) :
    ∀ embedding ∈ listed, embedding.Valid := by
  unfold listOfToml at read
  split at read
  · cases read
  · exact mapM_checked_eq_ok read

end Embedding

end ShaderHeader
