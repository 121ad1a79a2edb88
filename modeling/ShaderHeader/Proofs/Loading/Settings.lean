import ShaderHeader.Loading
import ShaderHeader.Proofs.Toml.Document

/-!
# Written configurations

A configuration gives some of the fields, in any order and with other keys between them.  However
its texts are written, it is loaded as the embedding that has the given values in these fields and
the usual ones in all others (`ofToml_of_describes`), if the names in it are identifiers.
-/

namespace ShaderHeader

open Toml

/-- The values of all fields, as a configuration spells them. -/
structure Settings where
  source : String
  destination : String
  arrayName : String
  guard : String
  namespaces : List String

theorem Field.isBareKey_key (field : Field) : IsBareKey field.key := by
  cases field <;> decide

theorem Field.eq_of_key_eq {field other : Field} (same : field.key = other.key) :
    field = other := by
  cases field <;> cases other <;> simp_all [Field.key]

/-- A line of a configuration: it gives a field, or a text to a key that belongs to no field. -/
inductive Setting where
  | field (field : Field)
  | other (key text : String)
deriving DecidableEq

def Setting.key : Setting → String
  | .field given => given.key
  | .other key _ => key

/-- Lines that can stand together in a configuration: no key is given twice, and keys that belong
to no field are written without quotes. -/
structure Setting.Compatible (lines : List Setting) : Prop where
  distinct : (lines.map Setting.key).Nodup
  foreign : ∀ key text, .other key text ∈ lines → IsBareKey key ∧ ∀ field : Field, key ≠ field.key

theorem Setting.Compatible.isBareKey {lines : List Setting} (compatible : Compatible lines) :
    ∀ line ∈ lines, IsBareKey line.key := by
  intro line member
  cases line with
  | field field => exact field.isBareKey_key
  | other key text => exact (compatible.foreign key text member).1

namespace Settings

def embedding (settings : Settings) : Embedding where
  source := .ofString settings.source
  destination := .ofString settings.destination
  arrayName := settings.arrayName
  guard := settings.guard
  namespaces := settings.namespaces

/-- The value that a line gives its key. -/
def value (settings : Settings) : Setting → Value
  | .field .source => .string settings.source
  | .field .destination => .string settings.destination
  | .field .arrayName => .string settings.arrayName
  | .field .guard => .string settings.guard
  | .field .namespaces => .array (settings.namespaces.map .string)
  | .other _ text => .string text

/-- What a line adds to a table. -/
def entry (settings : Settings) (line : Setting) : String × Value :=
  (line.key, settings.value line)

/-- A text gives these lines, with the values of the settings for the fields. -/
def Describes (settings : Settings) (lines : List Setting) (text : String) : Prop :=
  WritesAll WritesLine (assigns (lines.map settings.entry)) text.toList

/-- One way to write the value of a line. -/
def spell (settings : Settings) : Setting → List Char
  | .field .source => spellText settings.source
  | .field .destination => spellText settings.destination
  | .field .arrayName => spellText settings.arrayName
  | .field .guard => spellText settings.guard
  | .field .namespaces => spellTexts settings.namespaces
  | .other _ text => spellText text

/-- One text that gives these lines. -/
def document (settings : Settings) (lines : List Setting) : String :=
  String.ofList (lines.flatMap fun line =>
    line.key.toList ++ ([' ', '=', ' '] ++ (settings.spell line ++ ['\n'])))

end Settings

/-- An embedding with its own values in the given fields, and the usual ones in all others. -/
def Embedding.only (embedding : Embedding) (given : Field → Prop) [DecidablePred given] :
    Embedding where
  source := if given .source then embedding.source else usual.source
  destination := if given .destination then embedding.destination else usual.destination
  arrayName := if given .arrayName then embedding.arrayName else usual.arrayName
  guard := if given .guard then embedding.guard else usual.guard
  namespaces := if given .namespaces then embedding.namespaces else usual.namespaces

/-- The embedding that lines describe, with the values of the settings. -/
def Settings.selected (settings : Settings) (lines : List Setting) : Embedding :=
  settings.embedding.only fun field => .field field ∈ lines

theorem Embedding.ofFields?_eq_some {given : Field → Option Value} {embedding : Embedding}
    (source : fieldOf? (fun value => (textOf? value).map Path.ofString) usual.source
      (given .source) = some embedding.source)
    (destination : fieldOf? (fun value => (textOf? value).map Path.ofString) usual.destination
      (given .destination) = some embedding.destination)
    (arrayName : fieldOf? textOf? usual.arrayName (given .arrayName) = some embedding.arrayName)
    (guard : fieldOf? textOf? usual.guard (given .guard) = some embedding.guard)
    (namespaces : fieldOf? textsOf? usual.namespaces (given .namespaces) =
      some embedding.namespaces) :
    ofFields? given = some embedding := by
  unfold ofFields?
  simp only [source, destination, arrayName, guard, namespaces]
  rfl

/-- Names are checked one by one, so a valid embedding may lend any of its fields. -/
theorem Embedding.valid_only {embedding : Embedding} (valid : embedding.Valid)
    (given : Field → Prop) [DecidablePred given] : (embedding.only given).Valid := by
  have usual : usual.Valid := by decide
  rw [valid_iff] at valid usual ⊢
  obtain ⟨array, guard, namespaces⟩ := valid
  obtain ⟨usualArray, usualGuard, usualNamespaces⟩ := usual
  refine ⟨?_, ?_, ?_⟩
  · exact iteInduction (motive := IsIdentifier) (fun _ => array) fun _ => usualArray
  · exact iteInduction (motive := IsIdentifier) (fun _ => guard) fun _ => usualGuard
  · exact iteInduction (motive := fun names => ∀ segment ∈ names, IsIdentifier segment)
      (fun _ => namespaces) fun _ => usualNamespaces

namespace Settings

variable {settings : Settings} {lines : List Setting} {text : String}

theorem writesValue_spell (settings : Settings) (line : Setting) :
    WritesValue (settings.value line) (settings.spell line) := by
  cases line with
  | other key text => exact .text (writesText_spellText text)
  | field field =>
      cases field with
      | namespaces => exact .texts (writesTexts_spellTexts _)
      | source | destination | arrayName | guard => exact .text (writesText_spellText _)

/-- **Every configuration can be written.** -/
theorem describes_document (compatible : Setting.Compatible lines) :
    settings.Describes lines (settings.document lines) := by
  have bare := compatible.isBareKey
  clear compatible
  unfold Describes document
  rw [String.toList_ofList]
  induction lines with
  | nil => exact .nil
  | cons line lines ih =>
      obtain ⟨first, others⟩ := List.forall_mem_cons.mp bare
      exact .cons (.assign first (writesValue_spell settings line)) (ih others)

theorem distinct_entries (compatible : Setting.Compatible lines) :
    Table.Distinct (lines.map settings.entry) := by
  have keys : Prod.fst ∘ settings.entry = Setting.key := rfl
  rw [Table.Distinct, List.map_map, keys]
  exact compatible.distinct

/-- A field has the value that a line gives it, if there is such a line. -/
theorem lookup_entries (compatible : Setting.Compatible lines) (field : Field) :
    (lines.map settings.entry).lookup field.key =
      if .field field ∈ lines then some (settings.value (.field field)) else none := by
  -- distinctness is not needed: all lines of one field give the same value
  have foreign := compatible.foreign
  clear compatible
  induction lines with
  | nil => rfl
  | cons line lines ih =>
      have later := ih fun key text member => foreign key text (List.mem_cons_of_mem _ member)
      by_cases same : line = .field field
      · subst same
        rw [List.map_cons, entry, Setting.key, List.lookup_cons_self, if_pos List.mem_cons_self]
      · have apart : (field.key == line.key) = false := by
          rw [beq_eq_false_iff_ne]
          cases line with
          | field other => exact fun keys => same (congrArg _ (Field.eq_of_key_eq keys).symm)
          | other key text => exact ((foreign key text List.mem_cons_self).2 field).symm
        have members : .field field ∈ line :: lines ↔ .field field ∈ lines := by
          rw [List.mem_cons]
          exact or_iff_right fun other => same other.symm
        rw [List.map_cons, entry, List.lookup_cons, apart]
        simp only [later, members]

/-- A field is read as its own value if a line gives it, and as the usual one otherwise. -/
theorem fieldOf?_lookup {α : Type} {read? : Value → Option α} {usual own : α} {field : Field}
    (compatible : Setting.Compatible lines)
    (reads : read? (settings.value (.field field)) = some own) :
    fieldOf? read? usual ((lines.map settings.entry).lookup field.key) =
      some (if .field field ∈ lines then own else usual) := by
  rw [lookup_entries compatible]
  by_cases member : .field field ∈ lines
  · rw [if_pos member, if_pos member]
    exact reads
  · rw [if_neg member, if_neg member]
    rfl

theorem textsOf?_strings (texts : List String) :
    textsOf? (.array (texts.map .string)) = some texts := by
  have each : textOf? ∘ Value.string = fun text => pure text := rfl
  rw [textsOf?, List.mapM_map, each, List.mapM_pure, List.map_id']
  rfl

/-- **The table of a configuration describes the selected values.** -/
theorem ofTable?_entries (compatible : Setting.Compatible lines) :
    Embedding.ofTable? (lines.map settings.entry) = some (settings.selected lines) :=
  Embedding.ofFields?_eq_some (fieldOf?_lookup compatible rfl) (fieldOf?_lookup compatible rfl)
    (fieldOf?_lookup compatible rfl) (fieldOf?_lookup compatible rfl)
    (fieldOf?_lookup compatible (textsOf?_strings _))

/-- **A configuration is loaded as the selected values**, if the names among them are
identifiers. -/
theorem ofToml_of_describes (compatible : Setting.Compatible lines)
    (written : settings.Describes lines text) :
    Embedding.ofToml text = (settings.selected lines).checked := by
  unfold Embedding.ofToml
  rw [parse?_of_assigns written (distinct_entries compatible), Option.bind_some,
    ofTable?_entries compatible]

/-- **A valid embedding is recovered from its configuration**, however it is written, as far as the
lines give its fields. -/
theorem ofToml_eq_selected (valid : settings.embedding.Valid)
    (compatible : Setting.Compatible lines) :
    settings.Describes lines (settings.document lines) ∧
      ∀ text, settings.Describes lines text →
        Embedding.ofToml text = .ok (settings.selected lines) := by
  refine ⟨describes_document compatible, fun text written => ?_⟩
  have names : (settings.selected lines).fault? = none := Embedding.valid_only valid _
  rw [ofToml_of_describes compatible written, Embedding.checked, names]

/-- Settings with a source whose first three characters have to be escaped. -/
def marked : Settings where
  source := "\"\\\n\u00e9"
  destination := "out.hpp"
  arrayName := "DATA"
  guard := "DATA_HPP"
  namespaces := ["app", "gpu"]

/-- Lines that give two fields and a key of no field. -/
def markedLines : List Setting :=
  [.other "x-1" "", .field .namespaces, .field .source]

theorem ofToml_eq_selected_marked :
    marked.embedding.Valid ∧ Setting.Compatible markedLines ∧
      marked.document markedLines =
        "x-1 = \"\"\nnamespace_path = [\"app\", \"gpu\"]\nsource_path = \"\\\"\\\\\\u000a\u00e9\"\n" ∧
      Embedding.ofToml (marked.document markedLines) = .ok {
        Embedding.usual with
        source := .ofString "\"\\\n\u00e9"
        namespaces := ["app", "gpu"] } := by
  have valid : marked.embedding.Valid := by decide
  have compatible : Setting.Compatible markedLines := by
    refine ⟨by decide, fun key text member => ?_⟩
    have only : key = "x-1" ∧ text = "" := by simpa [markedLines] using member
    rw [only.1]
    exact ⟨by decide, fun field => by cases field <;> decide⟩
  have loads := (ofToml_eq_selected valid compatible).2
  exact ⟨valid, compatible, rfl, loads _ (describes_document compatible)⟩

end Settings

end ShaderHeader
