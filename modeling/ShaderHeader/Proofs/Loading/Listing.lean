import ShaderHeader.Proofs.Loading.Settings

/-!
# Listings of configurations

Configurations below one another, each under a header in double brackets, are a list of embeddings.
Loading the list and loading each configuration on its own give the same embeddings, or the same
first failure (`listOfToml_listing`): no entry takes a field from another one.
-/

namespace ShaderHeader

open Toml

/-- A text that gives lines with the values of some settings. -/
structure Configuration where
  settings : Settings
  lines : List Setting
  text : String
  compatible : Setting.Compatible lines
  written : settings.Describes lines text

namespace Configuration

/-- Lines as `Settings.document` writes them. -/
def ofLines (settings : Settings) (lines : List Setting)
    (compatible : Setting.Compatible lines) : Configuration where
  settings
  lines
  text := settings.document lines
  compatible
  written := Settings.describes_document compatible

/-- The table that the text describes. -/
def table (configuration : Configuration) : Table :=
  configuration.lines.map configuration.settings.entry

/-- The embedding that the text describes, whatever its names are. -/
def embedding (configuration : Configuration) : Embedding :=
  configuration.settings.selected configuration.lines

/-- Configurations below one another, each under its header. -/
def listing (configurations : List Configuration) : String :=
  String.join (configurations.map fun configuration => "[[shaders]]\n" ++ configuration.text)

variable (configuration : Configuration) (configurations : List Configuration)

theorem distinct_table : configuration.table.Distinct :=
  Settings.distinct_entries configuration.compatible

theorem ofTable?_table : Embedding.ofTable? configuration.table = some configuration.embedding :=
  Settings.ofTable?_entries configuration.compatible

theorem ofToml_text : Embedding.ofToml configuration.text = configuration.embedding.checked :=
  Settings.ofToml_of_describes configuration.compatible configuration.written

theorem listing_cons : listing (configuration :: configurations) =
    "[[shaders]]\n" ++ configuration.text ++ listing configurations := by
  rw [listing, List.map_cons, String.join_cons]
  rfl

theorem writesAll_listing :
    WritesAll WritesLine (sections "shaders" (configurations.map table))
      (listing configurations).toList := by
  induction configurations with
  | nil => exact .nil
  | cons configuration configurations ih =>
      have header : WritesLine (.elementHeader ⟨[], "shaders"⟩) "[[shaders]]\n".toList :=
        .elementHeader (by decide)
      rw [listing_cons, String.toList_append, String.toList_append, List.append_assoc]
      exact .cons header (configuration.written.append ih)

theorem listOfTable?_listed :
    Embedding.listOfTable? (listed "shaders" (configurations.map table)) =
      some (configurations.map embedding) := by
  have each : Embedding.ofTable? ∘ table = fun configuration => pure configuration.embedding :=
    funext ofTable?_table
  have all : (configurations.map table).mapM Embedding.ofTable? =
      some (configurations.map embedding) := by
    rw [List.mapM_map, each, List.mapM_pure]
    rfl
  cases configurations with
  | nil => rfl
  | cons configuration configurations => exact all

theorem mapM_ofToml : (configurations.map text).mapM Embedding.ofToml =
    (configurations.map embedding).mapM Embedding.checked := by
  have each : Embedding.ofToml ∘ text = Embedding.checked ∘ embedding := funext ofToml_text
  rw [List.mapM_map, List.mapM_map, each]

/-- **A listing is loaded as its configurations are**, one by one up to the first failure.  Each of
them gives its own values and the usual ones where it has none, or it fails at a name. -/
theorem listOfToml_listing :
    Embedding.listOfToml (listing configurations) =
        (configurations.map text).mapM Embedding.ofToml ∧
      ∀ configuration ∈ configurations,
        Embedding.ofToml configuration.text = .ok configuration.embedding ∨
          ∃ fault, configuration.embedding.fault? = some fault ∧
            Embedding.ofToml configuration.text = .error (.invalid fault) := by
  constructor
  · have distinct : ∀ entries ∈ configurations.map table, entries.Distinct := by
      simpa using fun configuration _ => distinct_table configuration
    unfold Embedding.listOfToml
    rw [parse?_of_sections (writesAll_listing configurations) distinct, Option.bind_some,
      listOfTable?_listed, mapM_ofToml]
  · intro configuration _
    rw [ofToml_text, Embedding.checked]
    cases configuration.embedding.fault? with
    | none => exact .inl rfl
    | some fault => exact .inr ⟨fault, rfl, rfl⟩

/-- Settings whose guard is no identifier. -/
def numbered : Settings :=
  { Settings.marked with guard := "7" }

/-- A configuration that gives one of these settings. -/
def single (field : Field) : Configuration :=
  ofLines numbered [.field field] ⟨by simp, by simp⟩

/-- The first entry has the usual guard, and the second one the usual array name. -/
theorem listOfToml_listing_two :
    (single .arrayName).text = "array_name = \"DATA\"\n" ∧
      (single .guard).text = "guard_token = \"7\"\n" ∧
      Embedding.ofToml (single .arrayName).text =
        .ok { Embedding.usual with arrayName := "DATA" } ∧
      Embedding.listOfToml (listing [single .arrayName, single .guard]) =
        .error (.invalid (.guard "7")) := by
  obtain ⟨all, each⟩ := listOfToml_listing [single .arrayName, single .guard]
  have names : (single .arrayName).embedding.fault? = none := rfl
  refine ⟨rfl, rfl, (each (single .arrayName) (by simp)).resolve_right ?_, all.trans ?_⟩
  · rintro ⟨fault, faulty, -⟩
    rw [names] at faulty
    cases faulty
  · rw [mapM_ofToml]
    rfl

end Configuration

end ShaderHeader
