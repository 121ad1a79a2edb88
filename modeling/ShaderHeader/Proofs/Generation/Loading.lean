import ShaderHeader.Proofs.Generation.Series
import ShaderHeader.Proofs.Loading.Listing
import ShaderHeader.Proofs.Loading.Typing

/-!
# Loading before generating

A configuration file is loaded as a whole before any header is generated.  A failure of loading
therefore finds the disk as it was; and what has been loaded is valid, so that nothing but the
system can stop the generations after it.
-/

namespace ShaderHeader

open Toml

/-- Failures of loading a configuration, or of the check of its names. -/
def Failure.OfLoading : Failure → Prop
  | .invalid _ | .malformed | .unreadConfig _ _ => True
  | .unreadSource _ _ | .unwrittenHeader _ _ _ => False

namespace Embedding

variable {embedding : Embedding} {embeddings : List Embedding} {failure : Failure}
variable {site : Site} {file : Path} {disk : Disk}

theorem Stopped.not_ofLoading (stopped : embedding.Stopped failure) : ¬ failure.OfLoading := by
  cases stopped with
  | unread => exact id
  | unwritten => exact id

theorem stopped_of_generateAll (valid : ∀ embedding ∈ embeddings, embedding.Valid)
    (failed : (generateAll site embeddings disk).result = .error failure) :
    ∃ embedding ∈ embeddings, embedding.Stopped failure := by
  obtain ⟨before, entry, listed, -, failed⟩ := failsFirst_of_generateAll failed
  have member : entry ∈ embeddings := listed.subset (by simp)
  exact ⟨entry, member, stopped_of_generate (valid entry member) failed⟩

/-- Loading is a gate before what is done with a configuration file as a whole. -/
structure Gate {α β : Type} (read : Disk → Except Failure String)
    (load : String → Except Failure α) (illTyped : Table → Prop) (entries : α → List Embedding)
    (generates : α → Site → Disk → Outcome β) (whole : Disk → Outcome β) : Prop where
  /-- A failure of loading is met while loading, and is all that happens. -/
  shut : ∀ disk failure, failure.OfLoading →
    ((whole disk).result = .error failure ↔ (read disk >>= load) = .error failure) ∧
    ((whole disk).result = .error failure → (whole disk).disk = disk ∧ (whole disk).events = [])
  /-- A text that is no TOML or has a value of the wrong type is malformed, whatever its names. -/
  malformed : ∀ disk text, read disk = .ok text →
    ((whole disk).result = .error .malformed ↔ Malformed illTyped text)
  /-- It takes a single line that cannot be read, wherever it stands. -/
  torn : ∀ disk statements front back, read disk = .ok (String.ofList (front ++ back)) →
    WritesAll WritesLine statements front → back ≠ [] → Visible back →
    Scanner.Refuses line back → (whole disk).result = .error .malformed
  /-- What is loaded is valid, so that nothing but the system stops a later generation. -/
  passed : ∀ disk loaded, (read disk >>= load) = .ok loaded →
    (∀ embedding ∈ entries loaded, embedding.Valid) ∧
    ∀ site later failure, (generates loaded site later).result = .error failure →
      ∃ embedding ∈ entries loaded, embedding.Stopped failure

section Gate

variable {α β : Type} {read : Disk → Except Failure String} {load : String → Except Failure α}
variable {illTyped : Table → Prop} {entries : α → List Embedding}
variable {generates : α → Site → Disk → Outcome β}

/-- What is done with a configuration file as a whole: it is loaded, and then the headers are
generated. -/
def loadThen (read : Disk → Except Failure String) (load : String → Except Failure α)
    (generates : α → Site → Disk → Outcome β) (site : Site) (disk : Disk) : Outcome β :=
  (Outcome.quiet disk (read disk >>= load)).andThen fun loaded disk => generates loaded site disk

theorem loadThen_of_error (failed : (read disk >>= load) = .error failure) :
    loadThen read load generates site disk = Outcome.quiet disk (.error failure) := by
  unfold loadThen
  rw [failed]
  rfl

theorem loadThen_of_ok {loaded : α} (succeeded : (read disk >>= load) = .ok loaded) :
    loadThen read load generates site disk = generates loaded site disk := by
  unfold loadThen
  rw [succeeded]
  rfl

/-- A failure of loading is met while loading, if nothing that is loaded fails that way. -/
theorem result_loadThen_eq_error_iff
    (later : ∀ loaded, (read disk >>= load) = .ok loaded →
      (generates loaded site disk).result ≠ .error failure) :
    (loadThen read load generates site disk).result = .error failure ↔
      (read disk >>= load) = .error failure := by
  cases result : read disk >>= load with
  | error other =>
      rw [loadThen_of_error result]
      constructor
      · intro failed
        exact congrArg _ (Except.error.inj failed)
      · intro same
        exact congrArg _ (Except.error.inj same)
  | ok loaded =>
      rw [loadThen_of_ok result]
      constructor
      · intro failed
        exact absurd failed (later loaded result)
      · intro impossible
        cases impossible

theorem gate_loadThen (ill : ∀ text, load text = .error .malformed ↔ Malformed illTyped text)
    (valid : ∀ text loaded, load text = .ok loaded → ∀ embedding ∈ entries loaded, embedding.Valid)
    (stopped : ∀ loaded site disk failure, (∀ embedding ∈ entries loaded, embedding.Valid) →
      (generates loaded site disk).result = .error failure →
      ∃ embedding ∈ entries loaded, embedding.Stopped failure) (site : Site) :
    Gate read load illTyped entries generates (loadThen read load generates site) := by
  have passed {disk : Disk} {loaded : α} (succeeded : (read disk >>= load) = .ok loaded) :
      ∀ embedding ∈ entries loaded, embedding.Valid := by
    obtain ⟨text, -, read⟩ := bind_eq_ok_iff.mp succeeded
    exact valid text loaded read
  have shut {disk : Disk} {failure : Failure} (ofLoading : failure.OfLoading) :
      (loadThen read load generates site disk).result = .error failure ↔
        (read disk >>= load) = .error failure := by
    apply result_loadThen_eq_error_iff
    intro loaded succeeded failed
    obtain ⟨_, -, stopped⟩ := stopped loaded site disk failure (passed succeeded) failed
    exact stopped.not_ofLoading ofLoading
  have malformed {disk : Disk} {text : String} (found : read disk = .ok text) :
      (loadThen read load generates site disk).result = .error .malformed ↔
        Malformed illTyped text := by
    have loading : (read disk >>= load) = load text := by
      rw [found]
      rfl
    have ofLoading : Failure.OfLoading .malformed := trivial
    rw [shut ofLoading, loading, ill]
  refine ⟨?_, fun _ _ => malformed, ?_, ?_⟩
  · intro disk failure ofLoading
    refine ⟨shut ofLoading, fun failed => ?_⟩
    rw [loadThen_of_error ((shut ofLoading).mp failed)]
    exact ⟨rfl, rfl⟩
  · intro disk statements front back found written some visible refuses
    exact (malformed found).mpr (.inl (parse?_of_refused written some visible refuses))
  · intro disk loaded succeeded
    refine ⟨passed succeeded, fun site later failure failed => ?_⟩
    exact stopped loaded site later failure (passed succeeded) failed

end Gate

/-- **Loading comes before everything else**, for a file with a single embedding and for one
with a list of them: the whole text is read before a name in it is checked, and every name is
checked before a header is generated. -/
theorem loading_first (site : Site) (file : Path) :
    Gate (fun disk => readText disk site.directory file) ofToml IllTypedTable
        (fun embedding => [embedding]) generate (generateConfigured site file) ∧
      Gate (fun disk => readText disk site.directory file) listOfToml IllTypedList id
        (fun embeddings site => generateAll site embeddings) (generateListed site file) := by
  constructor
  · refine gate_loadThen (fun _ => ofToml_eq_malformed_iff) ?_ ?_ site
    · intro text loaded succeeded embedding member
      rw [List.mem_singleton.mp member]
      exact valid_of_ofToml succeeded
    · intro loaded site disk failure valid failed
      have self : loaded ∈ [loaded] := List.mem_singleton_self loaded
      exact ⟨loaded, self, stopped_of_generate (valid loaded self) failed⟩
  · refine gate_loadThen (fun _ => listOfToml_eq_malformed_iff) ?_ ?_ site
    · exact fun _ _ => valid_of_listOfToml
    · exact fun _ _ _ _ => stopped_of_generateAll

/-- A disk with a configuration file `c`. -/
def configDisk (text : String) : Disk where
  entries := [([], .directory 0o755), ([[0x63]], .file 0o644 (Utf8.encode text))]

/-- A name that is no identifier, and a key without a value below it: the text is malformed.  The
usual embedding with another name is loaded. -/
theorem loading_first_torn :
    let torn := configDisk "[[shaders]]\nguard_token = \"7\"\nx"
    let whole := configDisk "array_name = \"DATA\"\n"
    ((generateListed smallSite ⟨[0x63]⟩ torn).result = .error .malformed ∧
      (generateListed smallSite ⟨[0x63]⟩ torn).disk = torn) ∧
    ofFile whole smallSite.directory ⟨[0x63]⟩ = .ok { usual with arrayName := "DATA" } ∧
      { usual with arrayName := "DATA" }.Valid := by
  intro torn whole
  obtain ⟨single, series⟩ := loading_first smallSite ⟨[0x63]⟩
  have found : readText torn smallSite.directory ⟨[0x63]⟩ = .ok (String.ofList
      ((Configuration.listing [Configuration.single .guard]).toList ++ ['x'])) := rfl
  have malformed : (generateListed smallSite ⟨[0x63]⟩ torn).result = .error .malformed := by
    apply series.torn torn _ _ ['x'] found (Configuration.writesAll_listing _)
    · simp
    · exact Scanner.stops_cons rfl
    · rfl
  have ofLoading : Failure.OfLoading .malformed := trivial
  have loaded : ofFile whole smallSite.directory ⟨[0x63]⟩ =
      .ok { usual with arrayName := "DATA" } := by
    have found : readText whole smallSite.directory ⟨[0x63]⟩ =
        .ok (Configuration.single .arrayName).text := rfl
    have names : (Configuration.single .arrayName).embedding.fault? = none := rfl
    have checked : Embedding.ofToml (Configuration.single .arrayName).text =
        .ok (Configuration.single .arrayName).embedding := by
      rw [Configuration.ofToml_text, Embedding.checked, names]
    exact bind_eq_ok_iff.mpr ⟨_, found, checked⟩
  obtain ⟨valid, -⟩ := single.passed whole _ loaded
  have unchanged := ((series.shut torn _ ofLoading).2 malformed).1
  exact ⟨⟨malformed, unchanged⟩, loaded, valid _ (List.mem_singleton_self _)⟩

end Embedding

end ShaderHeader
