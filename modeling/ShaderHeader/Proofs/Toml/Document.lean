import ShaderHeader.Proofs.Toml.Reading
import ShaderHeader.Toml.Document

/-!
# Documents of assignments

A document that gives keys their values, each once, describes the table of these keys
(`parse?_of_assigns`).  The same lines below headers in double brackets of one name describe a
list of tables (`parse?_of_sections`).
-/

namespace ShaderHeader

namespace Toml

/-- No key has two values. -/
def Table.Distinct (table : Table) : Prop :=
  (table.map Prod.fst).Nodup

/-- The statements that give keys their values. -/
def assigns (entries : Table) : List Statement :=
  entries.map fun (key, value) => .assign ⟨[], key⟩ value

/-- The statements that give the elements of a list of tables. -/
def sections (name : String) (elements : List Table) : List Statement :=
  elements.flatMap fun entries => .elementHeader ⟨[], name⟩ :: assigns entries

/-- The table of a list of tables.  Where there are none, their name is not mentioned. -/
def listed (name : String) (elements : List Table) : Table :=
  if elements = [] then [] else [(name, .tables elements)]

variable {table entries : Table} {key name : String} {value : Value} {text : String}

theorem put_of_lookup_eq_none (absent : table.lookup key = none) :
    table.put key value = table ++ [(key, value)] := by
  induction table with
  | nil => rfl
  | cons head rest ih =>
      obtain ⟨other, old⟩ := head
      rw [List.lookup_cons] at absent
      cases same : key == other with
      | true =>
          rw [same] at absent
          cases absent
      | false =>
          rw [same] at absent
          have apart : other ≠ key := (beq_eq_false_iff_ne.mp same).symm
          rw [Table.put, if_neg apart, ih absent, List.cons_append]

theorem lookup_eq_none_of_distinct {more : Table}
    (distinct : Table.Distinct (table ++ (key, value) :: more)) : table.lookup key = none := by
  rw [List.lookup_eq_none_iff]
  intro entry member
  rw [Table.Distinct, List.map_append, List.nodup_append] at distinct
  exact bne_iff_ne.mpr (distinct.2.2 _ (List.mem_map_of_mem member) key List.mem_cons_self).symm

/-- A key that has no value yet is given one after all others. -/
theorem assign_of_distinct {more : Table}
    (distinct : Table.Distinct (table ++ (key, value) :: more)) :
    Table.assign key value [] table = some (table ++ [(key, value)]) := by
  have absent := lookup_eq_none_of_distinct distinct
  rw [Table.assign, absent]
  exact congrArg some (put_of_lookup_eq_none absent)

/-- Steps that each assign a key fill the table that they are meant for, wherever it has its
place. -/
theorem foldlM_of_assigns {σ ι : Type} {step : σ → ι → Option σ} {write : String × Value → ι}
    (place : Table → σ) (table : Table)
    (steps : ∀ table key value, step (place table) (write (key, value)) =
      (Table.assign key value [] table).map place)
    (distinct : Table.Distinct (table ++ entries)) :
    (entries.map write).foldlM step (place table) = some (place (table ++ entries)) := by
  induction entries generalizing table with
  | nil =>
      rw [List.append_nil]
      rfl
  | cons entry entries ih =>
      obtain ⟨key, value⟩ := entry
      have further : Table.Distinct (table ++ [(key, value)] ++ entries) := by
        rw [List.append_assoc]
        exact distinct
      rw [List.map_cons, List.foldlM_cons, steps, assign_of_distinct distinct]
      refine (ih _ further).trans ?_
      rw [List.append_assoc]
      rfl

theorem foldlM_assigns {place : Table → Document} (table : Table)
    (executes : ∀ table key value, (place table).execute (.assign ⟨[], key⟩ value) =
      (Table.assign key value [] table).map place)
    (distinct : Table.Distinct (table ++ entries)) :
    (assigns entries).foldlM Document.execute (place table) = some (place (table ++ entries)) :=
  foldlM_of_assigns place table executes distinct

theorem execute_assign_root (table : Table) (key : String) (value : Value) :
    Document.execute ⟨table, []⟩ (.assign ⟨[], key⟩ value) =
      (Table.assign key value [] table).map (Document.mk · []) :=
  rfl

/-- The last of several tables is the one that is filled. -/
theorem execute_assign_element (name : String) (front : List Table) (table : Table)
    (key : String) (value : Value) :
    Document.execute ⟨[(name, .tables (front ++ [table]))], [name]⟩ (.assign ⟨[], key⟩ value) =
      (Table.assign key value [] table).map
        fun table => ⟨[(name, .tables (front ++ [table]))], [name]⟩ := by
  simp only [Document.execute, Table.within, List.lookup_cons, BEq.rfl, List.getLast?_concat,
    List.dropLast_concat, Table.put, ↓reduceIte, Option.map_map]
  rfl

theorem execute_elementHeader (name : String) (front : List Table) (current : List String) :
    Document.execute ⟨listed name front, current⟩ (.elementHeader ⟨[], name⟩) =
      some ⟨[(name, .tables (front ++ [[]]))], [name]⟩ := by
  unfold Document.execute Table.within Table.announceElement listed
  by_cases none : front = []
  · subst none
    rfl
  · rw [if_neg none]
    simp [Table.put]

theorem foldlM_sections (name : String) {elements : List Table}
    (distinct : ∀ table ∈ elements, table.Distinct) (front : List Table)
    (current : List String) : ∃ last,
      (sections name elements).foldlM Document.execute ⟨listed name front, current⟩ =
        some ⟨listed name (front ++ elements), last⟩ := by
  induction elements generalizing front current with
  | nil =>
      rw [List.append_nil]
      exact ⟨current, rfl⟩
  | cons entries elements ih =>
      obtain ⟨first, others⟩ := List.forall_mem_cons.mp distinct
      have filled := foldlM_assigns [] (execute_assign_element name front) first
      have closed : [(name, .tables (front ++ [entries]))] = listed name (front ++ [entries]) :=
        (if_neg (by simp)).symm
      obtain ⟨last, later⟩ := ih others (front ++ [entries]) [name]
      refine ⟨last, ?_⟩
      rw [sections, List.flatMap_cons, List.cons_append, List.foldlM_cons, execute_elementHeader]
      refine List.foldlM_append.trans ?_
      rw [filled, List.nil_append, closed]
      rw [List.append_assoc] at later
      exact later

/-- A text of written statements describes the table that they make. -/
theorem parse?_of_writes {list : List Statement} {document : Document}
    (written : WritesAll WritesLine list text.toList)
    (made : list.foldlM Document.execute ⟨[], []⟩ = some document) :
    parse? text = some document.root := by
  unfold parse? Document.ofStatements? Document.empty
  rw [readAll?_statements written]
  change (list.foldlM Document.execute ⟨[], []⟩).bind _ = _
  rw [made]
  rfl

/-- **Assignments describe the table of their keys and values.** -/
theorem parse?_of_assigns (written : WritesAll WritesLine (assigns entries) text.toList)
    (distinct : entries.Distinct) : parse? text = some entries :=
  parse?_of_writes written (foldlM_assigns [] execute_assign_root distinct)

/-- **Sections describe a list of tables.** -/
theorem parse?_of_sections {elements : List Table}
    (written : WritesAll WritesLine (sections name elements) text.toList)
    (distinct : ∀ table ∈ elements, table.Distinct) :
    parse? text = some (listed name elements) := by
  obtain ⟨last, made⟩ := foldlM_sections name distinct [] []
  exact parse?_of_writes written made

/-- **A text is malformed wherever it is**, also behind lines that would describe a table. -/
theorem parse?_of_refused {list : List Statement} {front back : List Char}
    (written : WritesAll WritesLine list front) (some : back ≠ []) (visible : Visible back)
    (refuses : Scanner.Refuses line back) : parse? (String.ofList (front ++ back)) = none := by
  unfold parse?
  rw [String.toList_ofList, readAll?_of_refused written some visible refuses]
  rfl

end Toml

end ShaderHeader
