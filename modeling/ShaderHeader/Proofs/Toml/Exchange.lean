import ShaderHeader.Proofs.Toml.Nested

/-!
# Exchanged arrays

In the middle of a text, an array is given to a key.  What the text says besides depends only on
what stands before and after that statement (`exists_readAll?_statement`), and no statement looks
into an array.  So when the array is exchanged for another one, the text goes on to describe a
table (`parse?_exchanged`), in which the key has the other array (`lookup_parse?`), or to describe
none.
-/

namespace ShaderHeader

namespace Toml

open Scanner

/-! ## One statement among others -/

section Statements

variable {list : List Statement} {meant : Statement} {text before spelled after rest : List Char}

/-- Whole lines: what stands behind them is read as if it stood alone. -/
def WholeLines (list : List Statement) (text : List Char) : Prop :=
  ∀ more rest back, Visible rest → Reads statements rest more back →
    Reads statements (text ++ rest) (list ++ more) back

/-- Written lines are whole lines. -/
theorem WritesAll.wholeLines (written : WritesAll WritesLine list text) : WholeLines list text := by
  intro more rest back visible reads
  obtain ⟨lines, last, all⟩ := exists_readsAll nextLine rest
  cases reads.symm.trans (reads_statements_of_readsAll visible all)
  obtain ⟨further, visible⟩ := written.readsAll_nextLine visible all
  have kept : (list.map some).filterMap id = list := by
    rw [List.filterMap_map, Function.id_comp, List.filterMap_some]
  have together := reads_statements_of_readsAll visible further
  rwa [List.filterMap_append, kept] at together

/-- A text is read as a statement, whatever follows it. -/
structure SpellsStatement (meant : Statement) (spelled : List Char) : Prop where
  opens : ∀ later, Stops (fun c => beginsSpacing c || c == '\uFEFF') (spelled ++ later)
  reads : ∀ later, Reads statement (spelled ++ later) meant later

namespace SpellsStatement

theorem visible (spells : SpellsStatement meant spelled) (later : List Char) :
    Visible (spelled ++ later) := by
  intro c head
  have dark := spells.opens later c head
  simp only [beginsSpacing, Bool.or_eq_false_iff] at dark
  exact Bool.or_eq_false_iff.mpr ⟨dark.1.1.1.1, dark.2⟩

/-- Neither an empty line nor a comment is found where a statement is spelled. -/
theorem refuses (spells : SpellsStatement meant spelled) (later : List Char) :
    Refuses newline (spelled ++ later) ∧ Refuses comment (spelled ++ later) := by
  have other {c : Char} (head : (spelled ++ later).head? = some c) :
      (c == '\n') = false ∧ (c == '\r') = false ∧ (c == '#') = false := by
    have dark := spells.opens later c head
    simp only [beginsSpacing, Bool.or_eq_false_iff] at dark
    exact ⟨dark.1.1.1.2, dark.1.1.2, dark.1.2⟩
  refine ⟨(refuses_char ?_).orElse_refuses (refuses_exact ?_), (refuses_char ?_).bind⟩
  · exact fun c head => (other head).1
  · exact fun c head => (other head).2.1
  · exact fun c head => (other head).2.2

/-- Only what follows a statement decides where its line ends. -/
theorem reads_nextLine (spells : SpellsStatement meant spelled)
    (tail : Reads (do lineTail; blanks) after () rest) :
    Reads nextLine (spelled ++ after) (some meant) rest := by
  obtain ⟨⟨⟩, middle, ended, blank⟩ := tail.of_bind
  obtain ⟨noNewline, noComment⟩ := spells.refuses after
  refine Reads.bind ?_ (blank.bind (reads_pure _ rest))
  refine noNewline.bind.orElse (noComment.bind.orElse ?_)
  exact (spells.reads after).bind (ended.bind (reads_pure _ middle))

theorem refuses_nextLine (spells : SpellsStatement meant spelled)
    (tail : Refuses (do lineTail; blanks) after) : Refuses nextLine (spelled ++ after) := by
  obtain ⟨noNewline, noComment⟩ := spells.refuses after
  cases ended : lineTail after with
  | none =>
      have refuses : Refuses (do lineTail; return some meant) after := Refuses.bind ended
      refine Refuses.bind (noNewline.bind.orElse_refuses (noComment.bind.orElse_refuses ?_))
      exact (spells.reads after).bind_refuses refuses
  | some result =>
      obtain ⟨⟨⟩, middle⟩ := result
      have reads : Reads lineTail after () middle := ended
      have blank : Refuses blanks middle := by
        cases taken : blanks middle with
        | none => exact taken
        | some further =>
            have both : Reads (do lineTail; blanks) after _ _ := reads.bind taken
            cases tail.symm.trans both
      have whole : Reads line (spelled ++ after) (some meant) middle :=
        noNewline.bind.orElse (noComment.bind.orElse
          ((spells.reads after).bind (reads.bind (reads_pure _ middle))))
      exact whole.bind_refuses blank.bind

end SpellsStatement

/-- **What stands around a statement does not depend on it**, if there are whole lines before it:
either the text is refused for any such statement, or it has the same other statements. -/
theorem exists_readAll?_statement (whole : WholeLines list before) (after : List Char) :
    ∃ more? : Option (List Statement), ∀ {meant spelled}, SpellsStatement meant spelled →
      statements.readAll? (before ++ (spelled ++ after)) = more?.map (list ++ meant :: ·) := by
  cases tail : (do lineTail; blanks : Scanner Unit) after with
  | none =>
      refine ⟨none, fun {meant spelled} spells => ?_⟩
      have visible := spells.visible after
      have none := reads_statements_of_readsAll visible (.stop (spells.refuses_nextLine tail))
      refine readAll?_of_rest (whole _ _ _ visible none) fun empty => ?_
      have taken := Takes.length_lt (spells.reads after)
      rw [empty] at taken
      exact Nat.not_lt_zero _ taken
  | some result =>
      obtain ⟨⟨⟩, rest⟩ := result
      obtain ⟨lines, back, all⟩ := exists_readsAll nextLine rest
      refine ⟨if back = [] then some (lines.filterMap id) else none, ?_⟩
      intro meant spelled spells
      have visible := spells.visible after
      have one := spells.reads_nextLine tail
      have reads := whole _ _ _ visible
        (reads_statements_of_readsAll visible (.more one (Takes.length_lt one) all))
      by_cases closed : back = []
      · subst closed
        rw [if_pos rfl, readAll?_of_reads reads]
        rfl
      · rw [if_neg closed, readAll?_of_rest reads closed]
        rfl

end Statements

/-! ## Tables that differ in arrays -/

/-- Related results lead to related results. -/
theorem rel_bind {α β : Type} {related : α → α → Prop} {goal : β → β → Prop}
    {first second : Option α} {next other : α → Option β} (results : Option.Rel related first second)
    (later : ∀ {value replacement}, related value replacement →
      Option.Rel goal (next value) (other replacement)) :
    Option.Rel goal (first >>= next) (second >>= other) := by
  cases results with
  | none => exact .none
  | some values => exact later values

section Tables

variable {table other : Table} {key : String}
variable {value replacement : Value}

/-- Values that are the same, apart from an array that is exchanged for another one. -/
inductive Alike : Value → Value → Prop where
  | same (value : Value) : Alike value value
  | arrays (items others : List Value) : Alike (.array items) (.array others)

/-- Tables of the same keys with values that are alike. -/
inductive AlikeTables : Table → Table → Prop where
  | nil : AlikeTables [] []
  | cons {key : String} {value replacement : Value} {table other : Table}
      (head : Alike value replacement) (tail : AlikeTables table other) :
      AlikeTables ((key, value) :: table) ((key, replacement) :: other)

namespace AlikeTables

theorem refl (table : Table) : AlikeTables table table := by
  induction table with
  | nil => exact .nil
  | cons entry table ih => exact .cons (.same entry.2) ih

theorem lookup (tables : AlikeTables table other) (key : String) :
    Option.Rel Alike (table.lookup key) (other.lookup key) := by
  induction tables with
  | nil => exact .none
  | @cons name value replacement table other head tail ih =>
      rw [List.lookup_cons, List.lookup_cons]
      cases key == name with
      | true => exact .some head
      | false => exact ih

theorem put (tables : AlikeTables table other) (values : Alike value replacement) :
    AlikeTables (table.put key value) (other.put key replacement) := by
  induction tables with
  | nil => exact .cons values .nil
  | @cons name _ _ table other head tail ih =>
      unfold Table.put
      by_cases same : name = key
      · rw [if_pos same, if_pos same]
        exact .cons values tail
      · rw [if_neg same, if_neg same]
        exact .cons head ih

theorem assign_root (tables : AlikeTables table other)
    (values : Alike value replacement) :
    Option.Rel AlikeTables (Table.assign key value [] table)
      (Table.assign key replacement [] other) := by
  have found := tables.lookup key
  unfold Table.assign
  generalize table.lookup key = first at found ⊢
  generalize other.lookup key = second at found ⊢
  cases found with
  | none => exact .some (tables.put values)
  | some => exact .none

end AlikeTables

/-- A change of a table that looks at one entry and gives it a new value, unless that is an
array. -/
structure IsLocal (key : String) (change : Table → Option Table) : Prop where
  refuses : ∀ table items, table.lookup key = some (.array items) → change table = none
  changes : ∀ found : Option Value, ∃ changed : Option Value, ∀ table : Table,
    table.lookup key = found → change table = changed.map (table.put key)

theorem exists_isLocal_assign (key : String) (value : Value) (parents : List String) :
    ∃ name, IsLocal name (Table.assign key value parents) := by
  cases parents with
  | nil =>
      refine ⟨key, fun table items found => by rw [Table.assign, found], fun found => ?_⟩
      cases found with
      | none => exact ⟨some value, fun table found => by rw [Table.assign, found]; rfl⟩
      | some old => exact ⟨none, fun table found => by rw [Table.assign, found]; rfl⟩
  | cons parent parents =>
      refine ⟨parent, fun table items found => by rw [Table.assign, found], fun found => ?_⟩
      cases found with
      | none =>
          refine ⟨(Table.assign key value parents []).map (.table .dotted), fun table found => ?_⟩
          rw [Table.assign, found]
          exact (Option.map_map ..).symm
      | some old =>
          cases old with
          | table origin inner =>
              by_cases extended : origin = .dotted ∨ (origin = .implied ∧ parents ≠ [])
              · refine ⟨(Table.assign key value parents inner).map (.table origin),
                  fun table found => ?_⟩
                rw [Table.assign, found, Option.map_map]
                exact if_pos extended
              · refine ⟨none, fun table found => ?_⟩
                rw [Table.assign, found]
                exact if_neg extended
          | tables elements =>
              cases ending : elements.getLast? with
              | none =>
                  refine ⟨none, fun table found => ?_⟩
                  rw [Table.assign, found]
                  dsimp only
                  rw [ending]
                  rfl
              | some last =>
                  by_cases direct : parents = []
                  · refine ⟨none, fun table found => ?_⟩
                    rw [Table.assign, found]
                    dsimp only
                    rw [ending]
                    exact if_pos direct
                  · refine ⟨(Table.assign key value parents last).map fun last =>
                      .tables (elements.dropLast ++ [last]), fun table found => ?_⟩
                    rw [Table.assign, found]
                    dsimp only
                    rw [ending, Option.map_map]
                    exact if_neg direct
          | _ => exact ⟨none, fun table found => by rw [Table.assign, found]; rfl⟩

theorem exists_isLocal_within {name : String} {change : Table → Option Table}
    (isLocal : IsLocal name change) (keys : List String) :
    ∃ name, IsLocal name (Table.within change keys) := by
  cases keys with
  | nil => exact ⟨name, isLocal⟩
  | cons key keys =>
      refine ⟨key, fun table items found => by rw [Table.within, found], fun found => ?_⟩
      cases found with
      | none =>
          refine ⟨(Table.within change keys []).map (.table .implied), fun table found => ?_⟩
          rw [Table.within, found]
          exact (Option.map_map ..).symm
      | some old =>
          cases old with
          | table origin inner =>
              by_cases closed : origin = .inline
              · refine ⟨none, fun table found => ?_⟩
                rw [Table.within, found]
                exact if_pos closed
              · refine ⟨(Table.within change keys inner).map (.table origin),
                  fun table found => ?_⟩
                rw [Table.within, found, Option.map_map]
                exact if_neg closed
          | tables elements =>
              cases ending : elements.getLast? with
              | none =>
                  refine ⟨none, fun table found => ?_⟩
                  rw [Table.within, found]
                  dsimp only
                  rw [ending]
                  rfl
              | some last =>
                  refine ⟨(Table.within change keys last).map fun last =>
                    .tables (elements.dropLast ++ [last]), fun table found => ?_⟩
                  rw [Table.within, found]
                  dsimp only
                  rw [ending]
                  exact (Option.map_map ..).symm
          | _ => exact ⟨none, fun table found => by rw [Table.within, found]; rfl⟩

theorem isLocal_announce (key : String) : IsLocal key (Table.announce key) := by
  refine ⟨fun table items found => by rw [Table.announce, found], fun found => ?_⟩
  unfold Table.announce
  cases found with
  | none => exact ⟨some (.table .header []), fun table found => by rw [found]; rfl⟩
  | some old =>
      cases old with
      | table origin inner =>
          cases origin with
          | implied => exact ⟨some (.table .header inner), fun table found => by rw [found]; rfl⟩
          | _ => exact ⟨none, fun table found => by rw [found]; rfl⟩
      | _ => exact ⟨none, fun table found => by rw [found]; rfl⟩

theorem isLocal_announceElement (key : String) : IsLocal key (Table.announceElement key) := by
  refine ⟨fun table items found => by rw [Table.announceElement, found], fun found => ?_⟩
  unfold Table.announceElement
  cases found with
  | none => exact ⟨some (.tables [[]]), fun table found => by rw [found]; rfl⟩
  | some old =>
      cases old with
      | tables elements =>
          exact ⟨some (.tables (elements ++ [[]])), fun table found => by rw [found]; rfl⟩
      | _ => exact ⟨none, fun table found => by rw [found]; rfl⟩

/-- **A statement changes one entry** of the outermost table, and no array. -/
theorem exists_isLocal (current : List String) (statement : Statement) :
    ∃ name change next, IsLocal name change ∧
      ∀ table, Document.execute ⟨table, current⟩ statement =
        (change table).map (Document.mk · next) := by
  cases statement with
  | assign key value =>
      obtain ⟨name, isLocal⟩ := exists_isLocal_assign key.name value key.parents
      obtain ⟨name, isLocal⟩ := exists_isLocal_within isLocal current
      exact ⟨name, _, _, isLocal, fun _ => rfl⟩
  | header key =>
      obtain ⟨name, isLocal⟩ := exists_isLocal_within (isLocal_announce key.name) key.parents
      exact ⟨name, _, _, isLocal, fun _ => rfl⟩
  | elementHeader key =>
      obtain ⟨name, isLocal⟩ := exists_isLocal_within (isLocal_announceElement key.name) key.parents
      exact ⟨name, _, _, isLocal, fun _ => rfl⟩

theorem IsLocal.alike {name : String} {change : Table → Option Table}
    (isLocal : IsLocal name change) (tables : AlikeTables table other) :
    Option.Rel AlikeTables (change table) (change other) := by
  have same {found : Option Value} (first : table.lookup name = found)
      (second : other.lookup name = found) :
      Option.Rel AlikeTables (change table) (change other) := by
    obtain ⟨changed, eq⟩ := isLocal.changes found
    rw [eq table first, eq other second]
    cases changed with
    | none => exact .none
    | some changed => exact .some (tables.put (.same changed))
  have found := tables.lookup name
  generalize first : table.lookup name = value at found
  generalize second : other.lookup name = replacement at found
  cases found with
  | none => exact same first second
  | some alike =>
      cases alike with
      | same => exact same first second
      | arrays =>
          rw [isLocal.refuses _ _ first, isLocal.refuses _ _ second]
          exact .none

theorem lookup_put_of_ne {name : String} (apart : name ≠ key) (table : Table) (value : Value) :
    (table.put key value).lookup name = table.lookup name := by
  have other : (name == key) = false := beq_eq_false_iff_ne.mpr apart
  induction table with
  | nil => rw [Table.put, List.lookup_cons, other]
  | cons entry table ih =>
      obtain ⟨first, old⟩ := entry
      rw [Table.put]
      by_cases same : first = key
      · subst same
        rw [if_pos rfl, List.lookup_cons, List.lookup_cons, other]
      · rw [if_neg same, List.lookup_cons, List.lookup_cons, ih]

theorem lookup_put (table : Table) (key : String) (value : Value) :
    (table.put key value).lookup key = some value := by
  induction table with
  | nil => exact List.lookup_cons_self
  | cons entry table ih =>
      obtain ⟨first, old⟩ := entry
      rw [Table.put]
      by_cases same : first = key
      · rw [if_pos same, List.lookup_cons_self]
      · have other : (key == first) = false := beq_eq_false_iff_ne.mpr (Ne.symm same)
        rw [if_neg same, List.lookup_cons, other]
        exact ih

/-- An array is kept. -/
theorem IsLocal.lookup_array {name : String} {change : Table → Option Table} {items : List Value}
    (isLocal : IsLocal name change) (found : table.lookup key = some (.array items))
    (made : change table = some other) : other.lookup key = some (.array items) := by
  have apart : key ≠ name := by
    rintro rfl
    rw [isLocal.refuses _ _ found] at made
    cases made
  obtain ⟨changed, eq⟩ := isLocal.changes (table.lookup name)
  rw [eq table rfl] at made
  obtain ⟨value, rfl, rfl⟩ := Option.map_eq_some_iff.mp made
  rw [lookup_put_of_ne apart, found]

end Tables

/-! ## Documents that differ in arrays -/

section Documents

variable {document other : Document} {key : String}
variable {value replacement : Value} {list : List Statement}

/-- Documents that are alike and call the same table. -/
structure AlikeDocuments (document other : Document) : Prop where
  root : AlikeTables document.root other.root
  current : document.current = other.current

theorem alikeDocuments_of_tables {first second : Option Table} (current : List String)
    (tables : Option.Rel AlikeTables first second) :
    Option.Rel AlikeDocuments (first.map (Document.mk · current))
      (second.map (Document.mk · current)) := by
  cases tables with
  | none => exact .none
  | some tables => exact .some ⟨tables, rfl⟩

theorem AlikeDocuments.execute (documents : AlikeDocuments document other)
    (statement : Statement) :
    Option.Rel AlikeDocuments (document.execute statement) (other.execute statement) := by
  obtain ⟨root, current⟩ := document
  obtain ⟨otherRoot, otherCurrent⟩ := other
  obtain ⟨tables, rfl⟩ := documents
  obtain ⟨name, change, next, isLocal, eq⟩ := exists_isLocal current statement
  rw [eq, eq]
  exact alikeDocuments_of_tables next (isLocal.alike tables)

theorem AlikeDocuments.foldlM_execute (documents : AlikeDocuments document other)
    (list : List Statement) :
    Option.Rel AlikeDocuments (list.foldlM Document.execute document)
      (list.foldlM Document.execute other) := by
  induction list generalizing document other with
  | nil => exact .some documents
  | cons statement list ih =>
      rw [List.foldlM_cons, List.foldlM_cons]
      exact rel_bind (documents.execute statement) ih

/-- **An array stays what it is**, whatever is said later. -/
theorem lookup_array_of_foldlM {items : List Value}
    (found : document.root.lookup key = some (.array items))
    (made : list.foldlM Document.execute document = some other) :
    other.root.lookup key = some (.array items) := by
  induction list generalizing document with
  | nil =>
      cases made
      exact found
  | cons statement list ih =>
      rw [List.foldlM_cons] at made
      obtain ⟨middle, one, later⟩ := Option.bind_eq_some_iff.mp made
      refine ih ?_ later
      obtain ⟨name, change, next, isLocal, eq⟩ := exists_isLocal document.current statement
      obtain ⟨root, changes, rfl⟩ := Option.map_eq_some_iff.mp ((eq document.root).symm.trans one)
      exact isLocal.lookup_array found changes

/-- Outside of all tables that have a header, one value may take the place of another. -/
theorem execute_alike (root : document.current = []) (values : Alike value replacement) :
    Option.Rel AlikeDocuments (document.execute (.assign ⟨[], key⟩ value))
      (document.execute (.assign ⟨[], key⟩ replacement)) := by
  obtain ⟨table, current⟩ := document
  cases root
  exact alikeDocuments_of_tables [] ((AlikeTables.refl table).assign_root values)

/-- A statement that gives a key its value. -/
def Statement.IsAssignment : Statement → Prop
  | .assign _ _ => True
  | .header _ | .elementHeader _ => False

theorem current_of_assignments (plain : ∀ statement ∈ list, statement.IsAssignment)
    (made : list.foldlM Document.execute document = some other) :
    other.current = document.current := by
  induction list generalizing document with
  | nil =>
      cases made
      rfl
  | cons statement list ih =>
      obtain ⟨first, others⟩ := List.forall_mem_cons.mp plain
      rw [List.foldlM_cons] at made
      obtain ⟨middle, one, later⟩ := Option.bind_eq_some_iff.mp made
      rw [ih others later]
      cases statement with
      | assign key value =>
          obtain ⟨root, -, rfl⟩ := Option.map_eq_some_iff.mp one
          rfl
      | header | elementHeader => cases first

theorem ofStatements?_alike (plain : ∀ statement ∈ list, statement.IsAssignment)
    (values : Alike value replacement) (more : List Statement) :
    Option.Rel AlikeDocuments
      (Document.ofStatements? (list ++ .assign ⟨[], key⟩ value :: more))
      (Document.ofStatements? (list ++ .assign ⟨[], key⟩ replacement :: more)) := by
  unfold Document.ofStatements?
  rw [List.foldlM_append, List.foldlM_append]
  cases made : list.foldlM Document.execute Document.empty with
  | none => exact .none
  | some document =>
      have next : Option.Rel AlikeDocuments
          (document.execute (.assign ⟨[], key⟩ value))
          (document.execute (.assign ⟨[], key⟩ replacement)) :=
        execute_alike (current_of_assignments plain made) values
      simp only [Option.bind_eq_bind, Option.bind_some, List.foldlM_cons]
      exact rel_bind next fun documents => AlikeDocuments.foldlM_execute documents more

/-- **Arrays can be exchanged.**  Between whole lines that are assignments and any text at all, one
array is given to a key, or another one.  Then both texts are refused, or they describe tables that
differ in arrays alone. -/
theorem parse?_exchanged {before spelled respelled : List Char}
    (whole : WholeLines list before) (plain : ∀ statement ∈ list, statement.IsAssignment)
    (spells : SpellsStatement (.assign ⟨[], key⟩ value) spelled)
    (respells : SpellsStatement (.assign ⟨[], key⟩ replacement) respelled)
    (values : Alike value replacement) (after : List Char) :
    Option.Rel AlikeTables (parse? (String.ofList (before ++ (spelled ++ after))))
      (parse? (String.ofList (before ++ (respelled ++ after)))) := by
  obtain ⟨more?, each⟩ := exists_readAll?_statement whole after
  unfold parse?
  rw [String.toList_ofList, String.toList_ofList, each spells, each respells]
  cases more? with
  | none => exact .none
  | some more =>
      simp only [Option.map_some, Option.bind_eq_bind, Option.bind_some]
      exact rel_bind (ofStatements?_alike plain values more) fun documents =>
        .some (AlikeDocuments.root documents)

theorem lookup_array_of_ofStatements? {items : List Value} {more : List Statement}
    (plain : ∀ statement ∈ list, statement.IsAssignment)
    (made : Document.ofStatements? (list ++ .assign ⟨[], key⟩ (.array items) :: more) =
      some document) : document.root.lookup key = some (.array items) := by
  unfold Document.ofStatements? at made
  rw [List.foldlM_append] at made
  obtain ⟨⟨table, current⟩, start, made⟩ := Option.bind_eq_some_iff.mp made
  cases current_of_assignments plain start
  rw [List.foldlM_cons] at made
  obtain ⟨middle, one, later⟩ := Option.bind_eq_some_iff.mp made
  refine lookup_array_of_foldlM ?_ later
  rw [execute_assign_root, Table.assign] at one
  cases found : table.lookup key with
  | none =>
      rw [found] at one
      cases one
      exact lookup_put table key _
  | some value =>
      rw [found] at one
      cases one

/-- What an array is given to has it in the table of the text, if there is one. -/
theorem lookup_parse? {before spelled after : List Char} {items : List Value} {table : Table}
    (whole : WholeLines list before) (plain : ∀ statement ∈ list, statement.IsAssignment)
    (spells : SpellsStatement (.assign ⟨[], key⟩ (.array items)) spelled)
    (parsed : parse? (String.ofList (before ++ (spelled ++ after))) = some table) :
    table.lookup key = some (.array items) := by
  obtain ⟨more?, each⟩ := exists_readAll?_statement whole after
  unfold parse? at parsed
  rw [String.toList_ofList, each spells] at parsed
  obtain ⟨all, read, parsed⟩ := Option.bind_eq_some_iff.mp parsed
  obtain ⟨more, -, rfl⟩ := Option.map_eq_some_iff.mp read
  obtain ⟨document, made, parsed⟩ := Option.bind_eq_some_iff.mp parsed
  cases parsed
  exact lookup_array_of_ofStatements? plain made

end Documents

/-! ## Assigned arrays -/

section Arrays

variable {name : String} {items : List Value} {spelledName between gap spelled : List Char}

/-- A key and an array that is given to it are a statement, whatever follows them. -/
theorem spellsStatement_array (named : WritesKey name spelledName) (middle : IsGap between)
    (space : IsGap gap) (written : WritesArray (StandsFor 78) items spelled) :
    SpellsStatement (.assign ⟨[], name⟩ (.array items))
      (spelledName ++ (between ++ '=' :: (gap ++ spelled))) where
  opens later := by
    rw [List.append_assoc]
    refine named.stops (fun c part => ?_) rfl _
    rw [beginsSpacing, isBlank_of_isBareKeyChar part, beq_of_isBareKeyChar part (by decide),
      beq_of_isBareKeyChar part (by decide), beq_of_isBareKeyChar part (by decide),
      beq_of_isBareKeyChar part (by decide)]
    rfl
  reads later := by
    simp only [List.append_assoc, List.cons_append]
    have noHeader (count : Nat) (rest : List Char) :
        Refuses (bracketed (count + 1)) (spelledName ++ rest) :=
      (refuses_exact (named.stops (fun _ part => beq_of_isBareKeyChar part (by decide)) rfl rest)).bind
    have value : Reads (value maxDepth) (spelled ++ later) (.array items) later :=
      written.reads_value later
    have opens := written.standsFor.stops_blank later
    have pair : Reads (pair (Toml.value maxDepth)) _ (⟨[], name⟩, .array items) later :=
      (reads_key isGap_nil named middle (stops_cons rfl)).bind ((reads_char '=' _).bind
        ((reads_blanks space opens).bind (value.bind (reads_pure _ later))))
    exact (noHeader 1 _).map.orElse ((noHeader 0 _).map.orElse pair.map)

end Arrays

/-- A text that is one line describes what this gives. -/
theorem parse?_of_spells {key : String} {value : Value} {spelled : List Char}
    (spells : SpellsStatement (.assign ⟨[], key⟩ value) spelled) :
    parse? (String.ofList (spelled ++ ['\n'])) = some [(key, value)] := by
  have tail : Reads (do lineTail; blanks) ['\n'] () [] := rfl
  have one := spells.reads_nextLine tail
  have all : ReadsAll nextLine (spelled ++ ['\n']) [some _] [] :=
    .more one (Takes.length_lt one) (.stop rfl)
  have read := readAll?_of_reads (reads_statements_of_readsAll (spells.visible _) all)
  unfold parse?
  rw [String.toList_ofList, read]
  rfl

end Toml

end ShaderHeader
