import ShaderHeader.Toml.Value

/-!
# Building tables

Which tables may still grow, and how.  A dotted key may add to tables that no
header has named, and a header may add to any table outside braces; neither may
give a key a second value.
-/

namespace ShaderHeader

namespace Toml

namespace Table

/-- Gives a key below a table a value, with the tables named by `parents` on the
way to it.  Missing ones are made.  The last of them must have been made by a
dotted key; the earlier ones must at least not have a header of their own, where
of tables in double brackets it is the last that counts. -/
def assign (key : String) (value : Value) : List String → Table → Option Table
  | [], table =>
    match table.lookup key with
    | none => some (table.put key value)
    | some _ => none
  | parent :: parents, table =>
    match table.lookup parent with
    | none => (assign key value parents []).map fun inner => table.put parent (.table .dotted inner)
    | some (.table origin inner) =>
      if origin = .dotted ∨ (origin = .implied ∧ parents ≠ []) then
        (assign key value parents inner).map fun inner => table.put parent (.table origin inner)
      else none
    | some (.tables elements) =>
      match elements.getLast? with
      | some last =>
        if parents = [] then none
        else (assign key value parents last).map fun last =>
          table.put parent (.tables (elements.dropLast ++ [last]))
      | none => none
    | some _ => none

/-- Changes the table that headers call by the given keys.  Missing tables are
made, and of tables in double brackets the last is meant. -/
def within (change : Table → Option Table) : List String → Table → Option Table
  | [], table => change table
  | key :: keys, table =>
    match table.lookup key with
    | none => (within change keys []).map fun inner => table.put key (.table .implied inner)
    | some (.table origin inner) =>
      if origin = .inline then none
      else (within change keys inner).map fun inner => table.put key (.table origin inner)
    | some (.tables elements) =>
      match elements.getLast? with
      | some last =>
        (within change keys last).map fun last =>
          table.put key (.tables (elements.dropLast ++ [last]))
      | none => none
    | some _ => none

/-- Gives a key the table its header announces.  Only a table that was implied so
far may be there already. -/
def announce (key : String) (table : Table) : Option Table :=
  match table.lookup key with
  | none => some (table.put key (.table .header []))
  | some (.table .implied inner) => some (table.put key (.table .header inner))
  | some _ => none

/-- Adds an element to the tables that a header in double brackets announces. -/
def announceElement (key : String) (table : Table) : Option Table :=
  match table.lookup key with
  | none => some (table.put key (.tables [[]]))
  | some (.tables elements) => some (table.put key (.tables (elements ++ [[]])))
  | some _ => none

end Table

/-- A key with dots: the tables it passes through, and its last part. -/
structure Key where
  parents : List String
  name : String
deriving DecidableEq, Repr

/-- The key with the given parts, of which there must be one. -/
def Key.ofParts? (parts : List String) : Option Key :=
  parts.getLast?.map fun name => { parents := parts.dropLast, name }

/-- The table between braces that gives each key its value. -/
def Table.ofPairs? (pairs : List (Key × Value)) : Option Table :=
  pairs.foldlM (fun table (key, value) => Table.assign key.name value key.parents table) []

end Toml

end ShaderHeader
