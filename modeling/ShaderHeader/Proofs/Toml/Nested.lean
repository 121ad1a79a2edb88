import ShaderHeader.Proofs.Toml.Document

/-!
# Tables in braces

A table in braces that gives keys their values, each once, stands for the table of these keys
(`WritesBraces.standsFor`).  With the arrays, this covers values in one another.
-/

namespace ShaderHeader

namespace Toml

open Scanner

variable {depth : Nat} {name : String} {meant : Value} {entries : Table}
variable {gap spelled later : List Char}

theorem IsGap.ended (blank : IsGap gap) (ended : Ended later) : Ended (gap ++ later) :=
  blank.isSpacing.ended ended

theorem StandsFor.stops_blank (stands : StandsFor depth meant spelled) (later : List Char) :
    Stops isBlank (spelled ++ later) := by
  intro c head
  have dark := stands.opens later c head
  simp only [beginsSpacing, Bool.or_eq_false_iff] at dark
  exact dark.1.1.1

/-- A key and its value, with the blanks around them. -/
def entry (depth : Nat) : Scanner (Key × Value) := do
  let entry ← pair (value depth)
  blanks
  return entry

instance (depth : Nat) : Takes (entry depth) := by
  unfold entry
  infer_instance

theorem reads_entry (written : WritesPair (StandsFor depth) (name, meant) spelled)
    (ends : Delimited later) :
    Reads (entry depth) (spelled ++ later) (⟨[], name⟩, meant) later := by
  cases written with
  | equals opening named middle space stands closing =>
      simp only [List.append_assoc, List.cons_append]
      have value := stands.reads _ (closing.ended ends.ended)
      have closed := reads_blanks closing (ends.stops rfl rfl rfl)
      refine Reads.bind ?_ (closed.bind (reads_pure _ _))
      refine (reads_key opening named middle (stops_cons rfl)).bind ((reads_char '=' _).bind ?_)
      exact (reads_blanks space (stands.stops_blank _)).bind (value.bind (reads_pure _ _))

/-- No key begins where braces are closed. -/
theorem refuses_entry (depth : Nat) (blank : IsGap gap) (later : List Char) :
    Refuses (entry depth) (gap ++ '\x7d' :: later) := by
  have part : Refuses keyPart ('\x7d' :: later) := rfl
  have spaced : Refuses (do blanks; let part ← keyPart; blanks; return part)
      (gap ++ '\x7d' :: later) :=
    (reads_blanks blank (stops_cons rfl)).bind_refuses part.bind
  exact spaced.bind.filterMap.bind.bind

/-- A key without dots, and its value. -/
def plainPair (entry : String × Value) : Key × Value :=
  (⟨[], entry.1⟩, entry.2)

theorem readsAll_furtherEntries
    (written : WritesAll (Further (WritesPair (StandsFor depth))) entries spelled)
    (later : List Char) :
    ReadsAll (do char ','; entry depth) (spelled ++ '\x7d' :: later) (entries.map plainPair)
        ('\x7d' :: later) ∧
      Delimited (spelled ++ '\x7d' :: later) := by
  have ends : Refuses (char ',') ('\x7d' :: later) := refuses_char (stops_cons rfl)
  rw [← List.append_nil (entries.map plainPair)]
  refine written.readsAll plainPair Delimited ?_ ?_ (.brace later) (.stop ends.bind)
  · rintro ⟨name, meant⟩ _ later ⟨written⟩ ends
    exact (reads_char ',' _).bind (reads_entry written ends)
  · rintro entry _ ⟨written⟩ later
    exact .comma _

/-- Pairs without dots and with different keys make a table. -/
theorem ofPairs?_of_distinct (distinct : entries.Distinct) :
    Table.ofPairs? (entries.map plainPair) = some entries := by
  refine foldlM_of_assigns id [] (fun table key value => ?_) distinct
  exact Option.map_id'.symm

theorem reads_inlineTable (written : WritesBraces (StandsFor depth) entries spelled)
    (distinct : entries.Distinct) (later : List Char) :
    Reads (inlineTable (value depth)) (spelled ++ later) (.table .inline entries) later := by
  have made := ofPairs?_of_distinct distinct
  cases written with
  | none blank =>
      rw [List.cons_append, List.append_assoc]
      have empty : Reads (separated (entry depth) (char ',') <|> pure []) _ [] _ :=
        (refuses_entry depth blank later).bind.orElse (reads_pure [] _)
      refine (reads_char '\x7b' _).bind (empty.bind ?_)
      exact (reads_blanks blank (stops_cons rfl)).bind ((reads_char '\x7d' later).bind rfl)
  | @some first entries front back one others =>
      obtain ⟨further, ends⟩ := readsAll_furtherEntries others later
      rw [List.cons_append, List.append_assoc, List.append_assoc]
      have all : Reads (separated (entry depth) (char ',') <|> pure []) _
          ((first :: entries).map plainPair) _ :=
        (reads_separated (reads_entry one ends) further).orElse
      refine (reads_char '\x7b' _).bind (all.bind ?_)
      refine (reads_blanks isGap_nil (stops_cons rfl)).bind ((reads_char '\x7d' later).bind ?_)
      rw [made]
      exact reads_pure _ later

/-- **Braces stand for the table of their keys and values.** -/
theorem WritesBraces.standsFor (written : WritesBraces (StandsFor depth) entries spelled)
    (distinct : entries.Distinct) : StandsFor (depth + 1) (.table .inline entries) spelled where
  opens later := by
    cases written with
    | none | some => exact stops_cons rfl
  reads later _ := by
    have reads := reads_inlineTable written distinct later
    cases written with
    | none | some => exact Refuses.orElse rfl (Refuses.orElse rfl reads)

end Toml

end ShaderHeader
