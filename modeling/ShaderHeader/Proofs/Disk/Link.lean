import ShaderHeader.Proofs.Disk.Folder

/-!
# What a link leads to

A path whose last name is that of a link leads on to where the link points.  It never
leads back to the link: a walk does not pass a link, so it stays outside of all that
lies below one.
-/

namespace ShaderHeader

namespace Disk

variable {disk : Disk} {here folder place found : Location} {steps : List Path.Step}

section Outside

variable {target : Path}

/-- A walk that starts outside of what lies below a link ends outside of it, if it does so
where links are followed. -/
theorem walkWith_outside {follow : Location → List Path.Step → Except Refusal Location}
    (stands : disk.get? place = some (.link target)) (rooted : place ≠ [])
    (alike : ∀ start steps found, ¬ place <+: start → follow start steps = .ok found →
      ¬ place <+: found)
    (outside : ¬ place <+: here) (arrives : disk.walkWith follow here steps = .ok found) :
    ¬ place <+: found := by
  induction steps generalizing here with
  | nil =>
      cases arrives
      exact outside
  | cons step rest ih =>
      obtain ⟨-, goesOn⟩ := walkWith_cons_eq_ok_iff.mp arrives
      cases goesOn with
      | slash goes => exact ih outside goes
      | stay goes => exact ih outside goes
      | up goes => exact ih (fun below => outside (below.trans (List.dropLast_prefix here))) goes
      | enter short entered plain goes =>
          refine ih ?_ goes
          intro below
          rcases List.prefix_concat_iff.mp below with same | below
          · rw [← same, stands] at entered
            exact plain target (Option.some.inj entered).symm
          · exact outside below
      | link short entered goes =>
          refine alike _ _ _ ?_ goes
          unfold Path.origin
          split
          · exact fun below => rooted (List.prefix_nil.mp below)
          · exact outside

/-- **A walk that starts outside of what lies below a link ends outside of it.** -/
theorem walk_outside (stands : disk.get? place = some (.link target)) (rooted : place ≠ [])
    {links : Nat} (outside : ¬ place <+: here)
    (arrives : disk.walk links here steps = .ok found) : ¬ place <+: found := by
  induction links generalizing here found steps with
  | zero =>
      refine walkWith_outside stands rooted ?_ outside arrives
      intro start steps found _ refused
      cases refused
  | succ links ih =>
      exact walkWith_outside stands rooted (fun _ _ _ start arrives => ih start arrives)
        outside arrives

end Outside

/-- What comes of entering a name in a folder: a link is followed, anything else is where
the walk ends. -/
inductive Enters (disk : Disk) (folder : Location) (name : Name) : Location → Prop where
  | link {target : Path} {links : Nat} {found : Location}
      (stands : disk.get? (folder ++ [name]) = some (.link target))
      (leads : disk.walk links (target.origin folder) target.steps = .ok found) :
      Enters disk folder name found
  | plain {entry : Entry} (stands : disk.get? (folder ++ [name]) = some entry)
      (kept : ∀ target, entry ≠ .link target) : Enters disk folder name (folder ++ [name])

/-- A walk whose last step enters a name does so in the directory its other steps lead to,
if this holds where links are followed. -/
theorem walkWith_append_into {follow : Location → List Path.Step → Except Refusal Location}
    {name : Name}
    (bounded : ∀ start steps found, follow start steps = .ok found →
      ∃ links, disk.walk links start steps = .ok found)
    (alike : ∀ start steps found, follow start (steps ++ [.into name]) = .ok found →
      ∃ folder, follow start steps = .ok folder ∧ disk.Enters folder name found)
    (arrives : disk.walkWith follow here (steps ++ [.into name]) = .ok found) :
    ∃ folder, disk.walkWith follow here steps = .ok folder ∧ disk.Enters folder name found := by
  induction steps generalizing here with
  | nil =>
      obtain ⟨-, goesOn⟩ := walkWith_cons_eq_ok_iff.mp arrives
      refine ⟨here, rfl, ?_⟩
      cases goesOn with
      | enter short stands plain goes =>
          cases goes
          exact .plain stands plain
      | link short stands goes =>
          obtain ⟨links, leads⟩ := bounded _ _ _ goes
          rw [List.append_nil] at leads
          exact .link stands leads
  | cons step rest ih =>
      rw [List.cons_append] at arrives
      obtain ⟨open_, goesOn⟩ := walkWith_cons_eq_ok_iff.mp arrives
      cases goesOn with
      | slash goes =>
          obtain ⟨folder, leads, enters⟩ := ih goes
          exact ⟨folder, walkWith_cons_eq_ok_iff.mpr ⟨open_, .slash leads⟩, enters⟩
      | stay goes =>
          obtain ⟨folder, leads, enters⟩ := ih goes
          exact ⟨folder, walkWith_cons_eq_ok_iff.mpr ⟨open_, .stay leads⟩, enters⟩
      | up goes =>
          obtain ⟨folder, leads, enters⟩ := ih goes
          exact ⟨folder, walkWith_cons_eq_ok_iff.mpr ⟨open_, .up leads⟩, enters⟩
      | enter short stands plain goes =>
          obtain ⟨folder, leads, enters⟩ := ih goes
          have entered := GoesOn.enter short stands plain leads
          exact ⟨folder, walkWith_cons_eq_ok_iff.mpr ⟨open_, entered⟩, enters⟩
      | link short stands goes =>
          rw [← List.append_assoc] at goes
          obtain ⟨folder, leads, enters⟩ := alike _ _ _ goes
          have linked := GoesOn.link short stands leads
          exact ⟨folder, walkWith_cons_eq_ok_iff.mpr ⟨open_, linked⟩, enters⟩

/-- A walk whose last step enters a name does so in the directory its other steps lead
to. -/
theorem walk_append_into {links : Nat} {name : Name}
    (arrives : disk.walk links here (steps ++ [.into name]) = .ok found) :
    ∃ folder, disk.walk links here steps = .ok folder ∧ disk.Enters folder name found := by
  induction links generalizing here found steps with
  | zero =>
      refine walkWith_append_into ?_ ?_ arrives
      · intro start steps found refused
        cases refused
      · intro start steps found refused
        cases refused
  | succ links ih =>
      refine walkWith_append_into ?_ ?_ arrives
      · intro start steps found arrives
        exact ⟨links, arrives⟩
      · intro start steps found arrives
        exact ih arrives

/-- A path that ends in a name is followed by entering that name in the path's folder. -/
theorem enters_of_locate {path : Path} {before : List Name} {name : Name}
    (ends : path.EndsIn before name) (into : disk.LeadsInto here path.folder folder)
    (located : disk.locate here path = .ok found) : disk.Enters folder name found := by
  have walked := walk_before ends into
  unfold locate at located
  cases flaw : path.flaw? with
  | some refusal =>
      rw [flaw] at located
      cases located
  | none =>
      simp only [flaw, ends.steps] at located
      obtain ⟨reached, arrives, enters⟩ := walk_append_into located
      have passed : disk.pass .stay reached = .ok folder := by
        rw [arrives] at walked
        exact walked
      obtain ⟨-, same⟩ := pass_eq_ok_iff.mp passed
      rw [← same]
      exact enters

/-- **A link leads away from its own place**, and from all that would lie below it. -/
theorem outside_of_link {path target : Path} {before : List Name} {name : Name}
    (ends : path.EndsIn before name) (into : disk.LeadsInto here path.folder folder)
    (stands : disk.get? (folder ++ [name]) = some (.link target))
    (located : disk.locate here path = .ok found) : ¬ folder ++ [name] <+: found := by
  have rooted : folder ++ [name] ≠ [] := by simp
  cases enters_of_locate ends into located with
  | link other arrives =>
      rw [stands] at other
      cases other
      refine walk_outside stands rooted ?_ arrives
      intro below
      have bounded := below.length_le
      unfold Path.origin at bounded
      rw [List.length_append, List.length_singleton] at bounded
      split at bounded
      · rw [List.length_nil] at bounded
        omega
      · omega
  | plain other kept =>
      rw [stands] at other
      cases other
      exact absurd rfl (kept target)

end Disk

end ShaderHeader
