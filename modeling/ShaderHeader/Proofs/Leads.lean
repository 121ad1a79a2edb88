/-!
# Leading from one state to another

A reader that goes through a list item by item, and can refuse one, is a partial step.  The
items of a list lead from a state to another when none is refused (`Leads`).  A list that is put
together leads where its parts lead in turn, and names that are opened in order and closed in the
opposite order lead back (`Leads.opening`, `Leads.closing`).
-/

namespace ShaderHeader

/-- Items lead from a state to another when every one of them can be taken, each in the state that
the one before leaves. -/
def Leads {σ α : Type} (step : σ → α → Option σ) (start : σ) (items : List α) (stop : σ) : Prop :=
  items.foldlM step start = some stop

namespace Leads

variable {σ α β : Type} {step : σ → α → Option σ} {start middle stop : σ} {first second : List α}

theorem nil (start : σ) : Leads step start [] start :=
  rfl

theorem cons {item : α} {rest : List α} (taken : step start item = some middle)
    (later : Leads step middle rest stop) : Leads step start (item :: rest) stop := by
  rw [Leads, List.foldlM_cons, taken]
  exact later

theorem of_cons {item : α} {rest : List α} (leads : Leads step start (item :: rest) stop) :
    ∃ middle, step start item = some middle ∧ Leads step middle rest stop := by
  rw [Leads, List.foldlM_cons] at leads
  exact Option.bind_eq_some_iff.mp leads

theorem append (before : Leads step start first middle) (after : Leads step middle second stop) :
    Leads step start (first ++ second) stop := by
  rw [Leads, List.foldlM_append, before]
  exact after

theorem take (leads : Leads step start first stop) (count : Nat) :
    ∃ middle, Leads step start (first.take count) middle := by
  rw [← List.take_append_drop count first, Leads, List.foldlM_append] at leads
  obtain ⟨middle, reached, -⟩ := Option.bind_eq_some_iff.mp leads
  exact ⟨middle, reached⟩

/-- Items that change nothing lead nowhere. -/
theorem of_idle (idle : ∀ item ∈ first, step start item = some start) :
    Leads step start first start := by
  induction first with
  | nil => exact nil start
  | cons item rest ih =>
      obtain ⟨here, others⟩ := List.forall_mem_cons.mp idle
      exact cons here (ih others)

theorem map_iff {spell : β → α} {items : List β} :
    Leads step start (items.map spell) stop ↔
      Leads (fun state item => step state (spell item)) start items stop := by
  unfold Leads
  rw [List.foldlM_map]

/-- Names that are opened one after another, the state being known from those that are open. -/
theorem opening (state : List β → σ) {spell : β → α} (done todo : List β)
    (opens : ∀ before name after, done ++ todo = before ++ name :: after →
      step (state before) (spell name) = some (state (before ++ [name]))) :
    Leads step (state done) (todo.map spell) (state (done ++ todo)) := by
  induction todo generalizing done with
  | nil =>
      rw [List.append_nil]
      exact nil _
  | cons name rest ih =>
      have regrouped : done ++ name :: rest = done ++ [name] ++ rest := List.append_cons ..
      rw [regrouped] at opens ⊢
      exact cons (opens done name rest regrouped.symm) (ih (done ++ [name]) opens)

/-- Names that are closed, the one that was opened last before the others. -/
theorem closing (state : List β → σ) {spell : β → α} (done todo : List β)
    (closes : ∀ before name after, done ++ todo = before ++ name :: after →
      step (state (before ++ [name])) (spell name) = some (state before)) :
    Leads step (state (done ++ todo)) (todo.reverse.map spell) (state done) := by
  induction todo generalizing done with
  | nil =>
      rw [List.append_nil]
      exact nil _
  | cons name rest ih =>
      have regrouped : done ++ name :: rest = done ++ [name] ++ rest := List.append_cons ..
      rw [regrouped] at closes ⊢
      rw [List.reverse_cons, List.map_append]
      exact (ih (done ++ [name]) closes).append (cons (closes done name rest regrouped.symm) (nil _))

end Leads

end ShaderHeader
