import ShaderHeader.Log.Directive

/-!
# Log filters

A filter is a list of directives.  Of those that apply to an event the most specific
one decides whether it is shown, and of several that ask for the same the last.
-/

namespace ShaderHeader

/-- Which events are shown. -/
structure Filter where
  directives : List Directive
deriving DecidableEq, Repr

namespace Filter

/-- The filter without directives, which shows errors only. -/
def empty : Filter where
  directives := [⟨none, none, none, some .error⟩]

/-- The filter in force where none is asked for: warnings of this program. -/
def usual : Filter where
  directives := [⟨some "spv_header", none, none, some .warn⟩]

/-- Reads directives separated by commas.  Empty ones are skipped. -/
def ofString? (text : String) : Option Filter :=
  match ((pieces ',' text.toList).filter (· ≠ [])).mapM Directive.ofChars? with
  | none => none
  | some [] => some empty
  | some directives => some ⟨directives⟩

/-- The filter a variable asks for; if it is not set, or cannot be read, the usual
one. -/
def ofSetting (setting? : Option String) : Filter :=
  (setting?.bind ofString?).getD usual

/-- The directive that decides about an event. -/
def decisive? (filter : Filter) (event : Event) : Option Directive :=
  filter.directives.foldl (fun best? directive =>
    if directive.Applies event ∧ ∀ best ∈ best?, best.Yields directive then some directive
    else best?) none

/-- Whether an event is shown. -/
def Passes (filter : Filter) (event : Event) : Prop :=
  ∃ directive ∈ filter.decisive? event, directive.Shows event.level

instance (filter : Filter) (event : Event) : Decidable (filter.Passes event) :=
  match decided : filter.decisive? event with
  | none => isFalse (by simp [Passes, decided])
  | some directive => decidable_of_iff (directive.Shows event.level) (by simp [Passes, decided])

end Filter

end ShaderHeader
