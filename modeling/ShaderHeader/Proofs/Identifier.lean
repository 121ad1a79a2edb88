import ShaderHeader.Embedding

/-!
# Laws of identifiers

Which characters an identifier consists of, and which names a valid embedding has.
-/

namespace ShaderHeader

/-- A text consists of characters of a kind when all its characters are of that kind. -/
def ConsistsOf (text : String) (kind : Char → Bool) : Prop :=
  ∀ c ∈ text.toList, kind c = true

instance (text : String) (kind : Char → Bool) : Decidable (ConsistsOf text kind) :=
  decidable_of_iff (text.toList.all kind = true) List.all_eq_true

namespace ConsistsOf

variable {kind wider : Char → Bool} {text first second separator : String}

theorem mono (consists : ConsistsOf text kind) (wide : ∀ c, kind c = true → wider c = true) :
    ConsistsOf text wider :=
  fun c member => wide c (consists c member)

theorem not_mem (consists : ConsistsOf text kind) {c : Char} (other : kind c = false) :
    c ∉ text.toList := by
  intro member
  rw [consists c member] at other
  exact Bool.noConfusion other

theorem append (left : ConsistsOf first kind) (right : ConsistsOf second kind) :
    ConsistsOf (first ++ second) kind := by
  intro c member
  rw [String.toList_append, List.mem_append] at member
  exact member.elim (left c) (right c)

theorem intercalate (between : ConsistsOf separator kind) {parts : List String}
    (each : ∀ part ∈ parts, ConsistsOf part kind) :
    ConsistsOf (separator.intercalate parts) kind := by
  induction parts with
  | nil =>
      rw [String.intercalate_nil]
      exact fun c member => (List.not_mem_nil member).elim
  | cons head rest ih =>
      have opening := each head List.mem_cons_self
      have others := ih fun part member => each part (List.mem_cons_of_mem head member)
      by_cases last : rest = []
      · rwa [last, String.intercalate_singleton]
      · rw [String.intercalate_cons_of_ne_nil last]
        exact (opening.append between).append others

end ConsistsOf

/-- A text ends the way its ending does. -/
theorem getLast?_append_ending {ending : String} {c : Char}
    (last : ending.toList.getLast? = some c) (text : String) :
    (text ++ ending).toList.getLast? = some c := by
  rw [String.toList_append, List.getLast?_append, last]
  rfl

/-- A character that takes room on a line of plain ASCII text. -/
def isPrintable (c : Char) : Bool :=
  ' ' ≤ c && c ≤ '~'

theorem isPrintable_of_isNamePart (c : Char) (part : isNamePart c = true) :
    isPrintable c = true := by
  simp only [isNamePart, isLetter, isDigit, Bool.or_eq_true, Bool.and_eq_true, decide_eq_true_eq,
    beq_iff_eq, Char.le_def, UInt32.le_iff_toNat_le] at part
  simp only [isPrintable, Bool.and_eq_true, decide_eq_true_eq, Char.le_def,
    UInt32.le_iff_toNat_le]
  obtain (((⟨low, high⟩ | ⟨low, high⟩) | ⟨low, high⟩) | rfl) := part
  · exact ⟨Nat.le_trans (by decide) low, Nat.le_trans high (by decide)⟩
  · exact ⟨Nat.le_trans (by decide) low, Nat.le_trans high (by decide)⟩
  · exact ⟨Nat.le_trans (by decide) low, Nat.le_trans high (by decide)⟩
  · decide

theorem toNat_of_isPrintable {c : Char} (printable : isPrintable c = true) : c.toNat < 128 := by
  rw [isPrintable, Bool.and_eq_true, decide_eq_true_eq, decide_eq_true_eq] at printable
  exact Nat.lt_of_le_of_lt (UInt32.le_iff_toNat_le.mp printable.2) (by decide)

/-- What holds of the first 128 characters holds of all ASCII ones. -/
theorem forall_ascii (property : Char → Prop)
    (each : ∀ code, code < 128 → property (Char.ofNat code)) {c : Char} (ascii : c.toNat < 128) :
    property c := by
  rw [← Char.ofNat_toNat c]
  exact each c.toNat ascii

section Spelling

/-- The characters an identifier may start with. -/
def nameStarts : List Char :=
  "ABCDEFGHIJKLMNOPQRSTUVWXYZabcdefghijklmnopqrstuvwxyz_".toList

/-- The characters an identifier may go on with. -/
def nameParts : List Char :=
  nameStarts ++ "0123456789".toList

/-- A text is spelled like an identifier when it is one of the first characters and then
any number of the others. -/
def SpelledAsIdentifier (text : String) : Prop :=
  ∃ first rest, text.toList = first :: rest ∧ first ∈ nameStarts ∧ ∀ c ∈ rest, c ∈ nameParts

theorem isNamePart_iff (c : Char) : isNamePart c = true ↔ c ∈ nameParts := by
  constructor
  · intro part
    have ascii := toNat_of_isPrintable (isPrintable_of_isNamePart c part)
    exact forall_ascii (fun c => isNamePart c = true → c ∈ nameParts) (by decide +kernel) ascii part
  · exact List.all_eq_true.mp (by decide +kernel) c

theorem isNamePart_of_isNameStart {c : Char} (start : isNameStart c = true) :
    isNamePart c = true := by
  rw [isNameStart, Bool.or_eq_true] at start
  rw [isNamePart, Bool.or_eq_true]
  exact start.imp (fun letter => by rw [letter, Bool.true_or]) id

theorem isNameStart_iff (c : Char) : isNameStart c = true ↔ c ∈ nameStarts := by
  constructor
  · intro start
    have part := isNamePart_of_isNameStart start
    have ascii := toNat_of_isPrintable (isPrintable_of_isNamePart c part)
    exact forall_ascii (fun c => isNameStart c = true → c ∈ nameStarts) (by decide +kernel) ascii
      start
  · exact List.all_eq_true.mp (by decide +kernel) c

/-- **An identifier is what is spelled like one.** -/
theorem isIdentifier_iff (text : String) : IsIdentifier text ↔ SpelledAsIdentifier text := by
  unfold IsIdentifier SpelledAsIdentifier
  cases text.toList with
  | nil =>
      refine iff_of_false Bool.false_ne_true ?_
      rintro ⟨first, rest, spelled, -⟩
      cases spelled
  | cons c others =>
      rw [spellsIdentifier, Bool.and_eq_true, List.all_eq_true, isNameStart_iff]
      constructor
      · rintro ⟨start, parts⟩
        exact ⟨c, others, rfl, start, fun d member => (isNamePart_iff d).mp (parts d member)⟩
      · rintro ⟨first, rest, spelled, start, parts⟩
        cases spelled
        exact ⟨start, fun d member => (isNamePart_iff d).mpr (parts d member)⟩

end Spelling

/-- An identifier consists of characters that may stand in one. -/
theorem IsIdentifier.consistsOf {name : String} (identifier : IsIdentifier name) :
    ConsistsOf name isNamePart := by
  intro c member
  unfold IsIdentifier at identifier
  cases spelled : name.toList with
  | nil =>
      rw [spelled] at member
      exact (List.not_mem_nil member).elim
  | cons first rest =>
      rw [spelled, spellsIdentifier, Bool.and_eq_true] at identifier
      rw [spelled, List.mem_cons] at member
      rcases member with rfl | member
      · exact isNamePart_of_isNameStart identifier.1
      · exact List.all_eq_true.mp identifier.2 c member

/-- An identifier stays one when characters that may stand in one are appended. -/
theorem IsIdentifier.append {first second : String} (identifier : IsIdentifier first)
    (parts : ConsistsOf second isNamePart) : IsIdentifier (first ++ second) := by
  unfold IsIdentifier at identifier ⊢
  rw [String.toList_append]
  cases spelled : first.toList with
  | nil =>
      rw [spelled] at identifier
      cases identifier
  | cons c rest =>
      rw [spelled, spellsIdentifier, Bool.and_eq_true] at identifier
      rw [List.cons_append, spellsIdentifier, identifier.1, List.all_append, identifier.2,
        List.all_eq_true.mpr parts]
      rfl

namespace Embedding

/-- An embedding is valid exactly when its array, its guard and its namespaces are named
by identifiers. -/
theorem valid_iff (embedding : Embedding) :
    embedding.Valid ↔
      IsIdentifier embedding.arrayName ∧ IsIdentifier embedding.guard ∧
        ∀ segment ∈ embedding.namespaces, IsIdentifier segment := by
  unfold Valid fault?
  by_cases array : IsIdentifier embedding.arrayName
  · by_cases guard : IsIdentifier embedding.guard
    · simp only [array, guard, not_true_eq_false, ↓reduceIte, true_and, Option.map_eq_none_iff,
        List.find?_eq_none, decide_eq_true_eq, Decidable.not_not]
    · simp only [array, guard, not_true_eq_false, not_false_eq_true, ↓reduceIte, reduceCtorEq,
        false_and, and_false]
  · simp only [array, not_false_eq_true, ↓reduceIte, reduceCtorEq, false_and]

end Embedding

end ShaderHeader
