import ShaderHeader.Proofs.Identifier
import ShaderHeader.Proofs.Text.Utf8

/-!
# Names derived from a shader's name

A shader's name may be any text.  Which of them give a valid embedding, and which two of them
give the same names, is told from their characters (`Embedding.ofShader_names`).
-/

namespace ShaderHeader

/-- Whether a text begins with an ASCII digit. -/
def beginsWithDigit (text : String) : Bool :=
  text.toList.head?.any isDigit

/-- An ASCII letter or digit, which a constant keeps up to its case. -/
def isKept (c : Char) : Bool :=
  isLetter c || isDigit c

/-- Two texts are alike when they have the same number of characters, and those at the same
place differ in ASCII case at most or are both neither an ASCII letter nor a digit. -/
def Alike (first second : String) : Prop :=
  first.length = second.length ∧
    ∀ (i : Nat) (c d : Char), first.toList[i]? = some c → second.toList[i]? = some d →
      c.toLower = d.toLower ∨ isKept c = false ∧ isKept d = false

section Characters

variable {c d : Char}

theorem isNamePart_eq (c : Char) : isNamePart c = (isKept c || c == '_') :=
  rfl

theorem toNat_of_isKept (kept : isKept c = true) : c.toNat < 128 := by
  apply toNat_of_isPrintable
  apply isPrintable_of_isNamePart
  rw [isNamePart_eq, kept, Bool.true_or]

theorem constantChar_of_isKept (kept : isKept c = true) : constantChar c = c.toUpper :=
  if_pos kept

theorem constantChar_of_not_isKept (other : isKept c = false) : constantChar c = '_' := by
  unfold isKept at other
  rw [constantChar, other]
  rfl

theorem isKept_toUpper (kept : isKept c = true) : isKept c.toUpper = true :=
  forall_ascii (fun c => isKept c = true → isKept c.toUpper = true) (by decide +kernel)
    (toNat_of_isKept kept) kept

theorem isKept_toLower (kept : isKept c = true) : isKept c.toLower = true :=
  forall_ascii (fun c => isKept c = true → isKept c.toLower = true) (by decide +kernel)
    (toNat_of_isKept kept) kept

theorem toLower_toUpper (kept : isKept c = true) : c.toUpper.toLower = c.toLower :=
  forall_ascii (fun c => c.toUpper.toLower = c.toLower) (by decide +kernel) (toNat_of_isKept kept)

theorem toUpper_toLower (kept : isKept c = true) : c.toLower.toUpper = c.toUpper :=
  forall_ascii (fun c => c.toLower.toUpper = c.toUpper) (by decide +kernel) (toNat_of_isKept kept)

theorem toLower_of_not_isKept (other : isKept c = false) : c.toLower = c := by
  unfold Char.toLower
  refine dif_neg fun upper => ?_
  have kept : isKept c = true := by
    rw [isKept, isLetter, Bool.or_eq_true, Bool.or_eq_true]
    exact .inl (.inr (Bool.and_eq_true_iff.mpr ⟨decide_eq_true upper.1, decide_eq_true upper.2⟩))
  rw [other] at kept
  cases kept

theorem toLower_ne (kept : isKept c = true) (other : isKept d = false) : c.toLower ≠ d.toLower := by
  intro same
  have lower := isKept_toLower kept
  rw [same, toLower_of_not_isKept other, other] at lower
  cases lower

theorem toUpper_ne (kept : isKept c = true) : c.toUpper ≠ '_' := by
  intro same
  have upper := isKept_toUpper kept
  rw [same] at upper
  cases upper

/-- Two characters are written alike when they differ in case at most or neither is kept. -/
theorem constantChar_eq_iff :
    constantChar c = constantChar d ↔
      c.toLower = d.toLower ∨ isKept c = false ∧ isKept d = false := by
  cases first : isKept c with
  | false =>
      rw [constantChar_of_not_isKept first]
      cases second : isKept d with
      | false =>
          rw [constantChar_of_not_isKept second]
          exact iff_of_true rfl (.inr ⟨rfl, rfl⟩)
      | true =>
          rw [constantChar_of_isKept second]
          refine iff_of_false (toUpper_ne second).symm ?_
          rintro (same | ⟨-, both⟩)
          · exact toLower_ne second first same.symm
          · cases both
  | true =>
      rw [constantChar_of_isKept first]
      cases second : isKept d with
      | false =>
          rw [constantChar_of_not_isKept second]
          refine iff_of_false (toUpper_ne first) ?_
          rintro (same | ⟨both, -⟩)
          · exact toLower_ne first second same
          · cases both
      | true =>
          rw [constantChar_of_isKept second]
          constructor
          · intro same
            left
            rw [← toLower_toUpper first, same, toLower_toUpper second]
          · rintro (same | ⟨both, -⟩)
            · rw [← toUpper_toLower first, same, toUpper_toLower second]
            · cases both

end Characters

/-- Two lists have the same image when they are as long and images agree place by place. -/
theorem map_eq_map_iff_getElem? {α β : Type} {f : α → β} {first second : List α} :
    first.map f = second.map f ↔
      first.length = second.length ∧
        ∀ (i : Nat) (c d : α), first[i]? = some c → second[i]? = some d → f c = f d := by
  constructor
  · intro same
    have long := congrArg List.length same
    rw [List.length_map, List.length_map] at long
    refine ⟨long, fun i c d inFirst inSecond => ?_⟩
    have image := congrArg (fun list => list[i]?) same
    simp only [List.getElem?_map, inFirst, inSecond, Option.map_some, Option.some.injEq] at image
    exact image
  · rintro ⟨long, agree⟩
    apply List.ext_getElem
    · rw [List.length_map, List.length_map, long]
    · intro i inFirst inSecond
      rw [List.getElem_map, List.getElem_map]
      exact agree i _ _ (List.getElem?_eq_getElem _) (List.getElem?_eq_getElem _)

/-- **When two names are written alike.** -/
theorem constantCase_eq_iff (first second : String) :
    constantCase first = constantCase second ↔ Alike first second := by
  rw [constantCase, constantCase, ← String.toList_inj, String.toList_ofList, String.toList_ofList,
    map_eq_map_iff_getElem?]
  simp only [constantChar_eq_iff]
  rfl

theorem isNamePart_constantChar (c : Char) : isNamePart (constantChar c) = true := by
  cases kept : isKept c with
  | false =>
      rw [constantChar_of_not_isKept kept]
      rfl
  | true =>
      rw [constantChar_of_isKept kept, isNamePart_eq, isKept_toUpper kept, Bool.true_or]

theorem isNameStart_constantChar (c : Char) : isNameStart (constantChar c) = !isDigit c := by
  cases kept : isKept c with
  | false =>
      have digit : isDigit c = false := (Bool.or_eq_false_iff.mp kept).2
      rw [constantChar_of_not_isKept kept, digit]
      rfl
  | true =>
      exact forall_ascii (fun c => isNameStart (constantChar c) = !isDigit c) (by decide +kernel)
        (toNat_of_isKept kept)

theorem consistsOf_constantCase (name : String) : ConsistsOf (constantCase name) isNamePart := by
  intro c member
  rw [constantCase, String.toList_ofList] at member
  obtain ⟨d, -, rfl⟩ := List.mem_map.mp member
  exact isNamePart_constantChar d

namespace Embedding

theorem guard_ofShader (name : String) :
    (ofShader name).guard = "PARALLAX_SHADERS_" ++ (constantCase name ++ "_HPP") := by
  rw [← String.append_assoc]
  rfl

theorem isIdentifier_guard (name : String) : IsIdentifier (ofShader name).guard := by
  rw [guard_ofShader]
  apply IsIdentifier.append
  · decide
  · exact (consistsOf_constantCase name).append (by decide)

theorem isIdentifier_arrayName_iff (name : String) :
    IsIdentifier (ofShader name).arrayName ↔ beginsWithDigit name = false := by
  have spelled : (ofShader name).arrayName.toList =
      name.toList.map constantChar ++ "_SPV".toList := by
    rw [ofShader, String.toList_append, constantCase, String.toList_ofList]
  unfold IsIdentifier beginsWithDigit
  rw [spelled]
  cases name.toList with
  | nil => exact iff_of_true rfl rfl
  | cons c rest =>
      have parts : (rest.map constantChar ++ "_SPV".toList).all isNamePart = true := by
        have image : (rest.map constantChar).all isNamePart = true := by
          rw [List.all_map]
          exact List.all_eq_true.mpr fun d _ => isNamePart_constantChar d
        rw [List.all_append, image]
        rfl
      rw [List.map_cons, List.cons_append, spellsIdentifier, isNameStart_constantChar, parts,
        Bool.and_true, Bool.not_eq_true']
      rfl

theorem fault?_ofShader (name : String) :
    (ofShader name).fault? =
      if beginsWithDigit name then some (.arrayName (ofShader name).arrayName) else none := by
  have array := isIdentifier_arrayName_iff name
  unfold fault?
  cases digit : beginsWithDigit name with
  | true =>
      rw [digit] at array
      rw [if_pos fun identifier => Bool.noConfusion (array.mp identifier)]
      rfl
  | false =>
      rw [if_neg (Decidable.not_not.mpr (array.mpr digit)),
        if_neg (Decidable.not_not.mpr (isIdentifier_guard name))]
      rfl

/-- The guard is told from the other names by its last character. -/
theorem guard_ne {other : String} (ending : other.toList.getLast? ≠ some 'P') (name : String) :
    (ofShader name).guard ≠ other := by
  rintro rfl
  exact ending (getLast?_append_ending rfl _)

theorem arrayName_eq_iff (first second : String) :
    (ofShader first).arrayName = (ofShader second).arrayName ↔ Alike first second := by
  rw [← constantCase_eq_iff]
  exact String.append_left_inj "_SPV"

theorem guard_eq_iff (first second : String) :
    (ofShader first).guard = (ofShader second).guard ↔ Alike first second := by
  rw [← constantCase_eq_iff, guard_ofShader, guard_ofShader, String.append_right_inj,
    String.append_left_inj]

/-- **Usable names and collisions.** The embedding derived from a shader's name is valid unless
the name begins with a digit, and then its array is at fault.  Its guard is none of its other
names.  Two shaders have the same array exactly when they have the same guard, which is when
their names are alike; only one name is read from the same module. -/
theorem ofShader_names (name first second : String) :
    ((ofShader name).Valid ↔ beginsWithDigit name = false) ∧
      (ofShader name).fault? =
        (if beginsWithDigit name then some (.arrayName (ofShader name).arrayName) else none) ∧
      ((ofShader name).guard ≠ (ofShader name).arrayName ∧
        (ofShader name).guard ≠ (ofShader name).sizeName ∧
        (ofShader name).guard ∉ (ofShader name).namespaces) ∧
      ((ofShader first).arrayName = (ofShader second).arrayName ↔
        (ofShader first).guard = (ofShader second).guard) ∧
      ((ofShader first).guard = (ofShader second).guard ↔ Alike first second) ∧
      ((ofShader first).source = (ofShader second).source ↔ first = second) := by
  refine ⟨?_, fault?_ofShader name, ⟨?_, ?_, ?_⟩, ?_, guard_eq_iff first second, ?_⟩
  · rw [Valid, fault?_ofShader]
    cases beginsWithDigit name
    · exact iff_of_true rfl rfl
    · exact iff_of_false (fun fault => by cases fault) Bool.false_ne_true.symm
  · apply guard_ne
    rw [ofShader, getLast?_append_ending rfl]
    decide
  · apply guard_ne
    rw [sizeName, getLast?_append_ending rfl]
    decide
  · intro member
    rcases List.mem_cons.mp member with same | member
    · exact guard_ne (by decide) name same
    · exact guard_ne (by decide) name (List.mem_singleton.mp member)
  · rw [arrayName_eq_iff, guard_eq_iff]
  · constructor
    · intro same
      exact (String.append_left_inj ".spv").mp (Utf8.encode_injective (congrArg Path.bytes same))
    · rintro rfl
      rfl

end Embedding

end ShaderHeader
