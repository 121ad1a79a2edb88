import ShaderHeader.Header
import ShaderHeader.Text.Digits

/-!
# Literals

A literal is a mark and the eight digits that spell a word in base sixteen, so the word can
be read off them again (`Header.ofDigits_digitsOf`).
-/

namespace ShaderHeader

namespace Header

/-- The digits of a word in base sixteen, the most significant first. -/
def digitsOf (word : UInt32) : List Nat :=
  [7, 6, 5, 4, 3, 2, 1, 0].map fun place => word.toNat / Nat.pow 16 place % 16

theorem lt_of_mem_digitsOf {word : UInt32} {digit : Nat} (member : digit ∈ digitsOf word) :
    digit < 16 := by
  obtain ⟨place, -, rfl⟩ := List.mem_map.mp member
  exact Nat.mod_lt _ (by decide)

theorem literal_eq (word : UInt32) :
    literal word = "0x" ++ String.ofList ((digitsOf word).map Nat.digitChar) := by
  rw [literal, digitsOf, List.map_map]
  rfl

/-- The characters of a literal: its mark and its eight digits. -/
theorem toList_literal (word : UInt32) :
    (literal word).toList = '0' :: 'x' :: (digitsOf word).map Nat.digitChar := by
  simp only [literal_eq, String.toList_append, String.toList_ofList]
  rfl

/-- The first digits of a number, read in base sixteen after a given start. -/
theorem foldl_places (number count start : Nat) :
    ((List.range count).reverse.map fun place => number / Nat.pow 16 place % 16).foldl
        (fun value digit => 16 * value + digit) start =
      start * Nat.pow 16 count + number % Nat.pow 16 count := by
  induction count generalizing start with
  | zero =>
      change start = start * 1 + number % 1
      rw [Nat.mul_one, Nat.mod_one, Nat.add_zero]
  | succ count ih =>
      have grown : Nat.pow 16 (count + 1) = Nat.pow 16 count * 16 := rfl
      have longer : number % Nat.pow 16 (count + 1) =
          number % Nat.pow 16 count + Nat.pow 16 count * (number / Nat.pow 16 count % 16) :=
        Nat.mod_pow_succ
      rw [List.range_succ, List.reverse_append, List.reverse_singleton, List.singleton_append,
        List.map_cons, List.foldl_cons, ih, longer, grown]
      grind

/-- The digits of a word spell it. -/
theorem ofDigits_digitsOf (word : UInt32) : ofDigits 16 (digitsOf word) = word.toNat := by
  have spelled := foldl_places word.toNat 8 0
  have whole : word.toNat % Nat.pow 16 8 = word.toNat := by
    have bound := word.toNat_lt
    exact Nat.mod_eq_of_lt (by omega)
  rw [Nat.zero_mul, Nat.zero_add, whole] at spelled
  exact spelled

/-- A text is the literal of a word when it is the mark of base sixteen and eight digits
that spell the word. -/
def IsLiteral (text : String) (word : UInt32) : Prop :=
  ∃ digits : List Nat, digits.length = 8 ∧ (∀ digit ∈ digits, digit < 16) ∧
    text = "0x" ++ String.ofList (digits.map Nat.digitChar) ∧ ofDigits 16 digits = word.toNat

theorem isLiteral_literal (word : UInt32) : IsLiteral (literal word) word :=
  ⟨digitsOf word, rfl, fun _ => lt_of_mem_digitsOf, literal_eq word, ofDigits_digitsOf word⟩

end Header

end ShaderHeader
