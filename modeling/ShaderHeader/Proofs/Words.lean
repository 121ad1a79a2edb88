import ShaderHeader.Words

/-!
# Laws of words

A word is the number that its four bytes spell in base 256, the least significant
first (`Words.toNat_word`), so its bytes can be read off it again.  Grouping bytes into
words and writing the words back loses only the incomplete word at the end
(`Words.encode_ofBytes`), which is shorter than a word (`Words.byteSize_add_dropped`).
Writing words and grouping their bytes loses nothing (`Words.ofBytes_encode`), and bytes that
come later complete what was left over (`Words.ofBytes_append`).
-/

namespace ShaderHeader

namespace Words

/-- Joining the bits of a number with those of another one shifted past them is adding
them. -/
theorem or_shiftLeft {low bits : Nat} (small : low < 1 <<< bits) (high : Nat) :
    low ||| high <<< bits = low + high <<< bits := by
  rw [Nat.one_shiftLeft] at small
  rw [Nat.or_comm, ← Nat.shiftLeft_add_eq_or_of_lt small, Nat.add_comm]

/-- The value of a word, digit by digit in base 256. -/
theorem toNat_word (b₀ b₁ b₂ b₃ : UInt8) :
    (word b₀ b₁ b₂ b₃).toNat =
      b₀.toNat + b₁.toNat <<< 8 + b₂.toNat <<< 16 + b₃.toNat <<< 24 := by
  have small₀ := b₀.toNat_lt
  have small₁ := b₁.toNat_lt
  have small₂ := b₂.toNat_lt
  have small₃ := b₃.toNat_lt
  -- A byte that is shifted by up to three places still fits into a word.
  have fits₁ : b₁.toNat <<< 8 % 2 ^ 32 = b₁.toNat <<< 8 := Nat.mod_eq_of_lt (by omega)
  have fits₂ : b₂.toNat <<< 16 % 2 ^ 32 = b₂.toNat <<< 16 := Nat.mod_eq_of_lt (by omega)
  have fits₃ : b₃.toNat <<< 24 % 2 ^ 32 = b₃.toNat <<< 24 := Nat.mod_eq_of_lt (by omega)
  have first : b₀.toNat ||| b₁.toNat <<< 8 = b₀.toNat + b₁.toNat <<< 8 :=
    or_shiftLeft (by omega) _
  have second : b₀.toNat + b₁.toNat <<< 8 ||| b₂.toNat <<< 16 =
      b₀.toNat + b₁.toNat <<< 8 + b₂.toNat <<< 16 := or_shiftLeft (by omega) _
  have third : b₀.toNat + b₁.toNat <<< 8 + b₂.toNat <<< 16 ||| b₃.toNat <<< 24 =
      b₀.toNat + b₁.toNat <<< 8 + b₂.toNat <<< 16 + b₃.toNat <<< 24 := or_shiftLeft (by omega) _
  calc (word b₀ b₁ b₂ b₃).toNat
      = b₀.toNat ||| b₁.toNat <<< 8 % 2 ^ 32 ||| b₂.toNat <<< 16 % 2 ^ 32 |||
          b₃.toNat <<< 24 % 2 ^ 32 := by
        simp only [word, UInt32.toNat_or, UInt32.toNat_shiftLeft, UInt8.toNat_toUInt32]
        rfl
    _ = b₀.toNat + b₁.toNat <<< 8 + b₂.toNat <<< 16 + b₃.toNat <<< 24 := by
        rw [fits₁, fits₂, fits₃, first, second, third]

theorem bytesOf_word (b₀ b₁ b₂ b₃ : UInt8) :
    bytesOf (word b₀ b₁ b₂ b₃) = [b₀, b₁, b₂, b₃] := by
  have value := toNat_word b₀ b₁ b₂ b₃
  have small₀ := b₀.toNat_lt
  have small₁ := b₁.toNat_lt
  have small₂ := b₂.toNat_lt
  have small₃ := b₃.toNat_lt
  simp only [bytesOf, List.cons.injEq, and_true, ← UInt8.toNat_inj, UInt32.toNat_toUInt8,
    UInt32.toNat_shiftRight, Nat.shiftRight_eq_div_pow, UInt32.reduceToNat, Nat.reduceMod]
  omega

/-- A word is made of its bytes. -/
theorem word_bytesOf (w : UInt32) :
    word w.toUInt8 (w >>> 8).toUInt8 (w >>> 16).toUInt8 (w >>> 24).toUInt8 = w := by
  have bound := w.toNat_lt
  rw [← UInt32.toNat_inj, toNat_word]
  simp only [UInt32.toNat_toUInt8, UInt32.toNat_shiftRight, Nat.shiftRight_eq_div_pow,
    UInt32.reduceToNat, Nat.reduceMod]
  omega

/-- **Nothing but an incomplete word is lost.** Writing back the words of a byte string
gives the string up to its last whole word. -/
theorem encode_ofBytes (bytes : List UInt8) :
    encode (ofBytes bytes).list = bytes.take (4 * (bytes.length / 4)) := by
  induction bytes using ofBytes.induct with
  | case1 b₀ b₁ b₂ b₃ rest ih =>
      have count : 4 * ((b₀ :: b₁ :: b₂ :: b₃ :: rest).length / 4) =
          4 * (rest.length / 4) + 1 + 1 + 1 + 1 := by
        simp only [List.length_cons]
        omega
      rw [ofBytes, encode, List.flatMap_cons, bytesOf_word, ← encode, ih, count]
      simp only [List.take_succ_cons, List.cons_append, List.nil_append]
  | case2 rest short =>
      -- Fewer than four bytes make no word.
      match rest, short with
      | [], _ | [_], _ | [_, _], _ | [_, _, _], _ =>
          simp only [ofBytes, encode, List.flatMap_nil, List.length_cons, List.length_nil,
            Nat.reduceAdd, Nat.reduceDiv, Nat.mul_zero, List.take_zero]
      | b₀ :: b₁ :: b₂ :: b₃ :: rest, short => exact (short b₀ b₁ b₂ b₃ rest rfl).elim

/-- Every byte is in a word or dropped, and fewer are dropped than a word has. -/
theorem byteSize_add_dropped (bytes : List UInt8) :
    (ofBytes bytes).byteSize + (ofBytes bytes).dropped = bytes.length ∧
      (ofBytes bytes).dropped < 4 := by
  induction bytes using ofBytes.induct with
  | case1 b₀ b₁ b₂ b₃ rest ih =>
      simp only [byteSize, size] at ih
      simp only [ofBytes, byteSize, size, List.length_cons]
      omega
  | case2 rest short =>
      match rest, short with
      | [], _ | [_], _ | [_, _], _ | [_, _, _], _ =>
          simp [ofBytes, byteSize, size]
      | b₀ :: b₁ :: b₂ :: b₃ :: rest, short => exact (short b₀ b₁ b₂ b₃ rest rfl).elim

theorem size_ofBytes (bytes : List UInt8) : (ofBytes bytes).size = bytes.length / 4 := by
  have sum := byteSize_add_dropped bytes
  unfold byteSize at sum
  omega

theorem dropped_ofBytes (bytes : List UInt8) : (ofBytes bytes).dropped = bytes.length % 4 := by
  have sum := byteSize_add_dropped bytes
  unfold byteSize at sum
  omega

/-- A word is made of the four bytes that start at four times its number. -/
theorem exists_bytes_of_lt_size {bytes : List UInt8} {i : Nat} (inside : i < (ofBytes bytes).size) :
    ∃ b₀ b₁ b₂ b₃, bytes[4 * i]? = some b₀ ∧ bytes[4 * i + 1]? = some b₁ ∧
      bytes[4 * i + 2]? = some b₂ ∧ bytes[4 * i + 3]? = some b₃ ∧
      (ofBytes bytes).list[i]? = some (word b₀ b₁ b₂ b₃) := by
  induction bytes using ofBytes.induct generalizing i with
  | case1 b₀ b₁ b₂ b₃ rest ih =>
      cases i with
      | zero =>
          rw [ofBytes]
          exact ⟨b₀, b₁, b₂, b₃, rfl, rfl, rfl, rfl, rfl⟩
      | succ i =>
          rw [ofBytes] at inside ⊢
          exact ih (Nat.lt_of_succ_lt_succ inside)
  | case2 rest short =>
      rw [ofBytes] at inside
      · exact (Nat.not_lt_zero i inside).elim
      · exact short

/-- Words that are written are found again, and nothing is dropped. -/
theorem ofBytes_encode (words : List UInt32) :
    ofBytes (encode words) = { list := words, dropped := 0 } := by
  induction words with
  | nil => rfl
  | cons first rest ih =>
      rw [encode, List.flatMap_cons, ← encode, bytesOf]
      simp only [List.cons_append, List.nil_append]
      rw [ofBytes, ih, word_bytesOf]

/-- **Grouping and writing back are inverse**, up to the incomplete word.  Bytes make a quarter
as many words, each the number that four of them spell in base 256, the least significant first;
the remainder of their number by four is dropped, and all others are written back and make the
same words again.  Any words at all are found in the bytes that are written for them. -/
theorem ofBytes_and_back (bytes : List UInt8) (words : List UInt32) :
    (ofBytes bytes).size = bytes.length / 4 ∧
      (∀ i, i < bytes.length / 4 → ∃ b₀ b₁ b₂ b₃ w,
        (bytes[4 * i]? = some b₀ ∧ bytes[4 * i + 1]? = some b₁ ∧ bytes[4 * i + 2]? = some b₂ ∧
          bytes[4 * i + 3]? = some b₃ ∧ (ofBytes bytes).list[i]? = some w) ∧
        w.toNat = b₀.toNat + Nat.pow 2 8 * b₁.toNat + Nat.pow 2 16 * b₂.toNat +
          Nat.pow 2 24 * b₃.toNat ∧
        w.toNat < Nat.pow 2 32) ∧
      ((ofBytes bytes).byteSize + (ofBytes bytes).dropped = bytes.length ∧
        (ofBytes bytes).dropped = bytes.length % 4) ∧
      (ofBytes bytes).toBytes = bytes.take (4 * (bytes.length / 4)) ∧
      ofBytes (ofBytes bytes).toBytes = { list := (ofBytes bytes).list, dropped := 0 } ∧
      ofBytes (encode words) = { list := words, dropped := 0 } := by
  refine ⟨size_ofBytes bytes, ?_, ⟨(byteSize_add_dropped bytes).1, dropped_ofBytes bytes⟩,
    encode_ofBytes bytes, ofBytes_encode (ofBytes bytes).list, ofBytes_encode words⟩
  intro i inside
  rw [← size_ofBytes] at inside
  obtain ⟨b₀, b₁, b₂, b₃, at₀, at₁, at₂, at₃, found⟩ := exists_bytes_of_lt_size inside
  have value := toNat_word b₀ b₁ b₂ b₃
  refine ⟨b₀, b₁, b₂, b₃, word b₀ b₁ b₂ b₃, ⟨at₀, at₁, at₂, at₃, found⟩, ?_, UInt32.toNat_lt _⟩
  simp only [Nat.shiftLeft_eq] at value
  rw [value, Nat.mul_comm b₁.toNat, Nat.mul_comm b₂.toNat, Nat.mul_comm b₃.toNat]

/-- Six bytes make one word, and two are dropped. -/
theorem ofBytes_and_back_six :
    0 < ([3, 2, 35, 7, 1, 2] : List UInt8).length / 4 ∧
      ofBytes [3, 2, 35, 7, 1, 2] = ⟨[0x07230203], 2⟩ ∧
      ∃ w, (ofBytes [3, 2, 35, 7, 1, 2]).list[0]? = some w ∧
        w.toNat = 3 + Nat.pow 2 8 * 2 + Nat.pow 2 16 * 35 + Nat.pow 2 24 * 7 := by
  have inside : 0 < ([3, 2, 35, 7, 1, 2] : List UInt8).length / 4 := by decide
  obtain ⟨-, spelled, -⟩ := ofBytes_and_back [3, 2, 35, 7, 1, 2] [0x07230203]
  obtain ⟨b₀, b₁, b₂, b₃, w, ⟨at₀, at₁, at₂, at₃, found⟩, value, -⟩ := spelled 0 inside
  cases at₀
  cases at₁
  cases at₂
  cases at₃
  exact ⟨inside, rfl, w, found, value⟩

section Append

/-- The bytes at the end that form no whole word. -/
def incomplete (bytes : List UInt8) : List UInt8 :=
  bytes.drop (bytes.length - (ofBytes bytes).dropped)

theorem length_incomplete (bytes : List UInt8) :
    (incomplete bytes).length = (ofBytes bytes).dropped := by
  have sum := (byteSize_add_dropped bytes).1
  rw [incomplete, List.length_drop]
  omega

/-- A whole word in front leaves the bytes at the end as they are. -/
theorem incomplete_cons (b₀ b₁ b₂ b₃ : UInt8) (rest : List UInt8) :
    incomplete (b₀ :: b₁ :: b₂ :: b₃ :: rest) = incomplete rest := by
  have sum := (byteSize_add_dropped rest).1
  have count : (b₀ :: b₁ :: b₂ :: b₃ :: rest).length - (ofBytes rest).dropped =
      rest.length - (ofBytes rest).dropped + 1 + 1 + 1 + 1 := by
    simp only [List.length_cons]
    omega
  rw [incomplete, ofBytes, count]
  rfl

/-- Appended bytes go on where the whole words end. -/
theorem ofBytes_append_carry (first second : List UInt8) :
    ofBytes (first ++ second) =
      { list := (ofBytes first).list ++ (ofBytes (incomplete first ++ second)).list
        dropped := (ofBytes (incomplete first ++ second)).dropped } := by
  induction first using ofBytes.induct with
  | case1 b₀ b₁ b₂ b₃ rest ih =>
      rw [incomplete_cons]
      simp only [List.cons_append, ofBytes]
      rw [ih]
  | case2 first short =>
      -- There is no word yet, so all bytes are carried over.
      have none : ofBytes first = { list := [], dropped := first.length } :=
        ofBytes.eq_2 first short
      have all : incomplete first = first := by
        rw [incomplete, none, Nat.sub_self, List.drop_zero]
      rw [all, none, List.nil_append]

/-- **Grouping goes on over appended bytes.** The words of two byte strings in a row are those of
the first one, then those of the bytes it left over followed by the second one, which also leaves
over what the two do.  No word that was found before changes. -/
theorem ofBytes_append (first second : List UInt8) :
    (ofBytes (first ++ second)).list =
        (ofBytes first).list ++ (ofBytes (incomplete first ++ second)).list ∧
      (ofBytes (first ++ second)).dropped = (ofBytes (incomplete first ++ second)).dropped ∧
      (ofBytes (incomplete first ++ second)).dropped =
        ((ofBytes first).dropped + second.length) % 4 ∧
      (ofBytes first).list <+: (ofBytes (first ++ second)).list := by
  refine ⟨?_, ?_, ?_, ?_⟩
  · rw [ofBytes_append_carry]
  · rw [ofBytes_append_carry]
  · rw [dropped_ofBytes (incomplete first ++ second), List.length_append, length_incomplete]
  · rw [ofBytes_append_carry]
    exact List.prefix_append _ _

end Append

end Words

end ShaderHeader
