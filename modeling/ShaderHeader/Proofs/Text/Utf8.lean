import ShaderHeader.Text.Utf8

/-!
# Laws of UTF-8

Decoding undoes encoding (`Utf8.scan_encode`), so a text is shown as it is and is known by its
bytes.  The bytes of a character other than an ASCII one are not those of ASCII characters.
-/

namespace ShaderHeader

namespace Utf8

theorem encode_append (first second : String) :
    encode (first ++ second) = encode first ++ encode second := by
  rw [encode, String.toList_append, List.flatMap_append]
  rfl

section Scan

theorem scanFrom_cons (state : State) (byte : UInt8) (bytes : List UInt8) :
    scanFrom state (byte :: bytes) =
      (step state byte).1 ++ scanFrom (step state byte).2 bytes := by
  cases state <;> rfl

/-- A byte below 128 is a character. -/
theorem start_single {code : Nat} (small : code < 128) :
    start (UInt8.ofNat code) = ([some (Char.ofNat code)], .between) := by
  revert code
  decide

/-- A byte that opens a sequence of two. -/
theorem start_double {lead : Nat} (small : lead < 32) (large : 2 ≤ lead) :
    start (UInt8.ofNat (lead + 192)) = ([], .inside 0 0x80 0xBF lead) := by
  revert lead
  decide

/-- A byte that opens a sequence of three. -/
theorem start_triple {lead : Nat} (small : lead < 16) :
    start (UInt8.ofNat (lead + 224)) =
      ([], .inside 1 (if lead = 0 then 0xA0 else 0x80) (if lead = 13 then 0x9F else 0xBF)
        lead) := by
  revert lead
  decide

/-- A byte that opens a sequence of four. -/
theorem start_quadruple {lead : Nat} (small : lead < 5) :
    start (UInt8.ofNat (lead + 240)) =
      ([], .inside 2 (if lead = 0 then 0x90 else 0x80) (if lead = 4 then 0x8F else 0xBF) lead) := by
  revert lead
  decide

/-- A byte within a sequence adds six bits and, if none is missing after it, ends the sequence. -/
theorem step_continuation {low high : UInt8} {digit : Nat} (small : digit < 64)
    (least : low.toNat ≤ digit + 128) (most : digit + 128 ≤ high.toNat) (missing value : Nat) :
    step (.inside missing low high value) (UInt8.ofNat (digit + 128)) =
      if missing = 0 then ([some (Char.ofNat (value * 64 + digit))], .between)
      else ([], .inside (missing - 1) 0x80 0xBF (value * 64 + digit)) := by
  have byte : (UInt8.ofNat (digit + 128)).toNat = digit + 128 := by
    rw [UInt8.toNat_ofNat', Nat.mod_eq_of_lt (by omega)]
  have inside : low ≤ UInt8.ofNat (digit + 128) ∧ UInt8.ofNat (digit + 128) ≤ high := by
    rw [UInt8.le_iff_toNat_le, UInt8.le_iff_toNat_le, byte]
    exact ⟨least, most⟩
  have bits : (UInt8.ofNat (digit + 128)).toNat - 0x80 = digit := by
    rw [byte, Nat.add_sub_cancel]
  rw [step, if_pos inside, bits]
  cases missing <;> rfl

theorem step_tail {digit : Nat} (small : digit < 64) (missing value : Nat) :
    step (.inside missing 0x80 0xBF value) (UInt8.ofNat (digit + 128)) =
      if missing = 0 then ([some (Char.ofNat (value * 64 + digit))], .between)
      else ([], .inside (missing - 1) 0x80 0xBF (value * 64 + digit)) := by
  apply step_continuation small
  · exact Nat.le_add_left 128 digit
  · exact Nat.add_le_add_right (Nat.le_of_lt_succ small) 128

variable {code : Nat} (rest : List UInt8)

theorem scanFrom_double (large : 127 < code) (small : code ≤ 2047) :
    scanFrom .between
        (UInt8.ofNat (code / 64 % 32 + 192) :: UInt8.ofNat (code % 64 + 128) :: rest) =
      some (Char.ofNat code) :: scanFrom .between rest := by
  have whole : code / 64 % 32 * 64 + code % 64 = code := by omega
  rw [scanFrom_cons, step, start_double (by omega) (by omega), List.nil_append, scanFrom_cons,
    step_tail (by omega), if_pos rfl, whole]
  rfl

theorem scanFrom_triple (large : 2047 < code) (small : code ≤ 65535) (valid : code.isValidChar) :
    scanFrom .between (UInt8.ofNat (code / 4096 % 16 + 224) ::
        UInt8.ofNat (code / 64 % 64 + 128) :: UInt8.ofNat (code % 64 + 128) :: rest) =
      some (Char.ofNat code) :: scanFrom .between rest := by
  have whole : (code / 4096 % 16 * 64 + code / 64 % 64) * 64 + code % 64 = code := by omega
  -- shorter forms are left out after the first lead, surrogates after the fourteenth
  have least : (if code / 4096 % 16 = 0 then (0xA0 : UInt8) else 0x80).toNat ≤
      code / 64 % 64 + 128 := by
    by_cases first : code / 4096 % 16 = 0
    · rw [if_pos first]
      change 160 ≤ _
      omega
    · rw [if_neg first]
      exact Nat.le_add_left 128 _
  have most : code / 64 % 64 + 128 ≤
      (if code / 4096 % 16 = 13 then (0x9F : UInt8) else 0xBF).toNat := by
    unfold Nat.isValidChar at valid
    by_cases surrogate : code / 4096 % 16 = 13
    · rw [if_pos surrogate]
      change _ ≤ 159
      omega
    · rw [if_neg surrogate]
      change _ ≤ 191
      omega
  rw [scanFrom_cons, step, start_triple (by omega), List.nil_append, scanFrom_cons,
    step_continuation (by omega) least most, if_neg Nat.one_ne_zero, List.nil_append,
    scanFrom_cons, step_tail (by omega), if_pos rfl, whole]
  rfl

theorem scanFrom_quadruple (large : 65535 < code) (valid : code.isValidChar) :
    scanFrom .between (UInt8.ofNat (code / 262144 % 8 + 240) ::
        UInt8.ofNat (code / 4096 % 64 + 128) :: UInt8.ofNat (code / 64 % 64 + 128) ::
        UInt8.ofNat (code % 64 + 128) :: rest) =
      some (Char.ofNat code) :: scanFrom .between rest := by
  unfold Nat.isValidChar at valid
  have whole : ((code / 262144 % 8 * 64 + code / 4096 % 64) * 64 + code / 64 % 64) * 64 +
      code % 64 = code := by omega
  -- shorter forms are left out after the first lead, what is beyond all characters after the last
  have least : (if code / 262144 % 8 = 0 then (0x90 : UInt8) else 0x80).toNat ≤
      code / 4096 % 64 + 128 := by
    by_cases first : code / 262144 % 8 = 0
    · rw [if_pos first]
      change 144 ≤ _
      omega
    · rw [if_neg first]
      exact Nat.le_add_left 128 _
  have most : code / 4096 % 64 + 128 ≤
      (if code / 262144 % 8 = 4 then (0x8F : UInt8) else 0xBF).toNat := by
    by_cases last : code / 262144 % 8 = 4
    · rw [if_pos last]
      change _ ≤ 143
      omega
    · rw [if_neg last]
      change _ ≤ 191
      omega
  rw [scanFrom_cons, step, start_quadruple (by omega), List.nil_append, scanFrom_cons,
    step_continuation (by omega) least most, if_neg (by decide), List.nil_append, scanFrom_cons,
    step_tail (by omega), if_neg (by decide), List.nil_append, scanFrom_cons,
    step_tail (by omega), if_pos rfl, whole]
  rfl

/-- **A character that was written is read.** Its bytes yield it, whatever follows them. -/
theorem scanFrom_utf8EncodeChar (c : Char) :
    scanFrom .between (String.utf8EncodeChar c ++ rest) = some c :: scanFrom .between rest := by
  have same : Char.ofNat c.val.toNat = c := Char.ofNat_toNat c
  have valid : c.val.toNat.isValidChar := c.valid
  unfold String.utf8EncodeChar
  by_cases one : c.val.toNat ≤ 127
  · rw [if_pos one, List.singleton_append, scanFrom_cons, step, start_single (by omega), same]
    rfl
  · by_cases two : c.val.toNat ≤ 2047
    · have read := scanFrom_double rest (Nat.lt_of_not_le one) two
      rw [same] at read
      simpa only [if_neg one, if_pos two, List.cons_append, List.nil_append] using read
    · by_cases three : c.val.toNat ≤ 65535
      · have read := scanFrom_triple rest (Nat.lt_of_not_le two) three valid
        rw [same] at read
        simpa only [if_neg one, if_neg two, if_pos three, List.cons_append, List.nil_append]
          using read
      · have read := scanFrom_quadruple rest (Nat.lt_of_not_le three) valid
        rw [same] at read
        simpa only [if_neg one, if_neg two, if_neg three, List.cons_append, List.nil_append]
          using read

end Scan

/-- **A text that was written is read.** -/
theorem scan_encode (text : String) : scan (encode text) = text.toList.map some := by
  unfold scan encode
  induction text.toList with
  | nil => rfl
  | cons c rest ih => rw [List.flatMap_cons, scanFrom_utf8EncodeChar, ih, List.map_cons]

theorem decodeLossy_encode (text : String) : decodeLossy (encode text) = text := by
  have shown : (text.toList.map some).map (·.getD '\uFFFD') = text.toList := by
    rw [List.map_map]
    exact List.map_id' _
  rw [decodeLossy, scan_encode, shown, String.ofList_toList]

/-- An ASCII byte stands for the character of its number only. -/
theorem eq_of_mem_utf8EncodeChar {c : Char} {byte : UInt8} (small : byte.toNat < 128)
    (member : byte ∈ String.utf8EncodeChar c) : c.val.toNat = byte.toNat := by
  unfold String.utf8EncodeChar at member
  by_cases one : c.val.toNat ≤ 127
  · rw [if_pos one, List.mem_singleton] at member
    rw [member, UInt8.toNat_ofNat']
    omega
  · -- all bytes of a longer sequence are 128 or more
    exfalso
    rw [if_neg one] at member
    by_cases two : c.val.toNat ≤ 2047
    · rw [if_pos two] at member
      simp only [List.mem_cons, List.not_mem_nil, or_false] at member
      rcases member with rfl | rfl <;> rw [UInt8.toNat_ofNat'] at small <;> omega
    · rw [if_neg two] at member
      by_cases three : c.val.toNat ≤ 65535
      · rw [if_pos three] at member
        simp only [List.mem_cons, List.not_mem_nil, or_false] at member
        rcases member with rfl | rfl | rfl <;> rw [UInt8.toNat_ofNat'] at small <;> omega
      · rw [if_neg three] at member
        simp only [List.mem_cons, List.not_mem_nil, or_false] at member
        rcases member with rfl | rfl | rfl | rfl <;> rw [UInt8.toNat_ofNat'] at small <;> omega

theorem encode_injective {first second : String} (same : encode first = encode second) :
    first = second := by
  rw [← decodeLossy_encode first, same, decodeLossy_encode]

end Utf8

end ShaderHeader
