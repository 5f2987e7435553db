import Vendoring.Text.Utf8

/-!
# Text that was written as UTF-8

The bytes of a text are read as the text: replacement is for bytes that no text has.  A character
takes one to four bytes; for each of these numbers the first byte announces it (`Lead`), admits the
second byte, and the payload bits of all of them together are the code point.
-/

namespace Vendoring.Text

variable {v : Nat}

/-! ## First bytes -/

theorem toNat_ofNat_of_lt {n : Nat} (h : n < 256) : (UInt8.ofNat n).toNat = n := by
  rw [UInt8.toNat_ofNat']
  exact Nat.mod_eq_of_lt h

theorem ofByte_one (h : v < 0x80) : Lead.ofByte (UInt8.ofNat v) = .complete := by
  simp only [Lead.ofByte, toNat_ofNat_of_lt (show v < 256 by omega), if_pos h]

/-- The first byte of two admits every second byte. -/
theorem ofByte_two (h : 2 ≤ v) (h' : v < 0x20) :
    Lead.ofByte (UInt8.ofNat (v + 0xC0)) = .sequence 0x80 0xBF 0 := by
  simp only [Lead.ofByte, toNat_ofNat_of_lt (show v + 0xC0 < 256 by omega)]
  rw [if_neg (by omega), if_neg (by omega), if_pos (by omega)]

/-- The first byte of three admits the second one, unless the code point is that of a surrogate or
one that fewer bytes would do for. -/
theorem ofByte_three (h : 0x800 ≤ v) (h' : v ≤ 0xFFFF) (hvalid : v < 0xD800 ∨ 0xDFFF < v) :
    ∃ low high, Lead.ofByte (UInt8.ofNat (v / 0x1000 + 0xE0)) = .sequence low high 1 ∧
      low ≤ v / 0x40 % 0x40 + 0x80 ∧ v / 0x40 % 0x40 + 0x80 ≤ high := by
  simp only [Lead.ofByte, toNat_ofNat_of_lt (show v / 0x1000 + 0xE0 < 256 by omega)]
  rw [if_neg (by omega), if_neg (by omega), if_neg (by omega)]
  by_cases hfirst : v / 0x1000 = 0
  · rw [if_pos (by omega)]
    exact ⟨_, _, rfl, by omega, by omega⟩
  rw [if_neg (by omega)]
  by_cases hsurrogate : v / 0x1000 = 0xD
  · rw [if_pos (by omega)]
    exact ⟨_, _, rfl, by omega, by omega⟩
  · rw [if_neg (by omega), if_pos (by omega)]
    exact ⟨_, _, rfl, by omega, by omega⟩

/-- The first byte of four admits the second one, if the code point is one at all. -/
theorem ofByte_four (h : 0x10000 ≤ v) (h' : v < 0x110000) :
    ∃ low high, Lead.ofByte (UInt8.ofNat (v / 0x40000 + 0xF0)) = .sequence low high 2 ∧
      low ≤ v / 0x1000 % 0x40 + 0x80 ∧ v / 0x1000 % 0x40 + 0x80 ≤ high := by
  simp only [Lead.ofByte, toNat_ofNat_of_lt (show v / 0x40000 + 0xF0 < 256 by omega)]
  rw [if_neg (by omega), if_neg (by omega), if_neg (by omega), if_neg (by omega),
    if_neg (by omega), if_neg (by omega)]
  by_cases hfirst : v / 0x40000 = 0
  · rw [if_pos (by omega)]
    exact ⟨_, _, rfl, by omega, by omega⟩
  rw [if_neg (by omega)]
  by_cases hlast : v / 0x40000 = 4
  · rw [if_neg (by omega), if_pos (by omega)]
    exact ⟨_, _, rfl, by omega, by omega⟩
  · rw [if_pos (by omega)]
    exact ⟨_, _, rfl, by omega, by omega⟩

/-! ## Further bytes -/

/-- A continuation byte adds its payload to the bits. -/
theorem continuation_succ {n : Nat} (h : n < 0x40) (count bits : Nat) (bytes : List UInt8) :
    continuation (count + 1) bits (UInt8.ofNat (n + 0x80) :: bytes) =
      continuation count (bits * 0x40 + n) bytes := by
  rw [continuation, toNat_ofNat_of_lt (by omega), if_pos ⟨by omega, by omega⟩]
  congr 2
  omega

/-- A sequence is read as the character that the payload of its bytes makes. -/
theorem decodeOne_of_sequence {b second : UInt8} {low high more : Nat} {c : Char}
    {rest rest' : List UInt8} (hlead : Lead.ofByte b = .sequence low high more)
    (hsecond : low ≤ second.toNat ∧ second.toNat ≤ high)
    (hmore : continuation more (leadBits b more * 0x40 + second.toNat % 0x40) rest =
      (some c, rest')) : decodeOne b (second :: rest) = (c, rest') := by
  rw [decodeOne, hlead]
  simp only [if_pos hsecond, hmore, Option.getD_some]

/-! ## Characters and texts -/

/-- The code point of a character is no surrogate and not too large. -/
theorem toNat_valid (c : Char) : c.toNat < 0xD800 ∨ 0xDFFF < c.toNat ∧ c.toNat < 0x110000 :=
  c.valid

/-- **A character is read from its bytes**, whatever bytes follow. -/
theorem decodeOne_utf8EncodeChar (c : Char) (rest : List UInt8) :
    ∃ b bytes, String.utf8EncodeChar c ++ rest = b :: bytes ∧ decodeOne b bytes = (c, rest) := by
  have hvalid := toNat_valid c
  have hcode : c.val.toNat = c.toNat := rfl
  have hchar : ∀ n, n = c.toNat → Char.ofNat n = c := by
    rintro n rfl
    exact Char.ofNat_toNat c
  simp only [String.utf8EncodeChar, hcode]
  generalize c.toNat = v at hvalid hchar
  by_cases hone : v ≤ 0x7F
  · rw [if_pos hone]
    refine ⟨_, _, rfl, ?_⟩
    rw [decodeOne, ofByte_one (by omega)]
    simp only [hchar _ (toNat_ofNat_of_lt (show v < 256 by omega))]
    rfl
  rw [if_neg hone]
  by_cases htwo : v ≤ 0x7FF
  · rw [if_pos htwo]
    have hlead := ofByte_two (v := v / 0x40 % 0x20) (by omega) (by omega)
    have hsecond : (UInt8.ofNat (v % 0x40 + 0x80)).toNat = v % 0x40 + 0x80 :=
      toNat_ofNat_of_lt (by omega)
    refine ⟨_, _, rfl, decodeOne_of_sequence hlead ⟨by omega, by omega⟩ ?_⟩
    rw [leadBits, hsecond, toNat_ofNat_of_lt (by omega), continuation, hchar _ (by omega)]
    rfl
  rw [if_neg htwo]
  by_cases hthree : v ≤ 0xFFFF
  · rw [if_pos hthree]
    obtain ⟨low, high, hlead, hlow, hhigh⟩ := ofByte_three (v := v) (by omega) hthree (by omega)
    have hsecond : (UInt8.ofNat (v / 0x40 % 0x40 + 0x80)).toNat = v / 0x40 % 0x40 + 0x80 :=
      toNat_ofNat_of_lt (by omega)
    rw [Nat.mod_eq_of_lt (show v / 0x1000 < 0x10 by omega)]
    refine ⟨_, _ :: (_ :: rest), rfl, decodeOne_of_sequence hlead ⟨by omega, by omega⟩ ?_⟩
    have hpayload : v % 0x40 < 0x40 := by omega
    rw [leadBits, hsecond, toNat_ofNat_of_lt (by omega), continuation_succ hpayload,
      continuation, hchar _ (by omega)]
  · rw [if_neg hthree]
    obtain ⟨low, high, hlead, hlow, hhigh⟩ := ofByte_four (v := v) (by omega) (by omega)
    have hsecond : (UInt8.ofNat (v / 0x1000 % 0x40 + 0x80)).toNat = v / 0x1000 % 0x40 + 0x80 :=
      toNat_ofNat_of_lt (by omega)
    rw [Nat.mod_eq_of_lt (show v / 0x40000 < 8 by omega)]
    refine ⟨_, _ :: (_ :: (_ :: rest)), rfl, decodeOne_of_sequence hlead ⟨by omega, by omega⟩ ?_⟩
    have hthird : v / 0x40 % 0x40 < 0x40 := by omega
    have hfourth : v % 0x40 < 0x40 := by omega
    have hbits (b : UInt8) : leadBits b 2 = b.toNat % 8 := rfl
    rw [hbits, hsecond, toNat_ofNat_of_lt (by omega), continuation_succ hthird,
      continuation_succ hfourth, continuation, hchar _ (by omega)]

theorem decode_utf8EncodeChar_append (c : Char) (rest : List UInt8) :
    decode (String.utf8EncodeChar c ++ rest) = c :: decode rest := by
  obtain ⟨b, bytes, hbytes, hone⟩ := decodeOne_utf8EncodeChar c rest
  rw [hbytes, decode, hone]

/-- The bytes of a text are those of its characters. -/
theorem data_toUTF8 (s : String) :
    s.toUTF8.data.toList = s.toList.flatMap String.utf8EncodeChar := by
  rw [String.toUTF8_eq_toByteArray, ← String.utf8Encode_toList, List.utf8Encode,
    List.data_toByteArray]

/-- **A text is read from its bytes.** -/
theorem decode_toUTF8 (s : String) : decode s.toUTF8.data.toList = s.toList := by
  have hlist : ∀ cs : List Char, decode (cs.flatMap String.utf8EncodeChar) = cs := by
    intro cs
    induction cs with
    | nil => rw [List.flatMap_nil, decode]
    | cons c cs ih => rw [List.flatMap_cons, decode_utf8EncodeChar_append, ih]
  rw [data_toUTF8, hlist]

end Vendoring.Text
