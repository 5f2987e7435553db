/-!
# UTF-8 with replacement

Archive entries hold bytes, and some of them are read as text.  Bytes that are no UTF-8 do not
stop the reading: every longest run of bytes that begins a character but does not complete it, and
every byte that cannot begin one, is read as U+FFFD.
-/

namespace Vendoring.Text

/-- What a first byte announces: a complete character, or the range of the second byte and the
number of continuation bytes that follow it. -/
inductive Lead
  | complete
  | sequence (low high : Nat) (more : Nat)
  | invalid
  deriving DecidableEq

/-- The meaning of a byte in first position. -/
def Lead.ofByte (b : UInt8) : Lead :=
  let n := b.toNat
  if n < 0x80 then .complete
  else if n < 0xC2 then .invalid
  else if n < 0xE0 then .sequence 0x80 0xBF 0
  else if n = 0xE0 then .sequence 0xA0 0xBF 1
  else if n = 0xED then .sequence 0x80 0x9F 1
  else if n < 0xF0 then .sequence 0x80 0xBF 1
  else if n = 0xF0 then .sequence 0x90 0xBF 2
  else if n < 0xF4 then .sequence 0x80 0xBF 2
  else if n = 0xF4 then .sequence 0x80 0x8F 2
  else .invalid

/-- The payload bits of a first byte that announces `more + 1` further bytes. -/
def leadBits (b : UInt8) (more : Nat) : Nat :=
  match more with
  | 0 => b.toNat % 0x20
  | 1 => b.toNat % 0x10
  | _ => b.toNat % 0x08

/-- The character that stands for bytes which are no UTF-8. -/
def replacement : Char := '\uFFFD'

/-- Reads up to `count` continuation bytes onto the payload `bits`.  Gives the character when all
of them were there, and the bytes left over. -/
def continuation : (count : Nat) → (bits : Nat) → List UInt8 → Option Char × List UInt8
  | 0, bits, bytes => (some (Char.ofNat bits), bytes)
  | _ + 1, _, [] => (none, [])
  | count + 1, bits, b :: bytes =>
    if 0x80 ≤ b.toNat ∧ b.toNat < 0xC0 then
      continuation count (bits * 0x40 + b.toNat % 0x40) bytes
    else (none, b :: bytes)

theorem length_continuation_le (count bits : Nat) (bytes : List UInt8) :
    (continuation count bits bytes).2.length ≤ bytes.length := by
  induction bytes generalizing count bits with
  | nil => cases count <;> simp [continuation]
  | cons b bytes ih =>
    cases count with
    | zero => simp [continuation]
    | succ count =>
      simp only [continuation]
      split
      · exact Nat.le_succ_of_le (ih ..)
      · simp

/-- Reads one character from a first byte and the bytes after it. -/
def decodeOne (b : UInt8) (bytes : List UInt8) : Char × List UInt8 :=
  match Lead.ofByte b with
  | .complete => (Char.ofNat b.toNat, bytes)
  | .invalid => (replacement, bytes)
  | .sequence low high more =>
    match bytes with
    | [] => (replacement, [])
    | second :: rest =>
      if low ≤ second.toNat ∧ second.toNat ≤ high then
        let (c, rest) := continuation more (leadBits b more * 0x40 + second.toNat % 0x40) rest
        (c.getD replacement, rest)
      else (replacement, second :: rest)

theorem length_decodeOne_le (b : UInt8) (bytes : List UInt8) :
    (decodeOne b bytes).2.length ≤ bytes.length := by
  unfold decodeOne
  split
  · simp
  · simp
  · split
    · simp
    · split
      · exact Nat.le_succ_of_le (length_continuation_le ..)
      · simp

/-- The characters that bytes are read as. -/
def decode : List UInt8 → List Char
  | [] => []
  | b :: bytes => (decodeOne b bytes).1 :: decode (decodeOne b bytes).2
  termination_by bytes => bytes.length
  decreasing_by
    have := length_decodeOne_le b bytes
    simp only [List.length_cons]
    omega

end Vendoring.Text
