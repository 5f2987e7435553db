import Vendoring.Proofs.Text.Utf8

/-!
# The order of texts is the order of their bytes

Texts are compared character by character.  UTF-8 keeps this order: of two characters the larger one
takes at least as many bytes, a first byte that announces more bytes is larger, and where both take
as many, the payload bits stand in the bytes from high to low.  So texts that are sorted are sorted
by their bytes (`bytes_lt_bytes`).
-/

namespace Vendoring.Text

/-- The bytes of a text. -/
def bytes (s : String) : List UInt8 := s.toUTF8.data.toList

/-- Two lists of bytes are compared by their first bytes, and by the others where these agree. -/
theorem cons_lt_cons {m n : Nat} {rest rest' : List UInt8} (h : m ≤ n) (hn : n < 256)
    (hrest : m = n → rest < rest') : UInt8.ofNat m :: rest < UInt8.ofNat n :: rest' := by
  rw [List.cons_lt_cons_iff]
  rcases Nat.lt_or_eq_of_le h with hlt | rfl
  · refine .inl ?_
    rw [UInt8.lt_iff_toNat_lt, toNat_ofNat_of_lt (by omega), toNat_ofNat_of_lt hn]
    exact hlt
  · exact .inr ⟨rfl, hrest rfl⟩

/-- **Characters are in the order of their bytes**, whatever bytes follow.  The cases are the number
of bytes of the smaller one; if the larger one takes more bytes, its first byte decides. -/
theorem utf8EncodeChar_append_lt {c d : Char} (h : c < d) (rest rest' : List UInt8) :
    String.utf8EncodeChar c ++ rest < String.utf8EncodeChar d ++ rest' := by
  have hlt : c.toNat < d.toNat := h
  have hvalid := toNat_valid d
  have hc : c.val.toNat = c.toNat := rfl
  have hd : d.val.toNat = d.toNat := rfl
  simp only [String.utf8EncodeChar, hc, hd]
  generalize c.toNat = v at hlt
  generalize d.toNat = w at hlt hvalid
  by_cases hone : v ≤ 0x7F
  · rw [if_pos hone]
    repeat' split
    all_goals exact cons_lt_cons (by omega) (by omega) (by omega)
  rw [if_neg hone, if_neg (show ¬ w ≤ 0x7F by omega)]
  by_cases htwo : v ≤ 0x7FF
  · rw [if_pos htwo]
    by_cases htwo' : w ≤ 0x7FF
    · rw [if_pos htwo']
      refine cons_lt_cons (by omega) (by omega) fun _ => ?_
      exact cons_lt_cons (by omega) (by omega) (by omega)
    · rw [if_neg htwo']
      split
      all_goals exact cons_lt_cons (by omega) (by omega) (by omega)
  rw [if_neg htwo, if_neg (show ¬ w ≤ 0x7FF by omega)]
  by_cases hthree : v ≤ 0xFFFF
  · rw [if_pos hthree]
    by_cases hthree' : w ≤ 0xFFFF
    · rw [if_pos hthree']
      refine cons_lt_cons (by omega) (by omega) fun _ => ?_
      refine cons_lt_cons (by omega) (by omega) fun _ => ?_
      exact cons_lt_cons (by omega) (by omega) (by omega)
    · rw [if_neg hthree']
      exact cons_lt_cons (by omega) (by omega) (by omega)
  · rw [if_neg hthree, if_neg (show ¬ w ≤ 0xFFFF by omega)]
    refine cons_lt_cons (by omega) (by omega) fun _ => ?_
    refine cons_lt_cons (by omega) (by omega) fun _ => ?_
    refine cons_lt_cons (by omega) (by omega) fun _ => ?_
    exact cons_lt_cons (by omega) (by omega) (by omega)

/-- **Texts are in the order of their bytes.** -/
theorem bytes_lt_bytes {s t : String} (h : s < t) : bytes s < bytes t := by
  have hlist : ∀ cs ds : List Char, cs < ds →
      cs.flatMap String.utf8EncodeChar < ds.flatMap String.utf8EncodeChar := by
    intro cs ds hlt
    induction hlt with
    | @nil d ds =>
      obtain ⟨b, rest, hbytes, -⟩ := decodeOne_utf8EncodeChar d (ds.flatMap String.utf8EncodeChar)
      rw [List.flatMap_nil, List.flatMap_cons, hbytes]
      exact .nil
    | rel h =>
      rw [List.flatMap_cons, List.flatMap_cons]
      exact utf8EncodeChar_append_lt h _ _
    | cons h ih =>
      rw [List.flatMap_cons, List.flatMap_cons]
      exact List.append_left_lt ih
  rw [bytes, bytes, data_toUTF8, data_toUTF8]
  exact hlist _ _ (String.lt_iff.1 h)

/-- Of two texts the one with the smaller bytes is the smaller one. -/
theorem bytes_le_bytes_iff {s t : String} : bytes s ≤ bytes t ↔ s ≤ t := by
  constructor
  · intro h hlt
    exact h (bytes_lt_bytes hlt)
  · intro h hlt
    by_cases hst : s < t
    · exact List.lt_irrefl _ (List.lt_trans hlt (bytes_lt_bytes hst))
    · rw [String.le_antisymm h (String.not_lt.1 hst)] at hlt
      exact List.lt_irrefl _ hlt

end Vendoring.Text
