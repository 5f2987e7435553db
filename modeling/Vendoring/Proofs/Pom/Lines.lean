import Vendoring.Pom.Lines
import Vendoring.Proofs.Xml.Document

/-!
# The line of a position

A position behind some characters of a document lies in the line that is counted by their line
feeds.  The starts of lines that the reader works with are those of the whole document: those up
to the position are one more than the line feeds before it, and all others lie behind it.

What follows a position does not change its line (`lineOf_append`), and to replace characters
without line feeds by others moves lines along with positions (`lineOf_replace`).  A position that
falls short by some bytes lies in a line that lacks the line feeds among these bytes
(`lineOf_sub_add_count`).
-/

namespace Vendoring.Pom

open Xml (byteLength byteLength_append byteLength_cons)

/-- The starts of lines that are found come behind those that were known. -/
theorem lineStartsFrom_eq (position : Nat) (s : List Char) (starts : List Nat) :
    lineStartsFrom position s starts = starts.reverse ++ lineStartsFrom position s [] := by
  induction s generalizing position starts with
  | nil => simp [lineStartsFrom]
  | cons c s ih =>
    rw [lineStartsFrom, lineStartsFrom, ih]
    by_cases hc : c = '\n'
    · rw [if_pos hc, if_pos hc, ih _ [_]]
      simp
    · rw [if_neg hc, if_neg hc]

/-- A line that starts in a text starts behind a character of it. -/
theorem lt_of_mem_lineStartsFrom {position start : Nat} {s : List Char}
    (h : start ∈ lineStartsFrom position s []) : position < start := by
  induction s generalizing position with
  | nil => exact absurd h List.not_mem_nil
  | cons c s ih =>
    have hsize : 0 < c.utf8Size := c.utf8Size_pos
    rw [lineStartsFrom, lineStartsFrom_eq] at h
    rcases List.mem_append.1 h with h | h
    · by_cases hc : c = '\n'
      · rw [if_pos hc, List.reverse_singleton, List.mem_singleton] at h
        omega
      · simp [hc] at h
    · have hlt := ih h
      omega

/-- No line starts up to the beginning of a text. -/
theorem takeWhile_lineStartsFrom_of_le {position bound : Nat} (h : bound ≤ position)
    (s : List Char) : (lineStartsFrom position s []).takeWhile (· ≤ bound) = [] := by
  cases hstarts : lineStartsFrom position s [] with
  | nil => rfl
  | cons start starts =>
    have hlt : position < start := by
      apply lt_of_mem_lineStartsFrom
      rw [hstarts]
      exact List.mem_cons_self ..
    rw [List.takeWhile_cons_of_neg]
    simpa using Nat.lt_of_le_of_lt h hlt

/-! ## Texts that are changed -/

/-- A line starts behind the first character of a text if this is a line feed. -/
theorem lineStartsFrom_cons (position : Nat) (c : Char) (s : List Char) :
    lineStartsFrom position (c :: s) [] =
      (if c = '\n' then [position + c.utf8Size] else []) ++
        lineStartsFrom (position + c.utf8Size) s [] := by
  rw [lineStartsFrom, lineStartsFrom_eq]
  by_cases hc : c = '\n'
  · rw [if_pos hc, List.reverse_singleton]
  · rw [if_neg hc, List.reverse_nil]

/-- The starts of lines in a text are those in its first part and then those in the second. -/
theorem lineStartsFrom_append (position : Nat) (s t : List Char) :
    lineStartsFrom position (s ++ t) [] =
      lineStartsFrom position s [] ++ lineStartsFrom (position + byteLength s) t [] := by
  induction s generalizing position with
  | nil => rfl
  | cons c s ih =>
    rw [List.cons_append, lineStartsFrom_cons, ih, lineStartsFrom_cons, byteLength_cons,
      List.append_assoc, Nat.add_assoc]

/-- A line that starts in a text starts at its end at the latest. -/
theorem le_of_mem_lineStartsFrom {position start : Nat} {s : List Char}
    (h : start ∈ lineStartsFrom position s []) : start ≤ position + byteLength s := by
  induction s generalizing position with
  | nil => exact absurd h List.not_mem_nil
  | cons c s ih =>
    rw [byteLength_cons]
    rw [lineStartsFrom_cons] at h
    rcases List.mem_append.1 h with h | h
    · by_cases hc : c = '\n'
      · rw [if_pos hc, List.mem_singleton] at h
        omega
      · simp [hc] at h
    · have hle := ih h
      omega

/-- No line starts in a text without line feeds. -/
theorem lineStartsFrom_of_notMem {s : List Char} (h : '\n' ∉ s) (position : Nat) :
    lineStartsFrom position s [] = [] := by
  induction s generalizing position with
  | nil => rfl
  | cons c s ih =>
    rw [List.mem_cons, not_or] at h
    rw [lineStartsFrom_cons, if_neg (Ne.symm h.1), ih h.2, List.nil_append]

/-- No line starts at the end of a text that does not end in a line feed. -/
theorem lt_of_mem_lineStartsFrom_of_last {start : Nat} {s : List Char}
    (hlast : s.getLast? ≠ some '\n') (h : start ∈ lineStartsFrom 0 s []) :
    start < byteLength s := by
  rcases List.eq_nil_or_concat s with rfl | ⟨front, c, rfl⟩
  · exact absurd h List.not_mem_nil
  · rw [List.concat_eq_append] at h hlast ⊢
    have hc : '\n' ∉ [c] := by simpa [eq_comm] using hlast
    rw [lineStartsFrom_append, lineStartsFrom_of_notMem hc, List.append_nil] at h
    have hle := le_of_mem_lineStartsFrom h
    have hsize : 0 < byteLength [c] := by
      rw [byteLength_cons]
      exact Nat.lt_of_lt_of_le c.utf8Size_pos (Nat.le_add_right _ _)
    rw [byteLength_append]
    omega

/-- A text that lies further behind has its lines further behind. -/
theorem lineStartsFrom_add (position shift : Nat) (s : List Char) :
    lineStartsFrom (position + shift) s [] = (lineStartsFrom position s []).map (· + shift) := by
  induction s generalizing position with
  | nil => rfl
  | cons c s ih =>
    have hafter : position + shift + c.utf8Size = position + c.utf8Size + shift := by omega
    rw [lineStartsFrom_cons, lineStartsFrom_cons, hafter, ih, List.map_append]
    by_cases hc : c = '\n' <;> simp [hc]

/-- **The line of a position does not depend on what follows it.** -/
theorem lineOf_append {position : Nat} {s : List Char} (h : position ≤ byteLength s)
    (t : List Char) :
    lineOf (lineStarts (s ++ t)) position = lineOf (lineStarts s) position := by
  have hbehind : (lineStartsFrom (byteLength s) t []).takeWhile (· ≤ position) = [] :=
    takeWhile_lineStartsFrom_of_le h t
  have hfront : ∀ starts : List Nat,
      (starts ++ lineStartsFrom (byteLength s) t []).takeWhile (· ≤ position) =
        starts.takeWhile (· ≤ position) := by
    intro starts
    rw [List.takeWhile_append, hbehind, List.append_nil]
    split
    · next hall => exact ((List.takeWhile_prefix _).eq_of_length hall).symm
    · rfl
  rw [lineOf, lineOf, lineStarts, lineStarts, lineStartsFrom_append, Nat.zero_add,
    ← List.cons_append, hfront]

/-- The line of a position behind all lines that start before some characters without line
feeds. -/
theorem lineOf_eq_add {position : Nat} {s t : List Char} (ht : '\n' ∉ t)
    (h : ∀ start ∈ lineStartsFrom 0 s [], start ≤ position) (rest : List Char) :
    lineOf (lineStarts (s ++ (t ++ rest))) position =
      (lineStarts s).length +
        ((lineStartsFrom (byteLength s + byteLength t) rest []).takeWhile
          (· ≤ position)).length := by
  have hall : ∀ start ∈ lineStarts s, decide (start ≤ position) = true := by
    intro start hstart
    rcases List.mem_cons.1 hstart with rfl | hstart
    · exact decide_eq_true (Nat.zero_le position)
    · exact decide_eq_true (h start hstart)
  have hstarts : lineStarts (s ++ (t ++ rest)) =
      lineStarts s ++ lineStartsFrom (byteLength s + byteLength t) rest [] := by
    rw [lineStarts, lineStarts, lineStartsFrom_append, lineStartsFrom_append, Nat.zero_add,
      lineStartsFrom_of_notMem ht, List.nil_append, List.cons_append]
  rw [lineOf, hstarts, List.takeWhile_append_of_pos hall, List.length_append]

/-- **Lines move along with positions** behind characters that are replaced, if no line feed is
among them. -/
theorem lineOf_replace {position shift : Nat} {s t t' : List Char} (ht : '\n' ∉ t) (ht' : '\n' ∉ t')
    (hlength : byteLength t' = byteLength t + shift)
    (h : ∀ start ∈ lineStartsFrom 0 s [], start ≤ position) (rest : List Char) :
    lineOf (lineStarts (s ++ (t' ++ rest))) (position + shift) =
      lineOf (lineStarts (s ++ (t ++ rest))) position := by
  have h' : ∀ start ∈ lineStartsFrom 0 s [], start ≤ position + shift :=
    fun start hstart => Nat.le_add_right_of_le (h start hstart)
  have hpassed : ((fun start => decide (start ≤ position + shift)) ∘ (· + shift)) =
      fun start => decide (start ≤ position) := by
    funext start
    simp
  rw [lineOf_eq_add ht h, lineOf_eq_add ht' h', hlength, ← Nat.add_assoc, lineStartsFrom_add,
    List.takeWhile_map, hpassed, List.length_map]

/-! ## Positions that fall short -/

/-- The longest end of a text that takes at most `n` bytes. -/
def ending (n : Nat) : List Char → List Char
  | [] => []
  | c :: s => if byteLength (c :: s) ≤ n then c :: s else ending n s

theorem ending_of_le {n : Nat} {s : List Char} (h : byteLength s ≤ n) : ending n s = s := by
  cases s with
  | nil => rfl
  | cons c s => rw [ending, if_pos h]

theorem ending_zero (s : List Char) : ending 0 s = [] := by
  induction s with
  | nil => rfl
  | cons c s ih =>
    have hsize : 0 < c.utf8Size := c.utf8Size_pos
    rw [ending, byteLength_cons, if_neg (by omega), ih]

/-- Of the starts of lines those up to `n` bytes before the end of the text are as many as the line
feeds before its last `n` bytes. -/
theorem length_takeWhile_lineStartsFrom_sub (position n : Nat) (s : List Char) :
    ((lineStartsFrom position s []).takeWhile
        (· ≤ position + (byteLength s - n))).length + (ending n s).count '\n' =
      s.count '\n' := by
  induction s generalizing position with
  | nil => rfl
  | cons c s ih =>
    by_cases hle : byteLength (c :: s) ≤ n
    · rw [ending_of_le hle, takeWhile_lineStartsFrom_of_le (by omega), List.length_nil,
        Nat.zero_add]
    · rw [ending, if_neg hle, lineStartsFrom_cons]
      rw [byteLength_cons] at hle ⊢
      by_cases hc : c = '\n'
      · subst hc
        have hfeed : '\n'.utf8Size = 1 := rfl
        have hbound : position + ('\n'.utf8Size + byteLength s - n) =
            position + '\n'.utf8Size + (byteLength s - n) := by omega
        rw [hbound, if_pos rfl, List.singleton_append, List.takeWhile_cons_of_pos (by simp),
          List.length_cons, List.count_cons_self, ← ih (position + '\n'.utf8Size)]
        omega
      · rw [if_neg hc, List.nil_append, List.count_cons_of_ne hc]
        by_cases hshort : byteLength s ≤ n
        · -- the position lies inside the character
          rw [ending_of_le hshort, takeWhile_lineStartsFrom_of_le (by omega), List.length_nil,
            Nat.zero_add]
        · have hbound : position + (c.utf8Size + byteLength s - n) =
              position + c.utf8Size + (byteLength s - n) := by omega
          rw [hbound, ih]

/-- **A position that falls short by `n` bytes** lies in the line that is counted by the line feeds
before these bytes. -/
theorem lineOf_sub_add_count (n : Nat) (s rest : List Char) :
    lineOf (lineStarts (s ++ rest)) (byteLength s - n) + (ending n s).count '\n' =
      1 + s.count '\n' := by
  have hcount := length_takeWhile_lineStartsFrom_sub 0 n s
  rw [Nat.zero_add] at hcount
  rw [lineOf_append (Nat.sub_le _ _), lineOf, lineStarts, List.takeWhile_cons_of_pos (by simp),
    List.length_cons]
  omega

/-- **The line of a position is counted by the line feeds before it.** -/
theorem lineOf_byteLength (s rest : List Char) :
    lineOf (lineStarts (s ++ rest)) (byteLength s) = 1 + s.count '\n' := by
  have hcount := lineOf_sub_add_count 0 s rest
  rwa [Nat.sub_zero, ending_zero, List.count_nil, Nat.add_zero] at hcount

example : [0, 2, 5].map (lineOf (lineStarts "a\nbc\nd".toList)) = [1, 2, 3] := by decide

/-- Lines do not decrease along a document. -/
theorem lineOf_mono {position position' : Nat} (h : position ≤ position') (starts : List Nat) :
    lineOf starts position ≤ lineOf starts position' := by
  rw [lineOf, lineOf]
  induction starts with
  | nil => exact Nat.le_refl 0
  | cons start starts ih =>
    by_cases hstart : start ≤ position
    · rw [List.takeWhile_cons_of_pos (by simpa using hstart),
        List.takeWhile_cons_of_pos (by simpa using Nat.le_trans hstart h), List.length_cons,
        List.length_cons]
      exact Nat.succ_le_succ ih
    · rw [List.takeWhile_cons_of_neg (by simpa using hstart)]
      exact Nat.zero_le _

end Vendoring.Pom
