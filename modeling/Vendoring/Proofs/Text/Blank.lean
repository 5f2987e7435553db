import Mathlib.Data.List.DropRight
import Vendoring.Text.Blank

/-!
# Trimmed text

A text is trimmed if it neither begins nor ends with a blank.  Trimming makes a text trimmed
(`isTrimmed_trimChars`) and leaves a trimmed one as it is (`trimChars_eq_self`).
-/

namespace Vendoring.Text

variable {s : List Char}

/-- A text that neither begins nor ends with a blank. -/
structure IsTrimmed (s : List Char) : Prop where
  head : ∀ c ∈ s.head?, isBlank c = false
  last : ∀ c ∈ s.getLast?, isBlank c = false

theorem isTrimmed_iff :
    IsTrimmed s ↔ s.head?.all (!isBlank ·) = true ∧ s.getLast?.all (!isBlank ·) = true := by
  simp only [Option.all_eq_true, Bool.not_eq_true']
  exact ⟨fun h => ⟨h.head, h.last⟩, fun h => ⟨h.1, h.2⟩⟩

instance (s : List Char) : Decidable (IsTrimmed s) := decidable_of_iff' _ isTrimmed_iff

/-- The two ends are trimmed one after the other. -/
theorem trimChars_eq (s : List Char) :
    trimChars s = (s.dropWhile isBlank).rdropWhile isBlank := rfl

theorem trimChars_infix (s : List Char) : trimChars s <:+: s := by
  rw [trimChars_eq]
  exact (List.rdropWhile_prefix ..).isInfix.trans (List.dropWhile_suffix ..).isInfix

theorem isTrimmed_trimChars (s : List Char) : IsTrimmed (trimChars s) := by
  rw [trimChars_eq]
  constructor
  · intro c hc
    -- what is dropped at the end leaves the beginning in place
    obtain ⟨blanks, hblanks⟩ := List.rdropWhile_prefix isBlank (l := s.dropWhile isBlank)
    have hhead : (s.dropWhile isBlank).head? = some c := by
      rw [← hblanks, List.head?_append, hc, Option.some_or]
    have hnot := List.head?_dropWhile_not isBlank s
    rwa [hhead] at hnot
  · intro c hc
    have hne : (s.dropWhile isBlank).rdropWhile isBlank ≠ [] := by
      intro hnil
      rw [hnil] at hc
      cases hc
    have hnot := List.rdropWhile_last_not isBlank (s.dropWhile isBlank) hne
    rw [List.getLast?_eq_some_getLast hne, Option.mem_some_iff] at hc
    rwa [hc, Bool.not_eq_true] at hnot

theorem trimChars_eq_self (h : IsTrimmed s) : trimChars s = s := by
  have hdrop : s.dropWhile isBlank = s := by
    rw [List.dropWhile_eq_self_iff]
    intro hl
    have hhead := h.head _ (List.head?_eq_getElem? ▸ List.getElem?_eq_getElem hl)
    simpa using hhead
  rw [trimChars_eq, hdrop, List.rdropWhile_eq_self_iff]
  intro hne
  rw [h.last _ (List.getLast?_eq_some_getLast hne)]
  exact Bool.false_ne_true

/-- Nothing is left of a text exactly if it is blank. -/
theorem trimChars_eq_nil_iff : trimChars s = [] ↔ ∀ c ∈ s, isBlank c = true := by
  rw [trimChars_eq, List.rdropWhile_eq_nil_iff]
  constructor
  · intro h
    rw [← List.dropWhile_eq_nil_iff]
    cases hdrop : s.dropWhile isBlank with
    | nil => rfl
    | cons c rest =>
      have hnot := List.head?_dropWhile_not isBlank s
      rw [hdrop, List.head?_cons] at hnot
      have hblank := h c (by rw [hdrop]; exact List.mem_cons_self ..)
      rw [hnot] at hblank
      cases hblank
  · intro h c hc
    exact h c ((List.dropWhile_suffix _).subset hc)

/-- Blanks in front of a text are trimmed off. -/
theorem trimChars_append_of_blank {blanks : List Char} (h : ∀ c ∈ blanks, isBlank c = true)
    (s : List Char) : trimChars (blanks ++ s) = trimChars s := by
  rw [trimChars_eq, List.dropWhile_append_of_pos h, ← trimChars_eq]

end Vendoring.Text
