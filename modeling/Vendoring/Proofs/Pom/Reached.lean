import Vendoring.Proofs.Pom.Consistent
import Vendoring.Proofs.Pom.Lines

/-!
# Beginnings of documents

The reader has come somewhere behind the beginning of a document (`reached`), and this does not
depend on what follows, if it begins with markup: neither do the tokens, nor the lines that have
been looked at.  So a document is read by reading what follows from there (`readChars_append`), if
the beginning consists of whole tokens (`Whole`, `whole_iff`).
-/

namespace Vendoring.Pom

namespace Progress

open Xml (byteLength byteLength_append)

variable {line line' : Nat → Nat} {p : Progress}

/-! ## Lines that are not looked at -/

/-- Only the line of the position that is reached is looked at. -/
theorem take_congr (h : line p.position = line' p.position) (t : Xml.Token) :
    p.take line t = p.take line' t := by
  cases t with
  | start name =>
    rw [take, take, startElement, startElement]
    cases hroot : p.root (Xml.localName name) with
    | error e => rfl
    | ok p' =>
      rw [← position_root hroot] at h
      simp only [Except.map, h]
  | empty name =>
    rw [take, take, emptyElement, emptyElement]
    cases hroot : p.root (Xml.localName name) with
    | error e => rfl
    | ok p' =>
      rw [← position_root hroot] at h
      simp only [Except.map, h]
  | close name => rfl
  | text s => rfl
  | cdata s => rfl
  | reference name => rfl
  | comment => rfl
  | instruction => rfl
  | doctype => rfl

/-- Tokens are taken in alike if the lines of all positions up to their end are the same. -/
theorem foldlM_step_congr {ls : List Xml.Lexeme}
    (h : ∀ position ≤ p.position + byteLength (ls.flatMap Xml.Lexeme.raw),
      line position = line' position) :
    ls.foldlM (step line) p = ls.foldlM (step line') p := by
  induction ls generalizing p with
  | nil => rfl
  | cons l ls ih =>
    have hstep : p.step line l = p.step line' l := by
      rw [step, step, take_congr (h _ (Nat.le_add_right _ _))]
    rw [List.foldlM_cons, List.foldlM_cons, ← hstep]
    cases hp : p.step line l with
    | error e => rfl
    | ok p' =>
      refine ih fun position hposition => h position ?_
      rw [List.flatMap_cons, byteLength_append, ← Nat.add_assoc, ← position_step hp]
      exact hposition

theorem position_foldlM {q : Progress} {ls : List Xml.Lexeme}
    (h : ls.foldlM (step line) p = .ok q) :
    q.position = p.position + byteLength (ls.flatMap Xml.Lexeme.raw) := by
  -- the position behind all tokens stays the same
  let target := p.position + byteLength (ls.flatMap Xml.Lexeme.raw)
  have hkeeps : ∀ (l : Xml.Lexeme) (ls : List Xml.Lexeme) (p p' : Progress),
      p.position + byteLength ((l :: ls).flatMap Xml.Lexeme.raw) = target →
      p.step line l = .ok p' →
      p'.position + byteLength (ls.flatMap Xml.Lexeme.raw) = target := by
    intro l ls p p' hp hstep
    rw [position_step hstep, Nat.add_assoc, ← byteLength_append, ← List.flatMap_cons]
    exact hp
  exact foldlM_keeps (I := fun ls p => p.position + byteLength (ls.flatMap Xml.Lexeme.raw) = target)
    hkeeps rfl h

end Progress

open Xml (Reads byteLength byteLength_append byteLength_cons)

variable {before s : List Char}

/-! ## Byte order marks -/

/-- Does the text begin with a byte order mark? -/
def Marked (s : List Char) : Prop := s.head? = some '\uFEFF'

instance (s : List Char) : Decidable (Marked s) := inferInstanceAs (Decidable (_ = _))

theorem withoutMark_of_marked (h : Marked s) : s = '\uFEFF' :: withoutMark s := by
  cases s with
  | nil => cases h
  | cons c s =>
    obtain rfl : c = '\uFEFF' := Option.some.inj h
    rfl

theorem withoutMark_of_not_marked (h : ¬ Marked s) : withoutMark s = s := by
  unfold withoutMark
  split
  · exact absurd rfl h
  · rfl

/-- A mark is looked for at the beginning only. -/
theorem withoutMark_append (before t : List Char) :
    withoutMark (before ++ '<' :: t) = withoutMark before ++ '<' :: t := by
  by_cases h : Marked before
  · rw [withoutMark_of_marked h]
    rfl
  · rw [withoutMark_of_not_marked h]
    refine withoutMark_of_not_marked fun hmarked => h ?_
    cases before with
    | nil => exact absurd (Option.some.inj hmarked) (show '<' ≠ '\uFEFF' by decide)
    | cons c before => exact hmarked

theorem byteLength_of_marked (h : Marked s) : byteLength s = byteLength (withoutMark s) + 3 := by
  have hmark : '\uFEFF'.utf8Size = 3 := rfl
  conv_lhs => rw [withoutMark_of_marked h, byteLength_cons, hmark, Nat.add_comm]

theorem byteLength_le_withoutMark (s : List Char) :
    byteLength s ≤ byteLength (withoutMark s) + 3 := by
  by_cases h : Marked s
  · rw [byteLength_of_marked h]
  · rw [withoutMark_of_not_marked h]
    exact Nat.le_add_right _ _

theorem byteLength_withoutMark_le (s : List Char) : byteLength (withoutMark s) ≤ byteLength s := by
  by_cases h : Marked s
  · rw [byteLength_of_marked h]
    exact Nat.le_add_right _ _
  · rw [withoutMark_of_not_marked h]

/-- The byte order mark at the beginning of a text, if there is one. -/
def mark : List Char → List Char
  | '\uFEFF' :: _ => ['\uFEFF']
  | _ => []

theorem mark_append_withoutMark (s : List Char) : mark s ++ withoutMark s = s := by
  unfold mark withoutMark
  split <;> simp_all

theorem mark_of_not_marked (h : ¬ Marked s) : mark s = [] := by
  unfold mark
  split
  · exact absurd rfl h
  · rfl

theorem byteLength_mark_of_marked (h : Marked s) : byteLength (mark s) = 3 := by
  rw [withoutMark_of_marked h]
  rfl

/-! ## What is reached -/

/-- **A text is read as a document exactly if it consists of tokens** that lead from the beginning to
an end. -/
theorem readChars_eq_ok_iff {doc : Document} :
    readChars s = .ok doc ↔
      ∃ ls p, Reads (withoutMark s) ls [] ∧
        ls.foldlM (Progress.step (lineOf (lineStarts s))) {} = .ok p ∧ p.finish = .ok doc := by
  rw [readChars]
  constructor
  · intro h
    obtain ⟨p, hfold, hfinish⟩ := bind_eq_ok_iff.1 h
    obtain ⟨ls, hreads, hrun⟩ := Xml.exists_reads_of_foldTokens hfold
    exact ⟨ls, p, hreads, hrun, hfinish⟩
  · rintro ⟨ls, p, hreads, hrun, hfinish⟩
    rw [Xml.foldTokens_of_reads hreads, hrun]
    show (Xml.foldTokens _ _ p []).bind Progress.finish = .ok doc
    rw [Xml.foldTokens]
    exact hfinish

/-- Does the beginning of a document consist of whole tokens? -/
def Whole (before : List Char) : Prop := ∃ ls, Reads (withoutMark before) ls []

/-- A beginning is whole exactly if the markup behind it is cut off as a token of its own. -/
theorem whole_iff (before t : List Char) :
    Whole before ↔ ∃ ls, Reads (withoutMark before ++ '<' :: t) ls ('<' :: t) := by
  constructor
  · rintro ⟨ls, hreads⟩
    exact ⟨ls, hreads.append t⟩
  · rintro ⟨ls, hreads⟩
    have hraw := List.append_cancel_right hreads.flatMap_raw
    refine ⟨ls, ?_⟩
    have hrest := hreads.rest (t := []) fun c hc => absurd hc (Option.not_mem_none c)
    rwa [List.append_nil, hraw] at hrest

/-- The progress behind the beginning of a document. -/
def reached (before : List Char) : Except Fault Progress :=
  Progress.run (lineOf (lineStarts before)) {} (withoutMark before)

theorem reached_of_reads {ls : List Xml.Lexeme} (h : Reads (withoutMark before) ls []) :
    reached before = ls.foldlM (Progress.step (lineOf (lineStarts before))) {} := by
  rw [reached, Progress.run, Xml.foldTokens_of_reads h]
  cases ls.foldlM (Progress.step (lineOf (lineStarts before))) {} with
  | error e => rfl
  | ok p =>
    show Xml.foldTokens _ _ _ [] = _
    rw [Xml.foldTokens]

theorem consistent_reached (h : Whole before) {p : Progress} (hp : reached before = .ok p) :
    p.Consistent := by
  obtain ⟨ls, hreads⟩ := h
  rw [reached_of_reads hreads] at hp
  exact Progress.consistent_foldlM Progress.consistent_initial hp

theorem position_reached (h : Whole before) {p : Progress} (hp : reached before = .ok p) :
    p.position = byteLength (withoutMark before) := by
  obtain ⟨ls, hreads⟩ := h
  rw [reached_of_reads hreads] at hp
  rw [Progress.position_foldlM hp, hreads.raw_eq]
  exact Nat.zero_add _

/-- **A document is read from where its beginning has led**, whatever markup follows. -/
theorem readChars_append (h : Whole before) (t : List Char) :
    readChars (before ++ '<' :: t) =
      (reached before).bind fun p =>
        (p.run (lineOf (lineStarts (before ++ '<' :: t))) ('<' :: t)).bind Progress.finish := by
  obtain ⟨ls, hreads⟩ := h
  have hlines : ∀ position ≤ (0 : Nat) + byteLength (ls.flatMap Xml.Lexeme.raw),
      lineOf (lineStarts (before ++ '<' :: t)) position = lineOf (lineStarts before) position := by
    intro position hposition
    rw [hreads.raw_eq, Nat.zero_add] at hposition
    exact lineOf_append (Nat.le_trans hposition (byteLength_withoutMark_le before)) _
  rw [readChars, withoutMark_append, Xml.foldTokens_of_reads (hreads.append t),
    Progress.foldlM_step_congr (p := {}) hlines, ← reached_of_reads hreads]
  cases reached before <;> rfl

theorem read_append (before rest : String) (s : List Char) :
    read (before ++ String.ofList s ++ rest) = readChars (before.toList ++ (s ++ rest.toList)) := by
  rw [read, String.toList_append, String.toList_append, String.toList_ofList, List.append_assoc]

end Vendoring.Pom
