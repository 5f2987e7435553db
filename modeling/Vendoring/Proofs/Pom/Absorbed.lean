import Vendoring.Pom.Reading
import Vendoring.Proofs.Xml.Tokens

/-!
# Reading a written tree

The reader of POMs sees a flat sequence of tokens.  Here its progress is followed over a tree:
`absorb` says by recursion on the tree what the reader has become behind it.

* `run_content` (**the reader follows the tree**): to read the written form of what an element
  holds, and then anything else, is to read the rest with the absorbed progress.
* `opened_absorb`, `position_absorb` and `text_absorb`: what is open behind the tree, how far the
  reader has come, and which text it has kept.
-/

namespace Vendoring.Pom.Progress

open Xml (Content Piece Tag byteLength byteLength_append)

variable {line : Nat → Nat}

/-- Reads a part of a document. -/
def run (line : Nat → Nat) (p : Progress) (s : List Char) : Except Fault Progress :=
  Xml.foldTokens (step line) .malformed p s

@[simp] theorem run_nil (p : Progress) : p.run line [] = .ok p := by
  rw [run, Xml.foldTokens]

/-- Reading goes on behind a token that is cut off and taken in. -/
theorem run_cons_of_next {p p' : Progress} {c : Char} {s rest : List Char} {l : Xml.Lexeme}
    (hnext : Xml.next c s = .ok (l, rest)) (htake : p.take line l.token = .ok p') :
    p.run line (c :: s) =
      { p' with position := p'.position + byteLength l.raw }.run line rest := by
  have hstep : p.step line l = .ok { p' with position := p'.position + byteLength l.raw } := by
    rw [step, htake]
    rfl
  rw [run, Xml.foldTokens]
  split
  · next e he =>
    rw [hnext] at he
    exact absurd he (by simp)
  · next l' rest' he =>
    rw [hnext] at he
    obtain ⟨rfl, rfl⟩ : l = l' ∧ rest = rest' := by simpa using he
    rw [hstep]
    rfl

/-! ## Text -/

/-- The progress behind a run of text. -/
def absorbText (p : Progress) (s : List Char) : Progress :=
  { p with text := p.text ++ s, position := p.position + byteLength s }

theorem absorbText_append (p : Progress) (s t : List Char) :
    p.absorbText (s ++ t) = (p.absorbText s).absorbText t := by
  simp only [absorbText, byteLength_append, List.append_assoc, Nat.add_assoc]

/-- Text is taken in as far as it goes. -/
theorem run_eq_run_absorbText (p : Progress) (s : List Char) :
    p.run line s =
      (p.absorbText (s.takeWhile Xml.isTextCharacter)).run line
        (s.dropWhile Xml.isTextCharacter) := by
  cases s with
  | nil => simp [absorbText, byteLength]
  | cons c s =>
    by_cases hc : Xml.isTextCharacter c = true
    · have hmark : c ≠ '<' ∧ c ≠ '&' := by simpa [Xml.isTextCharacter] using hc
      have hnext : Xml.next c s =
          .ok (⟨.text (c :: s.takeWhile Xml.isTextCharacter),
            c :: s.takeWhile Xml.isTextCharacter⟩, s.dropWhile Xml.isTextCharacter) := by
        unfold Xml.next
        split
        · exact absurd rfl hmark.1
        · exact absurd rfl hmark.2
        · rfl
      rw [List.takeWhile_cons_of_pos hc, List.dropWhile_cons_of_pos hc,
        run_cons_of_next hnext rfl]
      rfl
    · rw [List.takeWhile_cons_of_neg hc, List.dropWhile_cons_of_neg hc]
      simp [absorbText, byteLength]

/-- A token of text may reach beyond a piece of text into what follows, which comes to the same as
to read them one after the other. -/
theorem run_text (p : Progress) {s : List Char} (h : ∀ c ∈ s, Xml.isTextCharacter c = true)
    (rest : List Char) : p.run line (s ++ rest) = (p.absorbText s).run line rest := by
  rw [run_eq_run_absorbText, List.takeWhile_append_of_pos h, List.dropWhile_append_of_pos h,
    absorbText_append]
  exact (run_eq_run_absorbText (p.absorbText s) rest).symm

/-! ## Pieces -/

/-- The progress behind a piece. -/
def absorbPiece (p : Progress) (piece : Piece) : Progress :=
  { p with
    text := p.text ++ piece.characters
    position := p.position + byteLength piece.written }

/-- A piece is read as its characters. -/
theorem run_piece (p : Progress) (piece : Piece) (rest : List Char) :
    p.run line (piece.written ++ rest) = (p.absorbPiece piece).run line rest := by
  cases piece with
  | text s h => exact run_text p h rest
  | cdata s h =>
    have hnext := Xml.next_cdata h rest
    have hwritten : (Piece.cdata s h).written ++ rest =
        '<' :: ("![CDATA[".toList ++ (s ++ ("]]>".toList ++ rest))) := by
      show "<![CDATA[".toList ++ (s ++ "]]>".toList) ++ rest = _
      simp
    rw [hwritten, run_cons_of_next hnext rfl]
    rfl
  | reference r =>
    have hnext := Xml.next_reference r rest
    have htake : p.take line (.reference r.name) = .ok (p.addText [r.character]) := by
      rw [take, Xml.resolve_name]
    have hwritten : (Piece.reference r).written ++ rest = '&' :: (r.name ++ ';' :: rest) := by
      show '&' :: (r.name ++ [';']) ++ rest = _
      simp
    rw [hwritten, run_cons_of_next hnext htake]
    rfl
  | comment s h =>
    have hnext := Xml.next_comment h rest
    have hwritten : (Piece.comment s h).written ++ rest =
        '<' :: ("!--".toList ++ (s ++ ("-->".toList ++ rest))) := by
      show "<!--".toList ++ (s ++ "-->".toList) ++ rest = _
      simp
    rw [hwritten, run_cons_of_next hnext rfl, absorbPiece, Piece.characters, List.append_nil]
    rfl
  | instruction s h =>
    have hnext := Xml.next_instruction h rest
    have hwritten : (Piece.instruction s h).written ++ rest =
        '<' :: '?' :: (s ++ ("?>".toList ++ rest)) := by
      show "<?".toList ++ (s ++ "?>".toList) ++ rest = _
      simp
    rw [hwritten, run_cons_of_next hnext rfl, absorbPiece, Piece.characters, List.append_nil]
    rfl

/-- The characters of pieces are put together. -/
theorem foldl_absorbPiece (p : Progress) (pieces : List Piece) :
    pieces.foldl absorbPiece p =
      { p with
        text := p.text ++ pieces.flatMap Piece.characters
        position := p.position + byteLength (pieces.flatMap Piece.written) } := by
  induction pieces generalizing p with
  | nil => simp [byteLength]
  | cons piece pieces ih =>
    simp only [List.foldl_cons, ih, absorbPiece, List.flatMap_cons, List.append_assoc,
      byteLength_append, Nat.add_assoc]

/-- Pieces are read one after the other. -/
theorem run_pieces (p : Progress) (pieces : List Piece) (rest : List Char) :
    p.run line (pieces.flatMap Piece.written ++ rest) =
      (pieces.foldl absorbPiece p).run line rest := by
  induction pieces generalizing p with
  | nil => rfl
  | cons piece pieces ih =>
    rw [List.flatMap_cons, List.append_assoc, run_piece, ih, List.foldl_cons]

/-! ## Tags -/

/-- The progress behind a start tag. -/
def enter (line : Nat → Nat) (p : Progress) (tag : Tag) : Progress :=
  { p with
    pending :=
      if p.declares (Xml.localName tag.name.characters) then some { line := line p.position }
      else p.pending
    opened := tag.name.characters :: p.opened
    text := []
    position := p.position + byteLength tag.start }

/-- The progress behind an end tag. -/
def leave (p : Progress) (tag : Tag) : Progress :=
  { p.harvest with
    opened := p.opened.tail
    text := []
    position := p.position + byteLength tag.stop }

/-- To use what an element held neither closes it nor moves on. -/
theorem harvest_keeps (p : Progress) :
    p.harvest.opened = p.opened ∧ p.harvest.rooted = p.rooted ∧
      p.harvest.position = p.position := by
  unfold harvest
  simp only
  split <;> exact ⟨rfl, rfl, rfl⟩

/-- A start tag is read as the beginning of its element, if it is admitted. -/
theorem run_start {p p' : Progress} {tag : Tag}
    (h : p.root (Xml.localName tag.name.characters) = .ok p') (rest : List Char) :
    p.run line (tag.start ++ rest) = (p'.enter line tag).run line rest := by
  have hnext := Xml.next_start tag rest
  have htake : p.take line (.start tag.name.characters) =
      .ok { p'.enter line tag with position := p'.position } := by
    rw [take, startElement, h]
    rfl
  rw [Tag.start, List.cons_append, List.append_assoc, List.singleton_append,
    run_cons_of_next hnext htake]
  rfl

/-- An element is admitted wherever another one is open. -/
theorem root_of_opened {p : Progress} (h : p.opened ≠ []) (name : List Char) :
    p.root name = .ok p := by
  have hopened : p.opened.isEmpty = false := by simpa using h
  simp [root, hopened]

/-- An end tag is read as the end of its element. -/
theorem run_stop {p : Progress} {tag : Tag} {outer : List (List Char)}
    (h : p.opened = tag.name.characters :: outer) (rest : List Char) :
    p.run line (tag.stop ++ rest) = (p.leave tag).run line rest := by
  have hnext := Xml.next_stop tag rest
  have htake : p.take line (.close tag.name.characters) =
      .ok { p.harvest with opened := outer, text := [] } := by
    rw [take, endElement, h]
    simp
  have hwritten : tag.stop ++ rest =
      '<' :: '/' :: (tag.name.characters ++ (tag.closing.characters ++ '>' :: rest)) := by
    simp [Tag.stop]
  rw [hwritten, run_cons_of_next hnext htake]
  simp only [leave, h, List.tail_cons, p.harvest_keeps.2.2]

/-! ## Elements -/

/-- The progress behind what an element holds. -/
def absorb (line : Nat → Nat) (p : Progress) : Content → Progress
  | .nil => p
  | .piece piece next => (p.absorbPiece piece).absorb line next
  | .element tag inside next =>
    (((p.enter line tag).absorb line inside).leave tag).absorb line next

/-- Behind what an element holds the same elements are open as before it. -/
theorem opened_absorb (p : Progress) (c : Content) : (p.absorb line c).opened = p.opened := by
  induction c generalizing p with
  | nil => rfl
  | piece piece next ih =>
    rw [absorb, ih]
    rfl
  | element tag inside next ihinside ihnext =>
    rw [absorb, ihnext, leave, ihinside]
    rfl

/-- The reader moves on by what is written. -/
theorem position_absorb (p : Progress) (c : Content) :
    (p.absorb line c).position = p.position + byteLength c.written := by
  induction c generalizing p with
  | nil => rfl
  | piece piece next ih =>
    rw [absorb, ih, Content.written, byteLength_append, ← Nat.add_assoc]
    rfl
  | element tag inside next ihinside ihnext =>
    rw [absorb, ihnext, leave, ihinside, Content.written]
    simp only [enter, byteLength_append, Nat.add_assoc]

/-- Of the text in front only what stands behind the last element is kept. -/
theorem text_absorb (p : Progress) (c : Content) :
    (p.absorb line c).text = if c.elements.isEmpty then p.text ++ c.text else c.text := by
  induction c generalizing p with
  | nil => exact (List.append_nil _).symm
  | piece piece next ih =>
    rw [absorb, ih, Content.elements, Content.text]
    by_cases h : next.elements.isEmpty = true
    · simp only [if_pos h, absorbPiece, List.append_assoc]
    · simp only [if_neg h]
  | element tag inside next ihinside ihnext =>
    rw [absorb, ihnext]
    by_cases h : next.elements.isEmpty = true
    · simp [h, leave, Content.elements, Content.text]
    · simp [h, Content.elements, Content.text]

/-- Whether the root has begun is settled outside of it. -/
theorem rooted_absorb (p : Progress) (c : Content) : (p.absorb line c).rooted = p.rooted := by
  induction c generalizing p with
  | nil => rfl
  | piece piece next ih =>
    rw [absorb, ih]
    rfl
  | element tag inside next ihinside ihnext =>
    rw [absorb, ihnext, leave, (harvest_keeps _).2.1, ihinside]
    rfl

/-- **The reader follows the tree.**  To read the written form of what an element holds, whatever
is written behind it, leads to the progress that is absorbed from the tree. -/
theorem run_content {p : Progress} (h : p.opened ≠ []) (c : Content) (rest : List Char) :
    p.run line (c.written ++ rest) = (p.absorb line c).run line rest := by
  induction c generalizing p rest with
  | nil => rfl
  | piece piece next ih =>
    have hpiece : (p.absorbPiece piece).opened ≠ [] := h
    rw [Content.written, List.append_assoc, run_piece, ih hpiece, absorb]
  | element tag inside next ihinside ihnext =>
    have hinside : (p.enter line tag).opened ≠ [] := List.cons_ne_nil _ _
    have hopened : ((p.enter line tag).absorb line inside).opened =
        tag.name.characters :: p.opened := opened_absorb _ inside
    have hnext : (((p.enter line tag).absorb line inside).leave tag).opened ≠ [] := by
      rw [leave, hopened]
      exact h
    rw [Content.written, List.append_assoc, List.append_assoc, List.append_assoc,
      run_start (root_of_opened h _), ihinside hinside, run_stop hopened, ihnext hnext, absorb]

end Vendoring.Pom.Progress
