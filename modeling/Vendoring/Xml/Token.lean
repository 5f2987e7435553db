import Vendoring.Xml.Cut
import Vendoring.Xml.Fault

/-!
# Tokens of XML documents

A document is read as a sequence of tokens: tags, runs of text, references, CDATA sections, and
comments, instructions and document type declarations, which carry no content.  Attributes are not
looked at.  The name in a tag is everything up to the first blank; nothing else is asked of it.

The main function is `next`, which cuts one token off a document; `append_of_next` says that the
token's characters and the rest make up the document.
-/

namespace Vendoring.Xml

/-- What a piece of a document is. -/
inductive Token
  | start (name : List Char)
  | empty (name : List Char)
  | close (name : List Char)
  | text (characters : List Char)
  | cdata (characters : List Char)
  | reference (name : List Char)
  | comment
  | instruction
  | doctype
  deriving DecidableEq

/-- A token with the characters that spell it. -/
structure Lexeme where
  token : Token
  raw : List Char
  deriving DecidableEq

/-- The blanks of markup. -/
def isSpace (c : Char) : Bool := c = ' ' || c = '\t' || c = '\r' || c = '\n'

/-- The number of bytes that characters take in UTF-8. -/
def byteLength (s : List Char) : Nat := s.foldl (fun n c => n + c.utf8Size) 0

/-- The part of an element's name after its first colon, or all of it. -/
def localName (name : List Char) : List Char :=
  match name.dropWhile (· ≠ ':') with
  | [] => name
  | _ :: rest => rest

/-- The name at the beginning of what a tag holds. -/
def tagName (content : List Char) : List Char := content.takeWhile (!isSpace ·)

/-- The name that an end tag holds: the blanks at its end do not count, unless there is nothing
else. -/
def closingName (content : List Char) : List Char :=
  match content.reverse.dropWhile isSpace with
  | [] => content
  | kept => kept.reverse

/-- The fault of a tag that lacks its `>`, by the quote that was open. -/
def tagFault : Option Char → Fault
  | none => .unclosedTag
  | some quote => .unclosedValue quote

/-- Cuts off the rest of a start tag or empty tag, behind its `<`. -/
def openTag (s : List Char) : Except Fault (Lexeme × List Char) :=
  match cut tagStep none s with
  | .error quote => .error (tagFault quote)
  | .ok (front, rest) =>
    let content := front.dropLast
    let token :=
      if content.getLast? = some '/' then Token.empty (tagName content.dropLast)
      else Token.start (tagName content)
    .ok (⟨token, '<' :: front⟩, rest)

/-- Cuts off the rest of an end tag, behind its `</`. -/
def endTag (s : List Char) : Except Fault (Lexeme × List Char) :=
  match cut tagStep none s with
  | .error quote => .error (tagFault quote)
  | .ok (front, rest) =>
    .ok (⟨.close (closingName front.dropLast), '<' :: '/' :: front⟩, rest)

/-- Does the text behind `<?` begin an XML declaration? -/
def beginsDeclaration : List Char → Bool
  | 'x' :: 'm' :: 'l' :: rest =>
    match rest with
    | [] => true
    | c :: _ => isSpace c || c = '?'
  | _ => false

/-- Cuts off the rest of an instruction, behind its `<?`. -/
def instruction (s : List Char) : Except Fault (Lexeme × List Char) :=
  let fault := if beginsDeclaration s then Fault.unclosedDeclaration else .unclosedInstruction
  match cut instructionStep true s with
  | .error _ => .error fault
  | .ok (front, rest) =>
    if front = ['>'] then .error fault
    else .ok (⟨.instruction, '<' :: '?' :: front⟩, rest)

/-- Cuts off the rest of a comment, behind its `<!-`. -/
def comment : List Char → Except Fault (Lexeme × List Char)
  | '-' :: s =>
    match cut (doubledStep '-') 0 s with
    | .error _ => .error .unclosedComment
    | .ok (front, rest) => .ok (⟨.comment, "<!--".toList ++ front⟩, rest)
  | _ => .error .unclosedComment

/-- Cuts off the rest of a CDATA section, behind its `<![`. -/
def cdata : List Char → Except Fault (Lexeme × List Char)
  | 'C' :: 'D' :: 'A' :: 'T' :: 'A' :: '[' :: s =>
    match cut (doubledStep ']') 0 s with
    | .error _ => .error .unclosedCData
    | .ok (front, rest) =>
      .ok (⟨.cdata (front.take (front.length - 3)), "<![CDATA[".toList ++ front⟩, rest)
  | _ => .error .unclosedCData

/-- Cuts off the rest of a document type declaration, behind its `<!`. -/
def doctype (s : List Char) : Except Fault (Lexeme × List Char) :=
  let keyword := s.take 7
  if keyword.map Char.toUpper = "DOCTYPE".toList then
    match cut doctypeStep (.outside none) (s.drop 7) with
    | .error _ => .error .unclosedDoctype
    | .ok (front, rest) =>
      if front.dropLast.all isSpace then .error .unnamedDoctype
      else .ok (⟨.doctype, '<' :: '!' :: keyword ++ front⟩, rest)
  else .error .unclosedDoctype

/-- Can the character stand in the name of a reference? -/
def isNameCharacter (c : Char) : Bool := c ≠ ';' && c ≠ '&' && c ≠ '<'

/-- Cuts off the rest of a reference, behind its `&`. -/
def reference (s : List Char) : Except Fault (Lexeme × List Char) :=
  let name := s.takeWhile isNameCharacter
  match s.dropWhile isNameCharacter with
  | ';' :: rest => .ok (⟨.reference name, '&' :: (name ++ [';'])⟩, rest)
  | _ => .error .unclosedReference

/-- Does the character belong to a run of text? -/
def isTextCharacter (c : Char) : Bool := c ≠ '<' && c ≠ '&'

/-- Cuts the first token off a document with the characters `c :: s`. -/
def next (c : Char) (s : List Char) : Except Fault (Lexeme × List Char) :=
  match c with
  | '<' =>
    match s with
    | '?' :: s => instruction s
    | '/' :: s => endTag s
    | '!' :: '-' :: s => comment s
    | '!' :: '[' :: s => cdata s
    | '!' :: s =>
      match s with
      | 'D' :: _ => doctype s
      | 'd' :: _ => doctype s
      | _ => .error .unknownMarkup
    | s => openTag s
  | '&' => reference s
  | c =>
    let run := c :: s.takeWhile isTextCharacter
    .ok (⟨.text run, run⟩, s.dropWhile isTextCharacter)

theorem append_of_openTag {s rest : List Char} {l : Lexeme} (h : openTag s = .ok (l, rest)) :
    ∃ raw, l.raw = '<' :: raw ∧ raw ++ rest = s := by
  unfold openTag at h
  split at h
  · simp at h
  · next front _ hc =>
    simp only [Except.ok.injEq, Prod.mk.injEq] at h
    obtain ⟨rfl, rfl⟩ := h
    exact ⟨front, rfl, append_of_cut hc⟩

theorem append_of_endTag {s rest : List Char} {l : Lexeme} (h : endTag s = .ok (l, rest)) :
    ∃ raw, l.raw = '<' :: '/' :: raw ∧ raw ++ rest = s := by
  unfold endTag at h
  split at h
  · simp at h
  · next front _ hc =>
    simp only [Except.ok.injEq, Prod.mk.injEq] at h
    obtain ⟨rfl, rfl⟩ := h
    exact ⟨front, rfl, append_of_cut hc⟩

theorem append_of_instruction {s rest : List Char} {l : Lexeme}
    (h : instruction s = .ok (l, rest)) : ∃ raw, l.raw = '<' :: '?' :: raw ∧ raw ++ rest = s := by
  unfold instruction at h
  simp only at h
  split at h
  · simp at h
  · next front _ hc =>
    split at h
    · simp at h
    · simp only [Except.ok.injEq, Prod.mk.injEq] at h
      obtain ⟨rfl, rfl⟩ := h
      exact ⟨front, rfl, append_of_cut hc⟩

theorem append_of_comment {s rest : List Char} {l : Lexeme} (h : comment s = .ok (l, rest)) :
    ∃ raw, l.raw = '<' :: '!' :: '-' :: raw ∧ raw ++ rest = s := by
  unfold comment at h
  split at h
  · split at h
    · simp at h
    · next front _ hc =>
      simp only [Except.ok.injEq, Prod.mk.injEq] at h
      obtain ⟨rfl, rfl⟩ := h
      exact ⟨'-' :: front, rfl, by simp [append_of_cut hc]⟩
  · simp at h

theorem append_of_cdata {s rest : List Char} {l : Lexeme} (h : cdata s = .ok (l, rest)) :
    ∃ raw, l.raw = '<' :: '!' :: '[' :: raw ∧ raw ++ rest = s := by
  unfold cdata at h
  split at h
  · split at h
    · simp at h
    · next front _ hc =>
      simp only [Except.ok.injEq, Prod.mk.injEq] at h
      obtain ⟨rfl, rfl⟩ := h
      exact ⟨'C' :: 'D' :: 'A' :: 'T' :: 'A' :: '[' :: front, rfl, by simp [append_of_cut hc]⟩
  · simp at h

theorem append_of_doctype {s rest : List Char} {l : Lexeme} (h : doctype s = .ok (l, rest)) :
    ∃ raw, l.raw = '<' :: '!' :: raw ∧ raw ++ rest = s := by
  unfold doctype at h
  simp only at h
  split at h
  · split at h
    · simp at h
    · next front _ hc =>
      split at h
      · simp at h
      · simp only [Except.ok.injEq, Prod.mk.injEq] at h
        obtain ⟨rfl, rfl⟩ := h
        exact ⟨s.take 7 ++ front, rfl, by simp [append_of_cut hc]⟩
  · simp at h

theorem append_of_reference {s rest : List Char} {l : Lexeme} (h : reference s = .ok (l, rest)) :
    ∃ raw, l.raw = '&' :: raw ∧ raw ++ rest = s := by
  unfold reference at h
  simp only at h
  split at h
  · next rest' hd =>
    simp only [Except.ok.injEq, Prod.mk.injEq] at h
    obtain ⟨rfl, rfl⟩ := h
    refine ⟨_, rfl, ?_⟩
    rw [List.append_assoc, List.singleton_append, ← hd, List.takeWhile_append_dropWhile]
  · simp at h

/-- The characters of a token begin with the first one left, and with the rest they make up the
document. -/
theorem exists_raw_of_next {c : Char} {s rest : List Char} {l : Lexeme}
    (h : next c s = .ok (l, rest)) : ∃ raw, l.raw = c :: raw ∧ raw ++ rest = s := by
  unfold next at h
  split at h
  · split at h
    · obtain ⟨raw, hr, hs⟩ := append_of_instruction h
      exact ⟨_, hr, by simp [hs]⟩
    · obtain ⟨raw, hr, hs⟩ := append_of_endTag h
      exact ⟨_, hr, by simp [hs]⟩
    · obtain ⟨raw, hr, hs⟩ := append_of_comment h
      exact ⟨_, hr, by simp [hs]⟩
    · obtain ⟨raw, hr, hs⟩ := append_of_cdata h
      exact ⟨_, hr, by simp [hs]⟩
    · split at h
      · obtain ⟨raw, hr, hs⟩ := append_of_doctype h
        exact ⟨_, hr, by simp [hs]⟩
      · obtain ⟨raw, hr, hs⟩ := append_of_doctype h
        exact ⟨_, hr, by simp [hs]⟩
      · simp at h
    · exact append_of_openTag h
  · exact append_of_reference h
  · simp only [Except.ok.injEq, Prod.mk.injEq] at h
    obtain ⟨rfl, rfl⟩ := h
    exact ⟨_, rfl, List.takeWhile_append_dropWhile⟩

/-- The characters of a token and the rest of the document make up the document. -/
theorem append_of_next {c : Char} {s rest : List Char} {l : Lexeme}
    (h : next c s = .ok (l, rest)) : l.raw ++ rest = c :: s := by
  obtain ⟨raw, hr, hs⟩ := exists_raw_of_next h
  simp [hr, hs]

/-- What is left behind a token is no longer than what was behind its first character. -/
theorem length_le_of_next {c : Char} {s rest : List Char} {l : Lexeme}
    (h : next c s = .ok (l, rest)) : rest.length ≤ s.length := by
  obtain ⟨raw, -, hs⟩ := exists_raw_of_next h
  simp [← hs]

/-! ## Whole documents -/

/-- Takes the tokens of a document one after the other into a state, until one of them, or the
document itself, is at fault. -/
def foldTokens {σ ε : Type} (step : σ → Lexeme → Except ε σ) (fault : Fault → ε) (state : σ) :
    List Char → Except ε σ
  | [] => .ok state
  | c :: s =>
    match h : next c s with
    | .error e => .error (fault e)
    | .ok (l, rest) =>
      match step state l with
      | .error e => .error e
      | .ok state =>
        have : rest.length < (c :: s).length := Nat.lt_succ_of_le (length_le_of_next h)
        foldTokens step fault state rest
  termination_by s => s.length
  decreasing_by assumption

end Vendoring.Xml
