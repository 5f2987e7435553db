import Vendoring.Proofs.Pom.Outline
import Vendoring.Proofs.Pom.Reached
import Vendoring.Proofs.Xml.Spelling

/-!
# What is accepted as a POM

A text is accepted exactly if it is laid out as a root element with the local name `project`,
nested within, and other tokens than tags before and behind it (`exists_readChars_iff`).  There is
one such layout of a text at most (`Laid.unique`).

The tokens outside the root are not looked at any further, as long as references stand for
characters.  So a text that is accepted is a whole document, with nothing but blanks, comments,
instructions and document type declarations outside the root, exactly if no other text, no CDATA
section and no reference stands there (`isWholeDocument_iff`).
-/

namespace Vendoring.Xml

/-- May the token stand outside the root of a document?  Of text only blanks may. -/
def Token.IsOuter : Token → Prop
  | .text s => ∀ c ∈ s, isSpace c = true
  | .comment => True
  | .instruction => True
  | .doctype => True
  | _ => False

end Vendoring.Xml

namespace Vendoring.Pom

open Xml (Lexeme Token Reads)

/-- The text consists of the tokens of a root with the local name `project`, nested within, and of
tokens other than tags before and behind it; all references stand for characters. -/
structure Laid (s : List Char) (before root after : List Lexeme) : Prop where
  characters : mark s ++ (before ++ (root ++ after)).flatMap Lexeme.raw = s
  reads : Reads (withoutMark s) (before ++ (root ++ after)) []
  spelled : ∀ l ∈ before ++ (root ++ after), l.token.SpelledBy l.raw
  resolved : ∀ l ∈ before ++ (root ++ after), l.token.IsResolved
  isProject : Outline.IsProject (root.map Lexeme.token)
  outside : ∀ l ∈ before ++ after, l.token.isTag = false

/-- The text is a whole document: outside its root there is nothing but blanks, comments,
instructions and document type declarations. -/
def IsWholeDocument (s : List Char) : Prop :=
  ∃ before root after, Laid s before root after ∧ ∀ l ∈ before ++ after, l.token.IsOuter

variable {s : List Char} {ls before root after before' root' after' : List Lexeme}

/-! ## Layouts -/

/-- A list is cut in one way before the first element with a property. -/
theorem append_inj_of_first {α : Type} {p : α → Bool} {l l' m m' : List α}
    (hl : ∀ a ∈ l, p a = false) (hl' : ∀ a ∈ l', p a = false) (hm : ∃ a ∈ m.head?, p a = true)
    (hm' : ∃ a ∈ m'.head?, p a = true) (h : l ++ m = l' ++ m') : l = l' ∧ m = m' := by
  have hfront : ∀ {l m : List α}, (∀ a ∈ l, p a = false) → (∃ a ∈ m.head?, p a = true) →
      (l ++ m).takeWhile (!p ·) = l := by
    intro l m hl hm
    obtain ⟨a, ha, hpa⟩ := hm
    obtain ⟨m, rfl⟩ := List.head?_eq_some_iff.1 (Option.mem_def.1 ha)
    rw [List.takeWhile_append_of_pos (by simpa using hl), List.takeWhile_cons_of_neg (by simp [hpa]),
      List.append_nil]
  have hsame : l = l' := by rw [← hfront hl hm, h, hfront hl' hm']
  subst hsame
  exact ⟨rfl, List.append_cancel_left h⟩

/-- The root begins and ends with a tag. -/
theorem exists_tags_of_isProject (h : Outline.IsProject (root.map Lexeme.token)) :
    (∃ l ∈ root.head?, l.token.isTag = true) ∧ ∃ l ∈ root.getLast?, l.token.isTag = true := by
  obtain ⟨name, -, helement⟩ := h
  obtain ⟨⟨t, ht, htag⟩, t', ht', htag'⟩ := helement.exists_tags
  rw [List.head?_map, Option.mem_def, Option.map_eq_some_iff] at ht
  rw [List.getLast?_map, Option.mem_def, Option.map_eq_some_iff] at ht'
  obtain ⟨l, hl, rfl⟩ := ht
  obtain ⟨l', hl', rfl⟩ := ht'
  exact ⟨⟨l, hl, htag⟩, l', hl', htag'⟩

/-- **A text is laid out in one way at most.** -/
theorem Laid.unique (h : Laid s before root after) (h' : Laid s before' root' after') :
    before = before' ∧ root = root' ∧ after = after' := by
  have houter := List.forall_mem_append.1 h.outside
  have houter' := List.forall_mem_append.1 h'.outside
  obtain ⟨⟨l, hl, htag⟩, hlast⟩ := exists_tags_of_isProject h.isProject
  obtain ⟨⟨l', hl', htag'⟩, hlast'⟩ := exists_tags_of_isProject h'.isProject
  obtain ⟨rfl, hrest⟩ := append_inj_of_first (p := fun l => l.token.isTag) houter.1 houter'.1
    ⟨l, by rw [List.head?_append, Option.mem_def.1 hl]; rfl, htag⟩
    ⟨l', by rw [List.head?_append, Option.mem_def.1 hl']; rfl, htag'⟩ (h.reads.unique h'.reads)
  have hback := congrArg List.reverse hrest
  rw [List.reverse_append, List.reverse_append] at hback
  obtain ⟨hafter, hroot⟩ := append_inj_of_first (p := fun l => l.token.isTag)
    (fun l hl => houter.2 l (List.mem_reverse.1 hl))
    (fun l hl => houter'.2 l (List.mem_reverse.1 hl))
    (by simpa using hlast) (by simpa using hlast') hback
  exact ⟨rfl, List.reverse_injective hroot, List.reverse_injective hafter⟩

/-! ## Accepted texts -/

/-- A run leads to an end exactly if the outline does. -/
theorem exists_run_finish_iff {line : Nat → Nat} :
    (∃ doc p, ls.foldlM (Progress.step line) {} = .ok p ∧ p.finish = .ok doc) ↔
      (ls.map Lexeme.token).foldlM Outline.take {} = some ⟨[], true⟩ := by
  have houtline := Progress.outline_foldlM line {} ls
  show _ ↔ (ls.map Lexeme.token).foldlM Outline.take (Progress.outline {}) = some ⟨[], true⟩
  rw [← houtline]
  cases hrun : ls.foldlM (Progress.step line) {} with
  | error e => simp [Except.toOption]
  | ok p => simp [Except.toOption, ← Progress.exists_finish_iff]

/-- **A text is accepted exactly if it is laid out** as a project with no other tags outside. -/
theorem exists_readChars_iff :
    (∃ doc, readChars s = .ok doc) ↔ ∃ before root after, Laid s before root after := by
  constructor
  · rintro ⟨doc, hread⟩
    obtain ⟨ls, p, hreads, hrun, hfinish⟩ := readChars_eq_ok_iff.1 hread
    obtain ⟨hresolved, before, root, after, hmap, hproject, houtside⟩ :=
      Outline.foldlM_take_eq_some_iff.1 (exists_run_finish_iff.1 ⟨doc, p, hrun, hfinish⟩)
    obtain ⟨before, rest, rfl, rfl, hrest⟩ := List.map_eq_append_iff.1 hmap
    obtain ⟨root, after, rfl, rfl, rfl⟩ := List.map_eq_append_iff.1 hrest
    refine ⟨before, root, after, ?_, hreads, hreads.spelledBy, ?_, hproject, ?_⟩
    · rw [hreads.raw_eq, mark_append_withoutMark]
    · exact fun l hl => hresolved _ (List.mem_map_of_mem hl)
    · intro l hl
      apply houtside
      rw [← List.map_append]
      exact List.mem_map_of_mem hl
  · rintro ⟨before, root, after, h⟩
    have htake : ((before ++ (root ++ after)).map Lexeme.token).foldlM Outline.take {} =
        some ⟨[], true⟩ := by
      refine Outline.foldlM_take_eq_some_iff.2 ⟨List.forall_mem_map.2 h.resolved,
        before.map Lexeme.token, root.map Lexeme.token, after.map Lexeme.token, by simp,
        h.isProject, ?_⟩
      rw [← List.map_append]
      exact List.forall_mem_map.2 h.outside
    have hends : ∃ doc p, (before ++ (root ++ after)).foldlM
        (Progress.step (lineOf (lineStarts s))) {} = .ok p ∧ p.finish = .ok doc :=
      exists_run_finish_iff.2 htake
    obtain ⟨doc, p, hrun, hfinish⟩ := hends
    exact ⟨doc, readChars_eq_ok_iff.2 ⟨_, p, h.reads, hrun, hfinish⟩⟩

/-- **A text that is laid out is a whole document** exactly if nothing else stands outside its
root. -/
theorem isWholeDocument_iff (h : Laid s before root after) :
    IsWholeDocument s ↔ ∀ l ∈ before ++ after, l.token.IsOuter := by
  constructor
  · rintro ⟨before', root', after', h', houter⟩
    obtain ⟨rfl, -, rfl⟩ := h.unique h'
    exact houter
  · exact fun houter => ⟨before, root, after, h, houter⟩

/-- **Exactly the texts of one nested element with the local name `project` are accepted**, whatever
stands outside it besides tags, and of these exactly those are whole documents that have nothing
but blanks, comments, instructions and document type declarations there. -/
theorem read_accepts_iff (text : String) :
    ((∃ doc, read text = .ok doc) ↔ ∃ before root after, Laid text.toList before root after) ∧
      (IsWholeDocument text.toList ↔ (∃ doc, read text = .ok doc) ∧
        ∀ before root after, Laid text.toList before root after →
          ∀ l ∈ before ++ after, l.token.IsOuter) := by
  refine ⟨exists_readChars_iff, ?_, ?_⟩
  · intro hwhole
    refine ⟨?_, fun before root after h => (isWholeDocument_iff h).1 hwhole⟩
    obtain ⟨before, root, after, h, -⟩ := hwhole
    exact exists_readChars_iff.2 ⟨before, root, after, h⟩
  · rintro ⟨haccepted, houter⟩
    obtain ⟨before, root, after, h⟩ := exists_readChars_iff.1 haccepted
    exact ⟨before, root, after, h, houter before root after h⟩

/-- Text behind the root is accepted. -/
theorem read_accepts_stray_text :
    read "<project/>x" = .ok {} ∧ ¬ IsWholeDocument "<project/>x".toList := by
  have htokens : Xml.tokens (withoutMark "<project/>x".toList) =
      .ok [⟨.empty "project".toList, "<project/>".toList⟩, ⟨.text ['x'], ['x']⟩] := by
    decide +kernel
  have hreads := Xml.tokens_eq_ok_iff.1 htokens
  have hlaid : Laid "<project/>x".toList []
      [⟨.empty "project".toList, "<project/>".toList⟩] [⟨.text ['x'], ['x']⟩] := by
    refine ⟨by decide +kernel, hreads, hreads.spelledBy, ?_, ⟨_, by decide, .empty⟩, ?_⟩
    · simp [Token.IsResolved]
    · simp [Token.isTag]
  refine ⟨by decide +kernel, fun hwhole => ?_⟩
  have houter := (isWholeDocument_iff hlaid).1 hwhole ⟨.text ['x'], ['x']⟩ (by simp)
  exact absurd (houter 'x' (by simp)) (by decide)

end Vendoring.Pom
