import Vendoring.Proofs.Pom.Closing
import Vendoring.Proofs.Pom.Outline
import Vendoring.Proofs.Pom.Reached
import Vendoring.Proofs.Xml.Spelling

/-!
# The lines of declarations

A dependency of the project is declared by a tag at the path of the dependencies, and its line is
looked up with the position before this tag.  A step of the reader adds a line exactly at such a tag
(`lines_step`), so a run adds the lines of all of them in their order (`lines_foldlM`), whatever
text, comments, CDATA sections and references stand before and between them.

Positions count from behind a byte order mark, while lines start at positions of the whole text.
So the line of a dependency is the one in which its tag stands, unless there is a mark and a line
feed among the three bytes before the tag (`read_lines`).
-/

namespace Vendoring.Pom

open Xml (Lexeme Token Reads byteLength byteLength_append)

/-- The local names of nested elements, from the root down; the names come innermost first. -/
def pathOf (names : List (List Char)) : List String :=
  (names.map fun name => String.ofList (Xml.localName name)).reverse

/-- Does the tag begin a dependency of the project, inside the elements with the given names? -/
def declaresDependency (names : List (List Char)) : Token → Bool
  | .start name => pathOf (name :: names) = Progress.dependencyPath
  | .empty name => pathOf (name :: names) = Progress.dependencyPath
  | _ => false

/-- The texts before the tags that begin dependencies of the project, where the first token stands
behind the text `before` inside the elements with the given names. -/
def fronts (names : List (List Char)) (before : List Char) : List Lexeme → List (List Char)
  | [] => []
  | l :: ls =>
    (if declaresDependency names l.token then [before] else []) ++
      fronts (l.token.opened names) (before ++ l.raw) ls

variable {names : List (List Char)} {before front s : List Char} {ls : List Lexeme}

/-- **The fronts are the texts before the declaring tags**, and no others. -/
theorem mem_fronts_iff :
    front ∈ fronts names before ls ↔
      ∃ passed l rest, ls = passed ++ l :: rest ∧
        declaresDependency (passed.foldl (fun names l => l.token.opened names) names) l.token ∧
        front = before ++ passed.flatMap Lexeme.raw := by
  induction ls generalizing names before with
  | nil => simp [fronts]
  | cons l ls ih =>
    rw [fronts, List.mem_append, ih]
    constructor
    · rintro (h | ⟨passed, l', rest, rfl, hdeclares, rfl⟩)
      · by_cases hdeclares : declaresDependency names l.token = true
        · rw [if_pos hdeclares, List.mem_singleton] at h
          exact ⟨[], l, ls, rfl, hdeclares, by simp [h]⟩
        · simp [hdeclares] at h
      · exact ⟨l :: passed, l', rest, rfl, hdeclares, by simp⟩
    · rintro ⟨passed, l', rest, hls, hdeclares, rfl⟩
      cases passed with
      | nil =>
        obtain ⟨rfl, rfl⟩ := by simpa using hls
        exact .inl (by simp_all)
      | cons l'' passed =>
        obtain ⟨rfl, rfl⟩ := by simpa using hls
        exact .inr ⟨passed, l', rest, rfl, hdeclares, by simp⟩

/-- All fronts go on from the text before the first token. -/
theorem prefix_of_mem_fronts (h : front ∈ fronts names before ls) : before <+: front := by
  obtain ⟨passed, l, rest, -, -, rfl⟩ := mem_fronts_iff.1 h
  exact List.prefix_append ..

/-- The fronts come in the order of the text. -/
theorem pairwise_fronts : (fronts names before ls).Pairwise (· <+: ·) := by
  induction ls generalizing names before with
  | nil => exact .nil
  | cons l ls ih =>
    rw [fronts]
    split
    · refine List.pairwise_cons.2 ⟨fun front hfront => ?_, ih⟩
      exact (List.prefix_append before l.raw).trans (prefix_of_mem_fronts hfront)
    · exact ih

theorem isTag_of_declaresDependency {t : Token} (h : declaresDependency names t = true) :
    t.isTag = true := by
  cases t <;> first | rfl | cases h

/-- Behind each front its tag follows in the text. -/
theorem exists_append_of_mem_fronts {rest : List Char} (hreads : Reads s ls rest)
    (h : front ∈ fronts names before ls) : ∃ behind, before ++ s = front ++ '<' :: behind := by
  induction hreads generalizing names before with
  | nil s => cases h
  | @cons c s rest rest' l ls hnext hrest ih =>
    rw [fronts, List.mem_append] at h
    rcases h with h | h
    · by_cases hdeclares : declaresDependency names l.token = true
      · rw [if_pos hdeclares, List.mem_singleton] at h
        obtain ⟨raw, hraw⟩ :=
          (Xml.spelledBy_of_next hnext).exists_cons (isTag_of_declaresDependency hdeclares)
        rw [h, ← Xml.append_of_next hnext, hraw]
        exact ⟨raw ++ rest, rfl⟩
      · simp [hdeclares] at h
    · obtain ⟨behind, hbehind⟩ := ih h
      refine ⟨behind, ?_⟩
      rw [← hbehind, List.append_assoc, Xml.append_of_next hnext]

namespace Progress

variable {line : Nat → Nat} {p q : Progress} {l : Lexeme}

/-- The lines of the dependencies that have begun, in their order. -/
def lines (p : Progress) : List Nat := p.settled.dependencies.map Dependency.line

theorem lines_eq (p : Progress) :
    p.lines =
      p.document.dependencies.map Dependency.line ++ p.pending.toList.map Dependency.line := by
  rw [lines, settled, List.map_append]

theorem line_setField (d : Dependency) (field : String) (text : Option String) :
    (setField d field text).line = d.line := by
  unfold setField
  split <;> rfl

/-- To leave an element keeps the lines. -/
theorem lines_harvest (p : Progress) : p.harvest.lines = p.lines := by
  rw [lines_eq, lines_eq]
  unfold harvest
  simp only
  split <;> cases p.pending <;> simp [line_setField]

/-- Where a dependency is declared, none is pending. -/
theorem pending_eq_none_of_declares (hp : Consistent p) {name : List Char}
    (h : p.declares name = true) : p.pending = none := by
  -- a pending dependency would be open, but the path here is too short for that
  rw [← Option.not_isSome_iff_eq_none, hp.pending, path_of_declares h]
  decide

theorem declares_eq (p : Progress) (name : List Char) :
    p.declares (Xml.localName name) =
      decide (pathOf (name :: p.opened) = dependencyPath) := by
  rw [Bool.eq_iff_iff, declares_iff, decide_eq_true_eq, pathOf, List.map_cons, List.reverse_cons]
  rfl

/-- To begin an element changes at most whether the root has begun. -/
theorem exists_rooted_of_root {name : List Char} (h : p.root name = .ok q) :
    ∃ rooted, q = { p with rooted := rooted } := by
  rcases root_cases h with ⟨-, rfl⟩ | ⟨-, -, rfl⟩
  · exact ⟨q.rooted, rfl⟩
  · exact ⟨true, rfl⟩

theorem lines_endElement {name : List Char} (h : p.endElement name = .ok q) :
    q.lines = p.lines := by
  cases hopened : p.opened with
  | nil => simp [endElement_of_nil hopened] at h
  | cons expected outer =>
    rw [endElement_of_opened hopened] at h
    split at h
    · cases h
      exact p.lines_harvest
    · cases h

/-- **A tag that begins a dependency adds its line**, and no other token adds one. -/
theorem lines_take (hp : Consistent p) {t : Token} (h : p.take line t = .ok q) :
    q.lines = p.lines ++ if declaresDependency p.opened t then [line p.position] else [] := by
  cases t with
  | start name | empty name =>
    simp only [take, startElement, emptyElement] at h
    obtain ⟨p', hroot, rfl⟩ := exists_of_map_eq_ok h
    obtain ⟨rooted, rfl⟩ := exists_rooted_of_root hroot
    have hsame : ({ p with rooted := rooted } : Progress).declares = p.declares := rfl
    rw [lines_eq, lines_eq, hsame, declaresDependency, ← declares_eq]
    by_cases hdeclares : p.declares (Xml.localName name) = true
    · simp [hdeclares, pending_eq_none_of_declares hp hdeclares]
    · simp [hdeclares]
  | close name => simp [lines_endElement h, declaresDependency]
  | reference name =>
    rw [take] at h
    split at h
    · cases h
      simp [declaresDependency, lines, settled, addText]
    · cases h
  | text s | cdata s | comment | instruction | doctype =>
    cases h
    simp [declaresDependency, lines, settled, addText]

theorem lines_step (hp : Consistent p) (h : p.step line l = .ok q) :
    q.lines =
      p.lines ++ if declaresDependency p.opened l.token then [line p.position] else [] := by
  rw [step] at h
  obtain ⟨p', htake, rfl⟩ := exists_of_map_eq_ok h
  show p'.lines = _
  exact lines_take hp htake

/-- **A run adds the lines of all dependencies that begin**, each looked up at the position before
its tag. -/
theorem lines_foldlM (hp : Consistent p) (h : ls.foldlM (step line) p = .ok q) {shift : Nat}
    (hposition : p.position + shift = byteLength before) :
    q.lines =
      p.lines ++ (fronts p.opened before ls).map fun front => line (byteLength front - shift) := by
  -- the text before the tokens grows along with the position
  induction ls generalizing p before with
  | nil =>
    cases h
    simp [fronts]
  | cons l ls ih =>
    rw [List.foldlM_cons] at h
    obtain ⟨p', hstep, hrun⟩ := bind_eq_ok_iff.1 h
    have hbehind : p'.position + shift = byteLength (before ++ l.raw) := by
      rw [position_step hstep, byteLength_append, ← hposition, Nat.add_right_comm]
    have hfront : byteLength before - shift = p.position := by omega
    rw [ih (consistent_step hp hstep) hrun hbehind, lines_step hp hstep, opened_of_step hstep,
      fronts, List.map_append, List.append_assoc]
    by_cases hdeclares : declaresDependency p.opened l.token = true
    · simp [hdeclares, hfront]
    · simp [hdeclares]

/-- In the end no dependency is pending, so the lines are those of the document. -/
theorem lines_of_finish (hp : Consistent p) {doc : Document} (h : p.finish = .ok doc) :
    doc.dependencies.map Dependency.line = p.lines := by
  have houtline : p.outline = ⟨[], true⟩ := exists_finish_iff.1 ⟨doc, h⟩
  have hopened : p.opened = [] := congrArg Outline.opened houtline
  have hrooted : p.rooted = true := congrArg Outline.rooted houtline
  have hnone : p.pending = none := by
    rw [← Option.not_isSome_iff_eq_none, hp.pending, path, hopened]
    decide
  rw [finish, hopened] at h
  simp only [if_pos hrooted, Except.ok.injEq] at h
  rw [lines_eq, hnone, h]
  simp

end Progress

/-! ## Documents -/

/-- The texts of a document before the tags that begin dependencies of the project, in their
order. -/
def DeclarationFronts (s : List Char) (texts : List (List Char)) : Prop :=
  ∃ ls, Reads (withoutMark s) ls [] ∧ texts = fronts [] (mark s) ls

/-- A document has one list of such texts. -/
theorem DeclarationFronts.unique {texts texts' : List (List Char)}
    (h : DeclarationFronts s texts) (h' : DeclarationFronts s texts') : texts = texts' := by
  obtain ⟨ls, hreads, rfl⟩ := h
  obtain ⟨ls', hreads', rfl⟩ := h'
  rw [hreads.unique hreads']

theorem DeclarationFronts.exists_append {texts : List (List Char)}
    (h : DeclarationFronts s texts) (hfront : front ∈ texts) :
    ∃ behind, s = front ++ '<' :: behind := by
  obtain ⟨ls, hreads, rfl⟩ := h
  obtain ⟨behind, hbehind⟩ := exists_append_of_mem_fronts hreads hfront
  exact ⟨behind, by rw [← hbehind, mark_append_withoutMark]⟩

/-- The line behind a text: one more than the line feeds in it. -/
def lineBehind (front : List Char) : Nat := 1 + front.count '\n'

theorem lineBehind_mono (h : front <+: s) : lineBehind front ≤ lineBehind s :=
  Nat.add_le_add_left (h.sublist.count_le '\n') 1

theorem byteLength_mono (h : front <+: s) : byteLength front ≤ byteLength s := by
  obtain ⟨behind, rfl⟩ := h
  rw [byteLength_append]
  exact Nat.le_add_right _ _

variable {ds : List Dependency} {texts : List (List Char)}

/-- **The lines of a document** are looked up at the positions before the declaring tags, without
the bytes of a byte order mark. -/
theorem exists_lines_eq {doc : Document} (h : readChars s = .ok doc) :
    ∃ texts, DeclarationFronts s texts ∧
      doc.dependencies.map Dependency.line =
        texts.map fun front => lineOf (lineStarts s) (byteLength front - byteLength (mark s)) := by
  obtain ⟨ls, p, hreads, hrun, hfinish⟩ := readChars_eq_ok_iff.1 h
  refine ⟨_, ⟨ls, hreads, rfl⟩, ?_⟩
  have hp := Progress.consistent_foldlM Progress.consistent_initial hrun
  have hlines : p.lines = [] ++ (fronts [] (mark s) ls).map fun front =>
      lineOf (lineStarts s) (byteLength front - byteLength (mark s)) :=
    Progress.lines_foldlM Progress.consistent_initial hrun (Nat.zero_add _)
  rw [Progress.lines_of_finish hp hfinish, hlines, List.nil_append]

/-- Lines that lack the line feeds of some ends are those behind the texts exactly if no end has
any. -/
theorem forall₂_lineBehind_iff {n : Nat}
    (h : List.Forall₂ (fun d front => d.line + (ending n front).count '\n' = lineBehind front)
      ds texts) :
    List.Forall₂ (fun d front => d.line = lineBehind front) ds texts ↔
      ∀ front ∈ texts, '\n' ∉ ending n front := by
  induction h with
  | nil => simp
  | cons hline _ ih =>
    rw [List.forall₂_cons, ih, List.forall_mem_cons, ← List.count_eq_zero]
    refine and_congr_left fun _ => ?_
    omega

theorem ending_mark_iff :
    (∀ front ∈ texts, '\n' ∉ ending (byteLength (mark s)) front) ↔
      (Marked s → ∀ front ∈ texts, '\n' ∉ ending 3 front) := by
  by_cases hmarked : Marked s
  · rw [byteLength_mark_of_marked hmarked]
    exact ⟨fun h _ => h, fun h => h hmarked⟩
  · have hzero : byteLength (mark s) = 0 := by rw [mark_of_not_marked hmarked]; rfl
    simp [hmarked, hzero, ending_zero]

/-- The position `n` bytes before a tag lies in the line behind the front, less the line feeds among
these bytes. -/
theorem DeclarationFronts.lineOf_sub (h : DeclarationFronts s texts) (hfront : front ∈ texts)
    (n : Nat) :
    lineOf (lineStarts s) (byteLength front - n) + (ending n front).count '\n' =
      lineBehind front := by
  obtain ⟨behind, rfl⟩ := h.exists_append hfront
  exact lineOf_sub_add_count n front _

theorem DeclarationFronts.pairwise (h : DeclarationFronts s texts) :
    texts.Pairwise (· <+: ·) := by
  obtain ⟨ls, -, rfl⟩ := h
  exact pairwise_fronts

/-- **The line of a dependency is that of its tag**, less the line feeds among the last bytes before
the tag, as many bytes as a byte order mark at the beginning takes.  Lines do not decrease along the
dependencies and lie within the document.  They are all those of the tags exactly if there is no
mark or no tag has a line feed among the three bytes before it. -/
theorem read_lines {text : String} {doc : Document} (h : read text = .ok doc) :
    ∃ texts, DeclarationFronts text.toList texts ∧
      (∀ front ∈ texts, ∃ behind, text.toList = front ++ '<' :: behind) ∧
      List.Forall₂ (fun d front =>
        d.line + (ending (byteLength (mark text.toList)) front).count '\n' = lineBehind front)
        doc.dependencies texts ∧
      doc.dependencies.Pairwise (·.line ≤ ·.line) ∧
      (∀ d ∈ doc.dependencies, d.line ≤ lineBehind text.toList) ∧
      (List.Forall₂ (fun d front => d.line = lineBehind front) doc.dependencies texts ↔
        (Marked text.toList → ∀ front ∈ texts, '\n' ∉ ending 3 front)) := by
  obtain ⟨texts, hfronts, hlines⟩ := exists_lines_eq h
  have hlooked : List.Forall₂ (fun d front => d.line =
      lineOf (lineStarts text.toList) (byteLength front - byteLength (mark text.toList)))
      doc.dependencies texts := by
    rwa [← List.forall₂_map_right_iff, ← List.forall₂_map_left_iff, List.forall₂_eq_eq_eq]
  have hequal : List.Forall₂ (fun d front =>
      d.line + (ending (byteLength (mark text.toList)) front).count '\n' = lineBehind front)
      doc.dependencies texts := by
    refine List.forall₂_iff_zip.2 ⟨hlooked.length_eq, fun hmem => ?_⟩
    rw [List.forall₂_zip hlooked hmem]
    exact hfronts.lineOf_sub (List.of_mem_zip hmem).2 _
  refine ⟨texts, hfronts, fun front hfront => hfronts.exists_append hfront, hequal, ?_, ?_, ?_⟩
  · have hpairwise := hfronts.pairwise.imp (S := fun front front' =>
      lineOf (lineStarts text.toList) (byteLength front - byteLength (mark text.toList)) ≤
        lineOf (lineStarts text.toList) (byteLength front' - byteLength (mark text.toList)))
      fun hprefix => lineOf_mono (Nat.sub_le_sub_right (byteLength_mono hprefix) _) _
    rw [← List.pairwise_map, ← hlines] at hpairwise
    exact List.pairwise_map.1 hpairwise
  · intro d hd
    have hmem : d.line ∈ doc.dependencies.map Dependency.line := List.mem_map_of_mem hd
    rw [hlines, List.mem_map] at hmem
    obtain ⟨front, hfront, hline⟩ := hmem
    obtain ⟨behind, hs⟩ := hfronts.exists_append hfront
    calc d.line ≤ lineBehind front := by
          rw [← hline, ← hfronts.lineOf_sub hfront]
          exact Nat.le_add_right _ _
      _ ≤ lineBehind text.toList := lineBehind_mono ⟨_, hs.symm⟩
  · rw [forall₂_lineBehind_iff hequal, ending_mark_iff]

/-- Without a mark the line is that of the tag. -/
theorem read_lines_of_secondLine :
    read "<project><dependencies>\n<dependency/></dependencies></project>" =
        .ok { dependencies := [{ line := 2 }] } ∧
      ∃ texts,
        DeclarationFronts
          "<project><dependencies>\n<dependency/></dependencies></project>".toList texts ∧
        List.Forall₂ (fun (d : Dependency) front => d.line = lineBehind front)
          [{ line := 2 }] texts := by
  have hread : read "<project><dependencies>\n<dependency/></dependencies></project>" =
      .ok { dependencies := [{ line := 2 }] } := by decide +kernel
  obtain ⟨texts, hfronts, -, -, -, -, hexact⟩ := read_lines hread
  have hplain :
      ¬ Marked "<project><dependencies>\n<dependency/></dependencies></project>".toList := by
    decide +kernel
  exact ⟨hread, texts, hfronts, hexact.2 fun hmarked => absurd hmarked hplain⟩

/-- Behind a mark a line feed right before a tag is missed. -/
theorem line_ne_of_mark :
    read "\uFEFF<project><dependencies>\n<dependency/></dependencies></project>" =
        .ok { dependencies := [{ line := 1 }] } ∧
      DeclarationFronts
        "\uFEFF<project><dependencies>\n<dependency/></dependencies></project>".toList
        ["\uFEFF<project><dependencies>\n".toList] ∧
      lineBehind "\uFEFF<project><dependencies>\n".toList = 2 := by
  have htokens : Xml.tokens
      (withoutMark "\uFEFF<project><dependencies>\n<dependency/></dependencies></project>".toList) =
        .ok [⟨.start "project".toList, "<project>".toList⟩,
          ⟨.start "dependencies".toList, "<dependencies>".toList⟩,
          ⟨.text ['\n'], ['\n']⟩,
          ⟨.empty "dependency".toList, "<dependency/>".toList⟩,
          ⟨.close "dependencies".toList, "</dependencies>".toList⟩,
          ⟨.close "project".toList, "</project>".toList⟩] := by decide +kernel
  exact ⟨by decide +kernel, ⟨_, Xml.tokens_eq_ok_iff.1 htokens, by decide +kernel⟩,
    by decide +kernel⟩

end Vendoring.Pom
