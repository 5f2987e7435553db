import Mathlib.Data.List.ModifyLast
import Vendoring.Proofs.Pom.Closing
import Vendoring.Proofs.Pom.Reached

/-!
# The values of elements

The text of an element may be written in pieces: runs of characters, references, sections of
character data, with comments and instructions among them.  Whatever the pieces are, the element has
the value that their characters make together, trimmed once and not decoded again.

* `run_enclosing`: behind an element that holds pieces only, the reader goes on with what the
  characters of the pieces have set.
* `settled_harvest_of_readsText`: what is known when an element whose text is used is left.
* `read_value`: both put together for the documents with a given beginning.
-/

namespace Vendoring

/-- The written form of an element that holds nothing but pieces. -/
def Xml.Tag.enclosing (t : Xml.Tag) (pieces : List Xml.Piece) : List Char :=
  t.start ++ (pieces.flatMap Xml.Piece.written ++ t.stop)

namespace Pom

open Xml (Piece Tag byteLength byteLength_append)

/-- The document in which an element with the given path has a text as its value.  Values are
trimmed, and missing if only blanks are left, but for those of properties, which are empty then.
What is said inside of a dependency is said of the last one. -/
def Document.withValue (doc : Document) (path : List String) (text : List Char) : Document :=
  match path with
  | ["project", "groupId"] => { doc with groupId := Text.trimmed? text }
  | ["project", "artifactId"] => { doc with artifactId := Text.trimmed? text }
  | ["project", "version"] => { doc with version := Text.trimmed? text }
  | ["project", "properties", key] =>
    { doc with
      properties := doc.properties.insert (key, String.ofList (Text.trimChars text)) }
  | ["project", "dependencies", "dependency", field] =>
    { doc with
      dependencies :=
        doc.dependencies.modifyLast (Progress.setField · field (Text.trimmed? text)) }
  | _ => doc

namespace Progress

variable {line : Nat → Nat} {p : Progress} {tag : Tag}

/-! ## Leaving an element -/

/-- **To leave an element whose text is used sets its value.** -/
theorem settled_harvest_of_readsText (hp : Consistent p) (hread : readsText p.path = true) :
    p.harvest.settled = p.settled.withValue p.path p.text := by
  unfold readsText at hread
  split at hread
  · next field heq =>
    rw [List.contains_iff_mem] at hread
    simp only [List.mem_cons, List.not_mem_nil, or_false] at hread
    rcases hread with rfl | rfl | rfl
    all_goals
      simp only [harvest, heq, settled, Document.withValue]
  · next key heq => simp only [harvest, heq, settled, Document.withValue]
  · next field heq =>
    have hsome : p.pending.isSome = true := by
      rw [hp.pending, heq]
      exact ⟨[field], rfl⟩
    obtain ⟨d, hd⟩ := Option.isSome_iff_exists.1 hsome
    simp only [harvest, heq, settled, Document.withValue, hd, Option.map_some, Option.toList_some,
      List.modifyLast_concat]
  · cases hread

/-- The progress before the end tag of an element that has the given text. -/
def holding (p : Progress) (tag : Tag) (text : List Char) : Progress :=
  { p with opened := tag.name.characters :: p.opened, text := text }

theorem path_holding (p : Progress) (tag : Tag) (text : List Char) :
    (p.holding tag text).path = p.path ++ [tag.localName] :=
  path_of_opened rfl

/-- An element whose text is used declares no dependency. -/
theorem ne_dependencyPath_of_readsText {path : List String} (h : readsText path = true) :
    path ≠ dependencyPath := by
  rintro rfl
  exact absurd h (by decide)

theorem consistent_holding (hp : Consistent p) (hopened : p.opened ≠ [])
    (hpath : p.path ++ [tag.localName] ≠ dependencyPath) (text : List Char) :
    Consistent (p.holding tag text) where
  rooted _ := hp.rooted hopened
  pending := by
    rw [path_holding, List.prefix_concat_iff, or_iff_right hpath.symm]
    exact hp.pending

/-! ## Reading an element -/

/-- The progress behind an element that holds pieces only. -/
def behind (p : Progress) (tag : Tag) (pieces : List Piece) : Progress :=
  { (p.holding tag (pieces.flatMap Piece.characters)).harvest with
    opened := p.opened
    text := []
    position := p.position + byteLength (tag.enclosing pieces) }

/-- An element that holds pieces only is read as the characters of these. -/
theorem run_enclosing (hopened : p.opened ≠ [])
    (hpath : p.path ++ [tag.localName] ≠ dependencyPath) (pieces : List Piece)
    (rest : List Char) :
    p.run line (tag.enclosing pieces ++ rest) = (p.behind tag pieces).run line rest := by
  let text := pieces.flatMap Piece.characters
  let inside : Progress :=
    { p.holding tag text with
      position := p.position + byteLength tag.start + byteLength (pieces.flatMap Piece.written) }
  have hinside : pieces.foldl absorbPiece (p.enter line tag) = inside := by
    have hdeclares : ¬ p.declares (Xml.localName tag.name.characters) = true :=
      fun h => hpath (declares_iff.1 h)
    rw [foldl_absorbPiece, enter, if_neg hdeclares]
    rfl
  have hopen : inside.opened = tag.name.characters :: p.opened := rfl
  have hharvest : inside.harvest =
      { (p.holding tag text).harvest with text := text, position := inside.position } :=
    harvest_with _ (fun _ => rfl) _
  have hleave : inside.leave tag = p.behind tag pieces := by
    rw [leave, hharvest]
    simp only [behind, inside, holding, text, List.tail_cons, Tag.enclosing, byteLength_append,
      Nat.add_assoc]
  rw [Tag.enclosing, List.append_assoc, List.append_assoc, run_start (root_of_opened hopened _),
    run_pieces, hinside, run_stop hopen, hleave]

theorem settled_behind (hp : Consistent p) (hopened : p.opened ≠ [])
    (hread : readsText (p.path ++ [tag.localName]) = true) (pieces : List Piece) :
    (p.behind tag pieces).settled =
      p.settled.withValue (p.path ++ [tag.localName]) (pieces.flatMap Piece.characters) := by
  let inside := p.holding tag (pieces.flatMap Piece.characters)
  have hinside : Consistent inside :=
    consistent_holding hp hopened (ne_dependencyPath_of_readsText hread) _
  have hpath : inside.path = p.path ++ [tag.localName] := path_holding p tag _
  have hharvest := settled_harvest_of_readsText hinside (hpath ▸ hread)
  rw [hpath] at hharvest
  exact hharvest

theorem consistent_behind (hp : Consistent p)
    (hpath : p.path ++ [tag.localName] ≠ dependencyPath) (pieces : List Piece) :
    Consistent (p.behind tag pieces) where
  rooted hopened := (harvest_keeps _).2.1.trans (hp.rooted hopened)
  pending := by
    have hpending : (p.behind tag pieces).pending.isSome = p.pending.isSome :=
      isSome_pending_harvest ((path_holding p tag _).trans_ne hpath)
    have hsame : (p.behind tag pieces).path = p.path := path_congr rfl
    rw [hpending, hsame]
    exact hp.pending

end Progress

/-! ## Documents -/

/-- If children are looked at where a beginning of a document leads to, and the open elements are
closed there, the document says what is known. -/
theorem read_closers {before : String} {p : Progress} (hwhole : Whole before.toList)
    (hp : reached before.toList = .ok p) (hclosable : p.Closable)
    (hpath : p.path ∈ Progress.attentive) :
    read (before ++ String.ofList (Progress.closers p.opened)) = .ok p.settled := by
  have hconsistent := consistent_reached hwhole hp
  have hopened := Progress.opened_ne_nil_of_attentive hpath
  obtain ⟨t, ht⟩ : ∃ t, Progress.closers p.opened = '<' :: t := by
    obtain ⟨name, outer, hcons⟩ := List.exists_cons_of_ne_nil hopened
    rw [hcons]
    exact ⟨_, rfl⟩
  rw [read, String.toList_append, String.toList_ofList, ht, readChars_append hwhole, hp, ← ht]
  exact Progress.finish_run_closers _ hconsistent (hconsistent.rooted hopened) hclosable
    (.inr hpath)

/-- A document with an element that holds pieces only is read on behind the element. -/
theorem read_enclosing {before : String} {p : Progress} {tag : Tag} (hwhole : Whole before.toList)
    (hp : reached before.toList = .ok p) (hopened : p.opened ≠ [])
    (hpath : p.path ++ [tag.localName] ≠ Progress.dependencyPath) (pieces : List Piece)
    (rest : String) :
    read (before ++ String.ofList (tag.enclosing pieces) ++ rest) =
      ((p.behind tag pieces).run
        (lineOf (lineStarts (before ++ String.ofList (tag.enclosing pieces) ++ rest).toList))
        rest.toList).bind Progress.finish := by
  have hread : readChars (before.toList ++ (tag.enclosing pieces ++ rest.toList)) =
      (reached before.toList).bind fun p =>
        (p.run (lineOf (lineStarts (before.toList ++ (tag.enclosing pieces ++ rest.toList))))
          (tag.enclosing pieces ++ rest.toList)).bind Progress.finish :=
    readChars_append hwhole _
  have hchars : (before ++ String.ofList (tag.enclosing pieces) ++ rest).toList =
      before.toList ++ (tag.enclosing pieces ++ rest.toList) := by
    rw [String.toList_append, String.toList_append, String.toList_ofList, List.append_assoc]
  rw [read_append, hread, hp, hchars, ← Progress.run_enclosing hopened hpath]
  rfl

/-- **An element has the value that its pieces make together.**  Let a beginning of a document have
led to where an element is one whose text is used.  Then the reader goes on behind the element,
whatever follows, with no other change than that its value was set to the characters of the pieces;
and if the open elements are closed there, the document is the one with this value. -/
theorem read_value {before : String} {p : Progress} {tag : Tag} (hwhole : Whole before.toList)
    (hp : reached before.toList = .ok p)
    (hread : Progress.readsText (p.path ++ [tag.localName]) = true) (pieces : List Piece) :
    ∃ q : Progress,
      (q.opened = p.opened ∧ q.rooted = p.rooted ∧ q.text = [] ∧
        q.position = p.position + byteLength (tag.enclosing pieces)) ∧
      q.settled =
        p.settled.withValue (p.path ++ [tag.localName]) (pieces.flatMap Piece.characters) ∧
      (∀ rest, read (before ++ String.ofList (tag.enclosing pieces) ++ rest) =
        (q.run (lineOf (lineStarts (before ++ String.ofList (tag.enclosing pieces) ++ rest).toList))
          rest.toList).bind Progress.finish) ∧
      (p.Closable →
        read (before ++ String.ofList (Progress.closers p.opened)) = .ok p.settled ∧
        read (before ++ String.ofList (tag.enclosing pieces) ++
            String.ofList (Progress.closers p.opened)) =
          .ok (p.settled.withValue (p.path ++ [tag.localName])
            (pieces.flatMap Piece.characters))) := by
  have hconsistent := consistent_reached hwhole hp
  have hattentive : p.path ∈ Progress.attentive := by
    have hparent := Progress.dropLast_mem_of_readsText hread
    rwa [List.dropLast_concat] at hparent
  have hopened := Progress.opened_ne_nil_of_attentive hattentive
  have hpath := Progress.ne_dependencyPath_of_readsText hread
  have hsettled := Progress.settled_behind hconsistent hopened hread pieces
  have hrest := read_enclosing hwhole hp hopened hpath pieces
  refine ⟨p.behind tag pieces, ⟨rfl, (Progress.harvest_keeps _).2.1, rfl, rfl⟩, hsettled, hrest,
    fun hclosable => ⟨?_, ?_⟩⟩
  · exact read_closers hwhole hp hclosable hattentive
  · have hbehind := Progress.consistent_behind hconsistent hpath pieces
    have hclosed := Progress.finish_run_closers
      (lineOf (lineStarts (before ++ String.ofList (tag.enclosing pieces) ++
        String.ofList (Progress.closers p.opened)).toList))
      hbehind (hbehind.rooted hopened) hclosable (.inr hattentive)
    rw [hrest, String.toList_ofList, ← hsettled]
    exact hclosed

/-- A reference that is escaped is not resolved. -/
theorem read_value_of_escaped :
    Whole "<project>".toList ∧
      (∃ p, reached "<project>".toList = .ok p ∧ p.Closable ∧
        Progress.readsText (p.path ++ [(Tag.bare "groupId" (by decide)).localName]) = true) ∧
      read ("<project>" ++ "<groupId>&amp;lt;<![CDATA[ b]]><!--c-->&#32;</groupId>" ++
        "</project>") = .ok { groupId := some "&lt; b" } := by
  let p : Progress := { opened := ["project".toList], rooted := true, position := 9 }
  let tag : Tag := .bare "groupId" (by decide)
  let pieces : List Piece :=
    [.reference (.entity .amp), .text "lt;".toList (List.all_eq_true.1 (by decide)),
      .cdata " b".toList (by decide), .comment "c".toList (by decide),
      .reference (.decimal ⟨['3', '2'], by simp, List.all_eq_true.1 (by decide)⟩
        ⟨by decide, by decide⟩)]
  have hreads : Xml.Reads (withoutMark "<project>".toList)
      [⟨.start "project".toList, "<project>".toList⟩] [] := .cons rfl (.nil [])
  have hreached : reached "<project>".toList = .ok p := reached_of_reads hreads
  have hclosable : p.Closable := Progress.closable_of_all (by decide)
  have hread : Progress.readsText (p.path ++ [tag.localName]) = true := by decide
  refine ⟨⟨_, hreads⟩, ⟨p, hreached, hclosable, hread⟩, ?_⟩
  obtain ⟨-, -, -, -, hclosed⟩ := read_value ⟨_, hreads⟩ hreached hread pieces
  have hwritten : String.ofList (tag.enclosing pieces) =
      "<groupId>&amp;lt;<![CDATA[ b]]><!--c-->&#32;</groupId>" := by decide +kernel
  have hclosers : String.ofList (Progress.closers p.opened) = "</project>" := by decide +kernel
  have hdocument : p.settled.withValue (p.path ++ [tag.localName])
      (pieces.flatMap Piece.characters) = { groupId := some "&lt; b" } := by decide +kernel
  rw [← hwritten, ← hclosers, ← hdocument]
  exact (hclosed hclosable).2

end Pom

end Vendoring
