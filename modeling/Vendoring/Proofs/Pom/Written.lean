import Vendoring.Proofs.Pom.Levels
import Vendoring.Proofs.Pom.Lines
import Vendoring.Proofs.Table

/-!
# A written POM is read as what it says

The reader goes through the tokens of a POM once, with one stack and one buffer for text, and
`documentOf` tells the meaning of its tree.  For every tree, in every spelling, the two agree.

## Main results

* `fill_eq`: a dependency is read as the one that its element declares;
* `foldl_addChild_eq`: the children of the project, taken in one after the other, leave the
  document that they describe;
* `read_written`: a written POM is read as its meaning.
-/

namespace Vendoring.Pom

open Xml (Content Element Located Piece byteLength byteLength_append)

variable {line : Nat → Nat}

/-! ## Dependencies -/

theorem textOf_eq (e : Element) (name : String) :
    textOf e name = ((e.childrenNamed name).getLast?.map (Text.trimmed? ·.text)).getD none := by
  rw [textOf]
  cases (e.childrenNamed name).getLast? <;> rfl

namespace Progress

/-- A child sets the field of its name and leaves all others alone. -/
theorem setChild_eq (d : Dependency) (e : Element) :
    setChild d e =
      { groupId := if decide (e.localName = "groupId") then Text.trimmed? e.text else d.groupId
        artifactId :=
          if decide (e.localName = "artifactId") then Text.trimmed? e.text else d.artifactId
        version := if decide (e.localName = "version") then Text.trimmed? e.text else d.version
        scope :=
          if decide (e.localName = "scope") then (Text.trimmed? e.text).map Scope.ofText
          else d.scope
        line := d.line } := by
  unfold setChild setField
  split <;> simp_all

theorem line_foldl_setChild (es : List Element) (d : Dependency) :
    (es.foldl setChild d).line = d.line := by
  induction es generalizing d with
  | nil => rfl
  | cons e es ih => rw [List.foldl_cons, ih, setChild_eq]

/-- A field that children of one name set to their text has the text of the last of them. -/
theorem get_fill {get : Dependency → Option String} {name : String}
    (hset : ∀ d e, get (setChild d e) =
      if decide (e.localName = name) then Text.trimmed? e.text else get d)
    (hnone : ∀ line, get { line := line } = none) (l : Located) :
    get (fill line l) = textOf l.element name := by
  rw [fill, get_foldl_eq_getLast? get hset, hnone, textOf_eq, Element.childrenNamed]

/-- The children of an element make the dependency that the element declares. -/
theorem fill_eq {l : Located} (h : line (byteLength l.before) = 1 + l.before.count '\n') :
    fill line l = dependencyOf l := by
  have hgroup : (fill line l).groupId = textOf l.element "groupId" :=
    get_fill (fun d e => congrArg Dependency.groupId (setChild_eq d e)) (fun _ => rfl) l
  have hartifact : (fill line l).artifactId = textOf l.element "artifactId" :=
    get_fill (fun d e => congrArg Dependency.artifactId (setChild_eq d e)) (fun _ => rfl) l
  have hversion : (fill line l).version = textOf l.element "version" :=
    get_fill (fun d e => congrArg Dependency.version (setChild_eq d e)) (fun _ => rfl) l
  have hscope : (fill line l).scope = (textOf l.element "scope").map Scope.ofText := by
    have hset := fun d e => congrArg Dependency.scope (setChild_eq d e)
    rw [fill, get_foldl_eq_getLast? Dependency.scope hset, textOf, Element.childrenNamed]
    cases (l.element.content.elements.filter (·.localName = "scope")).getLast? <;> rfl
  have hline : (fill line l).line = 1 + l.before.count '\n' := by
    rw [fill, line_foldl_setChild, ← h]
  calc fill line l
      = ⟨(fill line l).groupId, (fill line l).artifactId, (fill line l).version,
          (fill line l).scope, (fill line l).line⟩ := rfl
    _ = dependencyOf l := by
        rw [hgroup, hartifact, hversion, hscope, hline]
        rfl

/-! ## The document -/

theorem foldl_addProperty (es : List Element) (document : Document) :
    es.foldl addProperty document =
      { document with
        properties := (es.map propertyOf).foldl Table.insert document.properties } := by
  induction es generalizing document with
  | nil => rfl
  | cons e es ih =>
    rw [List.foldl_cons, ih]
    rfl

theorem foldl_addDependency (ls : List Located) (document : Document) :
    ls.foldl (addDependency line) document =
      { document with
        dependencies := document.dependencies ++
          (ls.filter (·.element.localName = "dependency")).map (fill line) } := by
  induction ls generalizing document with
  | nil => simp
  | cons l ls ih =>
    rw [List.foldl_cons, ih]
    by_cases hname : l.element.localName = "dependency"
    · simp [addDependency, hname]
    · simp [addDependency, hname]

/-- A child of the project contributes what its name says and leaves all else alone. -/
theorem addChild_eq (line : Nat → Nat) (document : Document) (l : Located) :
    addChild line document l =
      { groupId :=
          if decide (l.element.localName = "groupId") then Text.trimmed? l.element.text
          else document.groupId
        artifactId :=
          if decide (l.element.localName = "artifactId") then Text.trimmed? l.element.text
          else document.artifactId
        version :=
          if decide (l.element.localName = "version") then Text.trimmed? l.element.text
          else document.version
        dependencies :=
          if decide (l.element.localName = "dependencies") then
            document.dependencies ++ (l.childrenNamed "dependency").map (fill line)
          else document.dependencies
        properties :=
          if decide (l.element.localName = "properties") then
            (l.element.content.elements.map propertyOf).foldl Table.insert document.properties
          else document.properties } := by
  unfold addChild
  split <;> simp_all [foldl_addProperty, foldl_addDependency, Located.childrenNamed]

/-- The text of a child does not depend on where its parent stands. -/
theorem textOf_located (l : Located) (name : String) :
    textOf l.element name =
      ((l.childrenNamed name).getLast?.map (Text.trimmed? ·.element.text)).getD none := by
  rw [textOf_eq, ← Located.map_childrenNamed, List.getLast?_map, Option.map_map]
  rfl

/-- What children of one name set to their text is the text of the last of them. -/
theorem get_children {get : Document → Option String} {name : String}
    (hset : ∀ document l, get (addChild line document l) =
      if decide (l.element.localName = name) then Text.trimmed? l.element.text else get document)
    (hnone : get {} = none) (d : Xml.Document) :
    get (d.located.children.foldl (addChild line) {}) = textOf d.root name := by
  rw [get_foldl_eq_getLast? get hset, hnone]
  exact (textOf_located d.located name).symm

/-- The children of the project, taken in one after the other, leave the document that they
describe. -/
theorem foldl_addChild_eq {d : Xml.Document}
    (h : ∀ l ∈ declarations d.located,
      line (byteLength l.before) = 1 + l.before.count '\n') :
    d.located.children.foldl (addChild line) {} = documentOf d := by
  have hgroup : (d.located.children.foldl (addChild line) {}).groupId = textOf d.root "groupId" :=
    get_children (fun s l => congrArg Document.groupId (addChild_eq line s l)) rfl d
  have hartifact : (d.located.children.foldl (addChild line) {}).artifactId =
      textOf d.root "artifactId" :=
    get_children (fun s l => congrArg Document.artifactId (addChild_eq line s l)) rfl d
  have hversion : (d.located.children.foldl (addChild line) {}).version =
      textOf d.root "version" :=
    get_children (fun s l => congrArg Document.version (addChild_eq line s l)) rfl d
  have hdependencies : (d.located.children.foldl (addChild line) {}).dependencies =
      (declarations d.located).map dependencyOf := by
    have hset := fun s l => congrArg Document.dependencies (addChild_eq line s l)
    rw [get_foldl_eq_flatMap Document.dependencies List.append_nil
      (fun _ _ _ => (List.append_assoc ..).symm) hset, ← List.map_flatMap]
    exact List.map_congr_left fun l hl => fill_eq (h l hl)
  have hproperties : (d.located.children.foldl (addChild line) {}).properties =
      Table.ofList Prod.fst (propertiesOf d.root) := by
    have hset := fun s l => congrArg Document.properties (addChild_eq line s l)
    have hroot : propertiesOf d.root =
        (d.located.childrenNamed "properties").flatMap
          (·.element.content.elements.map propertyOf) := by
      show (d.located.element.childrenNamed "properties").flatMap _ = _
      rw [← Located.map_childrenNamed, List.flatMap_map]
    rw [get_foldl_eq_flatMap Document.properties (fun _ => rfl)
      (fun _ _ _ => List.foldl_append) hset, hroot]
    rfl
  calc d.located.children.foldl (addChild line) {}
      = ⟨(d.located.children.foldl (addChild line) {}).groupId,
          (d.located.children.foldl (addChild line) {}).artifactId,
          (d.located.children.foldl (addChild line) {}).version,
          (d.located.children.foldl (addChild line) {}).dependencies,
          (d.located.children.foldl (addChild line) {}).properties⟩ := rfl
    _ = documentOf d := by
        rw [hgroup, hartifact, hversion, hdependencies, hproperties]
        rfl

/-! ## Whole documents -/

/-- The progress in front of the root element, which is admitted. -/
def beforeRoot (d : Xml.Document) : Progress :=
  { d.before.foldl absorbPiece {} with rooted := true }

theorem beforeRoot_eq (d : Xml.Document) :
    ∃ text, beforeRoot d =
      { text := text, rooted := true, position := byteLength d.located.before } := by
  refine ⟨[] ++ d.before.flatMap Piece.characters, ?_⟩
  rw [beforeRoot, foldl_absorbPiece, Nat.zero_add]
  rfl

/-- The root element of a project is admitted. -/
theorem root_eq_ok {d : Xml.Document} (h : d.root.localName = "project") :
    (d.before.foldl absorbPiece {}).root (Xml.localName d.root.tag.name.characters) =
      .ok (beforeRoot d) := by
  have hname : String.ofList (Xml.localName d.root.tag.name.characters) = "project" := h
  rw [beforeRoot, foldl_absorbPiece, root]
  simp [hname]

/-- The root element is read as what its children make of an empty document. -/
theorem visit_root (line : Nat → Nat) {d : Xml.Document} (h : d.root.localName = "project") :
    ∃ text position, (beforeRoot d).visit line d.root =
      { text := text, rooted := true, position := position
        pending := ((beforeRoot d).within line d.root).pending
        document := d.located.children.foldl (addChild line) {} } := by
  obtain ⟨text, hbefore⟩ := beforeRoot_eq d
  have hpath : ((beforeRoot d).enter line d.root.tag).path = ["project"] := by
    rw [path_enter, hbefore, ← h]
    rfl
  have hposition : ((beforeRoot d).enter line d.root.tag).position =
      byteLength (d.located.before ++ d.located.element.tag.start) :=
    position_enter line (by rw [hbefore])
  have hdocument : ((beforeRoot d).within line d.root).document =
      d.located.children.foldl (addChild line) {} := by
    have habsorb := absorb_in_project line hpath hposition d.root.content
    have hempty : ((beforeRoot d).enter line d.root.tag).document = {} := by
      rw [hbefore]
      rfl
    rw [within, habsorb, hempty]
    rfl
  have hharvest : ((beforeRoot d).within line d.root).harvest =
      (beforeRoot d).within line d.root := by
    have hsame : ((beforeRoot d).within line d.root).path = ["project"] := by
      rw [path_within, ← hpath, path_enter]
      rfl
    refine harvest_eq_self ?_
    rw [hsame]
    simp [Harvested]
  have hopened : ((beforeRoot d).within line d.root).opened.tail = [] := by
    rw [within, opened_absorb, hbefore]
    rfl
  have hrooted : ((beforeRoot d).within line d.root).rooted = true := by
    rw [within, rooted_absorb, hbefore]
    rfl
  refine ⟨[], ((beforeRoot d).visit line d.root).position, ?_⟩
  rw [visit, leave, hharvest, hopened, hdocument, hrooted]

/-- A written project is read as its root element. -/
theorem run_written {d : Xml.Document} (h : d.root.localName = "project") :
    run line {} d.written = .ok (d.after.foldl absorbPiece ((beforeRoot d).visit line d.root)) := by
  have hinner : ((beforeRoot d).enter line d.root.tag).opened ≠ [] := List.cons_ne_nil _ _
  have hlast : (((beforeRoot d).enter line d.root.tag).absorb line d.root.content).opened =
      d.root.tag.name.characters :: (beforeRoot d).opened := opened_absorb _ _
  have hafter : ((beforeRoot d).visit line d.root).run line (d.after.flatMap Piece.written ++ []) =
      (d.after.foldl absorbPiece ((beforeRoot d).visit line d.root)).run line [] := run_pieces ..
  rw [List.append_nil, run_nil] at hafter
  rw [Xml.Document.written, run_pieces, Element.written, List.append_assoc, List.append_assoc,
    run_start (root_eq_ok h), run_content hinner, run_stop hlast]
  exact hafter

/-- Behind the root element of a project the text may end. -/
theorem finish_run_written (line : Nat → Nat) {d : Xml.Document} (h : d.root.localName = "project") :
    (run line {} d.written).bind finish =
      .ok (d.located.children.foldl (addChild line) {}) := by
  obtain ⟨text, position, hroot⟩ := visit_root line h
  rw [run_written h, foldl_absorbPiece, hroot]
  rfl

end Progress

/-- A piece outside of the root element does not bring a byte order mark to the front. -/
theorem head?_outer {piece : Piece} (h : piece.IsOuter) {rest : List Char}
    (hrest : ∀ c ∈ rest.head?, c ≠ '\uFEFF') :
    ∀ c ∈ (piece.written ++ rest).head?, c ≠ '\uFEFF' := by
  intro c hc
  cases piece with
  | text s _ =>
    cases s with
    | nil => exact hrest c hc
    | cons b s =>
      obtain rfl : b = c := Option.some.inj hc
      rintro rfl
      exact absurd (h _ (List.mem_cons_self ..)) (by decide)
  | cdata s _ => exact absurd h id
  | reference r => exact absurd h id
  | comment s _ =>
    have hfirst : ("<!--".toList ++ (s ++ "-->".toList) ++ rest).head? = some c := hc
    obtain rfl : '<' = c := by simpa using hfirst
    decide
  | instruction s _ =>
    have hfirst : ("<?".toList ++ (s ++ "?>".toList) ++ rest).head? = some c := hc
    obtain rfl : '<' = c := by simpa using hfirst
    decide

/-- A written document does not begin with a byte order mark. -/
theorem withoutMark_written (d : Xml.Document) : withoutMark d.written = d.written := by
  have hhead : ∀ pieces : List Piece, (∀ piece ∈ pieces, piece.IsOuter) →
      ∀ c ∈ (pieces.flatMap Piece.written ++
        (d.root.written ++ d.after.flatMap Piece.written)).head?, c ≠ '\uFEFF' := by
    intro pieces
    induction pieces with
    | nil =>
      intro _ c hc
      obtain rfl : '<' = c := by simpa [Element.written, Xml.Tag.start] using hc
      decide
    | cons piece pieces ih =>
      intro hpieces
      have hfront := head?_outer (hpieces piece (List.mem_cons_self ..))
        (ih fun q hq => hpieces q (List.mem_cons_of_mem _ hq))
      rwa [← List.append_assoc] at hfront
  have hwritten := hhead d.before fun piece hpiece =>
    d.outer piece (List.mem_append_left _ hpiece)
  unfold withoutMark
  split
  · next s heq =>
    rw [Xml.Document.written] at heq
    rw [heq] at hwritten
    exact absurd rfl (hwritten '\uFEFF' rfl)
  · rfl

/-- **A written POM is read as what it says.**  This holds of every tree whose root is a project,
in every spelling.  Of a property the last setting counts. -/
theorem read_written {d : Xml.Document} (h : d.root.localName = "project") :
    read (String.ofList d.written) = .ok (documentOf d) ∧
      ∀ key, (documentOf d).properties.get? key =
        ((propertiesOf d.root).filter (·.1 = key)).getLast? := by
  have hlines : ∀ l ∈ declarations d.located,
      lineOf (lineStarts d.written) (byteLength l.before) = 1 + l.before.count '\n' := by
    intro l hl
    obtain ⟨dependencies, hdependencies, hl⟩ := List.mem_flatMap.1 hl
    have hroot : d.located.IsIn d.written := ⟨d.after.flatMap Piece.written, rfl⟩
    have hparent := hroot.child (List.mem_filter.1 hdependencies).1
    obtain ⟨rest, hrest⟩ := hparent.child (List.mem_filter.1 hl).1
    rw [← hrest]
    exact lineOf_byteLength _ _
  constructor
  · have hrun := Progress.finish_run_written (lineOf (lineStarts d.written)) h
    rw [Progress.foldl_addChild_eq hlines] at hrun
    rw [read, String.toList_ofList, readChars, withoutMark_written]
    exact hrun
  · intro key
    exact Table.get?_ofList _ key

/-- A project with a dependency, which names its artifact twice, and a profile with another. -/
def profiled : Xml.Document where
  before := []
  root :=
    { tag := .bare "project" (by decide)
      content :=
        .piece (.text ['\n'] (by simp [Xml.isTextCharacter])) <|
        .element (.bare "dependencies" (by decide))
          (.element (.bare "dependency" (by decide))
            (.element (.bare "artifactId" (by decide))
              (.piece (.text ['a'] (by simp [Xml.isTextCharacter])) .nil) <|
            .element (.bare "artifactId" (by decide))
              (.piece (.text ['b'] (by simp [Xml.isTextCharacter])) <|
              .piece (.comment ['c'] (by decide)) <|
              .piece (.reference (.entity .amp)) .nil) .nil) .nil) <|
        .element (.bare "profile" (by decide))
          (.element (.bare "dependencies" (by decide))
            (.element (.bare "dependency" (by decide)) .nil .nil) .nil) .nil }
  after := []
  outer := by simp

theorem read_profiled :
    profiled.root.localName = "project" ∧
      read ("<project>\n<dependencies><dependency><artifactId>a</artifactId>" ++
        "<artifactId>b<!--c-->&amp;</artifactId></dependency></dependencies><profile>" ++
        "<dependencies><dependency></dependency></dependencies></profile></project>") =
        .ok { dependencies := [{ artifactId := some "b&", line := 2 }] } := by
  have hname : profiled.root.localName = "project" := by decide
  have hwritten : String.ofList profiled.written =
      "<project>\n<dependencies><dependency><artifactId>a</artifactId>" ++
        "<artifactId>b<!--c-->&amp;</artifactId></dependency></dependencies><profile>" ++
        "<dependencies><dependency></dependency></dependencies></profile></project>" := by
    decide +kernel
  have hdocument : documentOf profiled =
      { dependencies := [{ artifactId := some "b&", line := 2 }] } := by decide +kernel
  refine ⟨hname, ?_⟩
  rw [← hwritten, ← hdocument]
  exact (read_written hname).1

end Vendoring.Pom
