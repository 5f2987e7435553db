import Vendoring.Pom.Document
import Vendoring.Proofs.Xml.Document
import Vendoring.Text.Blank

/-!
# What a POM says

The meaning of a POM as a tree of elements, without regard to how it is read.  What is said of
the project is said by children of the root, and what is said of a dependency by children of its
element; where several children have the same name the last one counts.

* `Xml.Located` and `Xml.Content.located`: the child elements together with what is written before
  them, which the line of a declaration depends on.
* `textOf`: the text of a child.
* `documentOf`: the whole document.
-/

namespace Vendoring.Xml

/-- An element with all that is written before it. -/
structure Located where
  before : List Char
  element : Element

/-- The child elements in some content, if `before` is written before the content. -/
def Content.located (before : List Char) : Content → List Located
  | .nil => []
  | .piece p next => next.located (before ++ p.written)
  | .element tag inside next =>
    ⟨before, ⟨tag, inside⟩⟩ :: next.located (before ++ (Element.mk tag inside).written)

/-- The child elements are the same wherever the content stands. -/
@[simp] theorem Content.map_located (before : List Char) (c : Content) :
    (c.located before).map Located.element = c.elements := by
  induction c generalizing before with
  | nil => rfl
  | piece piece next ih => exact ih _
  | element tag inside next _ ihnext => rw [located, List.map_cons, ihnext, elements]

namespace Located

/-- The child elements. -/
def children (l : Located) : List Located :=
  l.element.content.located (l.before ++ l.element.tag.start)

/-- The child elements with the given local name. -/
def childrenNamed (l : Located) (name : String) : List Located :=
  l.children.filter (·.element.localName = name)

/-- Does the element stand in a text, with just this before it? -/
def IsIn (l : Located) (s : List Char) : Prop :=
  ∃ rest, l.before ++ (l.element.written ++ rest) = s

theorem IsIn.append {l : Located} {s : List Char} (h : l.IsIn s) (t : List Char) :
    l.IsIn (s ++ t) := by
  obtain ⟨rest, rfl⟩ := h
  exact ⟨rest ++ t, by simp only [List.append_assoc]⟩

end Located

theorem Content.isIn_of_mem_located {before : List Char} {c : Content} {l : Located}
    (h : l ∈ c.located before) : l.IsIn (before ++ c.written) := by
  induction c generalizing before with
  | nil => exact absurd h List.not_mem_nil
  | piece piece next ih =>
    have hnext := ih h
    rwa [List.append_assoc] at hnext
  | element tag inside next _ ihnext =>
    rcases List.mem_cons.1 h with rfl | h
    · exact ⟨next.written, by simp [written, Element.written]⟩
    · have hnext := ihnext h
      simpa [written, Element.written] using hnext

/-- A child element stands in the text that its parent stands in. -/
theorem Located.IsIn.child {l child : Located} {s : List Char} (h : l.IsIn s)
    (hchild : child ∈ l.children) : child.IsIn s := by
  obtain ⟨rest, rfl⟩ := h
  have hcontent := (Content.isIn_of_mem_located hchild).append (l.element.tag.stop ++ rest)
  simpa [Element.written] using hcontent

namespace Element

/-- The child elements with the given local name. -/
def childrenNamed (e : Element) (name : String) : List Element :=
  e.content.elements.filter (·.localName = name)

end Element

/-- The children are the same wherever the element stands. -/
theorem Located.map_childrenNamed (l : Located) (name : String) :
    (l.childrenNamed name).map Located.element = l.element.childrenNamed name := by
  rw [Element.childrenNamed, ← Content.map_located (l.before ++ l.element.tag.start),
    List.filter_map]
  rfl

/-- The root element with what is written before it. -/
def Document.located (d : Document) : Located := ⟨d.before.flatMap Piece.written, d.root⟩

end Vendoring.Xml

namespace Vendoring.Pom

open Xml (Element Located)

/-- The text of the last child with the given local name, unless there is no such child or its
text is blank. -/
def textOf (e : Element) (name : String) : Option String :=
  (e.childrenNamed name).getLast?.bind (Text.trimmed? ·.text)

/-- The dependency that an element declares. -/
def dependencyOf (l : Located) : Dependency where
  groupId := textOf l.element "groupId"
  artifactId := textOf l.element "artifactId"
  version := textOf l.element "version"
  scope := (textOf l.element "scope").map Scope.ofText
  line := 1 + l.before.count '\n'

/-- The elements that declare dependencies of the project. -/
def declarations (root : Located) : List Located :=
  (root.childrenNamed "dependencies").flatMap (·.childrenNamed "dependency")

/-- The property that an element sets. -/
def propertyOf (e : Element) : String × String :=
  (e.localName, String.ofList (Text.trimChars e.text))

/-- The properties that are set, in the order of their elements. -/
def propertiesOf (root : Element) : List (String × String) :=
  (root.childrenNamed "properties").flatMap (·.content.elements.map propertyOf)

/-- What a POM says. -/
def documentOf (d : Xml.Document) : Document where
  groupId := textOf d.root "groupId"
  artifactId := textOf d.root "artifactId"
  version := textOf d.root "version"
  dependencies := (declarations d.located).map dependencyOf
  properties := Table.ofList Prod.fst (propertiesOf d.root)

end Vendoring.Pom
