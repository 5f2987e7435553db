import Vendoring.Proofs.Pom.Absorbed
import Vendoring.Proofs.Pom.Meaning

/-!
# What the reader makes of the children of an element

The reader looks at the path of the open elements only.  So what it does with the children of an
element depends on the path of that element, and at most paths it is nothing (`Quiet`): an element
at a quiet path has only quiet descendants.  At the other paths every child changes one part of
the progress, and all children together change it one after the other (`view_absorb`).

* `absorb_of_quiet`: nothing is made of what stands at a quiet path.
* `absorb_in_dependency`, `absorb_in_dependencies`, `absorb_in_properties` and `absorb_in_project`:
  what is made of the children of a dependency, of the dependencies, of the properties and of the
  project.
-/

namespace Vendoring.Pom.Progress

open Xml (Content Element Located Tag byteLength byteLength_append)

variable (line : Nat → Nat) {p : Progress}

/-! ## Elements -/

/-- The progress behind what an element holds, before its end tag. -/
def within (line : Nat → Nat) (p : Progress) (e : Element) : Progress :=
  (p.enter line e.tag).absorb line e.content

/-- The progress behind an element. -/
def visit (line : Nat → Nat) (p : Progress) (e : Element) : Progress :=
  (p.within line e).leave e.tag

theorem path_enter (p : Progress) (tag : Tag) :
    (p.enter line tag).path = p.path ++ [tag.localName] := by
  simp [path, enter, Tag.localName]

theorem position_enter {tag : Tag} {before : List Char} (h : p.position = byteLength before) :
    (p.enter line tag).position = byteLength (before ++ tag.start) := by
  rw [byteLength_append, ← h]
  rfl

theorem path_within (p : Progress) (e : Element) :
    (p.within line e).path = p.path ++ [e.localName] := by
  have hopened : (p.within line e).opened = (p.enter line e.tag).opened := opened_absorb _ _
  rw [path, hopened]
  exact path_enter line p e.tag

/-- Before the end tag of an element its text is at hand. -/
theorem text_within (p : Progress) (e : Element) : (p.within line e).text = e.text := by
  rw [within, text_absorb]
  split <;> rfl

theorem path_visit (p : Progress) (e : Element) : (p.visit line e).path = p.path := by
  have hopened : (p.visit line e).opened = p.opened := by
    rw [visit, leave, within, opened_absorb]
    rfl
  rw [path, hopened, path]

theorem position_visit (p : Progress) (e : Element) :
    (p.visit line e).position = p.position + byteLength e.written := by
  rw [visit, leave, within, position_absorb, Element.written]
  simp only [enter, byteLength_append, Nat.add_assoc]

/-- **The children of an element are taken in one after the other.**  A part of the progress that
no piece changes, and that every child of an element with the given path changes by itself, is
changed by all of them in turn. -/
theorem view_absorb {α : Type} (view : Progress → α) (update : α → Located → α)
    {path : List String}
    (hpiece : ∀ p piece, view (p.absorbPiece piece) = view p)
    (hvisit : ∀ (p : Progress) (l : Located), p.path = path →
      p.position = byteLength l.before → view (p.visit line l.element) = update (view p) l)
    {before : List Char} (hpath : p.path = path) (hposition : p.position = byteLength before)
    (c : Content) : view (p.absorb line c) = (c.located before).foldl update (view p) := by
  induction c generalizing p before with
  | nil => rfl
  | piece piece next ih =>
    have hsame : (p.absorbPiece piece).path = path := hpath
    have hbehind : (p.absorbPiece piece).position = byteLength (before ++ piece.written) := by
      rw [byteLength_append, ← hposition]
      rfl
    rw [absorb, Content.located, ih hsame hbehind, hpiece]
  | element tag inside next _ ihnext =>
    have hbehind : (p.visit line ⟨tag, inside⟩).position =
        byteLength (before ++ (Element.mk tag inside).written) := by
      rw [position_visit, byteLength_append, hposition]
    rw [Content.located, List.foldl_cons,
      ← hvisit p ⟨before, ⟨tag, inside⟩⟩ hpath hposition,
      ← ihnext ((path_visit line p _).trans hpath) hbehind]
    rfl

/-! ## Quiet paths -/

/-- The paths of the elements whose children are looked at. -/
def attentive : List (List String) :=
  [["project"], ["project", "properties"], dependenciesPath,
    ["project", "dependencies", "dependency"]]

/-- Is nothing made of what stands at this path? -/
def Quiet (path : List String) : Prop := path ≠ [] ∧ path ∉ attentive

/-- The children of an element at a quiet path are at quiet paths. -/
theorem Quiet.append_singleton {path : List String} (h : Quiet path) (name : String) :
    Quiet (path ++ [name]) := by
  obtain ⟨hnil, hpath⟩ := h
  simp only [attentive, dependenciesPath, List.mem_cons, List.not_mem_nil, or_false,
    not_or] at hpath
  obtain ⟨hproject, -, hdependencies, -⟩ := hpath
  refine ⟨by simp, fun hmem => ?_⟩
  have hfront : path ∈ [[], ["project"], ["project"], dependenciesPath] := by
    have hlast : (path ++ [name]).dropLast = path := List.dropLast_concat
    rw [← hlast]
    exact List.mem_map_of_mem (f := List.dropLast) hmem
  simp only [dependenciesPath, List.mem_cons, List.not_mem_nil, or_false] at hfront
  rcases hfront with h | h | h | h
  · exact hnil h
  · exact hproject h
  · exact hproject h
  · exact hdependencies h

/-- Is something made of the element with this path when it ends? -/
def Harvested (path : List String) : Prop :=
  (∃ field ∈ ["groupId", "artifactId", "version"], path = ["project", field]) ∨
  (∃ key, path = ["project", "properties", key]) ∨
  path = ["project", "dependencies", "dependency"] ∨
  ∃ field, path = ["project", "dependencies", "dependency", field]

/-- Nothing is made of any other element. -/
theorem harvest_eq_self (h : ¬ Harvested p.path) : p.harvest = p := by
  unfold harvest
  simp only
  split
  · next hpath => exact absurd (.inl ⟨"groupId", by decide, hpath⟩) h
  · next hpath => exact absurd (.inl ⟨"artifactId", by decide, hpath⟩) h
  · next hpath => exact absurd (.inl ⟨"version", by decide, hpath⟩) h
  · next key hpath => exact absurd (.inr (.inl ⟨key, hpath⟩)) h
  · next hpath => exact absurd (.inr (.inr (.inl hpath))) h
  · next field hpath => exact absurd (.inr (.inr (.inr ⟨field, hpath⟩))) h
  · rfl

/-- Something is made only of the children of an element that is looked at. -/
theorem Harvested.dropLast_mem {path : List String} (h : Harvested path) :
    path.dropLast ∈ attentive := by
  rcases h with ⟨field, -, rfl⟩ | ⟨key, rfl⟩ | rfl | ⟨field, rfl⟩
  all_goals
    simp [attentive, dependenciesPath]

/-- Only an element that declares a dependency begins one. -/
theorem pending_enter {tag : Tag} (h : p.path ≠ dependenciesPath ∨ tag.localName ≠ "dependency") :
    (p.enter line tag).pending = p.pending := by
  have hdeclares : p.declares (Xml.localName tag.name.characters) = false := by
    rw [declares, Bool.and_eq_false_iff, decide_eq_false_iff_not, decide_eq_false_iff_not]
    exact h.symm
  rw [enter, hdeclares]
  rfl

/-- An element that declares a dependency begins one. -/
theorem pending_enter_of_declares {tag : Tag} (h : p.path = dependenciesPath)
    (hname : tag.localName = "dependency") :
    (p.enter line tag).pending = some { line := line p.position } := by
  have hdeclares : p.declares (Xml.localName tag.name.characters) = true := by
    rw [declares, h, Bool.and_eq_true, decide_eq_true_eq]
    exact ⟨hname, rfl⟩
  rw [enter, hdeclares]
  rfl

/-- Nothing is made of what stands at a quiet path. -/
theorem absorb_of_quiet (h : Quiet p.path) (c : Content) :
    (p.absorb line c).document = p.document ∧ (p.absorb line c).pending = p.pending := by
  induction c generalizing p with
  | nil => exact ⟨rfl, rfl⟩
  | piece piece next ih => exact ih (p := p.absorbPiece piece) h
  | element tag inside next ihinside ihnext =>
    have hpath : p.path ≠ dependenciesPath := by
      intro hpath
      exact h.2 (by rw [hpath]; decide)
    have hinside := ihinside (p := p.enter line tag)
      (by rw [path_enter]; exact h.append_singleton _)
    have hharvest : (p.within line ⟨tag, inside⟩).harvest = p.within line ⟨tag, inside⟩ := by
      refine harvest_eq_self fun hpath => h.2 ?_
      have hparent := hpath.dropLast_mem
      rwa [path_within, List.dropLast_concat] at hparent
    have hvisit : (p.visit line ⟨tag, inside⟩).document = p.document ∧
        (p.visit line ⟨tag, inside⟩).pending = p.pending := by
      rw [visit, leave, hharvest]
      exact ⟨hinside.1, hinside.2.trans (pending_enter line (.inl hpath))⟩
    have hnext := ihnext (p := p.visit line ⟨tag, inside⟩) (by rw [path_visit]; exact h)
    exact ⟨hnext.1.trans hvisit.1, hnext.2.trans hvisit.2⟩

/-- Nothing is made of what an element at a quiet path holds, save that its text is kept. -/
theorem within_of_quiet {e : Element} (h : Quiet (p.path ++ [e.localName])) :
    (p.within line e).document = p.document ∧
      (p.within line e).pending = (p.enter line e.tag).pending :=
  absorb_of_quiet line (by rw [path_enter]; exact h) e.content

/-! ## The children of a dependency -/

/-- The path of the elements that declare dependencies. -/
def dependencyPath : List String := ["project", "dependencies", "dependency"]

/-- The dependency with what one of its children says. -/
def setChild (d : Dependency) (e : Element) : Dependency :=
  setField d e.localName (Text.trimmed? e.text)

/-- A child of a dependency sets its field and nothing else. -/
theorem visit_in_dependency (h : p.path = dependencyPath) (e : Element) :
    (p.visit line e).document = p.document ∧
      (p.visit line e).pending = p.pending.map (setChild · e) := by
  have hquiet : Quiet (p.path ++ [e.localName]) := by
    rw [h]
    simp [Quiet, attentive, dependencyPath, dependenciesPath]
  obtain ⟨hdocument, hpending⟩ := within_of_quiet line hquiet
  have hkeep : (p.enter line e.tag).pending = p.pending :=
    pending_enter line (.inl (by rw [h]; decide))
  have hpath : (p.within line e).path = ["project", "dependencies", "dependency", e.localName] := by
    rw [path_within, h]
    rfl
  have hharvest : (p.within line e).harvest =
      { p.within line e with
        pending := (p.within line e).pending.map
          (setField · e.localName (Text.trimmed? (p.within line e).text)) } := by
    simp only [harvest, hpath]
  rw [visit, leave, hharvest]
  simp only [hdocument, hpending, hkeep, text_within]
  exact ⟨trivial, rfl⟩

/-- The children of a dependency set its fields one after the other. -/
theorem absorb_in_dependency (h : p.path = dependencyPath) {before : List Char}
    (hposition : p.position = byteLength before) (c : Content) :
    (p.absorb line c).document = p.document ∧
      (p.absorb line c).pending = p.pending.map (c.elements.foldl setChild ·) := by
  constructor
  · have hview := view_absorb line document (fun s _ => s) (fun _ _ => rfl)
      (fun p l hpath _ => (visit_in_dependency line hpath l.element).1) h hposition c
    rw [hview, List.foldl_fixed]
  · have hview := view_absorb line pending (fun s l => s.map (setChild · l.element))
      (fun _ _ => rfl) (fun p l hpath _ => (visit_in_dependency line hpath l.element).2) h hposition c
    have hmap : ∀ (es : List Element) (o : Option Dependency),
        es.foldl (fun o e => o.map (setChild · e)) o = o.map (es.foldl setChild ·) := by
      intro es
      induction es with
      | nil => intro o; simp
      | cons e es ih =>
        intro o
        rw [List.foldl_cons, ih, Option.map_map]
        rfl
    rw [hview, ← Content.map_located before, ← hmap, List.foldl_map]

/-! ## The children of the dependencies -/

/-- The dependency that is made of an element. -/
def fill (line : Nat → Nat) (l : Located) : Dependency :=
  l.element.content.elements.foldl setChild { line := line (byteLength l.before) }

/-- The document with what a child of the dependencies says. -/
def addDependency (line : Nat → Nat) (document : Document) (l : Located) : Document :=
  if l.element.localName = "dependency" then
    { document with dependencies := document.dependencies ++ [fill line l] }
  else document

/-- What an element that declares a dependency holds makes the dependency. -/
theorem within_dependency (h : p.path = dependenciesPath) {l : Located}
    (hposition : p.position = byteLength l.before) (hname : l.element.localName = "dependency") :
    (p.within line l.element).document = p.document ∧
      (p.within line l.element).pending = some (fill line l) := by
  have hpath : (p.enter line l.element.tag).path = dependencyPath := by
    rw [path_enter, h]
    show dependenciesPath ++ [l.element.localName] = dependencyPath
    rw [hname]
    rfl
  obtain ⟨hdocument, hpending⟩ :=
    absorb_in_dependency line hpath (position_enter line hposition) l.element.content
  rw [pending_enter_of_declares line h hname, hposition] at hpending
  exact ⟨hdocument, hpending⟩

/-- A child of the dependencies adds itself if it is a dependency. -/
theorem visit_in_dependencies (h : p.path = dependenciesPath) (l : Located)
    (hposition : p.position = byteLength l.before) :
    (p.visit line l.element).document = addDependency line p.document l := by
  have hpath : (p.within line l.element).path =
      ["project", "dependencies", l.element.localName] := by
    rw [path_within, h]
    rfl
  by_cases hname : l.element.localName = "dependency"
  · obtain ⟨hdocument, hpending⟩ := within_dependency line h hposition hname
    have hharvest : (p.within line l.element).harvest.document =
        { (p.within line l.element).document with
          dependencies := (p.within line l.element).document.dependencies ++
            (p.within line l.element).pending.toList } := by
      rw [hname] at hpath
      simp only [harvest, hpath]
    rw [addDependency, if_pos hname, visit, leave]
    simp only [hharvest]
    rw [hdocument, hpending]
    rfl
  · have hquiet : Quiet (p.path ++ [l.element.localName]) := by
      rw [h]
      simp [Quiet, attentive, dependenciesPath, hname]
    have hharvest : (p.within line l.element).harvest = p.within line l.element := by
      refine harvest_eq_self ?_
      rw [hpath]
      simp [Harvested, hname]
    rw [addDependency, if_neg hname, visit, leave, hharvest]
    exact (within_of_quiet line hquiet).1

/-- The dependencies are those among the children, in their order. -/
theorem absorb_in_dependencies (h : p.path = dependenciesPath) {before : List Char}
    (hposition : p.position = byteLength before) (c : Content) :
    (p.absorb line c).document = (c.located before).foldl (addDependency line) p.document :=
  view_absorb line document (addDependency line) (fun _ _ => rfl)
    (fun _ l hpath hbefore => visit_in_dependencies line hpath l hbefore) h hposition c

/-! ## The children of the properties -/

/-- The document with the property that an element sets. -/
def addProperty (document : Document) (e : Element) : Document :=
  { document with properties := document.properties.insert (propertyOf e) }

/-- A child of the properties sets a property. -/
theorem visit_in_properties (h : p.path = ["project", "properties"]) (e : Element) :
    (p.visit line e).document = addProperty p.document e := by
  have hquiet : Quiet (p.path ++ [e.localName]) := by
    rw [h]
    simp [Quiet, attentive, dependenciesPath]
  have hpath : (p.within line e).path = ["project", "properties", e.localName] := by
    rw [path_within, h]
    rfl
  have hharvest : (p.within line e).harvest.document =
      { (p.within line e).document with
        properties := (p.within line e).document.properties.insert
          (e.localName, String.ofList (Text.trimChars (p.within line e).text)) } := by
    simp only [harvest, hpath]
  rw [visit, leave]
  simp only [hharvest]
  rw [(within_of_quiet line hquiet).1, text_within]
  rfl

/-- The properties are set one after the other. -/
theorem absorb_in_properties (h : p.path = ["project", "properties"]) {before : List Char}
    (hposition : p.position = byteLength before) (c : Content) :
    (p.absorb line c).document = c.elements.foldl addProperty p.document := by
  have hview := view_absorb line document (fun document l => addProperty document l.element)
    (fun _ _ => rfl) (fun _ l hpath _ => visit_in_properties line hpath l.element) h hposition c
  rw [hview, ← Content.map_located before, List.foldl_map]

/-! ## The children of the project -/

/-- The document with what a child of the project says. -/
def addChild (line : Nat → Nat) (document : Document) (l : Located) : Document :=
  match l.element.localName with
  | "groupId" => { document with groupId := Text.trimmed? l.element.text }
  | "artifactId" => { document with artifactId := Text.trimmed? l.element.text }
  | "version" => { document with version := Text.trimmed? l.element.text }
  | "properties" => l.element.content.elements.foldl addProperty document
  | "dependencies" => l.children.foldl (addDependency line) document
  | _ => document

/-- A child of the project says what it says by its name. -/
theorem visit_in_project (h : p.path = ["project"]) (l : Located)
    (hposition : p.position = byteLength l.before) :
    (p.visit line l.element).document = addChild line p.document l := by
  have hpath : (p.within line l.element).path = ["project", l.element.localName] := by
    rw [path_within, h]
    rfl
  have henter : (p.enter line l.element.tag).path = ["project", l.element.localName] := by
    rw [path_enter, h]
    rfl
  have hbehind : (p.enter line l.element.tag).position =
      byteLength (l.before ++ l.element.tag.start) := position_enter line hposition
  have hharvest : l.element.localName ∉ ["groupId", "artifactId", "version"] →
      (p.within line l.element).harvest = p.within line l.element := by
    intro hname
    refine harvest_eq_self ?_
    rw [hpath]
    simpa [Harvested] using hname
  by_cases hproperties : l.element.localName = "properties"
  · have habsorb := absorb_in_properties line (henter.trans (by rw [hproperties]))
      hbehind l.element.content
    rw [visit, leave, hharvest (by rw [hproperties]; decide), addChild, hproperties]
    exact habsorb
  by_cases hdependencies : l.element.localName = "dependencies"
  · have habsorb := absorb_in_dependencies line
      (henter.trans (by rw [hdependencies]; rfl)) hbehind l.element.content
    rw [visit, leave, hharvest (by rw [hdependencies]; decide), addChild, hdependencies]
    exact habsorb
  have hquiet : Quiet (p.path ++ [l.element.localName]) := by
    rw [h]
    simp [Quiet, attentive, dependenciesPath, hproperties, hdependencies]
  have hdocument := (within_of_quiet line hquiet).1
  rw [visit, leave, addChild]
  by_cases hfield : l.element.localName ∈ ["groupId", "artifactId", "version"]
  · simp only [List.mem_cons, List.not_mem_nil, or_false] at hfield
    rcases hfield with hname | hname | hname
    all_goals
      rw [hname] at hpath ⊢
      simp only [harvest, hpath, text_within, hdocument]
  · rw [hharvest hfield]
    split <;> simp_all

/-- The children of the project are taken in one after the other. -/
theorem absorb_in_project (h : p.path = ["project"]) {before : List Char}
    (hposition : p.position = byteLength before) (c : Content) :
    (p.absorb line c).document = (c.located before).foldl (addChild line) p.document :=
  view_absorb line document (addChild line) (fun _ _ => rfl)
    (fun _ l hpath hbefore => visit_in_project line hpath l hbefore) h hposition c

end Vendoring.Pom.Progress
