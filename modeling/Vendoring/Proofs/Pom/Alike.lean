import Vendoring.Proofs.Pom.Levels
import Vendoring.Proofs.Text.Blank
import Vendoring.Proofs.Xml.Runs

/-!
# Readings that go alike

Two readings may have come to the same elements in different ways, so that one of them is further in
its text and has kept less of the blanks before a value (`Alike`).  Both take in what follows alike
(`agree_step`), as long as a dependency that begins there is in the same line for both, and in the
end they come to the same document (`finish_run_eq`).
-/

namespace Vendoring.Pom.Progress

open Xml (Agree byteLength)

variable {line line' : Nat → Nat} {shift : Nat} {p q : Progress}

theorem path_congr (h : q.opened = p.opened) : q.path = p.path := by
  rw [path, path, h]

/-! ## Text -/

/-- Is the text of an element with this path used? -/
def readsText : List String → Bool
  | ["project", field] => ["groupId", "artifactId", "version"].contains field
  | ["project", "properties", _] => true
  | ["project", "dependencies", "dependency", field] =>
    ["groupId", "artifactId", "version", "scope"].contains field
  | _ => false

theorem trimmed?_congr {s t : List Char} (h : Text.trimChars s = Text.trimChars t) :
    Text.trimmed? s = Text.trimmed? t := by
  rw [Text.trimmed?, Text.trimmed?, h]

/-- A dependency has no field of any other name. -/
theorem setField_of_notMem {field : String}
    (h : field ∉ ["groupId", "artifactId", "version", "scope"]) (d : Dependency)
    (text : Option String) : setField d field text = d := by
  unfold setField
  split <;> first | rfl | exact absurd (by decide) h

/-- To leave an element changes at most the document and the pending dependency. -/
theorem harvest_eq (p : Progress) :
    p.harvest = { p with document := p.harvest.document, pending := p.harvest.pending } := by
  unfold harvest
  simp only
  split <;> rfl

/-- To leave an element is the same with any other text that is trimmed alike, and at any other
position. -/
theorem harvest_with (p : Progress) {text : List Char}
    (h : readsText p.path = true → Text.trimChars p.text = Text.trimChars text) (position : Nat) :
    ({ p with text := text, position := position } : Progress).harvest =
      { p.harvest with text := text, position := position } := by
  have hpath : ({ p with text := text, position := position } : Progress).path = p.path := rfl
  unfold harvest
  simp only [hpath]
  split
  · next heq =>
    rw [heq] at h
    rw [trimmed?_congr (h rfl)]
  · next heq =>
    rw [heq] at h
    rw [trimmed?_congr (h rfl)]
  · next heq =>
    rw [heq] at h
    rw [trimmed?_congr (h rfl)]
  · next heq =>
    rw [heq] at h
    rw [h rfl]
  · rfl
  · next field heq =>
    rw [heq] at h
    by_cases hfield : field ∈ ["groupId", "artifactId", "version", "scope"]
    · rw [trimmed?_congr (h (List.contains_iff_mem.2 hfield))]
    · simp only [setField_of_notMem hfield]
  · rfl

/-! ## Alike progresses -/

/-- The second reading is further by `shift`, and lacks a beginning of the text that is blank, if
the text is used at all.  Nothing else is different. -/
def Alike (shift : Nat) (p q : Progress) : Prop :=
  ∃ extra text, q = { p with text := text, position := p.position + shift } ∧
    p.text = extra ++ text ∧
    (readsText p.path = true → ∀ c ∈ extra, Text.isBlank c = true)

/-- Both readings refuse an element as the root, or both admit it. -/
theorem agree_root (h : Alike shift p q) (name : List Char) :
    Agree (fun p' q' => Alike shift p' q' ∧ p'.opened = p.opened ∧ p'.position = p.position)
      (p.root name) (q.root name) := by
  obtain ⟨extra, text, rfl, htext, hblank⟩ := h
  by_cases hopened : p.opened.isEmpty = true
  · by_cases hrooted : p.rooted = true
    · simp only [root, hopened, hrooted]
      rfl
    · by_cases hname : String.ofList name = "project"
      · simp only [root, hopened, hrooted, hname]
        exact ⟨⟨extra, text, rfl, htext, hblank⟩, rfl, rfl⟩
      · simp only [root, hopened, hrooted, hname]
        rfl
  · simp only [root, hopened]
    exact ⟨⟨extra, text, rfl, htext, hblank⟩, rfl, rfl⟩

theorem Alike.position (h : Alike shift p q) : q.position = p.position + shift := by
  obtain ⟨extra, text, rfl, -⟩ := h
  rfl

theorem Alike.path (h : Alike shift p q) : q.path = p.path := by
  obtain ⟨extra, text, rfl, -⟩ := h
  rfl

/-- Both readings begin a dependency at an element, or neither does. -/
theorem Alike.declares (h : Alike shift p q) (name : List Char) :
    q.declares name = p.declares name := by
  rw [Progress.declares, Progress.declares, h.path]

theorem path_of_declares {name : List Char} (h : p.declares name = true) :
    p.path = dependenciesPath := by
  rw [declares, Bool.and_eq_true, decide_eq_true_eq, decide_eq_true_eq] at h
  exact h.2

/-- Both readings take in a start tag alike. -/
theorem agree_startElement (h : Alike shift p q)
    (hline : p.path = dependenciesPath → line' q.position = line p.position) (name : List Char) :
    Agree (Alike shift) (p.startElement line name) (q.startElement line' name) := by
  refine (agree_root h (Xml.localName name)).map fun p' q' ⟨halike, hopened, hposition⟩ => ?_
  have hdeclares := halike.declares (Xml.localName name)
  have hpath : p'.path = p.path := path_congr hopened
  have hsame : q'.position = q.position := by rw [halike.position, hposition, h.position]
  obtain ⟨extra, text, rfl, -⟩ := halike
  refine ⟨[], [], ?_, rfl, fun _ _ hc => absurd hc List.not_mem_nil⟩
  rw [hdeclares]
  by_cases hname : p'.declares (Xml.localName name) = true
  · have hlines := hline (hpath ▸ path_of_declares hname)
    rw [← hsame, ← hposition] at hlines
    simp only [if_pos hname, hlines]
  · simp only [if_neg hname]

/-- Both readings take in the tag of an empty element alike. -/
theorem agree_emptyElement (h : Alike shift p q)
    (hline : p.path = dependenciesPath → line' q.position = line p.position) (name : List Char) :
    Agree (Alike shift) (p.emptyElement line name) (q.emptyElement line' name) := by
  refine (agree_root h (Xml.localName name)).map fun p' q' ⟨halike, hopened, hposition⟩ => ?_
  have hdeclares := halike.declares (Xml.localName name)
  have hpath : p'.path = p.path := path_congr hopened
  have hsame : q'.position = q.position := by rw [halike.position, hposition, h.position]
  rw [hdeclares]
  by_cases hname : p'.declares (Xml.localName name) = true
  · have hlines := hline (hpath ▸ path_of_declares hname)
    rw [← hsame, ← hposition] at hlines
    rw [if_pos hname, if_pos hname, hlines]
    obtain ⟨extra, text, rfl, htext, hblank⟩ := halike
    exact ⟨extra, text, rfl, htext, hblank⟩
  · rwa [if_neg hname, if_neg hname]

/-- An end tag closes the innermost open element, if it has its name. -/
theorem endElement_of_opened {expected : List Char} {outer : List (List Char)}
    (h : p.opened = expected :: outer) (name : List Char) :
    p.endElement name =
      if name = expected then .ok { p.harvest with opened := outer, text := [] }
      else .error (.malformed (.mismatchedEnd expected name)) := by
  rw [endElement, h]

theorem endElement_of_nil (h : p.opened = []) (name : List Char) :
    p.endElement name = .error (.malformed (.strayEnd name)) := by
  rw [endElement, h]

/-- Both readings take in an end tag alike. -/
theorem agree_endElement (h : Alike shift p q) (name : List Char) :
    Agree (Alike shift) (p.endElement name) (q.endElement name) := by
  obtain ⟨extra, text, hq, htext, hblank⟩ := h
  have htrim : readsText p.path = true → Text.trimChars p.text = Text.trimChars text := by
    intro hread
    rw [htext, Text.trimChars_append_of_blank (hblank hread)]
  have hharvest : q.harvest = { p.harvest with text := text, position := p.position + shift } := by
    rw [hq, p.harvest_with htrim]
  have hsame : q.opened = p.opened := by rw [hq]
  cases hopened : p.opened with
  | nil =>
    rw [endElement_of_nil hopened, endElement_of_nil (hsame.trans hopened)]
    rfl
  | cons expected outer =>
    rw [endElement_of_opened hopened, endElement_of_opened (hsame.trans hopened), hharvest]
    by_cases hname : name = expected
    · rw [if_pos hname, if_pos hname]
      refine ⟨[], [], ?_, rfl, fun _ _ hc => absurd hc List.not_mem_nil⟩
      simp only [p.harvest_keeps.2.2]
    · rw [if_neg hname, if_neg hname]
      rfl

/-- Both readings take in character data alike. -/
theorem Alike.addText (h : Alike shift p q) (s : List Char) :
    Alike shift (p.addText s) (q.addText s) := by
  obtain ⟨extra, text, rfl, htext, hblank⟩ := h
  exact ⟨extra, text ++ s, rfl, by rw [Progress.addText, htext, List.append_assoc], hblank⟩

/-- **Readings that are alike take in a token alike.** -/
theorem agree_take (h : Alike shift p q)
    (hline : p.path = dependenciesPath → line' q.position = line p.position) (t : Xml.Token) :
    Agree (Alike shift) (p.take line t) (q.take line' t) := by
  cases t with
  | start name => exact agree_startElement h hline name
  | empty name => exact agree_emptyElement h hline name
  | close name => exact agree_endElement h name
  | text s => exact h.addText s
  | cdata s => exact h.addText s
  | reference name =>
    rw [take, take]
    cases Xml.resolve name with
    | ok c => exact h.addText [c]
    | error e => rfl
  | comment => exact h
  | instruction => exact h
  | doctype => exact h

/-! ## Positions -/

/-- An element is admitted inside another one, or as the first element if it is a project. -/
theorem root_cases {name : List Char} (h : p.root name = .ok q) :
    p.opened ≠ [] ∧ q = p ∨
      p.opened = [] ∧ String.ofList name = "project" ∧ q = { p with rooted := true } := by
  rw [root] at h
  split at h
  · next hopened =>
    cases h
    exact .inl ⟨by simpa using hopened, rfl⟩
  · next hopened =>
    split at h
    · cases h
    · split at h
      · next hname =>
        cases h
        exact .inr ⟨by simpa using hopened, hname, rfl⟩
      · cases h

theorem position_root {name : List Char} (h : p.root name = .ok q) : q.position = p.position := by
  rcases root_cases h with ⟨-, rfl⟩ | ⟨-, -, rfl⟩ <;> rfl

theorem exists_of_map_eq_ok {α β ε : Type} {f : α → β} {x : Except ε α} {b : β}
    (h : x.map f = .ok b) : ∃ a, x = .ok a ∧ f a = b := by
  cases x with
  | error e => cases h
  | ok a => exact ⟨a, rfl, Except.ok.inj h⟩

/-- To take in a token does not move on. -/
theorem position_take {t : Xml.Token} (h : p.take line t = .ok q) : q.position = p.position := by
  cases t with
  | start name =>
    rw [take, startElement] at h
    obtain ⟨p', hroot, rfl⟩ := exists_of_map_eq_ok h
    show p'.position = p.position
    exact position_root hroot
  | empty name =>
    rw [take, emptyElement] at h
    obtain ⟨p', hroot, rfl⟩ := exists_of_map_eq_ok h
    rw [← position_root hroot]
    split <;> rfl
  | close name =>
    rw [take, endElement] at h
    split at h
    · cases h
    · split at h
      · cases h
        exact p.harvest_keeps.2.2
      · cases h
  | text s =>
    cases h
    rfl
  | cdata s =>
    cases h
    rfl
  | reference name =>
    rw [take] at h
    split at h
    · cases h
      rfl
    · cases h
  | comment =>
    cases h
    rfl
  | instruction =>
    cases h
    rfl
  | doctype =>
    cases h
    rfl

theorem position_step {l : Xml.Lexeme} (h : p.step line l = .ok q) :
    q.position = p.position + byteLength l.raw := by
  rw [step] at h
  obtain ⟨p', htake, rfl⟩ := exists_of_map_eq_ok h
  rw [← position_take htake]

/-! ## Runs -/

/-- Readings that are alike, behind the position `base`, and declare a dependency in the same line
if one begins here. -/
def Abreast (line line' : Nat → Nat) (shift base : Nat) (p q : Progress) : Prop :=
  Alike shift p q ∧ base ≤ p.position ∧
    (p.path = dependenciesPath → line' q.position = line p.position)

/-- **Readings that are abreast stay so.** -/
theorem agree_step {base : Nat}
    (hlines : ∀ position, base < position → line' (position + shift) = line position)
    {l : Xml.Lexeme} (hraw : l.raw ≠ []) (h : Abreast line line' shift base p q) :
    Agree (Abreast line line' shift base) (p.step line l) (q.step line' l) := by
  obtain ⟨halike, hbase, hline⟩ := h
  have hlong : 0 < byteLength l.raw := by
    obtain ⟨c, raw, hcons⟩ := List.exists_cons_of_ne_nil hraw
    rw [hcons, Xml.byteLength_cons]
    exact Nat.lt_of_lt_of_le c.utf8Size_pos (Nat.le_add_right _ _)
  have htake := agree_take halike hline l.token
  rw [step, step]
  cases hp : p.take line l.token with
  | error e =>
    cases hq : q.take line' l.token with
    | error e' => rwa [hp, hq] at htake
    | ok q' => rw [hp, hq] at htake; exact htake.elim
  | ok p' =>
    cases hq : q.take line' l.token with
    | error e' => rw [hp, hq] at htake; exact htake.elim
    | ok q' =>
      rw [hp, hq] at htake
      have hmoved := position_take hp
      have hbehind : base < p'.position + byteLength l.raw := by omega
      obtain ⟨extra, text, rfl, htext, hblank⟩ := htake
      refine ⟨⟨extra, text, ?_, htext, hblank⟩, hbehind.le, fun _ => ?_⟩
      · simp only [Nat.add_right_comm]
      · rw [← hlines _ hbehind]
        exact congrArg line' (Nat.add_right_comm _ _ _)

/-- Both readings end alike. -/
theorem finish_eq_of_alike (h : Alike shift p q) : p.finish = q.finish := by
  obtain ⟨extra, text, rfl, -⟩ := h
  rfl

/-- **Readings that are abreast come to the same document**, or to the same fault. -/
theorem finish_run_eq {base : Nat}
    (hlines : ∀ position, base < position → line' (position + shift) = line position)
    (h : Abreast line line' shift base p q) (s : List Char) :
    (p.run line s).bind finish = (q.run line' s).bind finish := by
  have hstep : ∀ (l : Xml.Lexeme) (a b : Progress), l.raw ≠ [] →
      Abreast line line' shift base a b →
      Agree (Abreast line line' shift base) (a.step line l) (b.step line' l) :=
    fun l a b hraw hab => agree_step hlines hraw hab
  have hrun : Agree (Abreast line line' shift base) (p.run line s) (q.run line' s) :=
    Xml.agree_foldTokens hstep s p q h
  exact hrun.bind_eq fun a b hab => finish_eq_of_alike hab.1

end Vendoring.Pom.Progress
