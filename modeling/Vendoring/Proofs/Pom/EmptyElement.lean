import Vendoring.Proofs.Pom.Consistent
import Vendoring.Proofs.Table
import Vendoring.Proofs.Xml.EmptyTag

/-!
# Empty elements in POMs

An empty element is taken in at once, if it is written as one tag, and is begun and left, if it is
written as two.  Only the second way sets fields and properties and cuts off the text before, so
both come to the same only where that makes no difference.

* `Redundant`: leaving the element would set nothing that is not so already.
* `run_short` and `run_long`: what the reader knows behind either spelling.
* `abreast_after`: behind both spellings of a redundant element, with no text of a value before it,
  the readings go on alike.
* `redundant_of_harvest_inside`: if both spellings say the same, the element is redundant.
-/

namespace Vendoring.Pom.Progress

open Xml (Agree EmptyTag byteLength byteLength_append)

variable {line line' : Nat → Nat} {p : Progress} {t : EmptyTag}

/-! ## Elements that say nothing new -/

/-- An empty element with this path says nothing new. -/
def Redundant (p : Progress) (path : List String) : Prop :=
  match path with
  | ["project", "groupId"] => p.document.groupId = none
  | ["project", "artifactId"] => p.document.artifactId = none
  | ["project", "version"] => p.document.version = none
  | ["project", "properties", key] => p.document.properties.get? key = some (key, "")
  | ["project", "dependencies", "dependency", field] =>
    p.pending.map (setField · field none) = p.pending
  | _ => True

theorem redundant_congr {q : Progress} (hdocument : q.document = p.document)
    (hpending : q.pending = p.pending) (path : List String) :
    q.Redundant path ↔ p.Redundant path := by
  unfold Redundant
  rw [hdocument, hpending]

/-- To leave an element without text changes nothing exactly if the element says nothing new. -/
theorem harvest_eq_self_iff (htext : p.text = []) (hpath : p.path ≠ dependencyPath) :
    p.harvest = p ↔ p.Redundant p.path := by
  have hnone : Text.trimmed? p.text = none := by rw [htext]; rfl
  unfold harvest
  simp only
  split
  · next heq =>
    rw [heq, Redundant, hnone]
    exact ⟨fun h => (congrArg (·.document.groupId) h).symm, fun h => by rw [← h]⟩
  · next heq =>
    rw [heq, Redundant, hnone]
    exact ⟨fun h => (congrArg (·.document.artifactId) h).symm, fun h => by rw [← h]⟩
  · next heq =>
    rw [heq, Redundant, hnone]
    exact ⟨fun h => (congrArg (·.document.version) h).symm, fun h => by rw [← h]⟩
  · next key heq =>
    have hempty : String.ofList (Text.trimChars p.text) = "" := by rw [htext]; rfl
    rw [heq, Redundant, hempty]
    exact ⟨fun h => Table.insert_eq_self_iff.1 (congrArg (·.document.properties) h),
      fun h => by rw [Table.insert_eq_self_iff.2 h]⟩
  · next heq => exact absurd heq hpath
  · next field heq =>
    rw [heq, Redundant, hnone]
    exact ⟨fun h => congrArg (·.pending) h, fun h => by rw [h]⟩
  · next heq =>
    refine iff_of_true rfl ?_
    unfold Redundant
    split <;> first | trivial | simp_all

/-! ## One tag and two tags -/

/-- The progress inside an empty element. -/
def inside (line : Nat → Nat) (p : Progress) (t : EmptyTag) : Progress :=
  { p with
    pending :=
      if p.declares (Xml.localName t.name.characters) then some { line := line p.position }
      else p.pending
    opened := t.name.characters :: p.opened
    text := [] }

/-- The progress with what an empty element says, if it is written as one tag. -/
def noting (line : Nat → Nat) (p : Progress) (t : EmptyTag) : Progress :=
  if p.declares (Xml.localName t.name.characters) then
    { p with
      document :=
        { p.document with
          dependencies := p.document.dependencies ++ [{ line := line p.position }] } }
  else p

/-- The progress behind an empty element that is written as one tag. -/
def afterShort (line : Nat → Nat) (p : Progress) (t : EmptyTag) : Progress :=
  { p.noting line t with position := p.position + byteLength t.short }

/-- The progress behind an empty element that is written as two tags. -/
def afterLong (line : Nat → Nat) (p : Progress) (t : EmptyTag) : Progress :=
  { (p.inside line t).harvest with
    opened := p.opened
    text := []
    position := p.position + byteLength t.long }

theorem path_inside (line : Nat → Nat) (p : Progress) (t : EmptyTag) :
    (p.inside line t).path = p.path ++ [t.localName] :=
  path_of_opened rfl

theorem noting_keeps (line : Nat → Nat) (p : Progress) (t : EmptyTag) :
    (p.noting line t).text = p.text ∧ (p.noting line t).opened = p.opened ∧
      (p.noting line t).rooted = p.rooted ∧ (p.noting line t).pending = p.pending := by
  rw [noting]
  split <;> exact ⟨rfl, rfl, rfl, rfl⟩

/-- What an element says that says nothing new is the same in both spellings. -/
theorem harvest_inside (hp : Consistent p) (hredundant : p.Redundant (p.path ++ [t.localName])) :
    (p.inside line t).harvest =
      { p.noting line t with opened := t.name.characters :: p.opened, text := [] } := by
  rw [noting]
  by_cases hdeclares : p.declares (Xml.localName t.name.characters) = true
  · have hpath : (p.inside line t).path = dependencyPath :=
      (path_inside line p t).trans (declares_iff.1 hdeclares)
    have hpending : p.pending = none := by
      rw [← Option.not_isSome_iff_eq_none, hp.pending, path_of_declares hdeclares]
      decide
    rw [harvest_of_dependency hpath, if_pos hdeclares]
    simp only [inside, if_pos hdeclares, Option.toList_some, hpending]
  · have hpath : (p.inside line t).path ≠ dependencyPath := by
      rw [path_inside]
      exact fun h => hdeclares (declares_iff.2 h)
    have hdocument : (p.inside line t).document = p.document := rfl
    have hpending : (p.inside line t).pending = p.pending := if_neg hdeclares
    have hsame : (p.inside line t).Redundant (p.inside line t).path := by
      rw [path_inside]
      exact (redundant_congr hdocument hpending _).2 hredundant
    rw [(harvest_eq_self_iff rfl hpath).2 hsame, if_neg hdeclares]
    simp only [inside, if_neg hdeclares]

/-- An element that says the same in both spellings says nothing new. -/
theorem redundant_of_harvest_inside
    (hdocument : (p.noting line t).document = (p.inside line' t).harvest.document)
    (hpending : (p.noting line t).pending = (p.inside line' t).harvest.pending) :
    p.Redundant (p.path ++ [t.localName]) := by
  rw [noting] at hdocument hpending
  by_cases hdeclares : p.declares (Xml.localName t.name.characters) = true
  · rw [EmptyTag.localName, declares_iff.1 hdeclares]
    trivial
  · have hpath : (p.inside line' t).path ≠ dependencyPath := by
      rw [path_inside]
      exact fun h => hdeclares (declares_iff.2 h)
    have hnothing : (p.inside line' t).document = p.document := rfl
    have hsame : (p.inside line' t).pending = p.pending := if_neg hdeclares
    rw [if_neg hdeclares] at hdocument hpending
    have hharvest : (p.inside line' t).harvest = p.inside line' t := by
      rw [harvest_eq, ← hdocument, ← hpending, ← hsame]
      rfl
    have hredundant := (harvest_eq_self_iff rfl hpath).1 hharvest
    rw [path_inside] at hredundant
    exact (redundant_congr hnothing hsame _).1 hredundant

/-- An element says nothing new where nothing is made of it. -/
theorem redundant_of_notMem {path : List String} (h : path.dropLast ∉ attentive) :
    p.Redundant path := by
  unfold Redundant
  split
  · exact absurd (by decide) h
  · exact absurd (by decide) h
  · exact absurd (by decide) h
  · exact absurd (by simp [attentive]) h
  · exact absurd (by simp [attentive]) h
  · trivial

/-! ## Reading the tags -/

theorem step_short (line : Nat → Nat) (p : Progress) (t : EmptyTag) :
    p.step line ⟨.empty t.name.characters, t.short⟩ =
      (p.root (Xml.localName t.name.characters)).map fun p' => p'.afterShort line t := by
  rw [step, take, emptyElement]
  cases p.root (Xml.localName t.name.characters) with
  | error e => rfl
  | ok p' =>
    by_cases hdeclares : p'.declares (Xml.localName t.name.characters) = true
    · simp only [afterShort, noting, Except.map, if_pos hdeclares]
    · simp only [afterShort, noting, Except.map, if_neg hdeclares]

theorem step_long (line : Nat → Nat) (p : Progress) (t : EmptyTag) :
    ((p.step line ⟨.start t.name.characters, t.start⟩).bind
        fun p' => p'.step line ⟨.close t.name.characters, t.stop⟩) =
      (p.root (Xml.localName t.name.characters)).map fun p' => p'.afterLong line t := by
  rw [step, take, startElement]
  cases p.root (Xml.localName t.name.characters) with
  | error e => rfl
  | ok p' =>
    let begun : Progress := { p'.inside line t with position := p'.position + byteLength t.start }
    have hopened : begun.opened = t.name.characters :: p'.opened := rfl
    have hharvest : begun.harvest =
        { (p'.inside line t).harvest with
          text := [], position := p'.position + byteLength t.start } :=
      harvest_with _ (fun _ => rfl) _
    show (begun.take line (.close t.name.characters)).map _ = Except.ok _
    rw [take, endElement_of_opened hopened, if_pos rfl, hharvest]
    simp only [Except.map, afterLong, EmptyTag.long, byteLength_append, Nat.add_assoc]

/-- One tag is read as the whole element. -/
theorem run_short (line : Nat → Nat) (p : Progress) (t : EmptyTag) (rest : List Char) :
    p.run line (t.short ++ rest) =
      (p.root (Xml.localName t.name.characters)).bind
        fun p' => (p'.afterShort line t).run line rest := by
  have hshort : t.short ++ rest = '<' :: (t.inner ++ ('/' :: '>' :: rest)) := by
    simp [EmptyTag.short]
  rw [run, hshort, Xml.foldTokens_of_next (t.next_short rest), step_short]
  cases p.root (Xml.localName t.name.characters) <;> rfl

/-- Two tags are read as the whole element. -/
theorem run_long (line : Nat → Nat) (p : Progress) (t : EmptyTag) (rest : List Char) :
    p.run line (t.long ++ rest) =
      (p.root (Xml.localName t.name.characters)).bind
        fun p' => (p'.afterLong line t).run line rest := by
  have hstart : t.long ++ rest = '<' :: (t.inner ++ '>' :: (t.stop ++ rest)) := by
    simp [EmptyTag.long, EmptyTag.start]
  have hstop : t.stop ++ rest = '<' :: '/' :: (t.name.characters ++ '>' :: rest) := by
    simp [EmptyTag.stop, Xml.Name.stop]
  have hsteps : ((p.step line ⟨.start t.name.characters, t.start⟩).bind fun p' =>
      (p'.step line ⟨.close t.name.characters, t.stop⟩).bind fun p' => p'.run line rest) =
      ((p.root (Xml.localName t.name.characters)).map fun p' => p'.afterLong line t).bind
        fun p' => p'.run line rest := by
    rw [← step_long]
    cases p.step line ⟨.start t.name.characters, t.start⟩ <;> rfl
  rw [run, hstart, Xml.foldTokens_of_next (t.next_start (t.stop ++ rest)), hstop]
  simp only [Xml.foldTokens_of_next (t.name.next_stop rest)]
  refine hsteps.trans ?_
  cases p.root (Xml.localName t.name.characters) <;> rfl

/-- **Behind both spellings the readings are abreast**, if the element says nothing new and no text
that is used stands before it. -/
theorem abreast_after (hp : Consistent p) (t : EmptyTag)
    (hredundant : p.Redundant (p.path ++ [t.localName]))
    (hblank : readsText p.path = true → ∀ c ∈ p.text, Text.isBlank c = true)
    (hline : line' p.position = line p.position)
    (hbehind : p.path = dependenciesPath →
      line' (p.position + byteLength t.long) = line (p.position + byteLength t.short)) :
    Abreast line line' t.excess (p.position + byteLength t.short)
      (p.afterShort line t) (p.afterLong line' t) := by
  have hsame : p.noting line' t = p.noting line t := by rw [noting, noting, hline]
  obtain ⟨htext, hopened, -, -⟩ := noting_keeps line p t
  have hpath : (p.afterShort line t).path = p.path := path_congr hopened
  rw [afterLong, harvest_inside hp hredundant, hsame]
  refine ⟨⟨p.text, [], ?_, ?_, fun hread => hblank ?_⟩, Nat.le_refl _, fun hdependencies => ?_⟩
  · simp only [afterShort, EmptyTag.byteLength_long, hopened, Nat.add_assoc]
  · rw [List.append_nil]
    exact htext
  · rwa [← hpath]
  · exact hbehind (hpath ▸ hdependencies)

end Vendoring.Pom.Progress
