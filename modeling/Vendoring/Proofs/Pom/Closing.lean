import Vendoring.Proofs.Pom.Consistent
import Vendoring.Proofs.Xml.EmptyTag

/-!
# Closing what is open

A document may end anywhere, if what is open is closed.  Where the reader looks at children, the end
tags of the open elements lead to a document that shows all that the reader knows
(`finish_run_closers`), so what it knows can be told from the document (`eq_of_settled_eq`).
-/

namespace Vendoring.Pom.Progress

open Xml (byteLength)

variable {line line' : Nat → Nat} {p q : Progress}

/-- The end tags of the elements with the given names. -/
def closers (names : List (List Char)) : List Char :=
  names.flatMap fun name => '<' :: '/' :: (name ++ ['>'])

theorem closers_cons (n : Xml.Name) (names : List (List Char)) :
    closers (n.characters :: names) = n.stop ++ closers names := by
  rw [closers, List.flatMap_cons]
  rfl

/-- The document with the pending dependency. -/
def settled (p : Progress) : Document :=
  { p.document with dependencies := p.document.dependencies ++ p.pending.toList }

/-- The names of the open elements are those of elements that can be closed. -/
def Closable (p : Progress) : Prop := ∀ name ∈ p.opened, ∃ n : Xml.Name, n.characters = name

theorem closable_of_all
    (h : (p.opened.all fun name => !name.isEmpty && name.all Xml.isTagCharacter) = true) :
    p.Closable := by
  intro name hname
  have hvalid := List.all_eq_true.1 h name hname
  rw [Bool.and_eq_true, Bool.not_eq_true', List.isEmpty_eq_false_iff, List.all_eq_true] at hvalid
  exact ⟨⟨name, hvalid.1, hvalid.2⟩, rfl⟩

/-- The progress behind the end tag of the innermost open element. -/
def left (p : Progress) (n : Xml.Name) : Progress :=
  { p.harvest with
    opened := p.opened.tail, text := [], position := p.position + byteLength n.stop }

/-- An end tag with the name of the innermost open element is taken in as its end. -/
theorem step_closer (line : Nat → Nat) {n : Xml.Name} {outer : List (List Char)}
    (h : p.opened = n.characters :: outer) :
    p.step line ⟨.close n.characters, n.stop⟩ = .ok (p.left n) := by
  rw [step, take, endElement_of_opened h, if_pos rfl, left, h]
  simp only [Except.map, p.harvest_keeps.2.2, List.tail_cons]

theorem run_closer (line : Nat → Nat) {n : Xml.Name} {outer : List (List Char)}
    (h : p.opened = n.characters :: outer) (rest : List Char) :
    p.run line (n.stop ++ rest) = (p.left n).run line rest := by
  have hstop : n.stop ++ rest = '<' :: '/' :: (n.characters ++ '>' :: rest) := by
    simp [Xml.Name.stop]
  rw [run, hstop, Xml.foldTokens_of_next (n.next_stop rest), step_closer line h]
  rfl

theorem consistent_left (hp : Consistent p) {n : Xml.Name} {outer : List (List Char)}
    (h : p.opened = n.characters :: outer) : Consistent (p.left n) :=
  consistent_step hp (step_closer (fun _ => 0) h)

theorem path_left {n : Xml.Name} {outer : List (List Char)}
    (h : p.opened = n.characters :: outer) : (p.left n).path = p.path.dropLast := by
  have houter : (p.left n).opened = outer := by rw [left, h, List.tail_cons]
  rw [path_of_opened h, List.dropLast_concat, path, houter]

/-- To leave an element whose children are looked at keeps what is known. -/
theorem settled_harvest (h : p.path ∈ attentive) : p.harvest.settled = p.settled := by
  by_cases hpath : p.path = dependencyPath
  · rw [harvest_of_dependency hpath]
    simp [settled]
  · rw [harvest_eq_self]
    intro hharvested
    simp only [attentive, dependenciesPath, List.mem_cons, List.not_mem_nil, or_false] at h
    rcases h with h | h | h | h
    · rw [h] at hharvested
      simp [Harvested] at hharvested
    · rw [h] at hharvested
      simp [Harvested] at hharvested
    · rw [h] at hharvested
      simp [Harvested] at hharvested
    · exact hpath h

/-- The parent of an element whose children are looked at is one itself, or there is none. -/
theorem dropLast_mem_of_attentive {path : List String} (h : path ∈ attentive) :
    path.dropLast = [] ∨ path.dropLast ∈ attentive := by
  simp only [attentive, dependenciesPath, List.mem_cons, List.not_mem_nil, or_false] at h
  rcases h with rfl | rfl | rfl | rfl
  all_goals
    simp [attentive, dependenciesPath]

/-- **Where children are looked at, closing all elements shows what is known.** -/
theorem finish_run_closers (line : Nat → Nat) (hp : Consistent p) (hrooted : p.rooted = true)
    (hnames : p.Closable) (hpath : p.path = [] ∨ p.path ∈ attentive) :
    (p.run line (closers p.opened)).bind finish = .ok p.settled := by
  generalize hopened : p.opened = names
  induction names generalizing p with
  | nil =>
    have hnone : p.pending = none := by
      have hempty : p.path = [] := by rw [path, hopened]; rfl
      rw [← Option.not_isSome_iff_eq_none, hp.pending, hempty]
      decide
    rw [closers, List.flatMap_nil, run_nil]
    show p.finish = _
    rw [finish, hopened]
    simp only [if_pos hrooted, settled, hnone, Option.toList_none, List.append_nil]
  | cons name outer ih =>
    obtain ⟨n, rfl⟩ := hnames name (by rw [hopened]; exact List.mem_cons_self ..)
    have hpath' : p.path ∈ attentive := by
      refine hpath.resolve_left fun hempty => ?_
      rw [path_of_opened hopened] at hempty
      simp at hempty
    have houter : (p.left n).opened = outer := by rw [left, hopened, List.tail_cons]
    have hsettled : (p.left n).settled = p.settled := settled_harvest hpath'
    rw [closers_cons, run_closer line hopened, ← hsettled]
    refine ih (consistent_left hp hopened) (p.harvest_keeps.2.1.trans hrooted) ?_ ?_ houter
    · intro name hname
      rw [houter] at hname
      exact hnames name (by rw [hopened]; exact List.mem_cons_of_mem _ hname)
    · rw [path_left hopened]
      exact dropLast_mem_of_attentive hpath'

/-- What is known can be told from the document, if it is known whether a dependency is pending. -/
theorem eq_of_settled_eq (hpending : p.pending.isSome = q.pending.isSome)
    (h : p.settled = q.settled) : p.document = q.document ∧ p.pending = q.pending := by
  rw [settled, settled, Document.mk.injEq] at h
  obtain ⟨hgroup, hartifact, hversion, hdependencies, hproperties⟩ := h
  have hboth : p.document.dependencies = q.document.dependencies ∧ p.pending = q.pending := by
    cases hp : p.pending with
    | none =>
      have hq : q.pending = none := by
        rw [hp] at hpending
        exact Option.isNone_iff_eq_none.1 (by rw [← Option.not_isSome, ← hpending]; rfl)
      rw [hp, hq] at hdependencies
      exact ⟨by simpa using hdependencies, hq.symm⟩
    | some d =>
      have hsome : q.pending.isSome = true := by
        rw [← hpending, hp]
        rfl
      obtain ⟨d', hq⟩ := Option.isSome_iff_exists.1 hsome
      rw [hp, hq] at hdependencies
      obtain ⟨hfront, hlast⟩ := List.append_inj' hdependencies rfl
      exact ⟨hfront, by rw [hq, List.singleton_inj.1 hlast]⟩
  refine ⟨?_, hboth.2⟩
  have hdocument := hboth.1
  cases hd : p.document
  cases hd' : q.document
  rw [hd, hd'] at hgroup hartifact hversion hproperties hdocument
  simp only at hgroup hartifact hversion hproperties hdocument
  rw [hgroup, hartifact, hversion, hproperties, hdocument]

theorem opened_ne_nil_of_attentive (h : p.path ∈ attentive) : p.opened ≠ [] := by
  intro hopened
  rw [path, hopened] at h
  exact absurd h (by decide)

/-- **Readings that come to the same document, once everything is closed, have learnt the same.** -/
theorem eq_of_closers_eq (hp : Consistent p) (hq : Consistent q) (hopened : q.opened = p.opened)
    (hnames : p.Closable) (hpath : p.path ∈ attentive)
    (h : (p.run line (closers p.opened)).bind finish =
      (q.run line' (closers p.opened)).bind finish) :
    p.document = q.document ∧ p.pending = q.pending := by
  have hsame : q.path = p.path := path_congr hopened
  have hpending : p.pending.isSome = q.pending.isSome := by
    rw [Bool.eq_iff_iff, hp.pending, hq.pending, hsame]
  have hclosed : (p.run line (closers p.opened)).bind finish = .ok p.settled :=
    finish_run_closers line hp (hp.rooted (opened_ne_nil_of_attentive hpath)) hnames (.inr hpath)
  have hclosed' : (q.run line' (closers q.opened)).bind finish = .ok q.settled := by
    refine finish_run_closers line' hq (hq.rooted ?_) ?_ (.inr (hsame ▸ hpath))
    · exact opened_ne_nil_of_attentive (hsame ▸ hpath)
    · rwa [Closable, hopened]
  rw [hopened] at hclosed'
  rw [hclosed, hclosed'] at h
  exact eq_of_settled_eq hpending (Except.ok.inj h)

/-! ## What text says -/

/-- Text is used only in children of the elements whose children are looked at. -/
theorem dropLast_mem_of_readsText {path : List String} (h : readsText path = true) :
    path.dropLast ∈ attentive := by
  unfold readsText at h
  split at h
  · simp [attentive]
  · simp [attentive]
  · simp [attentive]
  · cases h

theorem notMem_of_readsText {path : List String} (h : readsText path = true) :
    path ∉ attentive := by
  intro hpath
  simp only [attentive, dependenciesPath, List.mem_cons, List.not_mem_nil, or_false] at hpath
  rcases hpath with rfl | rfl | rfl | rfl
  all_goals
    exact absurd h (by decide)

theorem trimmed?_eq_none_iff {s : List Char} :
    Text.trimmed? s = none ↔ Text.trimChars s = [] := by
  rw [Text.trimmed?]
  cases Text.trimChars s <;> simp

theorem setField_text_inj {field : String}
    (hfield : field ∈ ["groupId", "artifactId", "version", "scope"]) {d : Dependency}
    {s : Option String} (h : setField d field s = setField d field none) : s = none := by
  simp only [List.mem_cons, List.not_mem_nil, or_false] at hfield
  rcases hfield with rfl | rfl | rfl | rfl
  · exact congrArg Dependency.groupId h
  · exact congrArg Dependency.artifactId h
  · exact congrArg Dependency.version h
  · exact Option.map_eq_none_iff.1 (congrArg Dependency.scope h)

/-- An element whose text is used and that leaves the same behind as without text has none. -/
theorem blank_of_harvest_eq (hp : Consistent p) (hread : readsText p.path = true)
    (hdocument : p.harvest.document = ({ p with text := [] } : Progress).harvest.document)
    (hpending : p.harvest.pending = ({ p with text := [] } : Progress).harvest.pending) :
    ∀ c ∈ p.text, Text.isBlank c = true := by
  rw [← Text.trimChars_eq_nil_iff]
  have hpath : ({ p with text := [] } : Progress).path = p.path := rfl
  have hnone : Text.trimmed? [] = none := rfl
  unfold readsText at hread
  split at hread
  · next field heq =>
    rw [List.contains_iff_mem] at hread
    simp only [List.mem_cons, List.not_mem_nil, or_false] at hread
    rcases hread with rfl | rfl | rfl
    · simp only [harvest, hpath, heq, Document.mk.injEq, hnone] at hdocument
      exact trimmed?_eq_none_iff.1 hdocument.1
    · simp only [harvest, hpath, heq, Document.mk.injEq, hnone] at hdocument
      exact trimmed?_eq_none_iff.1 hdocument.2.1
    · simp only [harvest, hpath, heq, Document.mk.injEq, hnone] at hdocument
      exact trimmed?_eq_none_iff.1 hdocument.2.2.1
  · next key heq =>
    simp only [harvest, hpath, heq, Document.mk.injEq] at hdocument
    have hget := congrArg (·.get? key) hdocument.2.2.2.2
    simpa [Table.get?_insert] using hget
  · next field heq =>
    have hsome : p.pending.isSome = true := by
      rw [hp.pending, heq]
      exact ⟨[field], rfl⟩
    obtain ⟨d, hd⟩ := Option.isSome_iff_exists.1 hsome
    simp only [harvest, hpath, heq] at hpending
    rw [hd, hnone, Option.map_some, Option.map_some, Option.some.injEq] at hpending
    exact trimmed?_eq_none_iff.1 (setField_text_inj (List.contains_iff_mem.1 hread) hpending)
  · cases hread

end Vendoring.Pom.Progress
