import Vendoring.Proofs.Folds
import Vendoring.Proofs.Pom.Alike

/-!
# What holds of every progress

However far the reader has come, an element is open only if the root has begun, and a dependency is
pending exactly if the element that declares it is open (`consistent_foldlM`).
-/

namespace Vendoring.Pom.Progress

variable {line : Nat → Nat} {p q : Progress}

/-- The parts of a progress that depend on each other. -/
structure Consistent (p : Progress) : Prop where
  rooted : p.opened ≠ [] → p.rooted = true
  pending : p.pending.isSome = true ↔ dependencyPath <+: p.path

theorem consistent_initial : Consistent {} where
  rooted h := absurd rfl h
  pending := by
    constructor
    · intro h
      cases h
    · intro h
      exact absurd (List.prefix_nil.1 h) (by decide)

/-- An element declares a dependency exactly if its path is that of the declarations. -/
theorem declares_iff {name : List Char} :
    p.declares name = true ↔ p.path ++ [String.ofList name] = dependencyPath := by
  have hsplit : dependencyPath = dependenciesPath ++ ["dependency"] := rfl
  rw [declares, Bool.and_eq_true, decide_eq_true_eq, decide_eq_true_eq, hsplit]
  constructor
  · rintro ⟨hname, hpath⟩
    rw [hname, hpath]
  · intro h
    obtain ⟨hpath, hname⟩ := List.append_inj' h rfl
    exact ⟨List.singleton_inj.1 hname, hpath⟩

/-- To leave an element that declares a dependency settles the dependency. -/
theorem harvest_of_dependency (h : p.path = dependencyPath) :
    p.harvest =
      { p with
        document :=
          { p.document with dependencies := p.document.dependencies ++ p.pending.toList }
        pending := none } := by
  have hpath : p.path = ["project", "dependencies", "dependency"] := h
  unfold harvest
  simp only [hpath]

/-- To leave any other element leaves a dependency pending. -/
theorem isSome_pending_harvest (h : p.path ≠ dependencyPath) :
    p.harvest.pending.isSome = p.pending.isSome := by
  unfold harvest
  simp only
  split
  · rfl
  · rfl
  · rfl
  · rfl
  · next hpath => exact absurd hpath h
  · exact Option.isSome_map
  · rfl

/-- Inside an element the path is longer by its name. -/
theorem path_of_opened {name : List Char} {outer : List (List Char)}
    (h : p.opened = name :: outer) :
    p.path = (outer.map fun name => String.ofList (Xml.localName name)).reverse ++
      [String.ofList (Xml.localName name)] := by
  rw [path, h, List.map_cons, List.reverse_cons]

theorem consistent_startElement (h : Consistent p) {name : List Char}
    (hstart : p.startElement line name = .ok q) : Consistent q := by
  rw [startElement] at hstart
  obtain ⟨p', hroot, rfl⟩ := exists_of_map_eq_ok hstart
  have hp' : p'.rooted = true ∧ p'.path = p.path ∧ p'.pending = p.pending := by
    rcases root_cases hroot with ⟨hopened, rfl⟩ | ⟨-, -, rfl⟩
    · exact ⟨h.rooted hopened, rfl, rfl⟩
    · exact ⟨rfl, rfl, rfl⟩
  obtain ⟨hrooted, hpath, hpending⟩ := hp'
  refine ⟨fun _ => hrooted, ?_⟩
  have hinside : ({ p' with opened := name :: p'.opened } : Progress).path =
      p'.path ++ [String.ofList (Xml.localName name)] := path_of_opened rfl
  show (if p'.declares (Xml.localName name) then some _ else p'.pending).isSome = true ↔
    dependencyPath <+: ({ p' with opened := name :: p'.opened } : Progress).path
  rw [hinside, List.prefix_concat_iff]
  by_cases hdeclares : p'.declares (Xml.localName name) = true
  · rw [if_pos hdeclares]
    exact iff_of_true rfl (.inl (declares_iff.1 hdeclares).symm)
  · have hother : ¬ dependencyPath = p'.path ++ [String.ofList (Xml.localName name)] :=
      fun heq => hdeclares (declares_iff.2 heq.symm)
    rw [if_neg hdeclares, or_iff_right hother, hpending, hpath]
    exact h.pending

theorem consistent_emptyElement (h : Consistent p) {name : List Char}
    (hempty : p.emptyElement line name = .ok q) : Consistent q := by
  rw [emptyElement] at hempty
  obtain ⟨p', hroot, rfl⟩ := exists_of_map_eq_ok hempty
  have hp' : Consistent p' := by
    rcases root_cases hroot with ⟨-, rfl⟩ | ⟨-, -, rfl⟩
    · exact h
    · exact ⟨fun _ => rfl, h.pending⟩
  split
  · exact ⟨hp'.rooted, hp'.pending⟩
  · exact hp'

theorem consistent_endElement (h : Consistent p) {name : List Char}
    (hend : p.endElement name = .ok q) : Consistent q := by
  cases hopened : p.opened with
  | nil =>
    rw [endElement_of_nil hopened] at hend
    cases hend
  | cons expected outer =>
    rw [endElement_of_opened hopened] at hend
    split at hend
    · cases hend
      have hrooted : p.rooted = true := h.rooted (by rw [hopened]; exact List.cons_ne_nil _ _)
      refine ⟨fun _ => p.harvest_keeps.2.1.trans hrooted, ?_⟩
      have hinside := path_of_opened hopened
      have houter : ({ p.harvest with opened := outer, text := [] } : Progress).path =
          (outer.map fun name => String.ofList (Xml.localName name)).reverse := rfl
      rw [houter]
      show p.harvest.pending.isSome = true ↔ _
      by_cases hpath : p.path = dependencyPath
      · rw [harvest_of_dependency hpath]
        refine iff_of_false Bool.false_ne_true fun hprefix => ?_
        have hlength := hprefix.length_le
        rw [← hpath, hinside, List.length_append, List.length_singleton] at hlength
        omega
      · have hpending := h.pending
        rw [hinside] at hpath
        rw [hinside, List.prefix_concat_iff, or_iff_right (Ne.symm hpath)] at hpending
        rw [isSome_pending_harvest (hinside ▸ hpath), hpending]
    · cases hend

/-- **A token keeps a progress consistent.** -/
theorem consistent_take (h : Consistent p) {t : Xml.Token} (htake : p.take line t = .ok q) :
    Consistent q := by
  cases t with
  | start name => exact consistent_startElement h htake
  | empty name => exact consistent_emptyElement h htake
  | close name => exact consistent_endElement h htake
  | text s =>
    cases htake
    exact ⟨h.rooted, h.pending⟩
  | cdata s =>
    cases htake
    exact ⟨h.rooted, h.pending⟩
  | reference name =>
    rw [take] at htake
    split at htake
    · cases htake
      exact ⟨h.rooted, h.pending⟩
    · cases htake
  | comment =>
    cases htake
    exact h
  | instruction =>
    cases htake
    exact h
  | doctype =>
    cases htake
    exact h

theorem consistent_step (h : Consistent p) {l : Xml.Lexeme} (hstep : p.step line l = .ok q) :
    Consistent q := by
  rw [step] at hstep
  obtain ⟨p', htake, rfl⟩ := exists_of_map_eq_ok hstep
  have hp' := consistent_take h htake
  exact ⟨hp'.rooted, hp'.pending⟩

/-- **Whatever is read, the progress is consistent.** -/
theorem consistent_foldlM (h : Consistent p) {ls : List Xml.Lexeme}
    (hrun : ls.foldlM (step line) p = .ok q) : Consistent q :=
  foldlM_keeps (I := fun _ p => Consistent p) (fun _ _ _ _ hp hstep => consistent_step hp hstep) h
    hrun

end Vendoring.Pom.Progress
