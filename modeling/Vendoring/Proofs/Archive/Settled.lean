import Vendoring.Proofs.Archive.Collisions
import Vendoring.Proofs.Archive.Names

/-!
# Relocation that leaves nothing to relocate

What a rule moves may be moved once more, by the same rule or by another one, if the rules are
applied again.  This cannot happen if the patterns and the destinations of the rules stand apart, so
that neither is a package of the other (`StandApart`): then no rule covers what a rule has made
(`relocated?_relocated`), no name is left in an archive that a rule covers (`Spared`), and relocation
has nothing to do when it comes to the archive again.

* `spared_relocate`: what relocation makes of an entry is spared by a second one.
* `relocate_of_spared`: what relocation does to an entry that is spared.
* `relocate_settles`: relocated archives are spared, and stay as they are.
-/

namespace Vendoring

open ArchiveEntry (IsLine metaDirectory servicesDirectory after?)

/-! ## Rules that stand apart -/

/-- Rules of which none moves anything to where one of them moves it again. -/
structure StandApart (rules : List RelocationRule) : Prop where
  valid : ∀ rule ∈ rules, rule.invalidSide? = none
  pattern : ∀ rule ∈ rules, ∀ other ∈ rules,
    ¬ nameParts '.' rule.pattern <+: nameParts '.' other.destination
  destination : ∀ rule ∈ rules, ∀ other ∈ rules,
    ¬ nameParts '.' rule.destination <+: nameParts '.' other.pattern
  outside : ∀ rule ∈ rules, (nameParts '.' rule.destination).head? ≠ some "META-INF".toList
  plain : ∀ rule ∈ rules, ∀ c ∈ rule.destination.toList, c ≠ '#' ∧ Text.isBlank c = false

variable {rules : List RelocationRule} {separator : Char} {name moved : String}

namespace StandApart

/-- A destination stands in a line of a descriptor as it is. -/
theorem isLine (h : StandApart rules) {rule : RelocationRule} (hrule : rule ∈ rules) :
    IsLine rule.destination.toList := by
  have hpackage := (RelocationRule.invalidSide?_eq_none_iff.1 (h.valid rule hrule)).2
  have hplain := h.plain rule hrule
  refine ⟨?_, ⟨?_, ?_⟩, ?_, ?_⟩
  · intro hempty
    exact (RelocationRule.ne_empty_of_isPackageName hpackage).1 (String.toList_eq_nil_iff.1 hempty)
  · intro c hc
    exact (hplain c (List.mem_of_mem_head? hc)).2
  · intro c hc
    exact (hplain c (List.mem_of_mem_getLast? hc)).2
  · intro hfeed
    exact absurd (hplain _ hfeed).2 (by decide)
  · intro hcomment
    exact (hplain _ hcomment).1 rfl

/-- The first parts of a moved name are those of a destination. -/
theorem exists_of_relocated? (h : StandApart rules)
    (hseparator : separator = '.' ∨ separator = '/')
    (hmoved : relocated? rules separator name = some moved) :
    ∃ rule ∈ rules, nameParts '.' rule.destination <+: nameParts separator moved := by
  obtain ⟨rule, hrule, hmove⟩ := List.exists_of_findSome?_eq_some hmoved
  obtain ⟨more, -, hparts⟩ :=
    (RelocationRule.move?_eq_some_iff_nameParts (h.valid rule hrule) hseparator).1 hmove
  exact ⟨rule, hrule, more, hparts.symm⟩

/-- **No rule covers what a rule has made.**  If one did, its pattern and a destination would both
be first parts of the name, and so one of them would be a package of the other. -/
theorem relocated?_relocated (h : StandApart rules)
    (hseparator : separator = '.' ∨ separator = '/') (name : String) :
    relocated? rules separator (relocated rules separator name) = none := by
  cases hmoved : relocated? rules separator name with
  | none => rwa [relocated_eq_self hmoved]
  | some moved =>
    rw [relocated, hmoved, Option.getD_some, ← Option.not_isSome_iff_eq_none,
      isSome_relocated?_iff h.valid hseparator]
    rintro ⟨other, hother, hcovers⟩
    obtain ⟨rule, hrule, hdestination⟩ := h.exists_of_relocated? hseparator hmoved
    rcases List.prefix_or_prefix_of_prefix hcovers hdestination with hinside | hinside
    · exact h.pattern other hother rule hrule hinside
    · exact h.destination rule hrule other hother hinside

/-- Nothing is moved into the directory for what describes the archive. -/
theorem after?_metaDirectory_relocated (h : StandApart rules) {path : String}
    (hpath : after? metaDirectory path = none) :
    after? metaDirectory (relocated rules '/' path) = none := by
  cases hmoved : relocated? rules '/' path with
  | none => rwa [relocated_eq_self hmoved]
  | some moved =>
    rw [relocated, hmoved, Option.getD_some, Option.eq_none_iff_forall_ne_some]
    intro rest hrest
    obtain ⟨rule, hrule, more, hparts⟩ := h.exists_of_relocated? (.inr rfl) hmoved
    have hmeta : nameParts '/' moved = "META-INF".toList :: nameParts '/' rest := by
      rw [ArchiveEntry.after?_eq_some_iff.1 hrest, nameParts, String.toList_append]
      exact List.splitOn_append_cons_self "META-INF".toList rest.toList
    have hhead : (nameParts '.' rule.destination).head? = some "META-INF".toList := by
      cases hfirst : nameParts '.' rule.destination with
      | nil => exact absurd hfirst (List.splitOn_ne_nil _ _)
      | cons part parts =>
        rw [hfirst, List.cons_append, hmeta, List.cons.injEq] at hparts
        rw [List.head?_cons, hparts.1]
    exact h.outside rule hrule hhead

end StandApart

/-! ## Entries that are spared -/

namespace ArchiveEntry

/-- Is no name in the entry covered by a rule? -/
structure Spared (rules : List RelocationRule) (e : ArchiveEntry) : Prop where
  path : after? metaDirectory e.path = none → relocated? rules '/' e.path = none
  references : ∀ name ∈ e.references, relocated? rules '/' name = none
  service : ∀ service ∈ e.serviceName?, relocated? rules '.' service = none
  lines : e.serviceName?.isSome = true → ∀ line ∈ e.textLines, relocated? rules '.' line = none

variable {e : ArchiveEntry}

/-- An entry that is spared comes to the path where it is. -/
theorem target_of_spared (h : e.Spared rules) : e.target rules = e.path := by
  cases hmeta : after? metaDirectory e.path with
  | none => rw [target_of_outside hmeta, relocated_eq_self (h.path hmeta)]
  | some rest =>
    rw [target]
    cases hservice : e.serviceName? with
    | none => simp [hmeta]
    | some service =>
      simp only
      rw [relocated_eq_self (h.service service hservice), path_of_serviceName? hservice]

/-- **Relocation leaves an entry that is spared as it is**, apart from writing the lines of a
service descriptor anew. -/
theorem relocate_of_spared (h : e.Spared rules) :
    e.relocate rules = if e.serviceName?.isSome then e.withLines e.textLines else e := by
  rw [relocate, target_of_spared h, map_relocated_eq_self h.references]
  by_cases hservice : e.serviceName?.isSome = true
  · rw [if_pos hservice, if_pos hservice, map_relocated_eq_self (h.lines hservice)]
  · rw [if_neg hservice, if_neg hservice]

/-- What lies outside the directory for what describes the archive did so before. -/
theorem outside_of_target (h : after? metaDirectory (e.target rules) = none) :
    after? metaDirectory e.path = none := by
  rw [target] at h
  cases hservice : e.serviceName? with
  | some service =>
    rw [hservice] at h
    simp only [after?_metaDirectory_service] at h
    cases h
  | none =>
    rw [hservice] at h
    by_cases hmeta : (after? metaDirectory e.path).isSome = true
    · simpa only [hmeta, if_true] using h
    · rwa [Option.not_isSome_iff_eq_none] at hmeta

/-- An entry describes a service after relocation if it did before. -/
theorem serviceName?_relocate (h : StandApart rules) (e : ArchiveEntry) :
    (e.relocate rules).serviceName? = e.serviceName?.map (relocated rules '.') := by
  cases hservice : e.serviceName? with
  | some service =>
    rw [Option.map_some, serviceName?_eq_some_iff, path_relocate, target, hservice]
    exact ⟨rfl, serviceName?_relocated h.valid hservice⟩
  | none =>
    rw [Option.map_none]
    cases hmeta : after? metaDirectory e.path with
    | none =>
      refine serviceName?_of_outside ?_
      rw [path_relocate, target_of_outside hmeta]
      exact h.after?_metaDirectory_relocated hmeta
    | some rest =>
      have hpath : (e.relocate rules).path = e.path := by
        rw [path_relocate, target, hservice, hmeta]
        rfl
      rw [serviceName?, hpath, ← serviceName?, hservice]

/-- **What relocation makes of an entry is spared by a second one.** -/
theorem spared_relocate (h : StandApart rules) (e : ArchiveEntry) :
    (e.relocate rules).Spared rules where
  path := by
    intro houtside
    rw [path_relocate] at houtside ⊢
    rw [target_of_outside (outside_of_target houtside)]
    exact h.relocated?_relocated (.inr rfl) e.path
  references := by
    intro name hname
    rw [references_relocate] at hname
    obtain ⟨old, -, rfl⟩ := List.mem_map.1 hname
    exact h.relocated?_relocated (.inr rfl) old
  service := by
    intro service hservice
    rw [serviceName?_relocate h] at hservice
    obtain ⟨old, -, rfl⟩ := Option.map_eq_some_iff.1 hservice
    exact h.relocated?_relocated (.inl rfl) old
  lines := by
    intro hservice line hline
    rw [serviceName?_relocate h, Option.isSome_map] at hservice
    rw [textLines_relocate fun rule hrule => h.isLine hrule, relocatedLines, if_pos hservice] at hline
    obtain ⟨old, -, rfl⟩ := List.mem_map.1 hline
    exact h.relocated?_relocated (.inl rfl) old

/-- What relocation makes of an entry stays as it is in a second one. -/
theorem relocate_relocate (h : StandApart rules) (e : ArchiveEntry) :
    (e.relocate rules).relocate rules = e.relocate rules := by
  rw [relocate_of_spared (spared_relocate h e), serviceName?_relocate h, Option.isSome_map]
  by_cases hservice : e.serviceName?.isSome = true
  · -- the text of the lines is what the first relocation wrote
    rw [if_pos hservice, textLines_relocate fun rule hrule => h.isLine hrule, relocatedLines,
      if_pos hservice, relocate, if_pos hservice]
    rfl
  · rw [if_neg hservice]

end ArchiveEntry

/-! ## Archives -/

namespace Archive

variable {a : Archive}

/-- If no entry comes to another path, each of them is relocated where it is. -/
theorem rows_relocate_of_target_eq (hrules : rules ≠ [])
    (h : ∀ m ∈ a.rows, m.entry.target rules = m.path) :
    (relocate rules a).1.rows = a.rows.map (MergedEntry.relocate rules) := by
  have hsorted : (a.rows.map (MergedEntry.relocate rules)).Pairwise
      fun m m' => m.path < m'.path := by
    rw [List.pairwise_map]
    refine a.sorted.imp_of_mem fun {m m'} hm hm' hlt => ?_
    rwa [MergedEntry.path_relocate, MergedEntry.path_relocate, h m hm, h m' hm']
  refine congrArg Table.rows (Table.ext_rows (t := ⟨_, hsorted⟩) fun kept => ?_)
  rw [mem_relocate_iff hrules, List.mem_map]
  simp only [prevails_iff_of_target_eq h, eq_comm]

theorem snd_relocate_of_target_eq (h : ∀ m ∈ a.rows, m.entry.target rules = m.path) :
    (relocate rules a).2 = 0 := by
  rw [snd_relocate, countP_moved_of_target_eq h]

/-- Relocation that changes no entry changes nothing. -/
theorem relocate_eq_self (h : ∀ m ∈ a.rows, m.relocate rules = m) : relocate rules a = (a, 0) := by
  by_cases hrules : rules = []
  · subst hrules
    rfl
  have htarget : ∀ m ∈ a.rows, m.entry.target rules = m.path := by
    intro m hm
    rw [← MergedEntry.path_relocate, h m hm]
  have hrows : (relocate rules a).1.rows = a.rows := by
    rw [rows_relocate_of_target_eq hrules htarget]
    conv_rhs => rw [← List.map_id a.rows]
    exact List.map_congr_left h
  exact Prod.ext (Table.ext hrows) (snd_relocate_of_target_eq htarget)

/-- **Relocation settles.**  If the rules stand apart, no rule covers a name in a relocated archive,
and a second relocation changes nothing. -/
theorem relocate_settles (h : StandApart rules) (a : Archive) :
    (∀ m ∈ (relocate rules a).1.rows, m.entry.Spared rules) ∧
      relocate rules (relocate rules a).1 = ((relocate rules a).1, 0) := by
  by_cases hrules : rules = []
  · subst hrules
    exact ⟨fun m _ => ⟨fun _ => rfl, fun _ _ => rfl, fun _ _ => rfl, fun _ _ _ => rfl⟩, rfl⟩
  constructor
  · intro m' hm'
    obtain ⟨m, -, rfl⟩ := (mem_relocate_iff hrules).1 hm'
    exact ArchiveEntry.spared_relocate h m.entry
  · refine relocate_eq_self fun m' hm' => ?_
    obtain ⟨m, -, rfl⟩ := (mem_relocate_iff hrules).1 hm'
    rw [MergedEntry.relocate, MergedEntry.relocate, ArchiveEntry.relocate_relocate h]

/-- A rule that takes a library out of its own package. -/
def outOfYaml : List RelocationRule := [⟨"org.yaml", "shaded.yaml"⟩]

/-- A library with a service, of which the project has a class where the library is moved. -/
def yamlLibrary : Archive :=
  Table.ofList MergedEntry.path
    [⟨{ path := "META-INF/services/org.yaml.Format",
          contents := "# formats\norg.yaml.Plain # default\n".toUTF8 },
        .dependency ⟨"org.yaml", "yaml", none⟩⟩,
      ⟨{ path := "org/yaml/Loader.class", references := ["org/yaml/Plain", "java/util/Map"] },
        .dependency ⟨"org.yaml", "yaml", none⟩⟩,
      ⟨{ path := "org/yaml/Plain.class" }, .dependency ⟨"org.yaml", "yaml", none⟩⟩,
      ⟨{ path := "shaded/yaml/Plain.class", references := ["org/yaml/Loader"] }, .project⟩]

/-- Two entries move and one gives way to the class of the project; then nothing is left to do. -/
theorem relocate_settles_of_outOfYaml :
    StandApart outOfYaml ∧
      (relocate outOfYaml yamlLibrary).2 = 2 ∧ (relocate outOfYaml yamlLibrary).1.size = 3 ∧
      (∀ m ∈ (relocate outOfYaml yamlLibrary).1.rows, m.entry.Spared outOfYaml) ∧
      relocate outOfYaml (relocate outOfYaml yamlLibrary).1 =
        ((relocate outOfYaml yamlLibrary).1, 0) := by
  have hplain : (outOfYaml.all fun rule => rule.destination.toList.all fun c =>
      c ≠ '#' && !Text.isBlank c) = true := by decide +kernel
  have hapart : StandApart outOfYaml :=
    { valid := by decide +kernel
      pattern := by decide +kernel
      destination := by decide +kernel
      outside := by decide +kernel
      plain := by simpa using hplain }
  obtain ⟨hspared, hagain⟩ := relocate_settles hapart yamlLibrary
  exact ⟨hapart, by decide +kernel, by decide +kernel, hspared, hagain⟩

end Archive

end Vendoring
