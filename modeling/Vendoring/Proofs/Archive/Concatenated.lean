import Vendoring.Proofs.Archive.Merged

/-!
# Descriptors of one service, put together

Several entries may be provided at the path of a service: one of the project's own, and any number
of those that dependencies offer.  A merged archive has one descriptor there, whose lines are those
of the first of these entries and behind them the lines that the others add, each where it comes
first (`textLines_merge`).  A line that the first entry itself repeats is never looked at again, so
the descriptor lists every provider once only if the first entry does.

* `listsOnce_iff`: when a descriptor lists every provider once, in order.
* `not_listsOnce_of_repeated_line`: a provider that is listed twice.
-/

namespace Vendoring

namespace Archive

variable {project : List ArchiveEntry} {dependencies : List ResolvedArtifact} {path : String}
  {first : ArchiveEntry} {rest : List ArchiveEntry}

/-! ## What is provided at a path -/

/-- The entries provided at a path: those of the project, and behind them those that dependencies
offer, in their order. -/
def provided (project : List ArchiveEntry) (dependencies : List ResolvedArtifact) (path : String) :
    List ArchiveEntry :=
  (project ++ dependencies.flatMap ResolvedArtifact.offered).filter (·.path = path)

theorem path_of_mem_provided {e : ArchiveEntry} (h : e ∈ provided project dependencies path) :
    e.path = path :=
  of_decide_eq_true (List.mem_filter.1 h).2

/-- What dependencies offer, without the origins. -/
theorem map_entry_offers (dependencies : List ResolvedArtifact) :
    (offers dependencies).map MergedEntry.entry =
      dependencies.flatMap ResolvedArtifact.offered := by
  rw [offers, List.map_flatMap]
  refine List.flatMap_congr fun artifact _ => ?_
  rw [List.map_map]
  exact List.map_id _

/-- If the paths of the project's entries are distinct, the one that counts at a path is all that
the project has there. -/
theorem toList_ownAt (h : (project.map ArchiveEntry.path).Nodup) (path : String) :
    (ownAt project path).toList = project.filter (·.path = path) := by
  -- all of them have one path, and so there is at most one
  have hlength : (project.filter (·.path = path)).length ≤ 1 := by
    have hsame : (project.filter (·.path = path)).map ArchiveEntry.path =
        List.replicate (project.filter (·.path = path)).length path := by
      refine List.eq_replicate_iff.2 ⟨List.length_map _, fun p hp => ?_⟩
      obtain ⟨e, he, rfl⟩ := List.mem_map.1 hp
      exact of_decide_eq_true (List.mem_filter.1 he).2
    rw [← List.nodup_replicate (a := path), ← hsame]
    exact h.sublist (List.filter_sublist.map _)
  rw [ownAt]
  cases hown : project.filter (·.path = path) with
  | nil => rfl
  | cons e more =>
    rw [hown, List.length_cons] at hlength
    obtain rfl : more = [] := List.length_eq_zero_iff.1 (by omega)
    rfl

/-- The candidates for a path are what is provided there. -/
theorem map_entry_candidates (h : (project.map ArchiveEntry.path).Nodup) (path : String) :
    (candidates project dependencies path).map MergedEntry.entry =
      provided project dependencies path := by
  have hown : (((ownAt project path).map fun e => (⟨e, .project⟩ : MergedEntry)).toList).map
      MergedEntry.entry = (ownAt project path).toList := by
    cases ownAt project path <;> rfl
  rw [candidates, List.map_append, hown, toList_ownAt h, provided, List.filter_append,
    ← map_entry_offers, List.filter_map]
  rfl

/-! ## The lines of a merged descriptor -/

/-- The first entry at a path is a candidate, and the others are joined to it. -/
theorem exists_get?_of_provided (h : (project.map ArchiveEntry.path).Nodup)
    (hprovided : provided project dependencies path = first :: rest) :
    ∃ (m : MergedEntry) (ms : List MergedEntry), m.entry = first ∧ ms.map MergedEntry.entry = rest ∧
      (merge project dependencies).get? path = some (ms.foldl MergedEntry.join m) := by
  have hentries : (candidates project dependencies path).map MergedEntry.entry = first :: rest := by
    rw [map_entry_candidates h, hprovided]
  rw [List.map_eq_cons_iff] at hentries
  obtain ⟨m, ms, hcandidates, hfirst, hrest⟩ := hentries
  refine ⟨m, ms, hfirst, hrest, ?_⟩
  rw [get?_merge, hcandidates, joined]

/-- **The lines of a merged descriptor** are those of the first one, and the new ones of the
others. -/
theorem textLines_merge (h : (project.map ArchiveEntry.path).Nodup)
    (hprovided : provided project dependencies path = first :: rest)
    (hservice : first.serviceName?.isSome = true) :
    ((merge project dependencies).get? path).map (·.entry.textLines) =
      some (first.textLines ++
        ((rest.flatMap ArchiveEntry.textLines).filter (· ∉ first.textLines)).eraseDups) := by
  obtain ⟨m, ms, rfl, rfl, hget⟩ := exists_get?_of_provided h hprovided
  -- all of them are descriptors of one service, since they have one path
  have hservices : ∀ m' ∈ ms, m'.entry.serviceName?.isSome = true := by
    intro m' hm'
    have hmem : ∀ e ∈ m.entry :: ms.map MergedEntry.entry, e.path = path := fun e he =>
      path_of_mem_provided (hprovided ▸ he)
    have hpath := (hmem m'.entry (List.mem_cons_of_mem _ (List.mem_map_of_mem hm'))).trans
      (hmem m.entry (List.mem_cons_self ..)).symm
    rwa [ArchiveEntry.serviceName?_congr hpath]
  rw [hget, Option.map_some, textLines_foldl_join hservices, addLines_eq, List.flatMap_map]

/-- Does the archive have a descriptor at the path that lists once, and in order, what all entries
provided there list? -/
def ListsOnce (project : List ArchiveEntry) (dependencies : List ResolvedArtifact)
    (path : String) : Prop :=
  ((merge project dependencies).get? path).map (·.entry.textLines) =
    some ((provided project dependencies path).flatMap ArchiveEntry.textLines).eraseDups

instance (project : List ArchiveEntry) (dependencies : List ResolvedArtifact) (path : String) :
    Decidable (ListsOnce project dependencies path) :=
  inferInstanceAs (Decidable (_ = _))

/-- **Concatenated descriptors.**  The descriptor of a service lists what the first entry provided
at its path lists, and behind it, each where it comes first, what the others list besides.  So it
lists every provider once, in the order of all these lines, exactly if the first entry repeats none;
otherwise a line stands in it twice. -/
theorem listsOnce_iff (hdistinct : (project.map ArchiveEntry.path).Nodup)
    (hprovided : provided project dependencies path = first :: rest)
    (hservice : first.serviceName?.isSome = true) :
    ∃ m, (merge project dependencies).get? path = some m ∧
      m.entry.textLines = first.textLines ++
        ((rest.flatMap ArchiveEntry.textLines).filter (· ∉ first.textLines)).eraseDups ∧
      (ListsOnce project dependencies path ↔ first.textLines.Nodup) ∧
      (m.entry.textLines.Nodup ↔ first.textLines.Nodup) := by
  have hlines := textLines_merge hdistinct hprovided hservice
  obtain ⟨m, hget, htext⟩ := Option.map_eq_some_iff.1 hlines
  refine ⟨m, hget, htext, ?_, ?_⟩
  · rw [ListsOnce, hlines, hprovided, List.flatMap_cons, Option.some_inj,
      append_new_eq_eraseDups_iff]
  · rw [htext, nodup_append_new_iff]

/-- A descriptor of a service. -/
def descriptor (text : String) : ArchiveEntry :=
  { path := "META-INF/services/a.S", contents := text.toUTF8 }

/-- Two dependencies with descriptors of one service. -/
def twoDescriptors : List ResolvedArtifact :=
  [⟨⟨"org.one", "one", none⟩, [descriptor "b.Q\na.P\nb.Q\n"]⟩,
    ⟨⟨"org.two", "two", none⟩, [descriptor "# more\nc.R\na.P"]⟩]

/-- Repetitions in the second and the third descriptor do no harm. -/
theorem listsOnce_iff_of_twoDescriptors :
    ∃ m, (merge [descriptor "a.P\n"] twoDescriptors).get? "META-INF/services/a.S" = some m ∧
      m.entry.textLines = ["a.P", "b.Q", "c.R"] ∧
      ListsOnce [descriptor "a.P\n"] twoDescriptors "META-INF/services/a.S" := by
  have hprovided : provided [descriptor "a.P\n"] twoDescriptors "META-INF/services/a.S" =
      [descriptor "a.P\n", descriptor "b.Q\na.P\nb.Q\n", descriptor "# more\nc.R\na.P"] := rfl
  obtain ⟨m, hget, htext, honce, -⟩ :=
    listsOnce_iff (by decide +kernel) hprovided (by decide +kernel)
  refine ⟨m, hget, ?_, honce.2 (by decide +kernel)⟩
  rw [htext]
  decide +kernel

/-- A repetition in the first descriptor stays: the provider is listed twice. -/
theorem not_listsOnce_of_repeated_line :
    let project := [descriptor "a.P\na.P\n"]
    let dependencies : List ResolvedArtifact :=
      [⟨⟨"org.lib", "lib", none⟩, [descriptor "b.Q\n"]⟩]
    let path := "META-INF/services/a.S"
    (project.map ArchiveEntry.path).Nodup ∧ (provided project dependencies path).length = 2 ∧
      ((merge project dependencies).get? path).map (·.entry.textLines) =
        some ["a.P", "a.P", "b.Q"] ∧
      ¬ ListsOnce project dependencies path := by
  decide +kernel

end Archive

end Vendoring
