import Vendoring.Proofs.Archive.Concatenated

/-!
# Paths that the project repeats

Of the entries that dependencies offer at a path the first one stays, and the descriptors of a
service add up.  Among the project's own entries it is not so: they replace each other, so the last
at a path stays, and of the descriptors of a service only the last one's lines are left (`ownAt`).
The rule that the first path wins holds among them only where this makes no difference
(`RepeatsAgree`), as it does if their paths are distinct.

* `get?_merge_of_own`: the entry of the project that stays.
* `keepsFirst_iff`: when the first of the project's entries stays at every path.
* `not_keepsFirst_of_repeated_paths`: a project whose first entries are lost.
-/

namespace Vendoring

namespace Archive

variable {project : List ArchiveEntry} {dependencies : List ResolvedArtifact} {path : String}
  {e : ArchiveEntry}

/-- Is the line listed at the path, by the entry of the project that counts there or by one of a
dependency? -/
def ListedAt (project : List ArchiveEntry) (dependencies : List ResolvedArtifact) (path : String)
    (line : String) : Prop :=
  (∃ last, ownAt project path = some last ∧ line ∈ last.textLines) ∨
    ∃ artifact ∈ dependencies, ∃ e ∈ artifact.entries, e.path = path ∧ line ∈ e.textLines

/-! ## What stays of the project -/

theorem exists_ownAt (he : e ∈ project) : ∃ last, ownAt project e.path = some last :=
  Option.isSome_iff_exists.1 (isSome_ownAt_iff.2 ⟨e, he, rfl⟩)

/-- At a path of the project the last of its entries stays as it is, unless it is a descriptor. -/
theorem get?_merge_of_own (dependencies : List ResolvedArtifact)
    (h : ownAt project path = some e) (hservice : e.serviceName? = none) :
    (merge project dependencies).get? path = some ⟨e, .project⟩ := by
  have hothers : ∀ m ∈ (offers dependencies).filter (·.path = path),
      m.entry.serviceName? = none := by
    intro m hm
    have hpath : m.entry.path = path := of_decide_eq_true (List.mem_filter.1 hm).2
    rw [← hservice]
    exact ArchiveEntry.serviceName?_congr (hpath.trans (path_of_ownAt h).symm)
  rw [get?_merge, candidates_of_own h, joined, foldl_join_eq_self hothers]

/-- At a path of the project the last of its descriptors stays, with the lines of dependencies. -/
theorem exists_get?_merge_of_own (dependencies : List ResolvedArtifact)
    (h : ownAt project path = some e) (hservice : e.serviceName?.isSome = true) :
    ∃ m, (merge project dependencies).get? path = some m ∧ m.origin = .project ∧
      ∀ line, line ∈ m.entry.textLines ↔ ListedAt project dependencies path line := by
  have hcandidates : candidates project dependencies path ≠ [] := by
    rw [candidates_of_own h]
    exact List.cons_ne_nil _ _
  obtain ⟨m, hm⟩ := Option.isSome_iff_exists.1
    (Table.contains_eq_isSome_get? _ _ ▸ contains_merge_iff.2 hcandidates)
  have hpath : m.entry.path = path := (Table.get?_eq_some_iff.1 hm).2
  have hdescriptor : m.entry.serviceName?.isSome = true := by
    rwa [ArchiveEntry.serviceName?_congr (hpath.trans (path_of_ownAt h).symm)]
  exact ⟨m, hm, (merge_of_own hm h).1, fun line => mem_textLines_merge_iff hm hdescriptor⟩

/-- Where the project has an entry, its last one there is a descriptor if this one is. -/
theorem serviceName?_of_ownAt {last : ArchiveEntry} (h : ownAt project e.path = some last) :
    last.serviceName? = e.serviceName? :=
  ArchiveEntry.serviceName?_congr (path_of_ownAt h)

/-- Where the project has a descriptor, one with what is listed there stays. -/
theorem exists_get?_merge_of_mem (dependencies : List ResolvedArtifact) (he : e ∈ project)
    (hservice : e.serviceName?.isSome = true) :
    ∃ m, (merge project dependencies).get? e.path = some m ∧
      ∀ line, line ∈ m.entry.textLines ↔ ListedAt project dependencies e.path line := by
  obtain ⟨last, hlast⟩ := exists_ownAt he
  have hdescriptor : last.serviceName?.isSome = true := by rwa [serviceName?_of_ownAt hlast]
  obtain ⟨m, hm, -, hlines⟩ := exists_get?_merge_of_own dependencies hlast hdescriptor
  exact ⟨m, hm, hlines⟩

/-! ## The first path wins -/

/-- The rule that the first path wins, among the project's own entries: the first of them at a path
stays, and of its descriptors no line is lost. -/
structure KeepsFirst (project : List ArchiveEntry) (dependencies : List ResolvedArtifact) :
    Prop where
  entry : ∀ path e, project.find? (·.path = path) = some e → e.serviceName? = none →
    (merge project dependencies).get? path = some ⟨e, .project⟩
  lines : ∀ e ∈ project, e.serviceName?.isSome = true →
    ∃ m, (merge project dependencies).get? e.path = some m ∧
      ∀ line ∈ e.textLines, line ∈ m.entry.textLines

/-- Does it make no difference which of the project's entries at a path counts?  Then the last is
the first one, or all that its descriptors list is listed by the last one or by a dependency. -/
structure RepeatsAgree (project : List ArchiveEntry) (dependencies : List ResolvedArtifact) :
    Prop where
  entry : ∀ path e, project.find? (·.path = path) = some e → e.serviceName? = none →
    ownAt project path = some e
  lines : ∀ e ∈ project, e.serviceName?.isSome = true →
    ∀ line ∈ e.textLines, ListedAt project dependencies e.path line

theorem KeepsFirst.repeatsAgree (h : KeepsFirst project dependencies) :
    RepeatsAgree project dependencies where
  entry := by
    intro path e hfirst hservice
    have hpath : e.path = path := by simpa using List.find?_some hfirst
    obtain ⟨last, hlast⟩ := exists_ownAt (List.mem_of_find?_eq_some hfirst)
    have hnone := (serviceName?_of_ownAt hlast).trans hservice
    rw [hpath] at hlast
    -- both the first entry and the last one are what is found at the path
    have hsame := h.entry path e hfirst hservice
    rw [get?_merge_of_own dependencies hlast hnone, Option.some_inj, MergedEntry.mk.injEq] at hsame
    rw [hlast, hsame.1]
  lines := by
    intro e he hservice line hline
    obtain ⟨m, hm, hlines⟩ := exists_get?_merge_of_mem dependencies he hservice
    obtain ⟨m', hm', hkept⟩ := h.lines e he hservice
    rw [hm, Option.some_inj] at hm'
    exact (hlines line).1 (hm' ▸ hkept line hline)

theorem RepeatsAgree.keepsFirst (h : RepeatsAgree project dependencies) :
    KeepsFirst project dependencies where
  entry := fun path e hfirst hservice =>
    get?_merge_of_own dependencies (h.entry path e hfirst hservice) hservice
  lines := by
    intro e he hservice
    obtain ⟨m, hm, hlines⟩ := exists_get?_merge_of_mem dependencies he hservice
    exact ⟨m, hm, fun line hline => (hlines line).2 (h.lines e he hservice line hline)⟩

/-- Nothing is repeated if the paths are distinct. -/
theorem repeatsAgree_of_nodup (h : (project.map ArchiveEntry.path).Nodup)
    (dependencies : List ResolvedArtifact) : RepeatsAgree project dependencies where
  entry := by
    intro path e hfirst _
    rwa [← List.head?_filter, ← toList_ownAt h, Option.head?_toList] at hfirst
  lines := by
    intro e he _ line hline
    have hmem : e ∈ (ownAt project e.path).toList := by
      rw [toList_ownAt h]
      exact List.mem_filter.2 ⟨he, decide_eq_true rfl⟩
    exact .inl ⟨e, Option.mem_toList.1 hmem, hline⟩

/-- **The project's own entries at one path.**  The last of them stays, as it is if it is no
descriptor, and with the lines of dependencies if it is one.  So the first path wins among them
exactly if it makes no difference which of them counts, as it is if their paths are distinct. -/
theorem keepsFirst_iff (project : List ArchiveEntry) (dependencies : List ResolvedArtifact) :
    (∀ path e, ownAt project path = some e →
      (e.serviceName? = none →
        (merge project dependencies).get? path = some ⟨e, .project⟩) ∧
      (e.serviceName?.isSome = true →
        ∃ m, (merge project dependencies).get? path = some m ∧ m.origin = .project ∧
          ∀ line, line ∈ m.entry.textLines ↔ ListedAt project dependencies path line)) ∧
    (KeepsFirst project dependencies ↔ RepeatsAgree project dependencies) ∧
    ((project.map ArchiveEntry.path).Nodup → KeepsFirst project dependencies) := by
  refine ⟨fun path e hlast => ⟨fun hservice => ?_, fun hservice => ?_⟩, ?_, fun hdistinct => ?_⟩
  · exact get?_merge_of_own dependencies hlast hservice
  · exact exists_get?_merge_of_own dependencies hlast hservice
  · exact ⟨KeepsFirst.repeatsAgree, RepeatsAgree.keepsFirst⟩
  · exact (repeatsAgree_of_nodup hdistinct dependencies).keepsFirst

/-- A project that gives two entries and two descriptors of one service at the same paths. -/
def repeatedPaths : List ArchiveEntry :=
  [{ path := "a.txt", contents := "1".toUTF8 }, { path := "a.txt", contents := "2".toUTF8 },
    descriptor "a.P\n", descriptor "b.Q\n"]

/-- The first entry and the provider of the first descriptor are lost. -/
theorem not_keepsFirst_of_repeated_paths :
    ((merge repeatedPaths []).get? "a.txt").map (·.entry.contents.data.toList) =
        some "2".toUTF8.data.toList ∧
      ((merge repeatedPaths []).get? "META-INF/services/a.S").map (·.entry.textLines) =
        some ["b.Q"] ∧
      ¬ KeepsFirst repeatedPaths [] := by
  refine ⟨by decide +kernel, by decide +kernel, fun h => ?_⟩
  have hfirst := h.entry "a.txt" { path := "a.txt", contents := "1".toUTF8 } (by decide +kernel)
    (by decide +kernel)
  revert hfirst
  decide +kernel

end Archive

end Vendoring
