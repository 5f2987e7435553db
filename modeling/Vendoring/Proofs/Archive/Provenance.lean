import Mathlib.Data.List.Nodup
import Vendoring.Archive.Merge
import Vendoring.Proofs.Archive.Needed
import Vendoring.Proofs.Archive.Providers
import Vendoring.Proofs.Text.ByteOrder

/-!
# Where the entries of an archive come from, and where they go

The entries of an archive are in the order of the bytes of their paths (`pairwise_bytes_entries`).

What is merged is supplied by the project or by a dependency (`Supplied`), and whatever happens to
it on the way, an entry of a merged archive still descends from one that was supplied: adding the
lines of a descriptor to another one changes nothing but these lines.  This is kept by every entry
that is merged (`comesFrom_mergeEntry`), and so it holds of the whole archive (`comesFrom_merge`).

The entries that are lost on the way are counted: minimizing drops those that its number says
(`size_minimize`), and relocation drops those whose new path is taken before them
(`size_relocate`).
-/

namespace Vendoring

namespace ArchiveEntry

variable {rules : List RelocationRule} {e e' e'' : ArchiveEntry}

/-- What descends from an entry by rules descends by them from whatever the entry was before. -/
theorem DescendsFrom.of_nil (h : e''.DescendsFrom rules e') (h' : e'.DescendsFrom [] e) :
    e''.DescendsFrom rules e := by
  have hpath : e'.path = e.path := by simpa using h'.path
  have hservice : e'.serviceName? = e.serviceName? := by simp [serviceName?, hpath]
  have htarget : e'.target rules = e.target rules := by simp [target, hservice, hpath]
  have hreferences : e'.references = e.references := by
    rw [h'.references]
    exact e.descendsFrom_refl.references.symm
  exact
    { path := by rw [h.path, htarget]
      references := by rw [h.references, hreferences]
      contents := fun hnone => by rw [h.contents (hservice.trans hnone), h'.contents hnone] }

/-- A service descriptor with other lines still descends from what it descended from. -/
theorem DescendsFrom.withLines (h : e'.DescendsFrom [] e) (hservice : e'.serviceName?.isSome = true)
    (lines : List String) : (e'.withLines lines).DescendsFrom [] e where
  path := h.path
  references := h.references
  contents hnone := by
    have hpath : e'.path = e.path := by simpa using h.path
    have hsame : e'.serviceName? = e.serviceName? := by simp [serviceName?, hpath]
    simp [hsame, hnone] at hservice

end ArchiveEntry

namespace Archive

variable {project : List ArchiveEntry} {dependencies : List ResolvedArtifact} {a : Archive}

/-! ## The order of the entries -/

/-- The entries of an archive are in the order of the bytes of their paths. -/
theorem pairwise_bytes_entries (a : Archive) :
    a.entries.Pairwise fun e e' => Text.bytes e.path < Text.bytes e'.path := by
  rw [entries, List.pairwise_map]
  exact a.sorted.imp Text.bytes_lt_bytes

/-- At a path of an archive there is one entry, which is found there. -/
theorem find?_entries_eq_some_iff {path : String} {e : ArchiveEntry} :
    a.entries.find? (·.path = path) = some e ↔ e ∈ a.entries ∧ e.path = path := by
  have hfind : a.entries.find? (·.path = path) = (a.get? path).map MergedEntry.entry := by
    rw [entries, List.find?_map]
    rfl
  rw [hfind, Option.map_eq_some_iff, entries, List.mem_map]
  constructor
  · rintro ⟨m, hm, rfl⟩
    obtain ⟨hrow, hpath⟩ := Table.get?_eq_some_iff.1 hm
    exact ⟨⟨m, hrow, rfl⟩, hpath⟩
  · rintro ⟨⟨m, hrow, rfl⟩, hpath⟩
    exact ⟨m, Table.get?_eq_some_iff.2 ⟨hrow, hpath⟩, rfl⟩

/-! ## Merging -/

/-- The entries that an archive is made of, with their origins: all of the project's own, and those
of dependencies that are neither signature files nor manifests. -/
inductive Supplied (project : List ArchiveEntry) (dependencies : List ResolvedArtifact) :
    ArchiveEntry → Origin → Prop
  | own {e : ArchiveEntry} : e ∈ project → Supplied project dependencies e .project
  | vendored {e : ArchiveEntry} {artifact : ResolvedArtifact} : artifact ∈ dependencies →
      e ∈ artifact.entries → e.isSignature = false → e.isManifest = false →
      Supplied project dependencies e (.dependency artifact.coordinate)

/-- Does every entry of the archive descend from one that was supplied, with its origin? -/
def ComesFrom (project : List ArchiveEntry) (dependencies : List ResolvedArtifact) (a : Archive) :
    Prop :=
  ∀ m ∈ a.rows, ∃ e, Supplied project dependencies e m.origin ∧ m.entry.DescendsFrom [] e

/-- An entry may be put into the archive if it descends from one that was supplied. -/
theorem ComesFrom.insert (h : ComesFrom project dependencies a) {m : MergedEntry}
    (hm : ∃ e, Supplied project dependencies e m.origin ∧ m.entry.DescendsFrom [] e) :
    ComesFrom project dependencies (a.insert m) := by
  intro m' hm'
  rcases Table.mem_insertRow hm' with rfl | hold
  · exact hm
  · exact h m' hold

theorem comesFrom_ofProject (project : List ArchiveEntry) (dependencies : List ResolvedArtifact) :
    ComesFrom project dependencies (ofProject project) := by
  rw [ofProject, Table.ofList]
  refine List.foldlRecOn _ _ ?_ ?_
  · intro m hm
    cases hm
  · intro a ha m hm
    obtain ⟨e, he, rfl⟩ := List.mem_map.1 hm
    exact ha.insert ⟨e, .own he, e.descendsFrom_refl⟩

/-- To merge one entry of a dependency keeps the archive made of what was supplied. -/
theorem comesFrom_mergeEntry {artifact : ResolvedArtifact} {e : ArchiveEntry}
    (h : ComesFrom project dependencies a) (hartifact : artifact ∈ dependencies)
    (he : e ∈ artifact.entries) :
    ComesFrom project dependencies (mergeEntry artifact.coordinate a e) := by
  rw [mergeEntry]
  by_cases hbound : e.isBound = true
  · rw [if_pos hbound]
    exact h
  rw [if_neg hbound]
  simp only [ArchiveEntry.isBound, Bool.or_eq_true, not_or, Bool.not_eq_true] at hbound
  cases hget : a.get? e.path with
  | none =>
    exact h.insert ⟨e, .vendored hartifact he hbound.1 hbound.2, e.descendsFrom_refl⟩
  | some existing =>
    obtain ⟨hrow, hpath⟩ := Table.get?_eq_some_iff.1 hget
    simp only
    split
    · next hservice =>
      obtain ⟨source, hsource, hdescends⟩ := h existing hrow
      -- both are descriptors of one service, since they have one path
      have hexisting : existing.entry.serviceName?.isSome = true := by
        have hsame : existing.entry.path = e.path := hpath
        simpa [ArchiveEntry.serviceName?, hsame] using hservice
      exact h.insert ⟨source, hsource, hdescends.withLines hexisting _⟩
    · exact h

/-- An archive is made of what was supplied. -/
theorem comesFrom_merge (project : List ArchiveEntry) (dependencies : List ResolvedArtifact) :
    ComesFrom project dependencies (merge project dependencies) := by
  refine List.foldlRecOn _ _ (comesFrom_ofProject project dependencies) ?_
  intro a ha artifact hartifact
  refine List.foldlRecOn _ _ ha ?_
  intro a ha e he
  exact comesFrom_mergeEntry ha hartifact he

/-! ## What is dropped -/

/-- What minimizing leaves and the number that it gives make up the archive. -/
theorem size_minimize (keep : List String) (a : Archive) :
    (minimize keep a).1.size + (minimize keep a).2 = a.size := by
  have hle : (minimize keep a).1.size ≤ a.size := List.length_filter_le ..
  have hnumber : (minimize keep a).2 = a.size - (minimize keep a).1.size := rfl
  omega

variable {rules : List RelocationRule} {m : MergedEntry}

/-- Does another entry come to the path of `m` before it? -/
def Displaced (rules : List RelocationRule) (a : Archive) (m : MergedEntry) : Prop :=
  ∃ m' ∈ a.rows, m'.entry.target rules = m.entry.target rules ∧ Precedes m' m

instance (rules : List RelocationRule) (a : Archive) (m : MergedEntry) :
    Decidable (Displaced rules a m) :=
  inferInstanceAs (Decidable (∃ m' ∈ _, _ ∧ _))

/-- An entry prevails at its path unless another one comes there before it. -/
theorem displaced_iff (hm : m ∈ a.rows) : Displaced rules a m ↔ ¬ Prevails rules a m := by
  constructor
  · rintro ⟨m', hm', htarget, hprecedes⟩ hprevails
    rcases hprevails.2 m' hm' htarget with rfl | hafter
    · exact hprecedes.asymm hprecedes
    · exact hafter.asymm hprecedes
  · intro hnot
    obtain ⟨winner, hwinner, htarget⟩ := exists_prevails rules hm
    rcases hwinner.2 m hm htarget.symm with rfl | hprecedes
    · exact absurd hwinner hnot
    · exact ⟨winner, hwinner.1, htarget, hprecedes⟩

/-- As many entries are left after relocation as prevail at their new paths. -/
theorem size_relocate_eq (rules : List RelocationRule) (a : Archive) :
    (relocate rules a).1.size = (a.rows.filter (Prevails rules a ·)).length := by
  have hnodup : ((a.rows.filter (Prevails rules a ·)).map (·.entry.target rules)).Nodup := by
    refine List.Nodup.map_on ?_ (a.nodup_keys.of_map.filter _)
    intro m hm m' hm' htarget
    exact eq_of_prevails (by simpa using (List.mem_filter.1 hm).2)
      (by simpa using (List.mem_filter.1 hm').2) htarget
  rw [Table.size_eq_length hnodup, List.length_map]
  intro k
  rw [contains_relocate_iff, List.mem_map]
  constructor
  · rintro ⟨m, hm, rfl⟩
    obtain ⟨winner, hwinner, htarget⟩ := exists_prevails rules hm
    exact ⟨winner, List.mem_filter.2 ⟨hwinner.1, by simpa using hwinner⟩, htarget⟩
  · rintro ⟨m, hm, rfl⟩
    exact ⟨m, (List.mem_filter.1 hm).1, rfl⟩

/-- What relocation leaves and what is displaced make up the archive. -/
theorem size_relocate (rules : List RelocationRule) (a : Archive) :
    (relocate rules a).1.size + (a.rows.filter (Displaced rules a ·)).length = a.size := by
  have hdisplaced : a.rows.filter (Displaced rules a ·) =
      a.rows.filter (fun m => !decide (Prevails rules a m)) := by
    refine List.filter_congr fun m hm => ?_
    simp [displaced_iff hm]
  have hsplit := List.length_eq_length_filter_add (l := a.rows) (Prevails rules a ·)
  rw [size_relocate_eq, hdisplaced, Table.size]
  omega

end Archive

end Vendoring
