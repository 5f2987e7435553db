import Vendoring.Proofs.Archive.Provenance
import Vendoring.Proofs.Packaging.Stages

/-!
# What a packaged archive holds

What was packaged has one entry at a path, and each entry descends from one that the project or a
resolved dependency supplied.  Nothing is lost without a trace: the entries of the merged archive
are those that are left, those that minimizing removed, and those that came to a path where
relocation had put another one (`size_merged`).

## Main results

* `exists_supplied_of_mem_assemble`: where the entries come from;
* `size_merged`: where the merged entries go;
* `run_accounts_for_entries`: both for a successful run, with the order of the entries.
-/

namespace Vendoring

namespace Packaging

/-- The archive of a module and its resolved dependencies. -/
def merged (input : Input) (resolved : List ResolvedArtifact) : Archive :=
  Archive.merge input.projectEntries resolved

/-- The archive without what nothing needs, if it is to be minimized. -/
def minimized (input : Input) (resolved : List ResolvedArtifact) : Archive :=
  if input.minimize then ((merged input resolved).minimize input.keep).1
  else merged input resolved

/-- The entries that relocation drops, since another one comes to their paths before them. -/
def displaced (input : Input) (resolved : List ResolvedArtifact) : List MergedEntry :=
  (minimized input resolved).rows.filter
    (Archive.Displaced input.relocations (minimized input resolved) ·)

section Stages

variable (input : Input) (resolved : List ResolvedArtifact)

/-- What is relocated is the minimized archive. -/
theorem fst_assemble :
    (assemble input resolved).1 = ((minimized input resolved).relocate input.relocations).1 := by
  rw [assemble, minimized]
  cases input.minimize <;> rfl

/-- The removed entries are those that the minimized archive lacks. -/
theorem size_minimized :
    (minimized input resolved).size + (assemble input resolved).2.1 =
      (merged input resolved).size := by
  rw [assemble, minimized, merged]
  cases input.minimize with
  | false => simp
  | true => simpa using Archive.size_minimize input.keep _

/-- Minimizing leaves entries of the merged archive. -/
theorem mem_merged_of_mem_minimized {m : MergedEntry}
    (h : m ∈ (minimized input resolved).rows) : m ∈ (merged input resolved).rows := by
  rw [minimized] at h
  split at h
  · exact (List.mem_filter.1 h).1
  · exact h

/-- **Every entry that is put together descends from one that was supplied.** -/
theorem exists_supplied_of_mem_assemble {e' : ArchiveEntry}
    (h : e' ∈ (assemble input resolved).1.entries) :
    ∃ e origin, Archive.Supplied input.projectEntries resolved e origin ∧
      e'.DescendsFrom input.relocations e := by
  obtain ⟨m', hm', rfl⟩ := List.mem_map.1 h
  rw [fst_assemble] at hm'
  obtain ⟨m, hm, -, hrelocated⟩ := Archive.exists_of_mem_relocate hm'
  obtain ⟨e, hsupplied, hmerged⟩ := Archive.comesFrom_merge input.projectEntries resolved m
    (mem_merged_of_mem_minimized input resolved hm)
  exact ⟨e, m.origin, hsupplied, hrelocated.of_nil hmerged⟩

/-- **The entries that are put together, those that were removed and those that were displaced are
as many as the merged archive has.** -/
theorem size_merged :
    (merged input resolved).size =
      (assemble input resolved).1.entries.length + (assemble input resolved).2.1 +
        (displaced input resolved).length := by
  have hentries : (assemble input resolved).1.entries.length =
      (assemble input resolved).1.size := List.length_map ..
  have hrelocated := Archive.size_relocate input.relocations (minimized input resolved)
  have hminimized := size_minimized input resolved
  rw [hentries, fst_assemble, displaced]
  omega

end Stages

variable {resolve : Resolver} {input : Input} {outcome : Outcome}

/-- **Where the entries of a module come from, and where they go.**  The paths of what was packaged
are in the order of their bytes, so that an entry is found if it is there.  Every entry descends
from one of the project or of a resolved dependency; and what the merged archive has is left, or was
removed, or was displaced. -/
theorem run_accounts_for_entries (h : run resolve input = .ok outcome) :
    outcome.entries.Pairwise (fun e e' => Text.bytes e.path < Text.bytes e'.path) ∧
    (∀ path e, outcome.entry? path = some e ↔ e ∈ outcome.entries ∧ e.path = path) ∧
    ∃ resolved, input.shaded.dependencies.mapM resolve = .ok resolved ∧
      (∀ e' ∈ outcome.entries, ∃ e origin,
        Archive.Supplied input.projectEntries resolved e origin ∧
        e'.DescendsFrom input.relocations e) ∧
      (merged input resolved).size =
        outcome.entries.length + outcome.removedByMinimize +
          (displaced input resolved).length := by
  obtain ⟨-, resolved, hresolved, plan, -, rfl⟩ := run_eq_ok_iff.1 h
  refine ⟨Archive.pairwise_bytes_entries _, fun path e => ?_, resolved, hresolved,
    fun e' he' => exists_supplied_of_mem_assemble input resolved he', size_merged input resolved⟩
  exact Archive.find?_entries_eq_some_iff

/-- A module that vendors a library, with a copy of its parser where relocation takes the parser. -/
def copiedParser : Input where
  shaded := ⟨.custom "shaded", [⟨"org.lib", "lib", none⟩]⟩
  projectEntries :=
    [{ path := "app/Main.class", references := ["lib/Parser"] },
      { path := "shaded/lib/Parser.class" }]
  relocations := [⟨"lib", "shaded.lib"⟩]
  plain := { kind := .plain, baseName := "app", version := "1" }

/-- The library, which is signed, offers a service, and has a printer that nobody needs. -/
def parserLibrary : ArtifactIndex :=
  ⟨[(⟨"org.lib", "lib", none⟩,
    [{ path := "META-INF/LIB.SF" },
      { path := "META-INF/services/lib.Syntax", contents := "lib.Parser\n".toUTF8 },
      { path := "lib/Parser.class" },
      { path := "lib/Printer.class" }])]⟩

/-- The printer is removed, the parser of the library is displaced, and three entries are left. -/
theorem run_accounts_for_copied_library :
    ∃ outcome, run parserLibrary.resolver copiedParser = .ok outcome ∧
      outcome.entries.Pairwise (fun e e' => Text.bytes e.path < Text.bytes e'.path) ∧
      outcome.entries.length = 3 ∧ outcome.removedByMinimize = 1 ∧
      ∃ resolved, copiedParser.shaded.dependencies.mapM parserLibrary.resolver = .ok resolved ∧
        (displaced copiedParser resolved).length = 1 ∧ (merged copiedParser resolved).size = 5 := by
  obtain ⟨outcome, hrun, hleft, hremoved⟩ :
      ∃ outcome ∈ (run parserLibrary.resolver copiedParser).toOption,
        outcome.entries.length = 3 ∧ outcome.removedByMinimize = 1 := by
    decide +kernel
  rw [mem_toOption_iff] at hrun
  obtain ⟨hsorted, -, resolved, hresolved, -, hsize⟩ := run_accounts_for_entries hrun
  have hdisplaced : (displaced copiedParser resolved).length = 1 := by
    cases hresolved
    decide +kernel
  refine ⟨outcome, hrun, hsorted, hleft, hremoved, resolved, hresolved, hdisplaced, ?_⟩
  rw [hsize, hleft, hremoved, hdisplaced]

end Packaging

end Vendoring
