import Vendoring.Proofs.Configuration.Operations
import Vendoring.Proofs.Configuration.Reported

/-!
# Importing again

What an import registers stays registered, whatever is done to the container later, since containers
only grow.  So the document has nothing to add when it is imported again
(`mem_dependencies_run_importInto`).  Two imports register the places of two documents one after the
other, and what is listed depends on these places alone, not on their order.

The main result is `imports_settle_and_commute`.
-/

namespace Vendoring.Pom

/-- Behind an import the placements of the document stay listed, whatever is done. -/
theorem mem_dependencies_run_importInto (doc : Document) (c : Container)
    (operations : List Container.Operation) :
    ∀ p ∈ placements doc.dependencies,
      p.2 ∈ ((doc.importInto c).1.run operations).dependencies p.1 := by
  intro p hp
  refine ((Container.grows_run _ operations).dependencies p.1).subset ?_
  rw [container_importInto, Container.mem_dependencies_registerEach_iff]
  exact .inr hp

/-- Two imports register the placements of both documents. -/
theorem container_importInto_importInto (doc other : Document) (c : Container) :
    (other.importInto (doc.importInto c).1).1 =
      c.registerEach (placements doc.dependencies ++ placements other.dependencies) := by
  rw [Container.registerEach_append, ← container_importInto, ← container_importInto]

/-- **Imports settle and commute.**  Behind an import, and whatever is done to the container after
it, importing the document again registers nothing, changes nothing, skips the same dependencies and
finds all others present, which are those that have a place.  Two documents that are imported in
either order list the same coordinates under each name and make equally many registrations. -/
theorem imports_settle_and_commute (c : Container) (doc : Document) :
    (∀ operations : List Container.Operation,
      let later := (doc.importInto c).1.run operations
      doc.importInto later =
        (later, { registered := []
                  alreadyPresent := (doc.dependencies.filterMap Dependency.place?).length
                  skipped := (doc.importInto c).2.skipped })) ∧
    ∀ other : Document,
      let behind := (other.importInto (doc.importInto c).1).1
      let before := (doc.importInto (other.importInto c).1).1
      (∀ name, (behind.dependencies name).Perm (before.dependencies name)) ∧
        behind.registrationCount = before.registrationCount := by
  constructor
  · intro operations later
    have hskipped := (imported_importInto doc c).skipped
    rw [hskipped, ← placements_eq]
    exact importInto_eq_self (mem_dependencies_run_importInto doc c operations)
  · intro other behind before
    have hbehind : behind =
        c.registerEach (placements doc.dependencies ++ placements other.dependencies) :=
      container_importInto_importInto doc other c
    have hbefore : before =
        c.registerEach (placements other.dependencies ++ placements doc.dependencies) :=
      container_importInto_importInto other doc c
    have hperm : ∀ name, (behind.dependencies name).Perm (before.dependencies name) := by
      intro name
      rw [hbehind, hbefore]
      refine Container.perm_dependencies_registerEach c (fun p => ?_) name
      rw [List.mem_append, List.mem_append, or_comm]
    exact ⟨hperm, Container.registrationCount_congr fun name => (hperm name).length_eq⟩

end Vendoring.Pom
