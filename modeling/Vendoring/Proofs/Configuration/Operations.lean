import Vendoring.Packaging
import Vendoring.Proofs.Configuration.Growth

/-!
# Runs of a container

All that can be done to a container, in any order and as often as one likes.  A run goes on with
what a refused set leaves behind, which is the container as it was (`perform_install`).  No
operation takes anything away (`grows_run`).
-/

namespace Vendoring.Container

/-- What can be done to a container. -/
inductive Operation
  | create (name : ConfigurationName)
  | register (name : ConfigurationName) (k : Coordinate)
  | unlock (name : ConfigurationName)
  | importDocument (doc : Pom.Document)
  | install (s : ShadedSet)

/-- The container as an operation leaves it, also where a set is refused. -/
def perform (c : Container) : Operation → Container
  | .create name => c.create name
  | .register name k => c.register name k
  | .unlock name => c.unlock name
  | .importDocument doc => (doc.importInto c).1
  | .install s => InPlace.left s.installInPlace c

/-- The container behind some operations. -/
def run (c : Container) (operations : List Operation) : Container := operations.foldl perform c

/-- A refused set leaves the container as it was. -/
theorem perform_install (c : Container) (s : ShadedSet) :
    c.perform (.install s) =
      if s.isReserved then c else (c.unlock s.name).registerAll s.name s.dependencies := by
  rw [perform, InPlace.left, ShadedSet.run_installInPlace]
  cases s.isReserved <;> rfl

theorem grows_create (c : Container) (name : ConfigurationName) : c.Grows (c.create name) where
  names := names_prefix_create c name
  dependencies other := by rw [dependencies_create]

theorem grows_perform (c : Container) (operation : Operation) : c.Grows (c.perform operation) := by
  cases operation with
  | create name => exact grows_create c name
  | register name k => exact grows_register c name k
  | unlock name => exact grows_unlock c name
  | importDocument doc => exact Pom.grows_importInto doc c
  | install s =>
    rw [perform_install]
    split
    · exact .refl c
    · exact grows_install s c

/-- Whatever is done to a container, it keeps what it holds. -/
theorem grows_run (c : Container) (operations : List Operation) : c.Grows (c.run operations) := by
  induction operations generalizing c with
  | nil => exact .refl c
  | cons operation operations ih =>
    exact (grows_perform c operation).trans (ih (c.perform operation))

end Vendoring.Container
