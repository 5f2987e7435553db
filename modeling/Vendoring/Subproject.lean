import Vendoring.Configuration.ShadedSet
import Vendoring.Files.Path
import Vendoring.InPlace
import Vendoring.Packaging
import Vendoring.Pom.Import

/-!
# Vendored subprojects

A vendored library is a subproject of the build: its sources lie in a customary place, and its
dependencies are recorded in a container of its own.
-/

namespace Vendoring

/-- What holds for a vendored subproject unless a build says otherwise. -/
structure Conventions where
  /-- The name of the directory that holds the subproject. -/
  name : String := "snakeyaml"
  /-- The directory that holds the vendored subprojects. -/
  vendorDir : String := "vendor"
  group : String := "configurate.thirdparty"
  version : String := "version-from-submodule"
  sourceEncoding : String := "UTF-8"
  /-- The Java version that the subproject is built with. -/
  toolchain : UInt32 := 11
  /-- The Java version that the subproject is built for. -/
  release : UInt32 := 7
  deriving DecidableEq

namespace Conventions

/-- Where the POM of the subproject lies. -/
def pomPath (c : Conventions) (root : String) : String :=
  Path.join (Path.join (Path.join root c.vendorDir) c.name) "pom.xml"

/-- The coordinate that the subproject is published under. -/
def coordinate (c : Conventions) : Coordinate := ⟨c.group, c.name, some c.version⟩

end Conventions

/-- A vendored subproject and its dependencies. -/
structure Subproject where
  conventions : Conventions
  container : Container

namespace Subproject

/-- A subproject without dependencies, all of whose configurations will be locked. -/
def new (conventions : Conventions) : Subproject := ⟨conventions, Container.empty true⟩

/-- A change of the container, as a change of the subproject. -/
def onContainer {ε α : Type} : EStateM ε Container α → EStateM ε Subproject α :=
  InPlace.onPart container fun c p => { p with container := c }

/-- Imports the dependencies of the POM in a file. -/
def importPomInPlace (fs : FileSystem) (path : String) :
    EStateM Pom.Fault Subproject Pom.ImportReport :=
  onContainer (Pom.importFile fs path)

/-- Registers a shaded set and gives it as it is recorded. -/
def installShadedInPlace (shaded : ShadedSet) : EStateM Packaging.Fault Subproject ShadedSet := do
  onContainer shaded.installInPlace
  return ShadedSet.ofContainer (← get).container shaded.name

/-- The subproject into which a POM was imported, and what came of the import. -/
def importPom (p : Subproject) (fs : FileSystem) (path : String) :
    Except Pom.Fault (Subproject × Pom.ImportReport) :=
  InPlace.settled (importPomInPlace fs path) p

/-- The subproject in which a shaded set is registered, and the set as it is recorded. -/
def installShaded (p : Subproject) (shaded : ShadedSet) :
    Except Packaging.Fault (Subproject × ShadedSet) :=
  InPlace.settled (installShadedInPlace shaded) p

/-! ## What is done in place -/

/-- The subproject is left as it was if the POM cannot be read. -/
theorem run_importPomInPlace (p : Subproject) (fs : FileSystem) (path : String) :
    (importPomInPlace fs path).run p =
      match Pom.load fs path with
      | .error e => .error e p
      | .ok document =>
        .ok (document.importInto p.container).2
          { p with container := (document.importInto p.container).1 } := by
  unfold importPomInPlace Pom.importFile
  cases Pom.load fs path <;> rfl

/-- An import succeeds if the POM is read, and registers the dependencies of the document. -/
theorem importPom_eq_ok_iff {p q : Subproject} {fs : FileSystem} {path : String}
    {report : Pom.ImportReport} :
    p.importPom fs path = .ok (q, report) ↔
      ∃ document, Pom.load fs path = .ok document ∧
        { p with container := (document.importInto p.container).1 } = q ∧
        (document.importInto p.container).2 = report := by
  rw [importPom, InPlace.settled, run_importPomInPlace]
  cases Pom.load fs path <;> simp

/-- The subproject is left as it was if the name of the set is reserved. -/
theorem run_installShadedInPlace (p : Subproject) (shaded : ShadedSet) :
    (installShadedInPlace shaded).run p =
      if shaded.isReserved then .error (.reservedName shaded.name.text) p
      else
        let c := (p.container.unlock shaded.name).registerAll shaded.name shaded.dependencies
        .ok (ShadedSet.ofContainer c shaded.name) { p with container := c } := by
  unfold installShadedInPlace ShadedSet.installInPlace ShadedSet.validate
  cases shaded.isReserved <;> rfl

/-- A set whose name is not reserved is registered and read back. -/
theorem installShaded_of_isReserved_eq_false (p : Subproject) {shaded : ShadedSet}
    (h : shaded.isReserved = false) :
    p.installShaded shaded =
      let c := (p.container.unlock shaded.name).registerAll shaded.name shaded.dependencies
      .ok ({ p with container := c }, ShadedSet.ofContainer c shaded.name) := by
  rw [installShaded, InPlace.settled, run_installShadedInPlace, h]
  rfl

end Subproject

end Vendoring
