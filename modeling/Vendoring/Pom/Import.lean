import Vendoring.Configuration.Container
import Vendoring.Pom.Reading

/-!
# Importing dependencies

The dependencies of a POM are registered in the configurations that their scopes correspond to.
One that has no coordinate, or a scope without a configuration, is skipped and reported; it does
not keep the others from being registered.  A file is read as a whole before anything is registered.
-/

namespace Vendoring.Pom

/-- Why a dependency was skipped. -/
inductive SkipReason
  | missingCoordinates
  | unmappedScope (scope : String)
  deriving DecidableEq

/-- What is said about a skipped dependency. -/
def SkipReason.message : SkipReason → String
  | missingCoordinates => "missing groupId or artifactId"
  | unmappedScope scope => "unmapped scope '" ++ scope ++ "'"

/-- A dependency that was not registered. -/
structure Skipped where
  label : String
  line : Nat
  reason : SkipReason
  deriving DecidableEq

/-- What came of an import. -/
structure ImportReport where
  /-- The new registrations in the order of their declarations. -/
  registered : List (ConfigurationName × Coordinate) := []
  /-- The number of dependencies that were registered before. -/
  alreadyPresent : Nat := 0
  skipped : List Skipped := []
  deriving DecidableEq

/-- Was nothing skipped? -/
def ImportReport.isClean (r : ImportReport) : Bool := r.skipped.isEmpty

/-- Where a dependency is to be registered, or why it is not. -/
def Dependency.target (d : Dependency) : Except SkipReason (ConfigurationName × Coordinate) :=
  match d.coordinate? with
  | none => .error .missingCoordinates
  | some k =>
    match d.configuration? with
    | none => .error (.unmappedScope d.effectiveScope.text)
    | some name => .ok (name, k)

/-- Registers one dependency. -/
def importOne (state : Container × ImportReport) (d : Dependency) : Container × ImportReport :=
  let (c, report) := state
  match d.target with
  | .error reason =>
    (c, { report with skipped := report.skipped ++ [⟨d.label, d.line, reason⟩] })
  | .ok (name, k) =>
    if c.lists name k then (c, { report with alreadyPresent := report.alreadyPresent + 1 })
    else (c.register name k, { report with registered := report.registered ++ [(name, k)] })

/-- Registers the dependencies of a document. -/
def Document.importInto (doc : Document) (c : Container) : Container × ImportReport :=
  doc.dependencies.foldl importOne (c, {})

/-- Registers the dependencies of the POM in a file. -/
def importFile (fs : FileSystem) (path : String) : EStateM Fault Container ImportReport := do
  let document ← ofExcept (load fs path)
  modifyGet fun c => (document.importInto c).swap

end Vendoring.Pom
