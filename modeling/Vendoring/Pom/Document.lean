import Vendoring.Coordinate
import Vendoring.Pom.Scope
import Vendoring.Table

/-!
# POM documents

What a POM says about its own project and about the dependencies it declares.  All parts of a
dependency are optional: an incomplete one is kept, and it is up to its user what to make of it.
-/

namespace Vendoring.Pom

/-- A declared dependency. -/
structure Dependency where
  groupId : Option String := none
  artifactId : Option String := none
  version : Option String := none
  scope : Option Scope := none
  /-- The line of the declaration, counted from one. -/
  line : Nat
  deriving DecidableEq

namespace Dependency

/-- The text, unless it is missing or empty. -/
def nonEmpty (s : Option String) : Option String := s.filter (· ≠ "")

/-- The coordinate of the dependency, if it has a group and an artifact. -/
def coordinate? (d : Dependency) : Option Coordinate :=
  match nonEmpty d.groupId, nonEmpty d.artifactId with
  | some group, some artifact => some ⟨group, artifact, nonEmpty d.version⟩
  | _, _ => none

/-- The scope of the dependency, which is `compile` unless declared. -/
def effectiveScope (d : Dependency) : Scope := d.scope.getD .compile

/-- The configuration the dependency belongs to. -/
def configuration? (d : Dependency) : Option ConfigurationName := d.effectiveScope.configuration?

/-- How the dependency is called in reports; a question mark stands for what is missing. -/
def label (d : Dependency) : String := d.groupId.getD "?" ++ ":" ++ d.artifactId.getD "?"

end Dependency

/-- The properties of a POM, by their names. -/
abbrev Properties : Type := Table (Prod.fst : String × String → String)

/-- What a POM declares. -/
structure Document where
  groupId : Option String := none
  artifactId : Option String := none
  version : Option String := none
  /-- The dependencies in the order of their declarations. -/
  dependencies : List Dependency := []
  properties : Properties := Table.empty Prod.fst
  deriving DecidableEq

end Vendoring.Pom
