import Vendoring.Configuration.Container

/-!
# Dependency declarations

A container is shown as the block of declarations that would register its coordinates in a Kotlin
build script, one declaration on a line.
-/

namespace Vendoring.Container

/-- The declaration that registers a coordinate under a name. -/
def declaration (name : ConfigurationName) (k : Coordinate) : String :=
  name.text ++ "(\"" ++ k.text ++ "\")"

/-- The declarations of a configuration, each on an indented line. -/
def declarationLines (x : Configuration) : List String :=
  x.dependencies.map fun k => "    " ++ declaration x.name k ++ "\n"

/-- The block of all declarations, without a line end after its last line. -/
def declarations (c : Container) : String :=
  "dependencies \x7b\n" ++ String.join (c.configurations.flatMap declarationLines) ++ "\x7d"

end Vendoring.Container
