import Vendoring.Text.Blank

/-!
# Coordinates

A coordinate `group:artifact[:version]` names a published library.  A coordinate without a
version leaves the choice of the version to the rest of the build.
-/

namespace Vendoring

/-- The name under which a library is published. -/
structure Coordinate where
  group : String
  artifact : String
  version : Option String
  deriving DecidableEq

namespace Coordinate

/-- The name of the module, whatever its version. -/
def moduleId (c : Coordinate) : String := c.group ++ ":" ++ c.artifact

/-- The written form of a coordinate. -/
def text (c : Coordinate) : String :=
  match c.version with
  | none => c.moduleId
  | some version => c.moduleId ++ ":" ++ version

/-- The coordinate with the given parts; group and artifact must not be empty, an empty version
counts as none. -/
def ofParts? (group artifact version : List Char) : Option Coordinate :=
  if group.isEmpty || artifact.isEmpty then none
  else some
    { group := String.ofList group
      artifact := String.ofList artifact
      version := if version.isEmpty then none else some (String.ofList version) }

/-- Reads a coordinate: two or three parts between colons, blanks around them dropped. -/
def parse? (s : String) : Option Coordinate :=
  match (Text.trimChars s.toList).splitOn ':' with
  | [group, artifact] => ofParts? group artifact []
  | [group, artifact, version] => ofParts? group artifact version
  | _ => none

/-- What is said about a text that is no coordinate. -/
def invalidMessage (s : String) : String :=
  "Invalid coordinate '" ++ s ++ "': expected 'groupId:artifactId[:version]'"

/-- Coordinates are ordered by group, artifact and version, no version first. -/
instance : Ord Coordinate where
  compare a b :=
    (compare a.group b.group).then <|
      (compare a.artifact b.artifact).then (compare a.version b.version)

/-- The coordinates in increasing order. -/
def sort (cs : List Coordinate) : List Coordinate :=
  cs.mergeSort fun a b => (compare a b).isLE

end Coordinate

end Vendoring
