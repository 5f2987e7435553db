import Vendoring.Archive.Entry
import Vendoring.Coordinate
import Vendoring.Table

/-!
# Archives

An archive holds entries in the order of their paths, and remembers of each whether it is the
project's own or which dependency it comes from.
-/

namespace Vendoring

/-- Where an entry comes from. -/
inductive Origin
  | project
  | dependency (coordinate : Coordinate)
  deriving DecidableEq

/-- An entry of an archive that is being put together. -/
structure MergedEntry where
  entry : ArchiveEntry
  origin : Origin
  deriving DecidableEq

namespace MergedEntry

/-- The path of the entry. -/
def path (m : MergedEntry) : String := m.entry.path

/-- Is the entry one of the project's own? -/
def isOwn (m : MergedEntry) : Bool := m.origin = .project

end MergedEntry

/-- Entries by their paths. -/
abbrev Archive : Type := Table MergedEntry.path

namespace Archive

/-- The entries in the order of their paths. -/
def entries (a : Archive) : List ArchiveEntry := a.rows.map MergedEntry.entry

end Archive

/-- The entries of one dependency. -/
structure ResolvedArtifact where
  coordinate : Coordinate
  entries : List ArchiveEntry
  deriving DecidableEq

end Vendoring
