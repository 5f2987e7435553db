import Vendoring.Archive.Basic

/-!
# Merging entries

The project's own entries and those of its dependencies make one archive.  The project's entries
come first, then the dependencies in order, and the first entry at a path stays; only service
descriptors add their lines to the one that is there.  Signature files and manifests of
dependencies belong to the archives they come from and are left out.
-/

namespace Vendoring.Archive

/-- The lines `lines` with those of `incoming` that are not among them. -/
def addLines (lines incoming : List String) : List String :=
  incoming.foldl (fun lines line => if lines.contains line then lines else lines ++ [line]) lines

/-- Adds the providers of one service descriptor to another. -/
def addProviders (e incoming : ArchiveEntry) : ArchiveEntry :=
  e.withLines (addLines e.textLines incoming.textLines)

/-- Adds one entry of a dependency. -/
def mergeEntry (coordinate : Coordinate) (a : Archive) (e : ArchiveEntry) : Archive :=
  if e.isBound then a
  else match a.get? e.path with
    | none => a.insert ⟨e, .dependency coordinate⟩
    | some existing =>
      if e.serviceName?.isSome then
        a.insert { existing with entry := addProviders existing.entry e }
      else a

/-- Adds the entries of a dependency. -/
def mergeArtifact (a : Archive) (artifact : ResolvedArtifact) : Archive :=
  artifact.entries.foldl (mergeEntry artifact.coordinate) a

/-- The archive of the project's own entries, of which the last at a path counts. -/
def ofProject (entries : List ArchiveEntry) : Archive :=
  Table.ofList MergedEntry.path (entries.map fun e => ⟨e, .project⟩)

/-- The archive of the project's entries and those of its dependencies. -/
def merge (project : List ArchiveEntry) (dependencies : List ResolvedArtifact) : Archive :=
  dependencies.foldl mergeArtifact (ofProject project)

end Vendoring.Archive
