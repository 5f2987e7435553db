import Vendoring.Files.FileSystem

/-!
# File systems in memory

A list of files and directories, each with its path from the working directory, is a file system:
the directories on the way to a listed path exist too, and nothing else does.  Paths are followed
component by component, so `a/../b` needs a directory `a`.
-/

namespace Vendoring

/-- Files and directories below the working directory, by the components of their paths. -/
structure FileTree where
  listing : List (List String × FileNode)

namespace FileTree

/-- The components of a path. -/
def components (path : String) : List String :=
  (path.toList.splitOn '/').map String.ofList

/-- A tree of files and directories with the given paths. -/
def ofPaths (nodes : List (String × FileNode)) : FileTree where
  listing := nodes.map fun (path, node) =>
    ((components path).filter fun part => part ≠ "" && part ≠ ".", node)

/-- A place that a path can lead to. -/
inductive Place
  /-- The components of the way down from the working directory. -/
  | inside (way : List String)
  /-- A directory above or beside the working directory. -/
  | outside

/-- What stands at a place. -/
def at? (t : FileTree) : Place → Option FileNode
  | .outside => some .directory
  | .inside way =>
    if way.isEmpty then some .directory
    else match t.listing.lookup way with
      | some node => some node
      | none => if t.listing.any fun (other, _) => way.isPrefixOf other then some .directory else none

/-- The greatest length of a component in bytes. -/
def longestPart : Nat := 255

/-- The greatest length of a path in bytes. -/
def longestPath : Nat := 4095

/-- Goes one component further from a place that holds a directory. -/
def enter (t : FileTree) (place : Place) (part : String) : Except FileFault Place :=
  match t.at? place with
  | none => .error .notFound
  | some (.file _) => .error .notADirectory
  | some .directory =>
    if part = "" || part = "." then .ok place
    else if part.utf8ByteSize > longestPart then .error .nameTooLong
    else match place with
      | .outside => if part = ".." then .ok .outside else .error .notFound
      | .inside way =>
        if part = ".." then
          .ok (if way.isEmpty then .outside else .inside way.dropLast)
        else
          let below := Place.inside (way ++ [part])
          if (t.at? below).isSome then .ok below else .error .notFound

/-- What stands at the end of a path. -/
def node (t : FileTree) (path : String) : Except FileFault FileNode :=
  if path.toList.contains '\x00' then .error .nulInName
  else if path.utf8ByteSize > longestPath then .error .nameTooLong
  else match components path with
  | [""] => .error .notFound
  | parts => do
    let start := if parts.head? = some "" then Place.outside else .inside []
    let place ← parts.foldlM t.enter start
    match t.at? place with
    | some found => .ok found
    | none => .error .notFound

/-- The tree as a file system. -/
def fileSystem (t : FileTree) : FileSystem := ⟨t.node⟩

end FileTree

end Vendoring
