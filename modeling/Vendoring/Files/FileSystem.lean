/-!
# File systems

What a build needs to know of a file system: for each path whether a file, a directory or nothing
stands there, and what a file holds.
-/

namespace Vendoring

/-- Why a path could not be read. -/
inductive FileFault
  | notFound
  | notADirectory
  | isADirectory
  | nameTooLong
  | nulInName
  | notText
  deriving DecidableEq

/-- What is wrong with a path, in words. -/
def FileFault.message : FileFault → String
  | notFound => "No such file or directory (os error 2)"
  | notADirectory => "Not a directory (os error 20)"
  | isADirectory => "Is a directory (os error 21)"
  | nameTooLong => "File name too long (os error 36)"
  | nulInName => "file name contained an unexpected NUL byte"
  | notText => "stream did not contain valid UTF-8"

/-- What stands at a path. -/
inductive FileNode
  | file (contents : ByteArray)
  | directory

/-- The nodes of a file system by their paths. -/
structure FileSystem where
  node : (path : String) → Except FileFault FileNode

namespace FileSystem

/-- The file system without files. -/
def empty : FileSystem := ⟨fun _ => .error .notFound⟩

/-- Does anything stand at the path?  A path that leads through a file cannot be checked. -/
def exists? (fs : FileSystem) (path : String) : Except FileFault Bool :=
  match fs.node path with
  | .ok _ => .ok true
  | .error .notFound => .ok false
  | .error e => .error e

/-- The size of the file at the path; a directory counts as empty. -/
def size (fs : FileSystem) (path : String) : Except FileFault Nat :=
  (fs.node path).map fun
    | .file contents => contents.size
    | .directory => 0

/-- The text of the file at the path. -/
def readText (fs : FileSystem) (path : String) : Except FileFault String :=
  match fs.node path with
  | .error e => .error e
  | .ok .directory => .error .isADirectory
  | .ok (.file contents) =>
    match String.fromUTF8? contents with
    | some s => .ok s
    | none => .error .notText

end FileSystem

end Vendoring
