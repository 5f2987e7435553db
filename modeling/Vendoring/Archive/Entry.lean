import Vendoring.Text.Blank
import Vendoring.Text.Utf8

/-!
# Archive entries

An entry is one file of an archive.  Its path tells what it is: a class, a service descriptor
that lists providers line by line, a signature file, the manifest, or anything else.
-/

namespace Vendoring

/-- Contents are compared as bytes. -/
local instance contentsDecidableEq : DecidableEq ByteArray := ByteArray.decEq

/-- One file of an archive. -/
structure ArchiveEntry where
  path : String
  /-- The classes the entry refers to, with slashes between the parts of a name. -/
  references : List String := []
  contents : ByteArray := ByteArray.empty
  deriving DecidableEq

namespace ArchiveEntry

/-- What follows `front` in a text that begins with it. -/
def after? (front s : String) : Option String :=
  (front.toList.isPrefixOf? s.toList).map String.ofList

/-- What comes before `back` in a text that ends with it. -/
def before? (back s : String) : Option String :=
  (back.toList.reverse.isPrefixOf? s.toList.reverse).map fun rest => String.ofList rest.reverse

/-- The end of the path of a class. -/
def classEnd : String := ".class"

/-- The directory of the service descriptors. -/
def servicesDirectory : String := "META-INF/services/"

/-- The directory for what describes the archive. -/
def metaDirectory : String := "META-INF/"

/-- The name of the class in the entry. -/
def className? (e : ArchiveEntry) : Option String := before? classEnd e.path

/-- The name of the service that the entry describes. -/
def serviceName? (e : ArchiveEntry) : Option String :=
  (after? servicesDirectory e.path).filter fun name => name ≠ "" && !name.toList.contains '/'

/-- The ends of the names of signature files. -/
def signatureEnds : List String := [".SF", ".DSA", ".RSA", ".EC"]

/-- Is the entry a signature file?  Case does not count. -/
def isSignature (e : ArchiveEntry) : Bool :=
  match after? metaDirectory e.path with
  | none => false
  | some name =>
    !name.toList.contains '/' &&
      signatureEnds.any fun ending =>
        ending.toList.isSuffixOf (name.toList.map Char.toUpper)

/-- Is the entry the manifest? -/
def isManifest (e : ArchiveEntry) : Bool := e.path = "META-INF/MANIFEST.MF"

/-- Is the entry valid only in the archive it comes from? -/
def isBound (e : ArchiveEntry) : Bool := e.isSignature || e.isManifest

/-- What a line says apart from its comment, without blanks around it. -/
def strippedLine (line : List Char) : List Char := Text.trimChars (line.takeWhile (· ≠ '#'))

/-- The lines of a text that say something. -/
def significantLines (s : List Char) : List (List Char) :=
  ((s.splitOn '\n').map strippedLine).filter (!·.isEmpty)

/-- The lines of the entry's text that say something. -/
def textLines (e : ArchiveEntry) : List String :=
  (significantLines (Text.decode e.contents.data.toList)).map String.ofList

/-- The text with the given lines, each of which is ended. -/
def joinLines (lines : List String) : String := "\n".intercalate lines ++ "\n"

/-- The entry with the given lines as its text. -/
def withLines (e : ArchiveEntry) (lines : List String) : ArchiveEntry :=
  { e with contents := (joinLines lines).toUTF8 }

end ArchiveEntry

end Vendoring
