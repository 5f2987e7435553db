import Vendoring.Archive.Basic
import Vendoring.Json.Decode

/-!
# Artifact indexes

An index lists the entries of artifacts by their coordinates.  It is kept as a JSON document and
serves to resolve the coordinates of a build.
-/

namespace Vendoring

/-- The entries of artifacts by their coordinates, of which the last with a coordinate counts. -/
structure ArtifactIndex where
  artifacts : List (Coordinate × List ArchiveEntry)

namespace ArtifactIndex

/-- The index without artifacts. -/
def empty : ArtifactIndex := ⟨[]⟩

/-- The entries of the artifact with the given coordinate. -/
def find? (index : ArtifactIndex) (k : Coordinate) : Option (List ArchiveEntry) :=
  index.artifacts.reverse.lookup k

/-- The fields of an entry in an index, whose contents are given as text. -/
def entryFields : List (Json.Field ArchiveEntry) :=
  [Json.field "path" true Json.decodeString fun e path => { e with path },
    Json.field "references" false (Json.decodeList Json.decodeString)
      fun e references => { e with references },
    Json.field "text" false (Json.decodeOption Json.decodeString)
      fun e text => { e with contents := (text.getD "").toUTF8 }]

/-- An entry in an index. -/
def decodeEntry : Json.Decoder ArchiveEntry :=
  Json.decodeRecord "IndexEntry" entryFields { path := "" }

/-- The only field of an index. -/
def fields : List (Json.Field ArtifactIndex) :=
  [Json.field "artifacts" true
    (Json.decodeMap Json.coordinateOf (Json.decodeList decodeEntry))
    fun _ artifacts => ⟨artifacts⟩]

/-- Reads an index from its JSON text. -/
def parse (s : String) : Except Json.Error ArtifactIndex :=
  Json.decode (Json.decodeRecord "IndexFile" fields empty) s

end ArtifactIndex

end Vendoring
