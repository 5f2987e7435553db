import Vendoring.Json.Decode
import Vendoring.Json.Value
import Vendoring.Settings

/-!
# Records as JSON

The written form of the library's types: the value that is written for each, and its decoder.  A
field that may be left out has the value it has in a record without any fields.
-/

namespace Vendoring

open Json (field decodeString decodePath decodeBool decodeUInt32 decodeCoordinate decodeOption
  decodeList decodeMap decodeEnum decodeRecord)

namespace Coordinate

/-- A coordinate is written as its text. -/
def toJson (k : Coordinate) : Json := .string k.text

end Coordinate

namespace ConfigurationName

/-- A configuration name is written as its text. -/
def toJson (n : ConfigurationName) : Json := .string n.text

/-- A configuration name is read from any text. -/
def decode : Json.Decoder ConfigurationName := fun r => (decodeString r).map ofText

end ConfigurationName

namespace ArchiveEntry

/-- The contents of an entry are not written. -/
def toJson (e : ArchiveEntry) : Json :=
  .object [("path", .string e.path), ("references", .strings e.references)]

/-- The fields of an entry. -/
def fields : List (Json.Field ArchiveEntry) :=
  [field "path" true decodeString fun e path => { e with path },
    field "references" false (decodeList decodeString) fun e references => { e with references }]

/-- Reads an entry. -/
def decode : Json.Decoder ArchiveEntry := decodeRecord "ArchiveEntry" fields { path := "" }

end ArchiveEntry

namespace Classifier

/-- A classifier is written as its text, the default one as `null`. -/
def toJson (c : Classifier) : Json := .optional c.text?

/-- A classifier is read from any text, and the default one from `null`; the empty text is read as
a classifier of its own. -/
def decode : Json.Decoder Classifier := fun r =>
  (decodeOption decodeString r).map Classifier.mk

end Classifier

namespace ArtifactKind

/-- A kind of artifact is written as its name. -/
def toJson (k : ArtifactKind) : Json := .string k.text

/-- A kind of artifact is read from its name. -/
def decode : Json.Decoder ArtifactKind := decodeEnum text all

end ArtifactKind

namespace Artifact

/-- An artifact is written as an object of its fields. -/
def toJson (a : Artifact) : Json :=
  .object
    [("kind", a.kind.toJson), ("baseName", .string a.baseName), ("version", .string a.version),
      ("classifier", a.classifier.toJson)]

/-- The fields of an artifact. -/
def fields : List (Json.Field Artifact) :=
  [field "kind" true ArtifactKind.decode fun a kind => { a with kind },
    field "baseName" true decodeString fun a baseName => { a with baseName },
    field "version" true decodeString fun a version => { a with version },
    field "classifier" false Classifier.decode fun a classifier => { a with classifier }]

/-- Reads an artifact. -/
def decode : Json.Decoder Artifact :=
  decodeRecord "ArtifactDescriptor" fields { kind := .plain, baseName := "", version := "" }

end Artifact

namespace Variant

/-- A variant is written as an object of its fields. -/
def toJson (v : Variant) : Json :=
  .object [("name", .string v.name), ("artifacts", .array (v.artifacts.map Artifact.toJson))]

/-- The fields of a variant. -/
def fields : List (Json.Field Variant) :=
  [field "name" true decodeString fun v name => { v with name },
    field "artifacts" true (decodeList Artifact.decode) fun v artifacts => { v with artifacts }]

/-- Reads a variant. -/
def decode : Json.Decoder Variant := decodeRecord "OutgoingVariant" fields ⟨"", []⟩

end Variant

namespace RelocationRule

/-- A relocation rule is written as an object of its fields. -/
def toJson (r : RelocationRule) : Json :=
  .object [("pattern", .string r.pattern), ("destination", .string r.destination)]

/-- The fields of a relocation rule. -/
def fields : List (Json.Field RelocationRule) :=
  [field "pattern" true decodeString fun r pattern => { r with pattern },
    field "destination" true decodeString fun r destination => { r with destination }]

/-- Reads a relocation rule. -/
def decode : Json.Decoder RelocationRule := decodeRecord "RelocationRule" fields ⟨"", ""⟩

end RelocationRule

namespace SigningCredential

/-- A signing credential is written as an object of its fields. -/
def toJson (c : SigningCredential) : Json := .object [("keyId", .string c.keyId)]

/-- The fields of a signing credential. -/
def fields : List (Json.Field SigningCredential) :=
  [field "keyId" true decodeString fun _ keyId => ⟨keyId⟩]

/-- Reads a signing credential. -/
def decode : Json.Decoder SigningCredential := decodeRecord "SigningCredential" fields ⟨""⟩

end SigningCredential

namespace SigningStrategy

/-- A signing strategy is written as its name. -/
def toJson (s : SigningStrategy) : Json := .string s.text

/-- A signing strategy is read from its name. -/
def decode : Json.Decoder SigningStrategy := decodeEnum text all

end SigningStrategy

namespace ClassifierPolicy

/-- A choice of classifiers is written as an object of its fields. -/
def toJson (p : ClassifierPolicy) : Json :=
  .object [("shaded", .string p.shaded), ("thin", .string p.thin)]

/-- The fields of a choice of classifiers. -/
def fields : List (Json.Field ClassifierPolicy) :=
  [field "shaded" false decodeString fun p shaded => { p with shaded },
    field "thin" false decodeString fun p thin => { p with thin }]

/-- Reads a choice of classifiers. -/
def decode : Json.Decoder ClassifierPolicy := decodeRecord "ClassifierPolicy" fields {}

end ClassifierPolicy

namespace PublicationPlan

/-- A publication plan is written as an object of its parts. -/
def toJson (p : PublicationPlan) : Json :=
  .object
    [("strategy", p.strategy.toJson), ("plain", p.plain.toJson), ("shaded", p.shaded.toJson),
      ("variants", .array (p.variants.map Variant.toJson)),
      ("signingInput", (p.signingInput.map Artifact.toJson).getD .null)]

end PublicationPlan

namespace Conventions

/-- The conventions of a subproject are written as an object of their fields. -/
def toJson (c : Conventions) : Json :=
  .object
    [("name", .string c.name), ("vendorDir", .string c.vendorDir), ("group", .string c.group),
      ("version", .string c.version), ("sourceEncoding", .string c.sourceEncoding),
      ("toolchain", .number c.toolchain.toNat), ("release", .number c.release.toNat)]

/-- The fields of the conventions of a subproject. -/
def fields : List (Json.Field Conventions) :=
  [field "name" false decodeString fun c name => { c with name },
    field "vendorDir" false decodePath fun c vendorDir => { c with vendorDir },
    field "group" false decodeString fun c group => { c with group },
    field "version" false decodeString fun c version => { c with version },
    field "sourceEncoding" false decodeString fun c sourceEncoding => { c with sourceEncoding },
    field "toolchain" false decodeUInt32 fun c toolchain => { c with toolchain },
    field "release" false decodeUInt32 fun c release => { c with release }]

/-- Reads the conventions of a subproject. -/
def decode : Json.Decoder Conventions := decodeRecord "SubprojectConventions" fields {}

end Conventions

namespace TestRun

/-- What a build adds to its test runs is written as an object of two fields. -/
def toJson (t : TestRun) : Json :=
  .object
    [("environment", .object (t.environment.rows.map fun row => (row.1, .string row.2))),
      ("excludedTests", .strings t.excludedTests)]

/-- Variables by their names, of which the last of a name counts. -/
def decodeEnvironment : Json.Decoder (Table (Prod.fst : String × String → String)) := fun r =>
  (decodeMap Except.ok decodeString r).map (Table.ofList Prod.fst)

/-- The fields of what a build adds to its test runs. -/
def fields : List (Json.Field TestRun) :=
  [field "environment" false decodeEnvironment fun t environment => { t with environment },
    field "excludedTests" false (decodeList decodeString)
      fun t excludedTests => { t with excludedTests }]

/-- Reads what a build adds to its test runs. -/
def decode : Json.Decoder TestRun := decodeRecord "TestRunSpec" fields {}

end TestRun

namespace ShadeSettings

/-- The settings for vendored dependencies are written as an object of their fields. -/
def toJson (s : ShadeSettings) : Json :=
  .object
    [("configuration", .string s.configuration),
      ("dependencies", .array (s.dependencies.map Coordinate.toJson)),
      ("relocations", .array (s.relocations.map RelocationRule.toJson)),
      ("minimize", .bool s.minimize), ("keep", .strings s.keep),
      ("shadedClassifier", .string s.shadedClassifier),
      ("thinClassifier", .string s.thinClassifier)]

/-- The fields of the settings for vendored dependencies. -/
def fields : List (Json.Field ShadeSettings) :=
  [field "configuration" false decodeString fun s configuration => { s with configuration },
    field "dependencies" false (decodeList decodeCoordinate)
      fun s dependencies => { s with dependencies },
    field "relocations" false (decodeList RelocationRule.decode)
      fun s relocations => { s with relocations },
    field "minimize" false decodeBool fun s minimize => { s with minimize },
    field "keep" false (decodeList decodeString) fun s keep => { s with keep },
    field "shadedClassifier" false decodeString
      fun s shadedClassifier => { s with shadedClassifier },
    field "thinClassifier" false decodeString fun s thinClassifier => { s with thinClassifier }]

/-- Reads the settings for vendored dependencies. -/
def decode : Json.Decoder ShadeSettings := decodeRecord "ShadeSettings" fields {}

end ShadeSettings

namespace ArtifactSettings

/-- The settings for the module's artifact are written as an object of their fields. -/
def toJson (s : ArtifactSettings) : Json :=
  .object [("baseName", .string s.baseName), ("version", .string s.version)]

/-- The fields of the settings for the module's artifact. -/
def fields : List (Json.Field ArtifactSettings) :=
  [field "baseName" false decodeString fun s baseName => { s with baseName },
    field "version" false decodeString fun s version => { s with version }]

/-- Reads the settings for the module's artifact. -/
def decode : Json.Decoder ArtifactSettings := decodeRecord "ArtifactSettings" fields {}

end ArtifactSettings

namespace Settings

/-- The settings of a build are written as an object of their fields. -/
def toJson (s : Settings) : Json :=
  .object
    [("subproject", s.subproject.toJson), ("pomPath", .optional s.pomPath),
      ("shade", s.shade.toJson), ("artifact", s.artifact.toJson),
      ("projectEntries", .array (s.projectEntries.map ArchiveEntry.toJson)),
      ("indexPath", .optional s.indexPath),
      ("signing", (s.signing.map SigningCredential.toJson).getD .null), ("test", s.test.toJson)]

/-- The fields of the settings of a build. -/
def fields : List (Json.Field Settings) :=
  [field "subproject" false Conventions.decode fun s subproject => { s with subproject },
    field "pomPath" false (decodeOption decodePath) fun s pomPath => { s with pomPath },
    field "shade" false ShadeSettings.decode fun s shade => { s with shade },
    field "artifact" false ArtifactSettings.decode fun s artifact => { s with artifact },
    field "projectEntries" false (decodeList ArchiveEntry.decode)
      fun s projectEntries => { s with projectEntries },
    field "indexPath" false (decodeOption decodePath) fun s indexPath => { s with indexPath },
    field "signing" false (decodeOption SigningCredential.decode)
      fun s signing => { s with signing },
    field "test" false TestRun.decode fun s test => { s with test }]

/-- Reads the settings of a build. -/
def decode : Json.Decoder Settings := decodeRecord "VendorConfig" fields {}

/-- Reads settings from their JSON text. -/
def parse (s : String) : Except Json.Error Settings := Json.decode decode s

end Settings

namespace Pom

/-- The parts of a skipped dependency that say why it was skipped. -/
def SkipReason.members : SkipReason → List (String × Json)
  | missingCoordinates => [("reason", .string "missingCoordinates")]
  | unmappedScope scope => [("reason", .string "unmappedScope"), ("detail", .string scope)]

/-- A skipped dependency is written with the parts of its reason. -/
def Skipped.toJson (s : Skipped) : Json :=
  .object ([("label", .string s.label), ("line", .number s.line)] ++ s.reason.members)

/-- A report is written as an object; a registration in it is a pair of name and coordinate. -/
def ImportReport.toJson (r : ImportReport) : Json :=
  .object
    [("registered", .array (r.registered.map fun (name, k) => .array [name.toJson, k.toJson])),
      ("already_present", .number r.alreadyPresent),
      ("skipped", .array (r.skipped.map Skipped.toJson))]

end Pom

end Vendoring
