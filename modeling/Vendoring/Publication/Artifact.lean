/-!
# Artifacts and variants

The files that are published for a module, and the outgoing variants that offer them.  In every
variant a consumer who asks for nothing special gets the artifact without classifier.
-/

namespace Vendoring

/-- What sets an artifact apart from the default one of its module. -/
structure Classifier where
  /-- The default artifact has no text. -/
  text? : Option String
  deriving DecidableEq

namespace Classifier

/-- The classifier of the default artifact. -/
def default : Classifier := ⟨none⟩

/-- The classifier of the given text; the empty text names the default artifact. -/
def named (s : String) : Classifier := if s = "" then default else ⟨some s⟩

/-- Is it the classifier of the default artifact? -/
def isDefault (c : Classifier) : Bool := c.text?.isNone

/-- The written form of a classifier. -/
def text (c : Classifier) : String := c.text?.getD ""

end Classifier

/-- What an artifact holds. -/
inductive ArtifactKind
  /-- The module's own classes. -/
  | plain
  /-- The module's classes together with the vendored ones. -/
  | shaded
  /-- Sources, documentation and the like. -/
  | auxiliary
  deriving DecidableEq

namespace ArtifactKind

/-- The written form of a kind. -/
def text : ArtifactKind → String
  | plain => "plain"
  | shaded => "shaded"
  | auxiliary => "auxiliary"

/-- All kinds in their customary order. -/
def all : List ArtifactKind := [plain, shaded, auxiliary]

end ArtifactKind

/-- A published file. -/
structure Artifact where
  kind : ArtifactKind
  baseName : String
  version : String
  classifier : Classifier := Classifier.default
  deriving DecidableEq

namespace Artifact

/-- Is it the artifact a consumer gets without asking for another? -/
def isDefault (a : Artifact) : Bool := a.classifier.isDefault

/-- The artifact under another classifier. -/
def withClassifier (a : Artifact) (c : Classifier) : Artifact := { a with classifier := c }

/-- The name of the file. -/
def fileName (a : Artifact) : String :=
  let stem := a.baseName ++ "-" ++ a.version
  if a.isDefault then stem ++ ".jar" else stem ++ "-" ++ a.classifier.text ++ ".jar"

end Artifact

/-- A set of artifacts that is offered under a name. -/
structure Variant where
  name : String
  artifacts : List Artifact
  deriving DecidableEq

namespace Variant

/-- The artifacts without classifier. -/
def defaults (v : Variant) : List Artifact := v.artifacts.filter Artifact.isDefault

/-- The names of the variants every module has. -/
def standardNames : List String := ["apiElements", "runtimeElements"]

/-- The variants of a module that publishes one artifact only. -/
def standard (plain : Artifact) : List Variant := standardNames.map fun name => ⟨name, [plain]⟩

end Variant

end Vendoring
