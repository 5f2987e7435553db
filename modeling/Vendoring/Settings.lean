import Vendoring.Subproject
import Vendoring.TestRun

/-!
# Build settings

All that a build can be told about a vendored library and the module that uses it.
-/

namespace Vendoring

/-- What is vendored, and how. -/
structure ShadeSettings where
  /-- The name of the configuration that holds the vendored dependencies. -/
  configuration : String := "shade"
  dependencies : List Coordinate := []
  relocations : List RelocationRule := []
  minimize : Bool := true
  keep : List String := []
  shadedClassifier : String := ({} : ClassifierPolicy).shaded
  thinClassifier : String := ({} : ClassifierPolicy).thin
  deriving DecidableEq

namespace ShadeSettings

/-- The set of the vendored dependencies. -/
def shadedSet (s : ShadeSettings) : ShadedSet :=
  ⟨ConfigurationName.ofText s.configuration, s.dependencies⟩

end ShadeSettings

/-- The artifact of the module. -/
structure ArtifactSettings where
  baseName : String := ""
  version : String := ""
  deriving DecidableEq

/-- The settings of a build. -/
structure Settings where
  subproject : Conventions := {}
  /-- Where the POM lies, if not in the customary place. -/
  pomPath : Option String := none
  shade : ShadeSettings := {}
  artifact : ArtifactSettings := {}
  /-- The entries of the module's own archive. -/
  projectEntries : List ArchiveEntry := []
  /-- Where the index lies that resolves the vendored dependencies. -/
  indexPath : Option String := none
  signing : Option SigningCredential := none
  test : TestRun := {}
  deriving DecidableEq

namespace Settings

/-- What settings can lack. -/
inductive Gap
  | baseName
  | version
  deriving DecidableEq

/-- What is said about settings that lack something. -/
def Gap.message : Gap → String
  | baseName => "artifact.baseName is empty"
  | version => "artifact.version is empty"

/-- Why settings are refused. -/
inductive Fault
  | incomplete (gap : Gap)
  | packaging (cause : Packaging.Fault)

/-- The settings with the key of the environment, if there is one, in the place of their own. -/
def overrideSigning (s : Settings) (key : Option String) : Settings :=
  match key with
  | none => s
  | some keyId => if Text.isBlankText keyId then s else { s with signing := some ⟨keyId⟩ }

/-- Where the POM lies. -/
def pomFile (s : Settings) (root : String) : String :=
  match s.pomPath with
  | some path => Path.join root path
  | none => s.subproject.pomPath root

/-- Accepts settings that a build can be run with. -/
def validate (s : Settings) : Except Fault Unit :=
  if Text.isBlankText s.artifact.baseName then .error (.incomplete .baseName)
  else if Text.isBlankText s.artifact.version then .error (.incomplete .version)
  else Except.mapError .packaging do
    s.shade.shadedSet.validate
    Packaging.checkRules s.shade.relocations

/-- The module's own artifact. -/
def plain (s : Settings) : Artifact :=
  { kind := .plain, baseName := s.artifact.baseName, version := s.artifact.version }

/-- What is packaged, with the given set of vendored dependencies. -/
def packagingInput (s : Settings) (shaded : ShadedSet) : Packaging.Input where
  shaded
  projectEntries := s.projectEntries
  relocations := s.shade.relocations
  minimize := s.shade.minimize
  keep := s.shade.keep
  plain := s.plain
  classifiers := ⟨s.shade.shadedClassifier, s.shade.thinClassifier⟩
  signing := s.signing

end Settings

end Vendoring
