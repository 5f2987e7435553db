import Vendoring.Json.Records

/-!
# Builds

A build imports the POM of the vendored library, registers the vendored dependencies and packages
the module.  A POM in its customary place may be missing; one that the settings name may not.
-/

namespace Vendoring.Build

/-- The reasons for which a build fails. -/
inductive Fault
  | pom (cause : Pom.Fault)
  | packaging (cause : Packaging.Fault)
  | badSettings (path : String) (cause : Json.Error)
  | incomplete (gap : Settings.Gap)
  | unreadable (path : String) (cause : FileFault)

namespace Fault

/-- Why a build fails, in words. -/
def message : Fault → String
  | pom cause => cause.message
  | packaging cause => cause.message
  | badSettings path cause => "Failed to parse configuration '" ++ path ++ "': " ++ cause.message
  | incomplete gap => "Invalid configuration: " ++ gap.message
  | unreadable path cause => "I/O error reading '" ++ path ++ "': " ++ cause.message

/-- The fault of refused settings. -/
def ofSettings : Settings.Fault → Fault
  | .incomplete gap => incomplete gap
  | .packaging cause => packaging cause

end Fault

/-- What came of a build. -/
structure Outcome where
  /-- Missing if there was no POM. -/
  imported : Option Pom.ImportReport
  packaging : Packaging.Outcome
  deriving DecidableEq

/-- Reads settings from their JSON text; `origin` is what the text is called in messages. -/
def parseSettings (s origin : String) : Except Fault Settings :=
  (Settings.parse s).mapError (.badSettings origin)

/-- Reads the settings in a file, with the signing key of the environment. -/
def loadSettings (fs : FileSystem) (path : String) (signingKey : Option String) :
    Except Fault Settings :=
  match fs.readText path with
  | .error e => .error (.unreadable path e)
  | .ok s => (parseSettings s path).map (·.overrideSigning signingKey)

/-- Is there a POM to import? -/
def hasPom (fs : FileSystem) (s : Settings) (root : String) : Except Fault Bool :=
  if s.pomPath.isSome then .ok true
  else (fs.exists? (s.pomFile root)).mapError fun e => .pom (.unreadable (s.pomFile root) e)

/-- Imports the POM into a subproject, if there is one. -/
def importPom (fs : FileSystem) (s : Settings) (root : String) (p : Subproject) :
    Except Fault (Subproject × Option Pom.ImportReport) := do
  if ← hasPom fs s root then
    let (p, report) ← (p.importPom fs (s.pomFile root)).mapError .pom
    return (p, some report)
  else return (p, none)

/-- The index that vendored dependencies are resolved with. -/
def loadIndex (fs : FileSystem) (s : Settings) (root : String) : Except Fault ArtifactIndex :=
  match s.indexPath with
  | some path => (ArtifactIndex.load fs (Path.join root path)).mapError .packaging
  | none => .ok ArtifactIndex.empty

/-- Runs a build, with relative paths below `root`. -/
def run (fs : FileSystem) (s : Settings) (root : String) : Except Fault Outcome := do
  s.validate.mapError .ofSettings
  let (p, imported) ← importPom fs s root (Subproject.new s.subproject)
  let (_, shaded) ← (p.installShaded s.shade.shadedSet).mapError .packaging
  let index ← loadIndex fs s root
  let packaging ← (Packaging.run index.resolver (s.packagingInput shaded)).mapError .packaging
  return { imported, packaging }

end Vendoring.Build
