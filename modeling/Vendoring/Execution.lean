import Vendoring.Arguments
import Vendoring.Build
import Vendoring.Configuration.Declarations
import Vendoring.Json.Printer
import Vendoring.Text.Quoted

/-!
# Running commands

What each command prints.
-/

namespace Vendoring

namespace Pom

/-- The comment on a skipped dependency. -/
def Skipped.comment (s : Skipped) : String :=
  "// skipped " ++ s.label ++ " (line " ++ toString s.line ++ "): " ++ s.reason.message ++ "\n"

end Pom

namespace TestRun

/-- The variables and the exclusions of a test run, each on a line. -/
def summary (t : TestRun) : String :=
  String.join (t.allVariables.map fun (name, value) => name ++ "=" ++ Text.quoted value ++ "\n")
    ++ String.join (t.exclusions.map fun test => excludeFlag ++ " " ++ test ++ "\n")

end TestRun

namespace Command

/-- What is printed for an import: the skipped dependencies as comments and the registrations as
declarations, or the report as JSON. -/
def importText (json : Bool) (container : Container) (report : Pom.ImportReport) : String :=
  if json then report.toJson.pretty
  else String.join (report.skipped.map Pom.Skipped.comment) ++ container.declarations

/-- Runs a command; gives what it prints. -/
def run (fs : FileSystem) (signingKey : Option String) : Command → Except Build.Fault String
  | importPom pom json =>
    match (Subproject.new {}).importPom fs pom with
    | .error e => .error (.pom e)
    | .ok (p, report) => .ok (importText json p.container report)
  | package config root => do
    let settings ← Build.loadSettings fs config signingKey
    let outcome ← Build.run fs settings root
    return outcome.packaging.plan.toJson.pretty
  | testEnv none => .ok ({} : TestRun).summary
  | testEnv (some config) => do
    let settings ← Build.loadSettings fs config signingKey
    return settings.test.summary

/-- The paths that a command looks at before it knows of any settings. -/
def paths : Command → List String
  | importPom pom _ => [pom]
  | package config _ => [config]
  | testEnv config => config.toList

/-- The paths that a command looks at because of the settings it has read. -/
def furtherPaths (fs : FileSystem) : Command → List String
  | package config root =>
    match Build.loadSettings fs config none with
    | .ok s => s.pomFile root :: (s.indexPath.map (Path.join root)).toList
    | .error _ => []
  | _ => []

end Command

end Vendoring
