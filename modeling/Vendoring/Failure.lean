import Vendoring.Build

/-!
# Failures

The faults of all parts of the library, brought to one form for users who do not care which part
failed.
-/

namespace Vendoring

/-- Why an operation failed. -/
inductive Failure
  | unreadableFormat (fileType : String) (cause : Pom.Fault)
  | invalidCoordinate (text : String)
  | unresolved (coordinate reason : String)
  | publicationConflict (description : String)
  | badConfiguration (description : String)
  | inaccessible (cause : FileFault)
  | json (cause : Json.Error)

namespace Failure

/-- Why an operation failed, in words. -/
def message : Failure → String
  | unreadableFormat fileType cause => "Failed to parse " ++ fileType ++ ": " ++ cause.message
  | invalidCoordinate text => Coordinate.invalidMessage text
  | unresolved coordinate reason => "Failed to resolve '" ++ coordinate ++ "': " ++ reason
  | publicationConflict description => "Publication conflict: " ++ description
  | badConfiguration description => "Invalid configuration: " ++ description
  | inaccessible cause => "I/O error: " ++ cause.message
  | json cause => "JSON error: " ++ cause.message

/-- The failure to use a POM. -/
def ofPom : Pom.Fault → Failure
  | .unreadable _ cause => inaccessible cause
  | cause => unreadableFormat "pom.xml" cause

/-- The failure to package a module. -/
def ofPackaging : Packaging.Fault → Failure
  | .unresolved coordinate => unresolved coordinate Packaging.Fault.unresolvedReason
  | .conflict cause => publicationConflict (Packaging.Fault.conflict cause).message
  | .invalidRule side value => badConfiguration (Packaging.Fault.ruleComplaint side value)
  | .reservedName name => badConfiguration (Packaging.Fault.reservedName name).message
  | .badIndex _ cause => json cause
  | .unreadable _ cause => inaccessible cause

/-- The failure of a build. -/
def ofBuild : Build.Fault → Failure
  | .pom cause => ofPom cause
  | .packaging cause => ofPackaging cause
  | .badSettings _ cause => json cause
  | .incomplete gap => badConfiguration gap.message
  | .unreadable _ cause => inaccessible cause

end Failure

/-- Reads a coordinate. -/
def Coordinate.parse (s : String) : Except Failure Coordinate :=
  match parse? s with
  | some k => .ok k
  | none => .error (.invalidCoordinate s)

end Vendoring
