import Vendoring.Files.FileSystem
import Vendoring.Xml.Fault

/-!
# Why a POM cannot be used
-/

namespace Vendoring.Pom

/-- The reasons for which a POM is refused. -/
inductive Fault
  | malformed (cause : Xml.Fault)
  /-- The root element is another one, or there is none. -/
  | missingProject (found : Option (List Char))
  | tooLarge (size limit : Nat)
  | unreadable (path : String) (cause : FileFault)
  deriving DecidableEq

/-- What is wrong with a POM, in words. -/
def Fault.message : Fault → String
  | malformed cause => "Failed to parse pom.xml: " ++ cause.message
  | missingProject none => "pom.xml has no <project> root element"
  | missingProject (some found) =>
    "pom.xml has no <project> root element (found <" ++ String.ofList found ++ ">)"
  | tooLarge size limit =>
    "pom.xml too large: " ++ toString size ++ " bytes (max: " ++ toString limit ++ " bytes)"
  | unreadable path cause => "I/O error reading '" ++ path ++ "': " ++ cause.message

end Vendoring.Pom
