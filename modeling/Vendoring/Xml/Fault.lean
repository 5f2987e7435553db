/-!
# Faults of XML documents

Everything that stops the reading of a document, with the wording of each fault.
-/

namespace Vendoring.Xml

/-- Why the number of a character reference denotes no character. -/
inductive CharacterFault
  | sign
  | noDigits
  | badDigit
  | tooLarge
  | zero
  | notACharacter (code : Nat)
  deriving DecidableEq

/-- What is wrong with a number, in words. -/
def CharacterFault.message : CharacterFault → String
  | sign => "unexpected number sign"
  | noDigits => "cannot parse integer from empty string"
  | badDigit => "invalid digit found in string"
  | tooLarge => "number too large to fit in target type"
  | zero => "0x0 character is not permitted in XML"
  | notACharacter code => "`" ++ toString code ++ "` is not a valid codepoint"

/-- Why a document cannot be read on. -/
inductive Fault
  | unclosedTag
  | unclosedValue (quote : Char)
  | unclosedInstruction
  | unclosedDeclaration
  | unclosedCData
  | unclosedComment
  | unclosedDoctype
  | unnamedDoctype
  | unknownMarkup
  | unclosedReference
  | badCharacter (cause : CharacterFault)
  | undefinedEntity (name : List Char)
  | strayEnd (found : List Char)
  | mismatchedEnd (expected found : List Char)
  | secondRoot (name : List Char)
  | unclosedElement (name : List Char)
  deriving DecidableEq

/-- The complaint about markup of one kind that lacks its closing mark. -/
def notClosed (kind mark : String) : String :=
  "syntax error: " ++ kind ++ " not closed: `" ++ mark ++ "` not found before end of input"

/-- What is wrong with a document, in words. -/
def Fault.message : Fault → String
  | unclosedTag => notClosed "tag" ">"
  | unclosedValue quote => notClosed "attribute value" (String.singleton quote)
  | unclosedInstruction => notClosed "processing instruction" "?>"
  | unclosedDeclaration => notClosed "XML declaration" "?>"
  | unclosedCData => notClosed "CDATA" "]]>"
  | unclosedComment => notClosed "comment" "-->"
  | unclosedDoctype => notClosed "DOCTYPE" ">"
  | unnamedDoctype =>
    "ill-formed document: `<!DOCTYPE>` declaration does not contain a name of a document type"
  | unknownMarkup => "syntax error: unknown or missed symbol in markup"
  | unclosedReference =>
    "ill-formed document: entity or character reference not closed: `;` not found before end of input"
  | badCharacter cause => "invalid character reference: " ++ cause.message
  | undefinedEntity name => "undefined entity '&" ++ String.ofList name ++ ";'"
  | strayEnd found =>
    "ill-formed document: close tag `</" ++ String.ofList found ++ ">` does not match any open tag"
  | mismatchedEnd expected found =>
    "ill-formed document: expected `</" ++ String.ofList expected ++ ">`, but `</"
      ++ String.ofList found ++ ">` was found"
  | secondRoot name => "multiple root elements: unexpected <" ++ String.ofList name ++ ">"
  | unclosedElement name =>
    "unexpected end of document inside <" ++ String.ofList name ++ ">"

end Vendoring.Xml
