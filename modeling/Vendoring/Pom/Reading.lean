import Vendoring.Pom.Document
import Vendoring.Pom.Fault
import Vendoring.Pom.Lines
import Vendoring.Text.Blank
import Vendoring.Xml.Reference
import Vendoring.Xml.Token

/-!
# Reading POM documents

A POM is read token by token.  The state of the reading holds the elements that are open, the
text since the last tag, the dependency that is being read and what is known of the document.
Only the direct children of the project and of its dependencies are looked at, so dependencies
that belong to plugins, profiles or a dependency management are not taken for the project's own.
-/

namespace Vendoring.Pom

/-- Where the reading of a POM stands. -/
structure Progress where
  /-- The names of the open elements, innermost first. -/
  opened : List (List Char) := []
  /-- The character data since the last tag. -/
  text : List Char := []
  /-- The dependency whose element is open. -/
  pending : Option Dependency := none
  /-- Has the root element begun? -/
  rooted : Bool := false
  /-- The number of bytes read. -/
  position : Nat := 0
  document : Document := {}

namespace Progress

/-- The local names of the open elements, from the root down. -/
def path (p : Progress) : List String :=
  (p.opened.map fun name => String.ofList (Xml.localName name)).reverse

/-- The path of the element that holds the project's dependencies. -/
def dependenciesPath : List String := ["project", "dependencies"]

/-- Begins an element with the given local name, or refuses it as the root of a POM. -/
def root (p : Progress) (name : List Char) : Except Fault Progress :=
  if !p.opened.isEmpty then .ok p
  else if p.rooted then .error (.malformed (.secondRoot name))
  else if String.ofList name = "project" then .ok { p with rooted := true }
  else .error (.missingProject (some name))

/-- Does an element with this local name declare a dependency of the project here? -/
def declares (p : Progress) (name : List Char) : Bool :=
  String.ofList name = "dependency" && p.path = dependenciesPath

/-- Takes in a start tag. -/
def startElement (line : Nat → Nat) (p : Progress) (name : List Char) : Except Fault Progress :=
  (p.root (Xml.localName name)).map fun p =>
    { p with
      pending :=
        if p.declares (Xml.localName name) then some { line := line p.position } else p.pending
      opened := name :: p.opened
      text := [] }

/-- Takes in a tag that is an element of its own. -/
def emptyElement (line : Nat → Nat) (p : Progress) (name : List Char) : Except Fault Progress :=
  (p.root (Xml.localName name)).map fun p =>
    if p.declares (Xml.localName name) then
      { p with
        document :=
          { p.document with
            dependencies := p.document.dependencies ++ [{ line := line p.position }] } }
    else p

/-- The dependency with one of its fields set to the text of an element. -/
def setField (d : Dependency) (field : String) (text : Option String) : Dependency :=
  match field with
  | "groupId" => { d with groupId := text }
  | "artifactId" => { d with artifactId := text }
  | "version" => { d with version := text }
  | "scope" => { d with scope := text.map Scope.ofText }
  | _ => d

/-- Uses what an element held, before it is left. -/
def harvest (p : Progress) : Progress :=
  let document := p.document
  match p.path with
  | ["project", "groupId"] =>
    { p with document := { document with groupId := Text.trimmed? p.text } }
  | ["project", "artifactId"] =>
    { p with document := { document with artifactId := Text.trimmed? p.text } }
  | ["project", "version"] =>
    { p with document := { document with version := Text.trimmed? p.text } }
  | ["project", "properties", key] =>
    let value := String.ofList (Text.trimChars p.text)
    { p with document := { document with properties := document.properties.insert (key, value) } }
  | ["project", "dependencies", "dependency"] =>
    { p with
      document := { document with dependencies := document.dependencies ++ p.pending.toList }
      pending := none }
  | ["project", "dependencies", "dependency", field] =>
    { p with pending := p.pending.map (setField · field (Text.trimmed? p.text)) }
  | _ => p

/-- Takes in an end tag, which must close the innermost open element. -/
def endElement (p : Progress) (name : List Char) : Except Fault Progress :=
  match p.opened with
  | [] => .error (.malformed (.strayEnd name))
  | expected :: outer =>
    if name = expected then .ok { p.harvest with opened := outer, text := [] }
    else .error (.malformed (.mismatchedEnd expected name))

/-- Takes in character data. -/
def addText (p : Progress) (s : List Char) : Progress := { p with text := p.text ++ s }

/-- Takes in a token; `line` gives the line of a position. -/
def take (line : Nat → Nat) (p : Progress) : Xml.Token → Except Fault Progress
  | .start name => p.startElement line name
  | .empty name => p.emptyElement line name
  | .close name => p.endElement name
  | .text s => .ok (p.addText s)
  | .cdata s => .ok (p.addText s)
  | .reference name =>
    match Xml.resolve name with
    | .ok c => .ok (p.addText [c])
    | .error e => .error (.malformed e)
  | .comment => .ok p
  | .instruction => .ok p
  | .doctype => .ok p

/-- Takes in a token and goes on to the position behind it. -/
def step (line : Nat → Nat) (p : Progress) (l : Xml.Lexeme) : Except Fault Progress :=
  (p.take line l.token).map fun p => { p with position := p.position + Xml.byteLength l.raw }

/-- The document, if the text may end here. -/
def finish (p : Progress) : Except Fault Document :=
  match p.opened with
  | name :: _ => .error (.malformed (.unclosedElement (Xml.localName name)))
  | [] => if p.rooted then .ok p.document else .error (.missingProject none)

end Progress

/-- The text without a byte order mark at its beginning. -/
def withoutMark : List Char → List Char
  | '\uFEFF' :: s => s
  | s => s

/-- Reads a POM from its characters.  Lines are those of the whole text, positions count from
behind a byte order mark. -/
def readChars (s : List Char) : Except Fault Document :=
  let starts := lineStarts s
  (Xml.foldTokens (Progress.step (lineOf starts)) .malformed {} (withoutMark s)).bind
    Progress.finish

/-- Reads a POM. -/
def read (s : String) : Except Fault Document := readChars s.toList

/-- The greatest size of a POM file in bytes. -/
def sizeLimit : Nat := 10000000

/-- Reads the POM in a file. -/
def load (fs : FileSystem) (path : String) : Except Fault Document :=
  match fs.size path with
  | .error e => .error (.unreadable path e)
  | .ok size =>
    if size > sizeLimit then .error (.tooLarge size sizeLimit)
    else match fs.readText path with
      | .error e => .error (.unreadable path e)
      | .ok s => read s

end Vendoring.Pom
