/-!
# Command line arguments

The commands of the program and the reading of their arguments.  Options begin with two dashes and
have their values behind an equals sign or in the next argument; `--` ends the options.  A value is
looked at only when the next option, the next operand or the end of the arguments follows it, so an
argument that is unknown is complained about before a value in front of it that is empty.
-/

namespace Vendoring

/-- What the program is asked to do. -/
inductive Command
  /-- Import a POM and print the registrations. -/
  | importPom (pom : String) (json : Bool)
  /-- Package a module and print the publication plan. -/
  | package (config root : String)
  /-- Print environment and exclusions of the test run. -/
  | testEnv (config : Option String)
  deriving DecidableEq

namespace Arguments

/-- Why arguments ask for no command. -/
inductive Fault
  | help
  | version
  | noCommand
  | unknownCommand
  | missingArgument
  | unknownArgument
  | invalidValue
  | repeatedArgument
  | unneededValue
  deriving DecidableEq

/-- The status that the program ends with. -/
def Fault.exitCode : Fault → Nat
  | help => 0
  | version => 0
  | _ => 2

/-- The arguments that a command understands. -/
structure Grammar where
  switches : List String := []
  /-- The options that have values. -/
  options : List String := []
  /-- Does the command have an operand? -/
  operand : Bool := false

/-- What was read last and has still to be looked at. -/
inductive Pending
  | nothing
  | option (name : String) (value : Option String)
  | operand (value : String)
  deriving DecidableEq

/-- The arguments that were given. -/
structure Given where
  switches : List String := []
  values : List (String × String) := []
  operand : Option String := none
  pending : Pending := .nothing

namespace Given

/-- The value of an option. -/
def value? (g : Given) (name : String) : Option String := g.values.lookup name

/-- Adds an option that has no value yet. -/
def addValue (g : Given) (name value : String) : Except Fault Given :=
  if (g.value? name).isSome then .error .repeatedArgument
  else if value = "" then .error .invalidValue
  else .ok { g with values := (name, value) :: g.values }

/-- Adds a switch. -/
def addSwitch (g : Given) (name : String) : Except Fault Given :=
  if g.switches.contains name then .error .repeatedArgument
  else .ok { g with switches := name :: g.switches }

/-- Looks at what was read last. -/
def settle (g : Given) : Except Fault Given :=
  let rest := { g with pending := .nothing }
  match g.pending with
  | .nothing => .ok rest
  | .option _ none => .error .invalidValue
  | .option name (some value) => rest.addValue name value
  | .operand value =>
    if value = "" then .error .invalidValue else .ok { rest with operand := some value }

/-- Was an operand given, even if it has not been looked at? -/
def hasOperand (g : Given) : Bool :=
  g.operand.isSome || match g.pending with
    | .operand _ => true
    | _ => false

end Given

/-- An argument by its form. -/
inductive Shape
  /-- Two dashes. -/
  | separator
  | long (name : String) (value : Option String)
  | short (letters : List Char)
  | plain

/-- The form of an argument. -/
def shape (a : String) : Shape :=
  match a.toList with
  | ['-', '-'] => .separator
  | '-' :: '-' :: rest =>
    let name := rest.takeWhile (· ≠ '=')
    let value :=
      match rest.dropWhile (· ≠ '=') with
      | [] => none
      | _ :: value => some (String.ofList value)
    .long (String.ofList name) value
  | '-' :: c :: rest => .short (c :: rest)
  | _ => .plain

/-- Takes in an option that is written with two dashes. -/
def takeLong (grammar : Grammar) (g : Given) (name : String) (value : Option String) :
    Except Fault Given :=
  if grammar.options.contains name then do
    let g ← g.settle
    match value with
    | some v => g.addValue name v
    | none => return { g with pending := .option name none }
  else if name = "help" || grammar.switches.contains name then
    if value.isSome then .error .unneededValue
    else do
      let g ← g.settle
      if name = "help" then .error .help else g.addSwitch name
  else .error .unknownArgument

/-- Takes in letters that are written with one dash. -/
def takeShort (g : Given) (letters : List Char) : Except Fault Given :=
  if letters.head? = some 'h' then g.settle.bind fun _ => .error .help
  else .error .unknownArgument

/-- Takes in an operand. -/
def takeOperand (grammar : Grammar) (g : Given) (a : String) : Except Fault Given :=
  if grammar.operand && !g.hasOperand then do
    let g ← g.settle
    return { g with pending := .operand a }
  else .error .unknownArgument

/-- Takes in an argument that is no option: the value that an option waits for, or an operand. -/
def takePlain (grammar : Grammar) (g : Given) (a : String) : Except Fault Given :=
  match g.pending with
  | .option name none => .ok { g with pending := .option name (some a) }
  | _ => takeOperand grammar g a

/-- Reads the arguments of a command. -/
def readGiven (grammar : Grammar) (g : Given) : List String → Except Fault Given
  | [] => g.settle
  | a :: rest =>
    match shape a with
    | .separator => (rest.foldlM (takeOperand grammar) g).bind Given.settle
    | .long name value => (takeLong grammar g name value).bind (readGiven grammar · rest)
    | .short letters => (takeShort g letters).bind (readGiven grammar · rest)
    | .plain => (takePlain grammar g a).bind (readGiven grammar · rest)

/-- Reads the arguments of the command that imports a POM. -/
def readImport (args : List String) : Except Fault Command := do
  let g ← readGiven { switches := ["json"], operand := true } {} args
  match g.operand with
  | some pom => return .importPom pom (g.switches.contains "json")
  | none => .error .missingArgument

/-- Reads the arguments of the command that packages a module. -/
def readPackage (args : List String) : Except Fault Command := do
  let g ← readGiven { options := ["config", "root"] } {} args
  match g.value? "config" with
  | some config => return .package config ((g.value? "root").getD ".")
  | none => .error .missingArgument

/-- Reads the arguments of the command that prints the test environment. -/
def readTestEnv (args : List String) : Except Fault Command := do
  let g ← readGiven { options := ["config"] } {} args
  return .testEnv (g.value? "config")

/-- The names of the commands. -/
def commandNames : List String := ["import", "package", "test-env", "help"]

/-- Answers a request for help on the command with the given name. -/
def readHelp : List String → Fault
  | [] => .help
  | [name] => if commandNames.contains name then .help else .unknownCommand
  | _ => .unknownCommand

/-- Reads an option that stands in front of a command. -/
def readGeneral : Shape → Fault
  | .separator => .noCommand
  | .long name value =>
    if name = "help" || name = "version" then
      if value.isSome then .unneededValue else if name = "help" then .help else .version
    else .unknownArgument
  | .short letters =>
    match letters with
    | 'h' :: _ => .help
    | 'V' :: _ => .version
    | _ => .unknownArgument
  | .plain => .unknownCommand

/-- Reads the arguments of the program. -/
def read : List String → Except Fault Command
  | [] => .error .noCommand
  | "import" :: args => readImport args
  | "package" :: args => readPackage args
  | "test-env" :: args => readTestEnv args
  | "help" :: args => .error (readHelp args)
  | "--" :: a :: _ =>
    .error (if commandNames.contains a then .unknownArgument else .unknownCommand)
  | a :: _ => .error (readGeneral (shape a))

end Arguments

end Vendoring
