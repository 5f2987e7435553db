import Vendoring.Execution

/-!
# The program

Looks at the files that a command needs, runs it and prints the result.
-/

namespace Vendoring

/-- The variable of the environment that holds a signing key. -/
def signingKeyVariable : String := "VENDOR_SIGNING_KEY"

/-- What the system says about a path that cannot be read. -/
def FileFault.ofError : IO.Error → FileFault
  | .inappropriateType _ code _ => if code = 21 then isADirectory else notADirectory
  | .invalidArgument _ code _ => if code = 36 then nameTooLong else nulInName
  | _ => notFound

/-- What stands at a path. -/
def probe (path : String) : IO (Except FileFault FileNode) := do
  try
    return .ok (.file (← IO.FS.readBinFile path))
  catch e =>
    match FileFault.ofError e with
    | .isADirectory => return .ok .directory
    | fault => return .error fault

/-- The part of the file system that some paths lead to. -/
def snapshot (paths : List String) : IO FileSystem := do
  let nodes ← paths.mapM fun path => do return (path, ← probe path)
  return ⟨fun path => (nodes.lookup path).getD (.error .notFound)⟩

/-- Runs a command on the files it needs. -/
def perform (command : Command) : IO (Except Build.Fault String) := do
  let first ← snapshot command.paths
  let whole ← snapshot (command.paths ++ command.furtherPaths first)
  return command.run whole (← IO.getEnv signingKeyVariable)

/-- How to call the program. -/
def usage : String :=
  "usage: vendoring import [--json] POM\n" ++
  "       vendoring package --config FILE [--root DIR]\n" ++
  "       vendoring test-env [--config FILE]\n" ++
  "       vendoring help [COMMAND]"

end Vendoring

/-- Runs the program with its arguments. -/
def main (args : List String) : IO UInt32 := do
  match Vendoring.Arguments.read args with
  | .error fault =>
    if fault.exitCode = 0 then IO.println Vendoring.usage else IO.eprintln Vendoring.usage
    return fault.exitCode.toUInt32
  | .ok command =>
    match ← Vendoring.perform command with
    | .ok out =>
      if out.endsWith "\n" then IO.print out else IO.println out
      return 0
    | .error fault =>
      IO.eprintln fault.message
      return 1
