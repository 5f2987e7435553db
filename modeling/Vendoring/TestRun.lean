import Vendoring.Table

/-!
# Test runs

The tests of a vendored library run with some variables in their environment and without some
tests.  What the library itself requires comes first and cannot be changed; a build may add to it.
-/

namespace Vendoring

/-- What a build adds to its test runs. -/
structure TestRun where
  /-- Further variables, by their names. -/
  environment : Table (Prod.fst : String × String → String) := Table.empty Prod.fst
  /-- Further tests that are left out. -/
  excludedTests : List String := []
  deriving DecidableEq

namespace TestRun

/-- The variables that are always set. -/
def requiredEnvironment : List (String × String) :=
  [("EnvironmentKey1", "EnvironmentValue1"), ("environmentEmpty", "")]

/-- The test that is always left out: it cannot pass in a relocated library. -/
def requiredExclusion : String := "org.yaml.snakeyaml.issues.issue318.ContextClassLoaderTest"

/-- Is the variable one of those that are always set? -/
def isRequired (name : String) : Bool := requiredEnvironment.any (·.1 = name)

/-- All variables of the test run. -/
def allVariables (t : TestRun) : List (String × String) :=
  requiredEnvironment ++ t.environment.rows.filter fun row => !isRequired row.1

/-- The variables in the order of their names, as the process that runs the tests gets them. -/
def processEnvironment (t : TestRun) : Table (Prod.fst : String × String → String) :=
  Table.ofList Prod.fst t.allVariables

/-- All tests that are left out, none of them twice. -/
def exclusions (t : TestRun) : List String :=
  t.excludedTests.foldl (fun all test => if all.contains test then all else all ++ [test])
    [requiredExclusion]

/-- The argument that announces a test to leave out. -/
def excludeFlag : String := "--exclude-test"

/-- What the process that runs the tests gets for an argument: a text that holds a NUL cannot be
passed on, and a placeholder takes its place. -/
def passedOn (argument : String) : String :=
  if argument.toList.contains '\x00' then "<string-with-nul>" else argument

/-- The arguments for the command that runs the tests. -/
def arguments (t : TestRun) : List String :=
  t.exclusions.flatMap fun test => [excludeFlag, passedOn test]

end TestRun

end Vendoring
