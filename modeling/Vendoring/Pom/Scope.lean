import Vendoring.Configuration.Name

/-!
# Dependency scopes

A dependency of a POM names the scope it is needed in.  Four scopes correspond to configurations
of the build; any other text is kept as it is and corresponds to none.
-/

namespace Vendoring.Pom

/-- The scope of a dependency. -/
inductive Scope
  | compile
  | test
  | runtime
  | provided
  | other (text : String)
  deriving DecidableEq

namespace Scope

/-- The written form of a scope. -/
def text : Scope → String
  | compile => "compile"
  | test => "test"
  | runtime => "runtime"
  | provided => "provided"
  | other text => text

/-- The scope with the given written form; case counts. -/
def ofText (s : String) : Scope :=
  if s = "compile" then compile
  else if s = "test" then test
  else if s = "runtime" then runtime
  else if s = "provided" then provided
  else other s

/-- Is the scope outside the four that correspond to configurations? -/
def isOther : Scope → Bool
  | other _ => true
  | _ => false

/-- The configuration that a dependency of this scope is registered in. -/
def configuration? : Scope → Option ConfigurationName
  | compile => some .implementation
  | test => some .testImplementation
  | runtime => some .runtime
  | provided => some .compileOnly
  | other _ => none

/-- A scope read from a text is written as that text. -/
@[simp] theorem text_ofText (s : String) : (ofText s).text = s := by
  unfold ofText
  by_cases h₁ : s = "compile"
  · simp [h₁, text]
  by_cases h₂ : s = "test"
  · simp [h₂, text]
  by_cases h₃ : s = "runtime"
  · simp [h₃, text]
  by_cases h₄ : s = "provided"
  · simp [h₄, text]
  simp [h₁, h₂, h₃, h₄, text]

end Scope

end Vendoring.Pom
