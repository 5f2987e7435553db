/-!
# Configuration names

A build keeps its dependencies in named configurations.  Four of them are the build's own; every
other name belongs to whoever made it up.
-/

namespace Vendoring

/-- The name of a configuration. -/
inductive ConfigurationName
  | implementation
  | testImplementation
  | runtime
  | compileOnly
  /-- A name of one's own.  Nothing keeps it from being spelt like one of the others. -/
  | custom (text : String)
  deriving DecidableEq

namespace ConfigurationName

/-- The written form of a name. -/
def text : ConfigurationName → String
  | implementation => "implementation"
  | testImplementation => "testImplementation"
  | runtime => "runtime"
  | compileOnly => "compileOnly"
  | custom text => text

/-- The name with the given written form: the build's own name where there is one. -/
def ofText (s : String) : ConfigurationName :=
  if s = "implementation" then implementation
  else if s = "testImplementation" then testImplementation
  else if s = "runtime" then runtime
  else if s = "compileOnly" then compileOnly
  else custom s

/-- Is the name outside the build's own four? -/
def isCustom : ConfigurationName → Bool
  | custom _ => true
  | _ => false

/-- The place of a name's kind in the order of names. -/
def rank : ConfigurationName → Nat
  | implementation => 0
  | testImplementation => 1
  | runtime => 2
  | compileOnly => 3
  | custom _ => 4

/-- The build's own names come first, the others follow by their text. -/
instance : Ord ConfigurationName where
  compare a b := (compare a.rank b.rank).then (compare a.text b.text)

/-- The names in increasing order. -/
def sort (names : List ConfigurationName) : List ConfigurationName :=
  names.mergeSort fun a b => (compare a b).isLE

/-- A name read from its own text has that text. -/
@[simp] theorem text_ofText (s : String) : (ofText s).text = s := by
  unfold ofText
  by_cases h₁ : s = "implementation"
  · simp [h₁, text]
  by_cases h₂ : s = "testImplementation"
  · simp [h₂, text]
  by_cases h₃ : s = "runtime"
  · simp [h₃, text]
  by_cases h₄ : s = "compileOnly"
  · simp [h₄, text]
  simp [h₁, h₂, h₃, h₄, text]

end ConfigurationName

end Vendoring
