/-!
# JSON values

Values as they are written: numbers are natural numbers, and the members of an object keep their
order.
-/

namespace Vendoring

/-- A value that is to be written as JSON. -/
inductive Json
  | null
  | bool (b : Bool)
  | number (n : Nat)
  | string (s : String)
  | array (items : List Json)
  | object (members : List (String × Json))

namespace Json

/-- The value of an optional text. -/
def optional : Option String → Json
  | none => null
  | some s => string s

/-- The value of a list of texts. -/
def strings (ss : List String) : Json := array (ss.map string)

end Json

end Vendoring
