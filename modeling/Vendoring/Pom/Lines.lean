/-!
# Lines of a document

A position in a document, counted in bytes, is turned into a line number with the positions at
which lines start.
-/

namespace Vendoring.Pom

/-- The byte positions behind the line feeds of a text that begins at `position`. -/
def lineStartsFrom (position : Nat) : List Char → (starts : List Nat) → List Nat
  | [], starts => starts.reverse
  | c :: rest, starts =>
    let after := position + c.utf8Size
    lineStartsFrom after rest (if c = '\n' then after :: starts else starts)

/-- The byte positions at which the lines of a text start. -/
def lineStarts (s : List Char) : List Nat := 0 :: lineStartsFrom 0 s []

/-- The line, counted from one, in which a byte position lies. -/
def lineOf (starts : List Nat) (position : Nat) : Nat :=
  (starts.takeWhile (· ≤ position)).length

end Vendoring.Pom
