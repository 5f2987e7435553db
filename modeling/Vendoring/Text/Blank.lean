/-!
# Blank characters

The characters that count as white space in names, coordinates and element text, and the
function that drops them from both ends of a text.  A text is *blank* when nothing is left.
-/

namespace Vendoring.Text

/-- The code points with the Unicode property `White_Space`. -/
def blankRanges : List (Nat × Nat) :=
  [(0x09, 0x0D), (0x20, 0x20), (0x85, 0x85), (0xA0, 0xA0), (0x1680, 0x1680), (0x2000, 0x200A),
    (0x2028, 0x2029), (0x202F, 0x202F), (0x205F, 0x205F), (0x3000, 0x3000)]

/-- Is the character white space? -/
def isBlank (c : Char) : Bool :=
  blankRanges.any fun range => range.1 ≤ c.toNat && c.toNat ≤ range.2

/-- The characters between the leading and the trailing blanks. -/
def trimChars (s : List Char) : List Char :=
  ((s.dropWhile isBlank).reverse.dropWhile isBlank).reverse

/-- The text between the leading and the trailing blanks. -/
def trim (s : String) : String := String.ofList (trimChars s.toList)

/-- Does the text consist of blanks only? -/
def isBlankText (s : String) : Bool := s.toList.all isBlank

/-- The trimmed text, or nothing when only blanks were written. -/
def trimmed? (s : List Char) : Option String :=
  match trimChars s with
  | [] => none
  | t => some (String.ofList t)

@[simp] theorem trimChars_nil : trimChars [] = [] := rfl

end Vendoring.Text
