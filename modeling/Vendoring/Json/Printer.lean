import Vendoring.Json.Value

/-!
# Writing JSON

A value is written on one line without blanks, or over several lines with two blanks for each
level.  In strings only quotes, backslashes and control characters are escaped.
-/

namespace Vendoring.Json

/-- A hexadecimal digit, in lower case. -/
def hexDigit (n : Nat) : Char :=
  if n < 10 then Char.ofNat ('0'.toNat + n) else Char.ofNat ('a'.toNat + (n - 10))

/-- A character as it is written in a string. -/
def escape (c : Char) : List Char :=
  if c = '"' then ['\\', '"']
  else if c = '\\' then ['\\', '\\']
  else if c.toNat = 0x08 then ['\\', 'b']
  else if c.toNat = 0x09 then ['\\', 't']
  else if c.toNat = 0x0A then ['\\', 'n']
  else if c.toNat = 0x0C then ['\\', 'f']
  else if c.toNat = 0x0D then ['\\', 'r']
  else if c.toNat < 0x20 then
    ['\\', 'u', '0', '0', hexDigit (c.toNat / 16), hexDigit (c.toNat % 16)]
  else [c]

/-- A text as it is written. -/
def quote (s : String) : List Char := '"' :: (s.toList.flatMap escape ++ ['"'])

/-- The digits of a number. -/
def digits (n : Nat) : List Char := Nat.toDigits 10 n

mutual

/-- A value on one line. -/
def written : Json → List Char
  | null => "null".toList
  | bool b => (if b then "true" else "false").toList
  | number n => digits n
  | string s => quote s
  | array items => '[' :: writtenItems items
  | object members => '{' :: writtenMembers members

/-- The items of an array and its end. -/
def writtenItems : List Json → List Char
  | [] => [']']
  | [v] => written v ++ [']']
  | v :: rest => written v ++ ',' :: writtenItems rest

/-- The members of an object and its end. -/
def writtenMembers : List (String × Json) → List Char
  | [] => ['}']
  | [(k, v)] => quote k ++ ':' :: (written v ++ ['}'])
  | (k, v) :: rest => quote k ++ ':' :: (written v ++ ',' :: writtenMembers rest)

end

/-- A value on one line. -/
def compact (v : Json) : String := String.ofList (written v)

/-- The start of a line at the given level. -/
def lineStart (level : Nat) : List Char := '\n' :: List.replicate (2 * level) ' '

mutual

/-- A value over several lines, whose own lines are at the given level. -/
def layout (level : Nat) : Json → List Char
  | null => "null".toList
  | bool b => (if b then "true" else "false").toList
  | number n => digits n
  | string s => quote s
  | array [] => ['[', ']']
  | array (v :: rest) => '[' :: layoutItems level (v :: rest)
  | object [] => ['{', '}']
  | object (m :: rest) => '{' :: layoutMembers level (m :: rest)

/-- The items of an array, each on lines of its own, and its end. -/
def layoutItems (level : Nat) : List Json → List Char
  | [] => [']']
  | [v] => lineStart (level + 1) ++ layout (level + 1) v ++ lineStart level ++ [']']
  | v :: rest => lineStart (level + 1) ++ layout (level + 1) v ++ ',' :: layoutItems level rest

/-- The members of an object, each on lines of its own, and its end. -/
def layoutMembers (level : Nat) : List (String × Json) → List Char
  | [] => ['}']
  | [(k, v)] =>
    lineStart (level + 1) ++ quote k ++ ':' :: ' ' :: layout (level + 1) v ++ lineStart level
      ++ ['}']
  | (k, v) :: rest =>
    lineStart (level + 1) ++ quote k ++ ':' :: ' ' :: layout (level + 1) v
      ++ ',' :: layoutMembers level rest

end

/-- A value over several lines. -/
def pretty (v : Json) : String := String.ofList (layout 0 v)

end Vendoring.Json
