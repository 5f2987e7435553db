import Vendoring.Xml.Fault

/-!
# Character and entity references

The name between `&` and `;` stands for one character: five names are predefined, and a name that
begins with `#` is the number of the character, decimal or after an `x` hexadecimal.
-/

namespace Vendoring.Xml

/-- The value of a digit in the given base. -/
def digitValue? (base : Nat) (c : Char) : Option Nat :=
  let value? :=
    if '0' ≤ c ∧ c ≤ '9' then some (c.toNat - '0'.toNat)
    else if 'a' ≤ c ∧ c ≤ 'f' then some (c.toNat - 'a'.toNat + 10)
    else if 'A' ≤ c ∧ c ≤ 'F' then some (c.toNat - 'A'.toNat + 10)
    else none
  value?.filter (· < base)

/-- The numbers of 32 bits. -/
def numberLimit : Nat := Nat.pow 2 32

/-- Reads digits onto the number `value`, which must stay within 32 bits. -/
def readDigits (base : Nat) : (value : Nat) → List Char → Except CharacterFault Nat
  | value, [] => .ok value
  | value, c :: rest =>
    match digitValue? base c with
    | none => .error .badDigit
    | some digit =>
      if value * base + digit < numberLimit then readDigits base (value * base + digit) rest
      else .error .tooLarge

/-- Reads the number of a character reference: digits without a sign, at least one. -/
def readNumber (base : Nat) : List Char → Except CharacterFault Nat
  | [] => .error .noDigits
  | c :: rest => if c = '+' ∨ c = '-' then .error .sign else readDigits base 0 (c :: rest)

/-- The character with the given number. -/
def characterOf (code : Nat) : Except CharacterFault Char :=
  if code = 0 then .error .zero
  else if h : code.isValidChar then .ok (Char.ofNatAux code h)
  else .error (.notACharacter code)

/-- The character that a numeric reference denotes; the argument is what follows `#`. -/
def numericCharacter (digits : List Char) : Except CharacterFault Char :=
  match digits with
  | 'x' :: hexadecimal => (readNumber 16 hexadecimal).bind characterOf
  | decimal => (readNumber 10 decimal).bind characterOf

/-- The character that a predefined name stands for. -/
def predefined? (name : List Char) : Option Char :=
  match String.ofList name with
  | "lt" => some '<'
  | "gt" => some '>'
  | "amp" => some '&'
  | "apos" => some '\''
  | "quot" => some '"'
  | _ => none

/-- The character that a reference stands for. -/
def resolve : (name : List Char) → Except Fault Char
  | '#' :: digits => (numericCharacter digits).mapError .badCharacter
  | name =>
    match predefined? name with
    | some c => .ok c
    | none => .error (.undefinedEntity name)

end Vendoring.Xml
