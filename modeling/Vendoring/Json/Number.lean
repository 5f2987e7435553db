import Vendoring.Decimal.Shortest
import Vendoring.Json.Reading

/-!
# Values of JSON numbers

A number without point and exponent that fits 64 bits is an integer.  All others are floating
point numbers: the digits are collected in 64 bits, those that no longer fit only count for the
exponent, and the number is scaled by a power of ten.
-/

namespace Vendoring.Json

/-- The value of a number. -/
inductive Number
  | natural (n : Nat)
  /-- The integer `-n`. -/
  | negative (n : Nat)
  | float (x : Float)

namespace Number

/-- The numbers of 64 bits. -/
def wordLimit : Nat := Nat.pow 2 64

/-- Collects digits in a number of 64 bits; gives it with the digits that no longer fit. -/
def collect (value : Nat) : List Nat → Nat × List Nat
  | [] => (value, [])
  | d :: rest =>
    if value * 10 + d < wordLimit then collect (value * 10 + d) rest else (value, d :: rest)

/-- The greatest power of ten among the doubles. -/
def greatestPower : Nat := 308

/-- A power of ten. -/
def powerOfTen (n : Nat) : Float := Float.ofScientific 1 false n

/-- A number scaled by a power of ten; too large ones are refused. -/
def scale (x : Float) (exponent : Int) : Option Float :=
  if exponent.natAbs ≤ greatestPower then
    if 0 ≤ exponent then
      let y := x * powerOfTen exponent.natAbs
      if y.isInf then none else some y
    else some (x / powerOfTen exponent.natAbs)
  else if x == 0.0 then some x
  else if 0 ≤ exponent then none
  else scale (x / powerOfTen greatestPower) (exponent + greatestPower)
  termination_by exponent.natAbs
  decreasing_by
    simp only [greatestPower] at *
    omega

/-- The exponents of 32 bits. -/
def exponentLimit : Nat := Nat.pow 2 31

/-- A number of digits, limited so that it fits 32 bits; nothing is given beyond. -/
def exponentValue? (ds : List Nat) : Option Nat :=
  ds.foldl
    (fun value d => value.bind fun v => if v * 10 + d < exponentLimit then some (v * 10 + d) else none)
    (some 0)

/-- A floating point number with a sign. -/
def signed (negative : Bool) (x : Float) : Number := .float (if negative then -x else x)

/-- The exponent within 32 bits. -/
def clamp (e : Int) : Int := max (-exponentLimit) (min (exponentLimit - 1) e)

/-- The value of a number with a point, an exponent or more than 64 bits. -/
def floating (n : NumberText) : Except Fault Number :=
  let (value, beyond) := collect 0 n.whole
  let digits := n.fraction.getD []
  let (value, unread) := collect value digits
  let shift : Int := (beyond.length : Int) - ((digits.length - unread.length : Nat) : Int)
  let scaled (exponent : Int) : Except Fault Number :=
    match scale (UInt64.ofNat value).toFloat exponent with
    | some x => .ok (signed n.negative x)
    | none => .error .malformed
  match n.exponent with
  | none => scaled shift
  | some (minus, ds) =>
    match exponentValue? ds with
    | some e => scaled (clamp (if minus then shift - e else shift + e))
    | none =>
      if value ≠ 0 ∧ !minus then .error .malformed else .ok (signed n.negative 0.0)

end Number

/-- The value of a number. -/
def NumberText.value (n : NumberText) : Except Fault Number :=
  match n.fault with
  | some f => .error f
  | none =>
    match n.fraction, n.exponent, Number.collect 0 n.whole with
    | none, none, (value, []) =>
      if !n.negative then .ok (.natural value)
      else if 0 < value ∧ value ≤ Nat.pow 2 63 then .ok (.negative value)
      else .ok (Number.signed true (UInt64.ofNat value).toFloat)
    | _, _, _ => Number.floating n

/-! ## Written forms -/

/-- Digits with a point behind the first `count` of them. -/
def withPoint (digits : List Char) (count : Nat) : List Char :=
  digits.take count ++ '.' :: digits.drop count

/-- A decimal exponent with its sign. -/
def exponentText (e : Int) : List Char :=
  (if e < 0 then '-' else '+') :: Nat.toDigits 10 e.natAbs

/-- A positive decimal.  Up to sixteen places before the point and down to the fifth behind it are
written out, other numbers with an exponent; there is always a digit behind a point that is
written out. -/
def decimalText (d : Decimal) : List Char :=
  let digits := Nat.toDigits 10 d.digits
  let scientific := d.exponent + digits.length - 1
  if 16 ≤ scientific ∨ scientific < -5 then
    let mantissa := if digits.length = 1 then digits else withPoint digits 1
    mantissa ++ 'e' :: exponentText scientific
  else if 0 ≤ d.exponent then
    digits ++ List.replicate d.exponent.toNat '0' ++ ['.', '0']
  else if 0 ≤ scientific then withPoint digits (scientific.toNat + 1)
  else '0' :: '.' :: (List.replicate (-scientific - 1).toNat '0' ++ digits)

/-- A floating point number by the shortest decimal that is read back as it. -/
def floatText (x : Float) : List Char :=
  let (negative, value) := Decimal.ofFloat x
  let digits :=
    match value with
    | none => ['0', '.', '0']
    | some x => decimalText (Decimal.shortest x)
  if negative then '-' :: digits else digits

end Vendoring.Json
