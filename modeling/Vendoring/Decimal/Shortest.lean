/-!
# Shortest decimals

The decimal with the fewest digits that is read back as a given binary number.  The number is
`m * 2 ^ q` with natural `m`; all decimals strictly between the midpoints to its neighbours are read
back as it, and the midpoints too if `m` is even.  For each count of digits the two decimals next to
the number are tried, and the first count with a hit decides; of two hits the nearer is taken.
-/

namespace Vendoring

/-- A positive decimal `digits * 10 ^ exponent`. -/
structure Decimal where
  digits : Nat
  exponent : Int
  deriving DecidableEq

/-- A positive binary number `mantissa * 2 ^ exponent`. -/
structure Binary where
  mantissa : Nat
  exponent : Int
  deriving DecidableEq

namespace Decimal

/-- Numerator and denominator of `n * b ^ e`. -/
def fraction (n b : Nat) (e : Int) : Nat × Nat :=
  if 0 ≤ e then (n * Nat.pow b e.toNat, 1) else (n, Nat.pow b (-e).toNat)

/-- Is the first fraction less than the second? -/
def below (x y : Nat × Nat) : Bool := x.1 * y.2 < y.1 * x.2

/-- The distance of two fractions. -/
def distance (x y : Nat × Nat) : Nat × Nat :=
  ((x.1 * y.2 - y.1 * x.2) + (y.1 * x.2 - x.1 * y.2), x.2 * y.2)

/-- The mantissa at which the gap to the next smaller number halves. -/
def smallestNormal : Nat := Nat.pow 2 52

/-- The least exponent of a double. -/
def leastExponent : Int := -1074

/-- The midpoints between a double and its two neighbours. -/
def midpoints (x : Binary) : (Nat × Nat) × (Nat × Nat) :=
  let low :=
    if x.mantissa = smallestNormal ∧ leastExponent < x.exponent then
      fraction (4 * x.mantissa - 1) 2 (x.exponent - 2)
    else fraction (2 * x.mantissa - 1) 2 (x.exponent - 1)
  (low, fraction (2 * x.mantissa + 1) 2 (x.exponent - 1))

/-- Is the decimal read back as the double? -/
def readsBack (x : Binary) (d : Decimal) : Bool :=
  let (low, high) := midpoints x
  let value := fraction d.digits 10 d.exponent
  if x.mantissa % 2 = 0 then !below value low && !below high value
  else below low value && below value high

/-- The decimals with the given exponent next to a number, the lower one first. -/
def neighbours (x : Binary) (exponent : Int) : Decimal × Decimal :=
  let (n, d) := fraction x.mantissa 2 x.exponent
  let digits :=
    if 0 ≤ exponent then n / (d * Nat.pow 10 exponent.toNat)
    else n * Nat.pow 10 (-exponent).toNat / d
  (⟨digits, exponent⟩, ⟨digits + 1, exponent⟩)

/-- The decimal with the given exponent that is read back as the number, the nearer of two. -/
def candidate? (x : Binary) (exponent : Int) : Option Decimal :=
  let (low, high) := neighbours x exponent
  match readsBack x low, readsBack x high with
  | true, true =>
    let value := fraction x.mantissa 2 x.exponent
    let toLow := distance value (fraction low.digits 10 low.exponent)
    let toHigh := distance value (fraction high.digits 10 high.exponent)
    if below toLow toHigh then some low
    else if below toHigh toLow then some high
    else some (if low.digits % 2 = 0 then low else high)
  | true, false => some low
  | false, true => some high
  | false, false => none

/-- The first decimal found when the exponent goes down `count` times from the given one. -/
def searchDown (x : Binary) (exponent : Int) : (count : Nat) → Option Decimal
  | 0 => none
  | count + 1 =>
    match candidate? x exponent with
    | some d => some d
    | none => searchDown x (exponent - 1) count

/-- The decimal without zeros at the end of its digits. -/
def stripped (d : Decimal) : (fuel : Nat) → Decimal
  | 0 => d
  | fuel + 1 =>
    if d.digits ≠ 0 ∧ d.digits % 10 = 0 then stripped ⟨d.digits / 10, d.exponent + 1⟩ fuel else d

/-- An upper bound of the decimal exponent of a number. -/
def exponentBound (x : Binary) : Int :=
  let (n, d) := fraction x.mantissa 2 x.exponent
  (Nat.toDigits 10 n).length - (Nat.toDigits 10 d).length + 1

/-- The shortest decimal that is read back as the double. -/
def shortest (x : Binary) : Decimal :=
  match searchDown x (exponentBound x) 25 with
  | some d => stripped d 400
  | none => ⟨x.mantissa, x.exponent⟩

/-- Sign and value of a finite double; nothing is given for the value zero. -/
def ofFloat (x : Float) : Bool × Option Binary :=
  let bits := x.toBits.toNat
  let negative := bits / Nat.pow 2 63 = 1
  let biased : Nat := bits / Nat.pow 2 52 % Nat.pow 2 11
  let fraction := bits % Nat.pow 2 52
  if biased = 0 then
    (negative, if fraction = 0 then none else some ⟨fraction, leastExponent⟩)
  else (negative, some ⟨smallestNormal + fraction, (biased : Int) - 1075⟩)

end Decimal

end Vendoring
