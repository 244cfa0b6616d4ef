/-!
# Scientific notation of floating-point numbers

A number is written with a fixed count of significant digits, one of them before the point, and
its decimal exponent. The digits are those of the exact binary value rounded to the nearest, a tie
going to the even neighbour.

- `Decimal.Ratio`: a positive number as a quotient, and `Decimal.ofBits`, the value of a pattern.
- `Decimal.roundDiv`: the rounding.
- `Decimal.scientific`: the text.
-/

namespace KeySharing

namespace Decimal

/-- The nearest natural number to a quotient; halfway it is the even one. -/
def roundDiv (numerator denominator : Nat) : Nat :=
  let quotient := numerator / denominator
  let twice := 2 * (numerator % denominator)
  if twice < denominator then quotient
  else if denominator < twice then quotient + 1
  else if quotient % 2 = 0 then quotient
  else quotient + 1

/-- What a pattern of 64 bits stands for. -/
inductive Value where
  /-- No number. -/
  | nan
  /-- An infinity. -/
  | infinite (negative : Bool)
  /-- The quotient of two natural numbers. -/
  | finite (negative : Bool) (numerator denominator : Nat)

/-- The value of a bit pattern: one bit of sign, eleven of exponent, fifty-two of fraction. -/
def ofBits (bits : UInt64) : Value :=
  let n := bits.toNat
  let negative := n >>> 63 = 1
  let exponent := n >>> 52 % 2048
  let fraction := n % 1 <<< 52
  if exponent = 2047 then if fraction = 0 then .infinite negative else .nan
  else
    let significand := if exponent = 0 then fraction else 1 <<< 52 + fraction
    let power := max exponent 1
    .finite negative (significand <<< (power - 1075)) (1 <<< (1075 - power))

/-- How often a quotient of at least one can be divided by ten and still be at least one. -/
def tensAbove : (fuel numerator denominator : Nat) → Nat
  | 0, _, _ => 0
  | fuel + 1, numerator, denominator =>
    if 10 * denominator ≤ numerator then tensAbove fuel numerator (10 * denominator) + 1 else 0

/-- How often a quotient below one has to be multiplied by ten to be at least one. -/
def tensBelow : (fuel numerator denominator : Nat) → Nat
  | 0, _, _ => 0
  | fuel + 1, numerator, denominator =>
    if numerator < denominator then tensBelow fuel (10 * numerator) denominator + 1 else 0

/-- The range of decimal exponents of floating-point numbers. -/
def exponentRange : Nat := 400

/-- The decimal exponent of a positive quotient. -/
def exponent (numerator denominator : Nat) : Int :=
  if denominator ≤ numerator then tensAbove exponentRange numerator denominator
  else -(tensBelow exponentRange numerator denominator : Int)

/-- A product of tens. -/
def tens : (count : Nat) → Nat
  | 0 => 1
  | count + 1 => 10 * tens count

/-- The number of significant digits. -/
def significantDigits : Nat := 10

/-- The digits and the exponent of a positive quotient. Rounding may carry into one digit more. -/
def rounded (numerator denominator : Nat) : Nat × Int :=
  let e := exponent numerator denominator
  let shift := (significantDigits - 1 : Int) - e
  let digits := roundDiv (numerator * tens shift.toNat) (denominator * tens (-shift).toNat)
  if digits = tens significantDigits then (tens (significantDigits - 1), e + 1) else (digits, e)

/-- The text of digits and an exponent: a point after the first digit. -/
def layOut (negative : Bool) (digits : List Char) (e : Int) : String :=
  (if negative then "-" else "") ++ String.ofList (digits.take 1) ++ "." ++
    String.ofList (digits.drop 1) ++ "e" ++ toString e

/-- The text of a floating-point number. -/
def scientific (x : Float) : String :=
  match ofBits x.toBits with
  | .nan => "NaN"
  | .infinite negative => if negative then "-inf" else "inf"
  | .finite negative numerator denominator =>
    if numerator = 0 then layOut negative (List.replicate significantDigits '0') 0
    else
      let (digits, e) := rounded numerator denominator
      layOut negative (Nat.toDigits 10 digits) e

end Decimal

end KeySharing
