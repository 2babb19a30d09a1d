/-
# Doubles and their decimal text

A double is kept as its sixty-four bits, so that two doubles are equal exactly when they are
written alike, and so that minus zero stays apart from zero.

Writing takes the shortest digits that read back.  With `e` the exponent of the first digit the
notation is positional for `-5 ≤ e < 16` and always shows a fraction (`100.0`, `0.00001`), and
scientific otherwise, with a signed exponent (`1e+16`, `1.5e-7`).

Reading scales: the leading digits that fit into sixty-four bits are rounded to the nearest double
and this is multiplied or divided by a power of ten, itself rounded, and rounded again.  The result
can be one unit off the nearest double when there are many digits.
-/
import Chatflow.Decimal.Shortest

namespace Chatflow

/-- A double-precision number. -/
structure Double where
  /-- Sign, exponent and fraction, as the interchange format lays them out. -/
  bits : UInt64
deriving DecidableEq, Repr

namespace Double

/-! ### Rounding -/

/-- A quotient rounded to the nearest natural number, a tie going to the even one. -/
def roundedQuotient (num den : Nat) : Nat :=
  let q := num / den
  let r := num % den
  if 2 * r < den ∨ (2 * r = den ∧ q % 2 = 0) then q else q + 1

/-- The exponent of the leading binary digit of a positive fraction: the largest `e` with
`2 ^ e ≤ num / den`. -/
def leadingExponent (num den : Nat) : Int :=
  let e : Int := (Nat.log2 num : Int) - Nat.log2 den
  if den <<< e.toNat ≤ num <<< (-e).toNat then e else e - 1

/-- The exponent of the last of the fifty-three binary digits that a double near a positive fraction
has.  Doubles near zero have fewer. -/
def lastExponent (num den : Nat) : Int := max (leadingExponent num den - 52) (-1074)

/-- The bits of infinity, which are above those of all positive doubles. -/
def infinityBits : Nat := 0x7FF0000000000000

/-- The double nearest to a fraction, a tie going to the one with an even significand; nothing if it
is too large for a double.  Adding the significand to the exponent carries where it was rounded up
to the next power of two. -/
def nearest? (num den : Nat) : Option Double :=
  if num = 0 then some ⟨0⟩
  else
    let q := lastExponent num den
    let significand := roundedQuotient (num <<< (-q).toNat) (den <<< q.toNat)
    let bits := (q + 1074).toNat <<< 52 + significand
    if bits < infinityBits then some ⟨bits.toUInt64⟩ else none

/-- The double nearest to a natural number of at most 64 bits. -/
def ofNat (n : Nat) : Double := (nearest? n 1).getD ⟨0⟩

/-- The double with the other sign. -/
def negate (d : Double) : Double := ⟨d.bits ^^^ 0x8000000000000000⟩

/-- The double nearest to an integer of at most 64 bits. -/
def ofInt (n : Int) : Double := if n < 0 then (ofNat n.natAbs).negate else ofNat n.natAbs

/-! ### Parts -/

/-- Whether the sign bit is set. -/
def isNegative (d : Double) : Bool := d.bits.toNat >>> 63 % 2 = 1

/-- The eleven exponent bits. -/
def exponentField (d : Double) : Nat := d.bits.toNat >>> 52 % 2048

/-- The fifty-two fraction bits. -/
def fractionField (d : Double) : Nat := d.bits.toNat % 0x10000000000000

/-- Whether the double is zero, of either sign. -/
def isZero (d : Double) : Bool := d.exponentField = 0 ∧ d.fractionField = 0

/-- The magnitude as a binary number. -/
def magnitude (d : Double) : Decimal.Binary :=
  if d.exponentField = 0 then ⟨d.fractionField, -1074, false⟩
  else ⟨0x10000000000000 + d.fractionField, d.exponentField - 1075,
    d.fractionField = 0 ∧ 1 < d.exponentField⟩

/-! ### Writing -/

/-- The decimal digits of `n` as text. -/
def digitText (n : Nat) : String := String.ofList (Nat.toDigits 10 n)

/-- A row of `n` zeros. -/
def zeros (n : Nat) : String := String.ofList (List.replicate n '0')

/-- Whether numbers whose first digit stands at exponent `e` are written positionally. -/
def isPositional (e : Int) : Bool := -5 ≤ e ∧ e < 16

/-- A decimal in positional notation, with at least one digit on each side of the point. -/
def positional (d : Decimal.Scaled) : String :=
  let digits := Nat.toDigits 10 d.digits
  if 0 ≤ d.exponent then digitText d.digits ++ zeros d.exponent.toNat ++ ".0"
  else
    let places := d.exponent.natAbs
    if places < digits.length then
      let whole := digits.length - places
      String.ofList (digits.take whole) ++ "." ++ String.ofList (digits.drop whole)
    else "0." ++ zeros (places - digits.length) ++ String.ofList digits

/-- A decimal in scientific notation, `e` being the exponent of its first digit. -/
def scientific (d : Decimal.Scaled) (e : Int) : String :=
  let mantissa := match Nat.toDigits 10 d.digits with
    | [] => "0"
    | [c] => String.ofList [c]
    | c :: rest => String.ofList (c :: '.' :: rest)
  mantissa ++ (if e < 0 then "e-" else "e+") ++ digitText e.natAbs

/-- The text of a finite double. -/
def text (d : Double) : String :=
  let sign := if d.isNegative then "-" else ""
  if d.isZero then sign ++ "0.0"
  else
    let s := d.magnitude.shortest
    let e := s.exponent + (Decimal.digitCount s.digits : Int) - 1
    sign ++ if isPositional e then positional s else scientific s e

/-! ### Reading -/

/-- The double nearest to the product of a double's magnitude and a fraction. -/
def times? (d : Double) (num den : Nat) : Option Double :=
  nearest? (d.magnitude.numerator * num) (d.magnitude.denominator * den)

/-- The magnitude of `x · 10 ^ e` by one multiplication or division with a power of ten up to
`10 ^ 308`, after dividing by `10 ^ 308` as often as that is not enough.  Nothing if the result is
too large. -/
def scale (x : Double) (e : Int) : Option Double :=
  if e.natAbs ≤ 308 then do
    let power ← nearest? (Nat.pow 10 e.natAbs) 1
    if 0 ≤ e then x.times? power.magnitude.numerator power.magnitude.denominator
    else x.times? power.magnitude.denominator power.magnitude.numerator
  else if x.isZero then some x
  else if 0 ≤ e then none
  else do
    let power ← nearest? (Nat.pow 10 308) 1
    scale (← x.times? power.magnitude.denominator power.magnitude.numerator) (e + 308)
termination_by e.natAbs
decreasing_by omega

/-- The double that `± significand · 10 ^ exponent` is read as, for a significand of at most 64
bits; nothing if it is too large for a double. -/
def ofDecimal? (negative : Bool) (significand : Nat) (exponent : Int) : Option Double :=
  (scale (ofNat significand) exponent).map fun x => if negative then x.negate else x

/-! ### Rounding to whole numbers -/

/-- The least signed 64-bit integer. -/
def minInt64 : Int := -0x8000000000000000

/-- The greatest signed 64-bit integer. -/
def maxInt64 : Int := 0x7FFFFFFFFFFFFFFF

/-- The nearest integer, a half going away from zero, clamped to a signed 64-bit range. -/
def toInt64 (d : Double) : Int :=
  let num := d.magnitude.numerator
  let den := d.magnitude.denominator
  let rounded := (2 * num + den) / (2 * den)
  if d.isNegative then max (-(rounded : Int)) minInt64 else min (rounded : Int) maxInt64

end Double

end Chatflow
