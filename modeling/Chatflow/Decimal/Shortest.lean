/-
# The shortest decimal that reads back

A binary number `m · 2 ^ q` stands for every real that rounds to it: the reals up to half a
unit away, the ends included exactly when `m` is even, and only a quarter of a unit downwards
where the binade below is twice as fine.  A decimal reads back as the number exactly when it lies
in that interval.  This file finds, in exact integer arithmetic, the decimal of fewest digits in
the interval, and among those the one nearest to the number.

If any point of the grid `10 ^ k · ℕ` lies in the interval, so does one of the two neighbours of
the number on that grid; so it is enough to look at those two, for one digit, two digits and so
on.  Seventeen digits always suffice for a significand of 53 bits.
-/

namespace Chatflow.Decimal

/-- The positive binary number `significand · 2 ^ exponent`. -/
structure Binary where
  /-- The significand `m`. -/
  significand : Nat
  /-- The exponent `q` of the last place. -/
  exponent : Int
  /-- Whether the next number below is only half a unit away. -/
  narrowBelow : Bool
deriving DecidableEq, Repr

/-- The decimal number `digits · 10 ^ exponent`. -/
structure Scaled where
  /-- The digits, read as one natural number. -/
  digits : Nat
  /-- The exponent of the last digit. -/
  exponent : Int
deriving DecidableEq, Repr

/-- The number of decimal digits of `n`; one for zero. -/
def digitCount (n : Nat) : Nat := (Nat.toDigits 10 n).length

namespace Scaled

/-- Drops the last digit while it is zero.  The value stays the same. -/
def trim (fuel : Nat) (d : Scaled) : Scaled :=
  match fuel with
  | 0 => d
  | fuel + 1 => if d.digits ≠ 0 ∧ d.digits % 10 = 0
      then trim fuel ⟨d.digits / 10, d.exponent + 1⟩ else d

/-- The same value without zeros at the end. -/
def normal (d : Scaled) : Scaled := d.trim (digitCount d.digits)

end Scaled

namespace Binary

/-- The numerator of the number as a fraction. -/
def numerator (b : Binary) : Nat := b.significand <<< b.exponent.toNat

/-- The denominator of the number as a fraction. -/
def denominator (b : Binary) : Nat := 1 <<< (-b.exponent).toNat

/-! Lengths are measured in quarters of the last place, `2 ^ (q - 2)`, in which both ends of the
interval are whole numbers. -/

/-- The number itself, in quarters of its last place. -/
def quarters (b : Binary) : Nat := 4 * b.significand

/-- The upper end of the interval of reals that round to `b`. -/
def upper (b : Binary) : Nat := b.quarters + 2

/-- The lower end of the interval of reals that round to `b`. -/
def lower (b : Binary) : Nat := b.quarters - if b.narrowBelow then 1 else 2

/-- Numerator of `10 ^ k` in quarters of the last place of `b`. -/
def gridNum (b : Binary) (k : Int) : Nat := Nat.pow 10 k.toNat <<< (2 - b.exponent).toNat

/-- Denominator of `10 ^ k` in quarters of the last place of `b`. -/
def gridDen (b : Binary) (k : Int) : Nat := Nat.pow 10 (-k).toNat <<< (b.exponent - 2).toNat

/-- Whether the decimal `c · 10 ^ k` rounds to `b`. -/
def readsBack (b : Binary) (k : Int) (c : Nat) : Bool :=
  let point := c * b.gridNum k
  let low := b.lower * b.gridDen k
  let high := b.upper * b.gridDen k
  if b.significand % 2 = 0 then low ≤ point ∧ point ≤ high else low < point ∧ point < high

/-- The point of the grid `10 ^ k · ℕ` that rounds to `b` and is nearest to it; of two equally
near points the even one. -/
def onGrid? (b : Binary) (k : Int) : Option Nat :=
  let here := b.quarters * b.gridDen k
  let c := here / b.gridNum k
  match b.readsBack k c, b.readsBack k (c + 1) with
  | false, false => none
  | true, false => some c
  | false, true => some (c + 1)
  | true, true =>
    let below := here - c * b.gridNum k
    let above := (c + 1) * b.gridNum k - here
    if below < above ∨ below = above ∧ c % 2 = 0 then some c else some (c + 1)

/-- The exponent of the first significant digit: the largest `e` with `10 ^ e ≤ b`. -/
def magnitude (b : Binary) : Int :=
  if b.denominator ≤ b.numerator then
    (digitCount (b.numerator / b.denominator) : Int) - 1
  else -(digitCount (b.denominator / b.numerator) : Int)

/-- The decimal of fewest digits that rounds to `b`, without zeros at its end. -/
def shortest (b : Binary) : Scaled :=
  let grids := (List.range 17).map fun (n : Nat) => b.magnitude - n
  match grids.findSome? fun k => (b.onGrid? k).map fun c => Scaled.mk c k with
  | some d => d.normal
  | none => ⟨0, 0⟩

end Binary

end Chatflow.Decimal
