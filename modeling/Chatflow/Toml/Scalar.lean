/-
# TOML scalars

Numbers, truth values and dates are written without quotes.  Each is recognised from the whole row
of characters up to the next blank or punctuation mark.  Underscores may stand between two digits.
-/
import Chatflow.Toml.Value

namespace Chatflow.Toml

/-! ### Digits -/

/-- The value of a digit in a base up to sixteen. -/
def digit? (base : Nat) (c : Char) : Option Nat :=
  let v :=
    if '0' ≤ c ∧ c ≤ '9' then c.toNat - 48
    else if 'a' ≤ c ∧ c ≤ 'f' then c.toNat - 87
    else if 'A' ≤ c ∧ c ≤ 'F' then c.toNat - 55
    else base
  if v < base then some v else none

/-- The digits of a row that may be grouped by single underscores between digits. -/
def ungroup (base : Nat) : List Char → Option (List Nat)
  | [] => none
  | [c] => (digit? base c).map ([·])
  | c :: '_' :: rest => do
    let d ← digit? base c
    let ds ← ungroup base rest
    return d :: ds
  | c :: rest => do
    let d ← digit? base c
    let ds ← ungroup base rest
    return d :: ds

/-- The number of a row of digits. -/
def fromDigits (base : Nat) (ds : List Nat) : Nat := ds.foldl (fun n d => n * base + d) 0

/-- Splits off a sign; true for a minus. -/
def splitSign : List Char → Bool × List Char
  | '-' :: rest => (true, rest)
  | '+' :: rest => (false, rest)
  | cs => (false, cs)

/-! ### Integers -/

/-- Decimal digits without a needless zero in front. -/
def plainDigits? (cs : List Char) : Option (List Nat) := do
  let ds ← ungroup 10 cs
  if ds.head? = some 0 ∧ ds.length ≠ 1 then none else some ds

/-- An integer in the range of a signed or unsigned 64-bit word. -/
def inRange? (n : Int) : Option Value :=
  if -0x8000000000000000 ≤ n ∧ n ≤ 0xFFFFFFFFFFFFFFFF then some (.integer n) else none

/-- Reads an integer in decimal, hexadecimal, octal or binary digits. -/
def integer? : List Char → Option Value
  | '0' :: 'x' :: ds => do inRange? (fromDigits 16 (← ungroup 16 ds))
  | '0' :: 'o' :: ds => do inRange? (fromDigits 8 (← ungroup 8 ds))
  | '0' :: 'b' :: ds => do inRange? (fromDigits 2 (← ungroup 2 ds))
  | cs => do
    let (negative, cs) := splitSign cs
    let n : Int := fromDigits 10 (← plainDigits? cs)
    inRange? (if negative then -n else n)

/-! ### Floats -/

/-- Whether the digits with a decimal exponent stay within the range of doubles. -/
def isFinite (ds : List Nat) (exponent : Int) : Bool :=
  let ds := ds.dropWhile (· == 0)
  let magnitude := exponent + ds.length
  if ds.isEmpty ∨ magnitude < 300 then true
  else if 400 < magnitude then false
  else
    let scaled := fromDigits 10 ds * Nat.pow 10 exponent.toNat
    (Double.nearest? scaled (Nat.pow 10 (-exponent).toNat)).isSome

/-- Splits a row at the first character with a property. -/
def splitAt? (p : Char → Bool) (cs : List Char) : Option (List Char × List Char) :=
  match cs.dropWhile fun c => !p c with
  | [] => none
  | _ :: rest => some (cs.takeWhile fun c => !p c, rest)

/-- Reads an exponent behind its letter. -/
def exponent? (cs : List Char) : Option Int := do
  let (negative, cs) := splitSign cs
  let n : Int := fromDigits 10 (← ungroup 10 cs)
  return if negative then -n else n

/-- Reads a number with fraction or exponent. -/
def decimal? (cs : List Char) : Option Value := do
  let (_, cs) := splitSign cs
  let (mantissa, exponent) ← match splitAt? (fun c => c = 'e' ∨ c = 'E') cs with
    | some (mantissa, e) => (exponent? e).map fun e => (mantissa, some e)
    | none => some (cs, none)
  let (whole, fraction) ← match splitAt? (· = '.') mantissa with
    | some (whole, fraction) => do pure (← plainDigits? whole, ← ungroup 10 fraction)
    | none => if exponent.isNone then none else do pure (← plainDigits? mantissa, [])
  if isFinite (whole ++ fraction) (exponent.getD 0 - fraction.length) then some .float else none

/-- Reads a number with fraction or exponent, infinity, or not a number. -/
def float? (cs : List Char) : Option Value :=
  let (_, unsigned) := splitSign cs
  if unsigned = "inf".toList ∨ unsigned = "nan".toList then some .float else decimal? cs

/-! ### Dates and times -/

/-- Reads a number of exactly `n` decimal digits in front of a row. -/
def fixedDigits? (n : Nat) (cs : List Char) : Option (Nat × List Char) := do
  let ds ← (cs.take n).mapM (digit? 10)
  if ds.length = n then some (fromDigits 10 ds, cs.drop n) else none

/-- The number of days of a month. -/
def daysIn (year month : Nat) : Nat :=
  if month = 2 then
    if year % 4 = 0 ∧ (year % 100 ≠ 0 ∨ year % 400 = 0) then 29 else 28
  else if month = 4 ∨ month = 6 ∨ month = 9 ∨ month = 11 then 30
  else 31

/-- Reads a date. -/
def date? (cs : List Char) : Option (List Char) := do
  let (year, cs) ← fixedDigits? 4 cs
  let '-' :: cs := cs | none
  let (month, cs) ← fixedDigits? 2 cs
  let '-' :: cs := cs | none
  let (day, cs) ← fixedDigits? 2 cs
  if 1 ≤ month ∧ month ≤ 12 ∧ 1 ≤ day ∧ day ≤ daysIn year month then some cs else none

/-- Reads the fraction of a second, if there is one. -/
def secondFraction? : List Char → Option (List Char)
  | '.' :: cs =>
    if (cs.takeWhile Char.isDigit).isEmpty then none else some (cs.dropWhile Char.isDigit)
  | cs => some cs

/-- Reads the seconds of a time, if they are there. -/
def seconds? : List Char → Option (List Char)
  | ':' :: cs => do
    let (second, cs) ← fixedDigits? 2 cs
    if second ≤ 60 then secondFraction? cs else none
  | cs => some cs

/-- Reads hours and minutes. -/
def hourMinute? (cs : List Char) : Option (List Char) := do
  let (hour, cs) ← fixedDigits? 2 cs
  let ':' :: cs := cs | none
  let (minute, cs) ← fixedDigits? 2 cs
  if hour ≤ 24 ∧ minute ≤ 59 then some cs else none

/-- Reads a time of day. -/
def time? (cs : List Char) : Option (List Char) := do seconds? (← hourMinute? cs)

/-- Reads the distance from universal time, if it is given. -/
def zone? : List Char → Option (List Char)
  | 'Z' :: cs | 'z' :: cs => some cs
  | '+' :: cs | '-' :: cs => hourMinute? cs
  | cs => some cs

/-- Whether a character stands between date and time. -/
def isTimeMark (c : Char) : Bool := c = 'T' ∨ c = 't' ∨ c = ' '

/-- Reads the time behind a date, if there is one. -/
def timeOfDate? : List Char → Option (List Char)
  | [] => some []
  | c :: cs => if isTimeMark c then do zone? (← time? cs) else none

/-- Reads a date, a time of day, or both. -/
def moment? (cs : List Char) : Option Value :=
  let rest := match date? cs with
    | some rest => timeOfDate? rest
    | none => time? cs
  if rest = some [] then some .moment else none

/-! ### Any scalar -/

/-- Reads a value that is written without quotes. -/
def scalar? (cs : List Char) : Option Value :=
  if cs = "true".toList then some (.boolean true)
  else if cs = "false".toList then some (.boolean false)
  else (integer? cs).or ((float? cs).or (moment? cs))

end Chatflow.Toml
