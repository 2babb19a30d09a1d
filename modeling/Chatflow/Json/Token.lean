/-
# The tokens of JSON text

A text is split into tokens up to the first place where no token can be read; there the row of
tokens ends with `Token.fault`.  Two kinds of token are well formed as text and still have no
value: a string with half of a surrogate pair, and a number too large for a double.  Whether that is
an error depends on where the token stands, so both are tokens of their own (`str none`,
`num none`).
-/
import Chatflow.Json.Basic

namespace Chatflow.Json

/-- A token of JSON text. -/
inductive Token where
  | openArray
  | closeArray
  | openObject
  | closeObject
  | comma
  | colon
  | null
  | bool (b : Bool)
  /-- A number; without value if it is too large for a double. -/
  | num (n : Option Number)
  /-- A string; without value if an escape stands for half of a surrogate pair. -/
  | str (s : Option String)
  /-- No token can be read here. -/
  | fault
deriving DecidableEq, Repr

/-- The white space of JSON. -/
def isSpace (c : Char) : Bool := c = ' ' ∨ c = '\n' ∨ c = '\t' ∨ c = '\r'

namespace Token

/-! ### Numbers -/

/-- The value of a decimal digit. -/
def digitValue (c : Char) : Nat := c.toNat - 48

/-- The largest significand that a number is read with. -/
def maxSignificand : Nat := 0xFFFFFFFFFFFFFFFF

/-- Appends digits to a significand as long as it stays within sixty-four bits, and returns the
digits left over. -/
def absorb (significand : Nat) : List Char → Nat × List Char
  | [] => (significand, [])
  | c :: rest =>
    if significand * 10 + digitValue c ≤ maxSignificand then
      absorb (significand * 10 + digitValue c) rest
    else (significand, c :: rest)

/-- The value of exponent digits.  All exponents from `2 ^ 31` on are alike: no significand makes
up for them. -/
def exponentValue (digits : List Char) : Nat :=
  digits.foldl (fun e c => min (e * 10 + digitValue c) 0x80000000) 0

/-- The parts of a number as it is written. -/
structure Numeral where
  /-- Whether it starts with a minus sign. -/
  negative : Bool
  /-- The digits before the point. -/
  whole : List Char
  /-- The digits behind the point, none if there is no point. -/
  fraction : List Char
  /-- The signed exponent, if there is one. -/
  exponent : Option Int
deriving DecidableEq, Repr

/-- The number that a numeral stands for: an integer if it has neither fraction nor exponent, is
not minus zero and fits into a signed or unsigned 64-bit word, and a double otherwise. -/
def Numeral.number? (n : Numeral) : Option Number :=
  let (significand, dropped) := absorb 0 n.whole
  if dropped = [] ∧ n.fraction = [] ∧ n.exponent = none then
    if n.negative then
      if 0 < significand ∧ significand ≤ 0x8000000000000000 then some (.int (-(significand : Int)))
      else (Double.ofDecimal? true significand 0).map .double
    else some (.int significand)
  else
    let (significand, unused) := absorb significand n.fraction
    let places := n.fraction.length - unused.length
    (Double.ofDecimal? n.negative significand
      ((dropped.length : Int) - places + n.exponent.getD 0)).map .double

/-- Splits off the longest row of digits in front. -/
def digits (cs : List Char) : List Char × List Char :=
  (cs.takeWhile Char.isDigit, cs.dropWhile Char.isDigit)

/-- Reads a fraction, if there is one. -/
def scanFraction : List Char → Option (List Char × List Char)
  | '.' :: rest =>
    match digits rest with
    | ([], _) => none
    | (ds, rest) => some (ds, rest)
  | cs => some ([], cs)

/-- Reads an optional sign; true for a minus. -/
def scanSign : List Char → Bool × List Char
  | '-' :: rest => (true, rest)
  | '+' :: rest => (false, rest)
  | cs => (false, cs)

/-- Reads the exponent behind its letter. -/
def scanPower (cs : List Char) : Option (Int × List Char) :=
  let (negative, rest) := scanSign cs
  match digits rest with
  | ([], _) => none
  | (ds, rest) =>
    let e : Int := exponentValue ds
    some (if negative then -e else e, rest)

/-- Reads an exponent, if there is one. -/
def scanExponent : List Char → Option (Option Int × List Char)
  | 'e' :: rest => (scanPower rest).map fun (e, rest) => (some e, rest)
  | 'E' :: rest => (scanPower rest).map fun (e, rest) => (some e, rest)
  | cs => some (none, cs)

/-- Reads a minus sign, if there is one. -/
def scanMinus : List Char → Bool × List Char
  | '-' :: rest => (true, rest)
  | cs => (false, cs)

/-- Reads a number.  The digits before the point must be there and must not start with a needless
zero. -/
def scanNumeral (cs : List Char) : Option (Numeral × List Char) := do
  let (negative, rest) := scanMinus cs
  let (whole, rest) := digits rest
  if whole = [] ∨ (whole.head? = some '0' ∧ whole.length ≠ 1) then none
  else
    let (fraction, rest) ← scanFraction rest
    let (exponent, rest) ← scanExponent rest
    some (⟨negative, whole, fraction, exponent⟩, rest)

/-! ### Strings -/

/-- The value of a hexadecimal digit of either case. -/
def hexValue? (c : Char) : Option Nat :=
  if '0' ≤ c ∧ c ≤ '9' then some (c.toNat - 48)
  else if 'a' ≤ c ∧ c ≤ 'f' then some (c.toNat - 87)
  else if 'A' ≤ c ∧ c ≤ 'F' then some (c.toNat - 55)
  else none

/-- The value of four hexadecimal digits. -/
def hexWord? (a b c d : Char) : Option Nat := do
  let a ← hexValue? a
  let b ← hexValue? b
  let c ← hexValue? c
  let d ← hexValue? d
  some (a * 4096 + b * 256 + c * 16 + d)

/-- What a one-letter escape stands for. -/
def escape? (c : Char) : Option Char :=
  match c with
  | '"' => some '"'
  | '\\' => some '\\'
  | '/' => some '/'
  | 'b' => some '\x08'
  | 'f' => some '\x0c'
  | 'n' => some '\n'
  | 'r' => some '\r'
  | 't' => some '\t'
  | _ => none

/-- Whether a word is the first half of a surrogate pair. -/
def isHighSurrogate (w : Nat) : Bool := 0xd800 ≤ w ∧ w < 0xdc00

/-- Whether a word is the second half of a surrogate pair. -/
def isLowSurrogate (w : Nat) : Bool := 0xdc00 ≤ w ∧ w < 0xe000

/-- The code point of a surrogate pair. -/
def surrogatePair (high low : Nat) : Nat := 0x10000 + (high - 0xd800) * 0x400 + (low - 0xdc00)

/-- A piece of the inside of a string literal: a character, or half of a surrogate pair. -/
inductive Unit where
  | char (c : Char)
  | half (word : Nat)
deriving DecidableEq, Repr

/-- What a single escaped word stands for. -/
def Unit.ofWord (w : Nat) : Unit :=
  if isHighSurrogate w ∨ isLowSurrogate w then .half w else .char (Char.ofNat w)

/-- Reads the rest of a string literal, closing quote included.  The units read so far come last
first. -/
def scanUnits (before : List Unit) : List Char → Option (List Unit × List Char)
  | [] => none
  | '"' :: rest => some (before, rest)
  | '\\' :: 'u' :: a :: b :: c :: d :: rest =>
    match hexWord? a b c d with
    | none => none
    | some w => scanUnits (.ofWord w :: before) rest
  | '\\' :: c :: rest =>
    match escape? c with
    | none => none
    | some c => scanUnits (.char c :: before) rest
  | c :: rest => if c.toNat < 32 ∨ c = '\\' then none else scanUnits (.char c :: before) rest

/-- Joins surrogate pairs in units that come last first, in front of the characters that follow.
Nothing if a half is left alone. -/
def joinUnits (after : List Char) : List Unit → Option (List Char)
  | [] => some after
  | .char c :: before => joinUnits (c :: after) before
  | .half low :: .half high :: before =>
    if isLowSurrogate low ∧ isHighSurrogate high then
      joinUnits (Char.ofNat (surrogatePair high low) :: after) before
    else none
  | .half _ :: _ => none

/-- The text of a string literal. -/
def textOfUnits? (units : List Unit) : Option String := (joinUnits [] units).map String.ofList

/-! ### Tokens -/

/-- Reads one token from text that does not start with white space. -/
def scan : List Char → Option (Token × List Char)
  | '[' :: rest => some (openArray, rest)
  | ']' :: rest => some (closeArray, rest)
  | '\x7b' :: rest => some (openObject, rest)
  | '\x7d' :: rest => some (closeObject, rest)
  | ',' :: rest => some (comma, rest)
  | ':' :: rest => some (colon, rest)
  | 'n' :: 'u' :: 'l' :: 'l' :: rest => some (null, rest)
  | 't' :: 'r' :: 'u' :: 'e' :: rest => some (bool true, rest)
  | 'f' :: 'a' :: 'l' :: 's' :: 'e' :: rest => some (bool false, rest)
  | '"' :: rest => (scanUnits [] rest).map fun (units, rest) => (str (textOfUnits? units), rest)
  | cs => (scanNumeral cs).map fun (n, rest) => (num n.number?, rest)

theorem length_digits (cs : List Char) :
    (digits cs).1.length + (digits cs).2.length = cs.length := by
  have h : (digits cs).1 ++ (digits cs).2 = cs := by simp [digits]
  simpa using congrArg List.length h

theorem length_of_scanFraction {cs ds rest : List Char} (h : scanFraction cs = some (ds, rest)) :
    rest.length ≤ cs.length := by
  unfold scanFraction at h
  split at h
  · next r =>
    have := length_digits r
    split at h
    · simp at h
    · next heq => simp_all; omega
  · simp_all

theorem length_scanSign (cs : List Char) : (scanSign cs).2.length ≤ cs.length := by
  unfold scanSign; split <;> simp

theorem length_scanMinus (cs : List Char) : (scanMinus cs).2.length ≤ cs.length := by
  unfold scanMinus; split <;> simp

theorem length_of_scanPower {cs rest : List Char} {e : Int} (h : scanPower cs = some (e, rest)) :
    rest.length ≤ cs.length := by
  have hs := length_scanSign cs
  have hd := length_digits (scanSign cs).2
  simp only [scanPower] at h
  split at h
  · simp at h
  · next heq => simp_all; omega

theorem length_of_scanExponent {cs rest : List Char} {e : Option Int}
    (h : scanExponent cs = some (e, rest)) : rest.length ≤ cs.length := by
  unfold scanExponent at h
  split at h
  · obtain ⟨⟨e', r⟩, hp, heq⟩ := Option.map_eq_some_iff.1 h
    have := length_of_scanPower hp
    simp_all; omega
  · obtain ⟨⟨e', r⟩, hp, heq⟩ := Option.map_eq_some_iff.1 h
    have := length_of_scanPower hp
    simp_all; omega
  · simp_all

theorem length_of_scanNumeral {cs rest : List Char} {n : Numeral}
    (h : scanNumeral cs = some (n, rest)) : rest.length < cs.length := by
  have hm := length_scanMinus cs
  have hd := length_digits (scanMinus cs).2
  simp only [scanNumeral] at h
  split at h
  · simp at h
  · next hw =>
    simp only [Option.bind_eq_bind, Option.bind_eq_some_iff, Option.some.injEq,
      Prod.mk.injEq] at h
    obtain ⟨⟨f, r1⟩, hf, ⟨e, r2⟩, he, _, rfl⟩ := h
    have h1 := length_of_scanFraction hf
    have h2 := length_of_scanExponent he
    have h3 : 0 < (digits (scanMinus cs).2).1.length := by
      rw [List.length_pos_iff]; intro hnil; exact hw (Or.inl hnil)
    simp only at h1 h2 ⊢
    omega

theorem length_of_scanUnits {before units : List Unit} {cs rest : List Char}
    (h : scanUnits before cs = some (units, rest)) : rest.length < cs.length := by
  fun_induction scanUnits before cs <;> simp_all <;> omega

/-- A token takes at least one character. -/
theorem length_of_scan {cs rest : List Char} {t : Token} (h : scan cs = some (t, rest)) :
    rest.length < cs.length := by
  unfold scan at h
  split at h
  case h_10 r =>
    obtain ⟨⟨u, r'⟩, hu, heq⟩ := Option.map_eq_some_iff.1 h
    have := length_of_scanUnits hu
    simp_all; omega
  case h_11 =>
    obtain ⟨⟨n, r'⟩, hn, heq⟩ := Option.map_eq_some_iff.1 h
    have := length_of_scanNumeral hn
    simp_all
  all_goals simp_all <;> omega

theorem length_skipSpace (cs : List Char) : (cs.dropWhile isSpace).length ≤ cs.length :=
  (List.dropWhile_suffix _).length_le

/-- Reads the tokens of a text behind those read so far, which come last first. -/
def scanAll (before : List Token) (cs : List Char) : List Token :=
  match _hs : cs.dropWhile isSpace with
  | [] => before.reverse
  | c :: rest =>
    match _ht : scan (c :: rest) with
    | none => (fault :: before).reverse
    | some (t, rest) => scanAll (t :: before) rest
termination_by cs.length
decreasing_by
  have h1 := length_of_scan _ht
  have h2 := length_skipSpace cs
  rw [_hs] at h2
  omega

/-- The tokens of a text, up to the first place where none can be read. -/
def ofText (s : String) : List Token := scanAll [] s.toList

end Token

end Chatflow.Json
