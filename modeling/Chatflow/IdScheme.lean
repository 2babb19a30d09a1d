/-
# Step ids

Every step of a compiled script gets a fresh id.  A scheme says how ids are made: by counting, or by
splitting a seed, so that the same seed always gives the same ids.
-/
import Chatflow.Json.Decode

namespace Chatflow

/-- A state from which ids can be drawn one after the other. -/
class IdGenerator (γ : Type) where
  /-- The next id and the state after it. -/
  next : γ → String × γ

/-- How step ids are made. -/
inductive IdScheme where
  /-- A stem and a number that counts up. -/
  | sequential (stem : String) (start : UInt64)
  /-- Thirteen digits that look random. -/
  | seeded (seed : UInt64)
deriving DecidableEq, Repr

namespace IdScheme

/-- The stem of ids where none is given, and of all seeded ids. -/
def defaultStem : String := "id_"

/-- The scheme in use where none is given. -/
def standard : IdScheme := sequential defaultStem 1

instance : Inhabited IdScheme := ⟨standard⟩

/-- The scheme as JSON. -/
def toJson : IdScheme → Json
  | sequential stem start =>
    .obj [("scheme", .str "sequential"), ("prefix", .str stem), ("start", .ofNat start.toNat)]
  | seeded seed => .obj [("scheme", .str "seeded"), ("seed", .ofNat seed.toNat)]

/-! ### Drawing ids -/

/-- The increment of the seeded states, an odd number near `2 ^ 64` over the golden ratio. -/
def gamma : UInt64 := 0x9E3779B97F4A7C15

/-- Scrambles a word: two rounds of shifting, adding bitwise and multiplying, and a last shift. -/
def scramble (z : UInt64) : UInt64 :=
  let z := (z ^^^ (z >>> 30)) * 0xBF58476D1CE4E5B9
  let z := (z ^^^ (z >>> 27)) * 0x94D049BB133111EB
  z ^^^ (z >>> 31)

/-- The digits of base 36. -/
def base36 : List Char := "0123456789abcdefghijklmnopqrstuvwxyz".toList

/-- The digit of a number below 36. -/
def base36Digit (n : Nat) : Char := base36.getD n '0'

/-- The last `count` digits of a number in base 36. -/
def base36Digits : Nat → Nat → List Char
  | 0, _ => []
  | count + 1, n => base36Digits count (n / 36) ++ [base36Digit (n % 36)]

/-- The id made from a scrambled word; thirteen digits hold any word. -/
def seededId (word : UInt64) : String :=
  defaultStem ++ String.ofList (base36Digits 13 word.toNat)

/-- The state of a scheme's generator. -/
inductive Source where
  /-- The number of the next id. -/
  | counting (stem : String) (next : UInt64)
  /-- The state before the next id. -/
  | splitting (state : UInt64)
deriving DecidableEq, Repr

/-- The next id of a scheme.  Counting starts again at zero behind the largest word. -/
def Source.next : Source → String × Source
  | counting stem n => (stem ++ toString n.toNat, counting stem (n + 1))
  | splitting state =>
    let state := state + gamma
    (seededId (scramble state), splitting state)

instance : IdGenerator Source := ⟨Source.next⟩

/-- A fresh generator of a scheme. -/
def source : IdScheme → Source
  | sequential stem start => .counting stem start
  | seeded seed => .splitting seed

/-! ### Reading a scheme -/

/-- Decodes a natural number below `limit`, written as an integer. -/
def decodeBelow (limit : Nat) : Json.Decoder Nat := fun room d =>
  match Json.Decoder.number room d with
  | .ok (.int n) => if 0 ≤ n ∧ n < limit then .ok n.toNat else .error .mismatched
  | .ok (.double _) => .error .mismatched
  | .error e => .error e

/-- Decodes a 64-bit word, written as an integer. -/
def decodeWord : Json.Decoder UInt64 := fun room d =>
  (decodeBelow UInt64.size room d).map Nat.toUInt64

/-- The parts of a sequential scheme while it is decoded. -/
structure SequentialParts where
  stem : Option String := none
  start : Option UInt64 := none

/-- The fields of a sequential scheme. -/
def sequentialFields : List (Json.Decoder.Field SequentialParts) :=
  [⟨"prefix", (·.stem.isSome), fun room d parts =>
      (Json.Decoder.string room d).map fun stem => { parts with stem := some stem }⟩,
   ⟨"start", (·.start.isSome), fun room d parts =>
      (decodeWord room d).map fun start => { parts with start := some start }⟩]

/-- Decodes the settings of a sequential scheme, both of which may be missing. -/
def decodeSequential : Json.Decoder IdScheme :=
  Json.Decoder.record sequentialFields {} fun parts =>
    some (sequential (parts.stem.getD defaultStem) (parts.start.getD 1))

/-- The fields of a seeded scheme. -/
def seededFields : List (Json.Decoder.Field (Option UInt64)) :=
  [⟨"seed", (·.isSome), fun room d _ => (decodeWord room d).map some⟩]

/-- Decodes the settings of a seeded scheme, which may be missing. -/
def decodeSeeded : Json.Decoder IdScheme :=
  Json.Decoder.record seededFields none fun seed => some (seeded (seed.getD 0))

/-- Decodes the settings of a scheme by its name. -/
def decodeNamed (name : String) : Json.Decoder IdScheme := fun room d =>
  if name = "sequential" then decodeSequential room d
  else if name = "seeded" then decodeSeeded room d
  else .error .mismatched

/-- The key of the scheme's name. -/
def nameKey : String := "scheme"

/-- Decodes a scheme: an object whose member `scheme` names it, or an array that starts with the
name.  The settings are decoded when the name is known, wherever it stands. -/
def decode : Json.Decoder IdScheme := fun room d =>
  match d with
  | .obj members closed =>
    match members.find? (·.1 == some nameKey) with
    | some (_, .str (some name)) =>
      decodeNamed name room (.obj (members.filter (·.1 != some nameKey)) closed)
    | _ => .error .mismatched
  | .arr (.str (some name) :: rest) closed => decodeNamed name room (.arr rest closed)
  | d => d.refuse

end IdScheme

end Chatflow
