/-
# TOML values

Settings are written in TOML.  `Toml.Value` keeps what settings can be made of; fractions and dates
occur in the language but in no setting, so only their presence is kept.
-/
import Chatflow.Json.Draft

namespace Chatflow.Toml

/-- A value. -/
inductive Value where
  | string (s : String)
  | integer (n : Int)
  /-- A number with fraction or exponent, infinity, or not a number. -/
  | float
  | boolean (b : Bool)
  /-- A date, a time of day, or both. -/
  | moment
  | array (items : List Value)
  | table (members : List (String × Value))
deriving Repr, Inhabited

namespace Value

mutual

/-- The value as a draft, for decoders that do not care where a value comes from. -/
def toDraft : Value → Json.Draft
  | .string s => .str (some s)
  | .integer n => .num (some (.int n))
  | .float => .num (some (.double (.ofNat 0)))
  | .boolean b => .bool b
  | .moment => .obj [(some "moment", .null)] true
  | .array items => .arr (itemsToDraft items) true
  | .table members => .obj (membersToDraft members) true

/-- The items of an array as drafts. -/
def itemsToDraft : List Value → List Json.Draft
  | [] => []
  | v :: rest => toDraft v :: itemsToDraft rest

/-- The members of a table as drafts. -/
def membersToDraft : List (String × Value) → List (Option String × Json.Draft)
  | [] => []
  | (k, v) :: rest => (some k, toDraft v) :: membersToDraft rest

end

/-- The text of a string. -/
def string? : Value → Option String
  | string s => some s
  | _ => none

/-- An integer from zero to below a limit. -/
def below? (limit : Nat) : Value → Option Nat
  | integer n => if 0 ≤ n ∧ n < limit then some n.toNat else none
  | _ => none

/-- The texts of an array of strings. -/
def strings? : Value → Option (List String)
  | array items => items.mapM string?
  | _ => none

/-- The entries of a section: a table without other keys than `keys`, or an array that gives the
entries in the order of `keys`.  The answer looks an entry up by its key. -/
def section? (keys : List String) : Value → Option (String → Option Value)
  | table members =>
    if members.all fun m => keys.contains m.1 then some fun key => members.lookup key else none
  | array items => some fun key => items[keys.idxOf key]?
  | _ => none

end Value

end Chatflow.Toml
