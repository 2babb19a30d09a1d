/-
# Writing JSON text

`Json.compact` writes a value without white space, `Json.pretty` with one member or item on a line,
indented by two spaces for each level.  The two differ only in what stands around the punctuation
of a non-empty container, which is what a `Json.Style` says.

Values can nest as deep as a compiled document does, so the writer keeps the pieces still to be
written in a list of its own and unfolds one level of one value at a time.
-/
import Chatflow.Json.Basic

namespace Chatflow.Json

/-! ### Scalars -/

/-- The digit of a number below sixteen, in lower case. -/
def hexDigit (n : Nat) : Char := Nat.digitChar n

/-- A character as it stands inside a string literal.  Quotes, backslashes and the control
characters below U+0020 are escaped, and nothing else is. -/
def escapeChar (c : Char) : List Char :=
  if c = '"' then ['\\', '"']
  else if c = '\\' then ['\\', '\\']
  else if c = '\x08' then ['\\', 'b']
  else if c = '\t' then ['\\', 't']
  else if c = '\n' then ['\\', 'n']
  else if c = '\x0c' then ['\\', 'f']
  else if c = '\r' then ['\\', 'r']
  else if c.toNat < 32 then
    ['\\', 'u', '0', '0', hexDigit (c.toNat / 16), hexDigit (c.toNat % 16)]
  else [c]

/-- A string literal, quotes included. -/
def quote (s : String) : String :=
  s.foldl (fun acc c => (escapeChar c).foldl String.push acc) "\"" |>.push '"'

/-- The text of a number. -/
def Number.text : Number → String
  | .int n => toString n
  | .double d => d.text

/-! ### Containers -/

/-- The white space that a way of writing puts around punctuation. -/
structure Style where
  /-- What separates punctuation from an item at nesting depth `n`. -/
  lineBreak : Nat → String
  /-- What follows the colon after a key. -/
  afterColon : String

/-- No white space at all. -/
def Style.compact : Style := ⟨fun _ => "", ""⟩

/-- A line for each item, indented by two spaces for each level. -/
def Style.pretty : Style :=
  ⟨fun depth => String.ofList ('\n' :: List.replicate (2 * depth) ' '), " "⟩

mutual

/-- A bound on the number of pieces that a value falls into. -/
def pieceCount : Json → Nat
  | .arr items => 2 + itemsPieceCount items
  | .obj members => 2 + membersPieceCount members
  | _ => 2

/-- The same for the items of an array. -/
def itemsPieceCount : List Json → Nat
  | [] => 0
  | j :: rest => 1 + pieceCount j + itemsPieceCount rest

/-- The same for the members of an object. -/
def membersPieceCount : List (String × Json) → Nat
  | [] => 0
  | (_, j) :: rest => 1 + pieceCount j + membersPieceCount rest

end

/-- Something still to be written. -/
inductive Piece where
  /-- Text to be written as it is. -/
  | text (s : String)
  /-- A value at a nesting depth. -/
  | value (depth : Nat) (j : Json)

namespace Piece

/-- The pieces of items after the first. -/
def moreItems (style : Style) (depth : Nat) : List Json → List Piece
  | [] => []
  | j :: rest =>
    text ("," ++ style.lineBreak depth) :: value depth j :: moreItems style depth rest

/-- The pieces of members after the first. -/
def moreMembers (style : Style) (depth : Nat) : Members → List Piece
  | [] => []
  | (k, j) :: rest =>
    text ("," ++ style.lineBreak depth ++ quote k ++ ":" ++ style.afterColon) ::
      value depth j :: moreMembers style depth rest

/-- One level of a value. -/
def unfold (style : Style) (depth : Nat) : Json → List Piece
  | .null => [text "null"]
  | .bool true => [text "true"]
  | .bool false => [text "false"]
  | .num n => [text n.text]
  | .str s => [text (quote s)]
  | .arr [] => [text "[]"]
  | .arr (j :: rest) =>
    text ("[" ++ style.lineBreak (depth + 1)) :: value (depth + 1) j ::
      (moreItems style (depth + 1) rest ++ [text (style.lineBreak depth ++ "]")])
  | .obj [] => [text "\x7b\x7d"]
  | .obj ((k, j) :: rest) =>
    text ("\x7b" ++ style.lineBreak (depth + 1) ++ quote k ++ ":" ++ style.afterColon) ::
      value (depth + 1) j ::
      (moreMembers style (depth + 1) rest ++ [text (style.lineBreak depth ++ "\x7d")])

/-- A bound on the work that a piece still causes. -/
def weight : Piece → Nat
  | text _ => 1
  | value _ j => j.pieceCount

/-- The bound for a list of pieces. -/
def totalWeight : List Piece → Nat
  | [] => 0
  | p :: ps => p.weight + totalWeight ps

@[simp] theorem totalWeight_nil : totalWeight [] = 0 := rfl

@[simp] theorem totalWeight_cons (p : Piece) (ps : List Piece) :
    totalWeight (p :: ps) = p.weight + totalWeight ps := rfl

@[simp] theorem totalWeight_append (ps qs : List Piece) :
    totalWeight (ps ++ qs) = totalWeight ps + totalWeight qs := by
  induction ps with
  | nil => simp
  | cons p ps ih => simp [ih, Nat.add_assoc]

theorem totalWeight_moreItems (style : Style) (depth : Nat) (items : List Json) :
    totalWeight (moreItems style depth items) = itemsPieceCount items := by
  induction items with
  | nil => rfl
  | cons j rest ih => simp [moreItems, itemsPieceCount, weight, ih]; omega

theorem totalWeight_moreMembers (style : Style) (depth : Nat) (members : Members) :
    totalWeight (moreMembers style depth members) = membersPieceCount members := by
  induction members with
  | nil => rfl
  | cons m rest ih => simp [moreMembers, membersPieceCount, weight, ih]; omega

/-- Unfolding one level of a value leaves less to do. -/
theorem totalWeight_unfold (style : Style) (depth : Nat) (j : Json) :
    totalWeight (unfold style depth j) < j.pieceCount := by
  fun_cases unfold style depth j <;>
    simp [weight, pieceCount, itemsPieceCount, membersPieceCount, totalWeight_moreItems,
      totalWeight_moreMembers] <;> omega

/-- Writes pieces one after the other behind the text written so far. -/
def writeAll (style : Style) (written : String) : List Piece → String
  | [] => written
  | text s :: rest => writeAll style (written ++ s) rest
  | value depth j :: rest => writeAll style written (unfold style depth j ++ rest)
termination_by pieces => totalWeight pieces
decreasing_by
  · simp [weight]
  · have := totalWeight_unfold style depth j
    simp [weight]; omega

end Piece

/-- The text of a value in a style. -/
def write (style : Style) (j : Json) : String := Piece.writeAll style "" [.value 0 j]

/-- The text of a value without white space. -/
def compact (j : Json) : String := j.write .compact

/-- The text of a value over several lines. -/
def pretty (j : Json) : String := j.write .pretty

end Chatflow.Json
