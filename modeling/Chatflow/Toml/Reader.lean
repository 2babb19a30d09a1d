/-
# Reading TOML

Statements stand on lines of their own; values may go over several lines inside brackets and braces.
Arrays and inline tables nest at most eighty deep.
-/
import Chatflow.Toml.Scalar
import Chatflow.Toml.Table
import Chatflow.Toml.Text

namespace Chatflow.Toml

/-- How deep arrays and inline tables may nest. -/
def maxNesting : Nat := 80

/-- A character of values that are written without quotes. -/
def isScalarChar (c : Char) : Bool :=
  c.isAlphanum ∨ c = '_' ∨ c = '-' ∨ c = '+' ∨ c = '.' ∨ c = ':'

/-- Splits off a value that is written without quotes.  A date and its time may be separated by a
space. -/
def splitScalar (cs : List Char) : List Char × List Char :=
  let word := cs.takeWhile isScalarChar
  match date? word, cs.dropWhile isScalarChar with
  | some [], ' ' :: c :: rest =>
    if c.isDigit then
      (word ++ ' ' :: (c :: rest).takeWhile isScalarChar, (c :: rest).dropWhile isScalarChar)
    else (word, ' ' :: c :: rest)
  | _, rest => (word, rest)

/-- Reads a value that is written without quotes. -/
def scanScalar (cs : List Char) : Option (Value × List Char) :=
  let (word, rest) := splitScalar cs
  (scalar? word).map (·, rest)

/-! The steps below are counted down.  A value inside an array costs two of them and at least two
characters, so a number above twice the length of the text is enough. -/

mutual

/-- Reads a value at a depth of nesting. -/
def scanValue (steps depth : Nat) (cs : List Char) : Option (Value × List Char) :=
  match steps with
  | 0 => none
  | steps + 1 =>
    match cs with
    | '[' :: rest =>
      if depth < maxNesting then scanItems steps (depth + 1) [] (skipVoid rest) else none
    | '\x7b' :: rest =>
      if depth < maxNesting then scanEntries steps (depth + 1) [] (skipVoid rest) else none
    | '"' :: _ => (scanString cs).map fun (s, rest) => (.string s, rest)
    | '\'' :: _ => (scanString cs).map fun (s, rest) => (.string s, rest)
    | _ => scanScalar cs

/-- Reads the rest of an array behind its items so far, last first. -/
def scanItems (steps depth : Nat) (before : List Value) (cs : List Char) :
    Option (Value × List Char) :=
  match steps with
  | 0 => none
  | steps + 1 =>
    match cs with
    | ']' :: rest => some (.array before.reverse, rest)
    | cs =>
      match scanValue steps depth cs with
      | none => none
      | some (v, rest) =>
        match skipVoid rest with
        | ',' :: rest => scanItems steps depth (v :: before) (skipVoid rest)
        | ']' :: rest => some (.array (v :: before).reverse, rest)
        | _ => none

/-- Reads the rest of an inline table behind its entries so far. -/
def scanEntries (steps depth : Nat) (before : Items) (cs : List Char) :
    Option (Value × List Char) :=
  match steps with
  | 0 => none
  | steps + 1 =>
    match cs with
    | '\x7d' :: rest => some (.table (finishMembers before), rest)
    | cs =>
      match key? steps [] cs with
      | some ((path, key), '=' :: rest) =>
        match scanValue steps depth (skipBlanks rest) with
        | none => none
        | some (v, rest) =>
          match before.add key v path, skipVoid rest with
          | some items, ',' :: rest => scanEntries steps depth items (skipVoid rest)
          | some items, '\x7d' :: rest => some (.table (finishMembers items), rest)
          | _, _ => none
      | _ => none

end

/-- Reads a statement up to the end of its line, in at most `steps` steps for its key and for its
value. -/
def scanStatement (steps : Nat) (cs : List Char) : Option (Statement × List Char) :=
  match cs with
  | '[' :: '[' :: rest =>
    match key? steps [] rest with
    | some ((path, key), ']' :: ']' :: rest) =>
      (endOfLine? rest).map fun rest => (.rowHeader path key, rest)
    | _ => none
  | '[' :: rest =>
    match key? steps [] rest with
    | some ((path, key), ']' :: rest) =>
      (endOfLine? rest).map fun rest => (.header path key, rest)
    | _ => none
  | cs =>
    match key? steps [] cs with
    | some ((path, key), '=' :: rest) =>
      match scanValue steps 0 (skipBlanks rest) with
      | some (v, rest) => (endOfLine? rest).map fun rest => (.entry path key v, rest)
      | none => none
    | _ => none

/-- Reads statements behind those read so far, last first; `lines` counts them down. -/
def scanStatements (steps lines : Nat) (before : List Statement) (cs : List Char) :
    Option (List Statement) :=
  match lines with
  | 0 => none
  | lines + 1 =>
    match skipVoid cs with
    | [] => some before.reverse
    | cs =>
      match scanStatement steps cs with
      | some (statement, rest) => scanStatements steps lines (statement :: before) rest
      | none => none

/-- Leaves out a byte order mark that comes first. -/
def skipMark : List Char → List Char
  | '\uFEFF' :: rest => rest
  | cs => cs

/-- The table that a text describes. -/
def read? (s : String) : Option Value := do
  let cs := skipMark s.toList
  Builder.build (← scanStatements (2 * cs.length + 1) (cs.length + 1) [] cs)

end Chatflow.Toml
