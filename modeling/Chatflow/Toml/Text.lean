/-
# TOML text: blanks, keys and strings

A string stands in double quotes, with escapes, or in single quotes, where every character means
itself.  Either kind of quote three times encloses a string of several lines, which may hold one or
two of its quotes in a row, also right before its end, and whose first line break is left out if it
comes first.
-/
import Chatflow.Json.Token

namespace Chatflow.Toml

/-! ### Blanks and comments -/

/-- A blank within a line. -/
def isBlank (c : Char) : Bool := c = ' ' ∨ c = '\t'

/-- A character that may stand in comments and in strings of one line. -/
def isPrintable (c : Char) : Bool := c = '\t' ∨ (32 ≤ c.toNat ∧ c.toNat ≠ 127)

/-- Skips blanks within a line. -/
def skipBlanks (cs : List Char) : List Char := cs.dropWhile isBlank

mutual

/-- Skips blanks, line breaks and comments. -/
def skipVoid : List Char → List Char
  | ' ' :: rest => skipVoid rest
  | '\t' :: rest => skipVoid rest
  | '\n' :: rest => skipVoid rest
  | '\r' :: '\n' :: rest => skipVoid rest
  | '#' :: rest => skipComment rest
  | cs => cs

/-- Skips the rest of a comment and all that `skipVoid` skips behind it. -/
def skipComment : List Char → List Char
  | '\n' :: rest => skipVoid rest
  | '\r' :: '\n' :: rest => skipVoid rest
  | c :: rest => if isPrintable c then skipComment rest else c :: rest
  | [] => []

end

/-- Reads the end of a line behind a statement, or the end of the text. -/
def endOfLine? (cs : List Char) : Option (List Char) :=
  let cs := match skipBlanks cs with
    | '#' :: rest => rest.dropWhile isPrintable
    | cs => cs
  match cs with
  | [] => some []
  | '\n' :: rest => some rest
  | '\r' :: '\n' :: rest => some rest
  | _ => none

/-! ### Strings -/

/-- The character of a code, unless the code is that of half of a surrogate pair or too large. -/
def charOf? (code : Nat) : Option Char :=
  if code < 0xd800 ∨ (0xe000 ≤ code ∧ code < 0x110000) then some (Char.ofNat code) else none

/-- The character of a code in hexadecimal digits. -/
def hexChar? (digits : List Char) : Option Char := do
  let ds ← digits.mapM Json.Token.hexValue?
  charOf? (ds.foldl (fun n d => n * 16 + d) 0)

/-- What a one-letter escape stands for. -/
def escape? (c : Char) : Option Char :=
  match c with
  | 'b' => some '\x08'
  | 't' => some '\t'
  | 'n' => some '\n'
  | 'f' => some '\x0c'
  | 'r' => some '\r'
  | 'e' => some '\x1b'
  | '"' => some '"'
  | '\\' => some '\\'
  | _ => none

/-- Reads an escape behind its backslash. -/
def scanEscape : List Char → Option (Char × List Char)
  | 'x' :: a :: b :: rest => (hexChar? [a, b]).map (·, rest)
  | 'u' :: a :: b :: c :: d :: rest => (hexChar? [a, b, c, d]).map (·, rest)
  | 'U' :: a :: b :: c :: d :: e :: f :: g :: h :: rest =>
    (hexChar? [a, b, c, d, e, f, g, h]).map (·, rest)
  | c :: rest => (escape? c).map (·, rest)
  | [] => none

theorem length_of_scanEscape {cs rest : List Char} {c : Char}
    (h : scanEscape cs = some (c, rest)) : rest.length < cs.length := by
  unfold scanEscape at h
  split at h
  · obtain ⟨_, _, heq⟩ := Option.map_eq_some_iff.1 h; simp at heq; simp [← heq.2]; omega
  · obtain ⟨_, _, heq⟩ := Option.map_eq_some_iff.1 h; simp at heq; simp [← heq.2]; omega
  · obtain ⟨_, _, heq⟩ := Option.map_eq_some_iff.1 h; simp at heq; simp [← heq.2]; omega
  · obtain ⟨_, _, heq⟩ := Option.map_eq_some_iff.1 h; simp at heq; simp [← heq.2]
  · simp at h

/-- Reads the rest of a string in double quotes behind what was read of it, last first. -/
def basicString (before : List Char) (cs : List Char) : Option (String × List Char) :=
  match cs with
  | [] => none
  | '"' :: rest => some (String.ofList before.reverse, rest)
  | '\\' :: rest =>
    match _h : scanEscape rest with
    | none => none
    | some (c, rest) => basicString (c :: before) rest
  | c :: rest => if isPrintable c then basicString (c :: before) rest else none
termination_by cs.length
decreasing_by
  · have := length_of_scanEscape _h; simp; omega
  · simp

/-- Reads the rest of a string in single quotes. -/
def literalString (cs : List Char) : Option (String × List Char) :=
  let inside := cs.takeWhile fun c => c ≠ '\'' ∧ isPrintable c
  match cs.drop inside.length with
  | '\'' :: rest => some (String.ofList inside, rest)
  | _ => none

/-- Skips blanks and line breaks. -/
def skipWhite : List Char → List Char
  | ' ' :: rest => skipWhite rest
  | '\t' :: rest => skipWhite rest
  | '\n' :: rest => skipWhite rest
  | '\r' :: '\n' :: rest => skipWhite rest
  | cs => cs

theorem length_skipWhite (cs : List Char) : (skipWhite cs).length ≤ cs.length := by
  fun_induction skipWhite cs <;> simp <;> omega

/-- Whether a line ends here, blanks apart. -/
def startsLineEnd (cs : List Char) : Bool :=
  match skipBlanks cs with
  | '\n' :: _ => true
  | '\r' :: '\n' :: _ => true
  | _ => false

/-- Reads the rest of a string in three double quotes behind what was read of it, last first.  A
backslash at the end of a line hides the line break and all blanks behind it. -/
def basicLines (before : List Char) (cs : List Char) : Option (String × List Char) :=
  match cs with
  | [] => none
  | '"' :: '"' :: '"' :: '"' :: '"' :: rest =>
    some (String.ofList ('"' :: '"' :: before).reverse, rest)
  | '"' :: '"' :: '"' :: '"' :: rest => some (String.ofList ('"' :: before).reverse, rest)
  | '"' :: '"' :: '"' :: rest => some (String.ofList before.reverse, rest)
  | '\\' :: rest =>
    if startsLineEnd rest then basicLines before (skipWhite rest)
    else match _h : scanEscape rest with
      | none => none
      | some (c, rest) => basicLines (c :: before) rest
  | '\r' :: '\n' :: rest => basicLines ('\n' :: '\r' :: before) rest
  | '\n' :: rest => basicLines ('\n' :: before) rest
  | c :: rest => if isPrintable c then basicLines (c :: before) rest else none
termination_by cs.length
decreasing_by
  · have := length_skipWhite rest; simp; omega
  · have := length_of_scanEscape _h; simp; omega
  all_goals simp only [List.length_cons]; omega

/-- Reads the rest of a string in three single quotes behind what was read of it, last first. -/
def literalLines (before : List Char) : List Char → Option (String × List Char)
  | [] => none
  | '\'' :: '\'' :: '\'' :: '\'' :: '\'' :: rest =>
    some (String.ofList ('\'' :: '\'' :: before).reverse, rest)
  | '\'' :: '\'' :: '\'' :: '\'' :: rest => some (String.ofList ('\'' :: before).reverse, rest)
  | '\'' :: '\'' :: '\'' :: rest => some (String.ofList before.reverse, rest)
  | '\r' :: '\n' :: rest => literalLines ('\n' :: '\r' :: before) rest
  | '\n' :: rest => literalLines ('\n' :: before) rest
  | c :: rest => if isPrintable c then literalLines (c :: before) rest else none

/-- Leaves out a line break that comes first. -/
def skipLineBreak : List Char → List Char
  | '\n' :: rest => rest
  | '\r' :: '\n' :: rest => rest
  | cs => cs

/-- Reads a string; nothing if there is none here. -/
def scanString : List Char → Option (String × List Char)
  | '"' :: '"' :: '"' :: rest => basicLines [] (skipLineBreak rest)
  | '"' :: rest => basicString [] rest
  | '\'' :: '\'' :: '\'' :: rest => literalLines [] (skipLineBreak rest)
  | '\'' :: rest => literalString rest
  | _ => none

/-! ### Keys -/

/-- A character of keys without quotes. -/
def isKeyChar (c : Char) : Bool := c.isAlphanum ∨ c = '_' ∨ c = '-'

/-- Reads a key that is not dotted. -/
def simpleKey? : List Char → Option (String × List Char)
  | '"' :: rest => basicString [] rest
  | '\'' :: rest => literalString rest
  | cs =>
    match cs.takeWhile isKeyChar with
    | [] => none
    | key => some (String.ofList key, cs.dropWhile isKeyChar)

/-- Reads the rest of a key that may be dotted, behind the tables it leads through so far, last
first: all these tables and its last part.  At most `parts` parts are read. -/
def key? (parts : Nat) (before : List String) (cs : List Char) :
    Option ((List String × String) × List Char) :=
  match parts with
  | 0 => none
  | parts + 1 => do
    let (key, rest) ← simpleKey? (skipBlanks cs)
    match skipBlanks rest with
    | '.' :: rest => key? parts (key :: before) rest
    | rest => some ((before.reverse, key), rest)

end Chatflow.Toml
