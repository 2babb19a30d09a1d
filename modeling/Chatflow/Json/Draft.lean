/-
# What can be read off a JSON text

A reader of records has to tell two faults apart, text that is not JSON and JSON of the wrong shape,
and which of them it meets first in the text.  So a text is first read into a `Draft`: the
tree of everything up to the first fault.  Where the text stops being JSON the tree has a
`Draft.cut`, and the containers around it are marked as not closed.  Decoders (see
`Chatflow.Json.Decode`) walk the draft in text order and meet the faults in the order of the text.

The reader is a push-down automaton over the tokens, `Reader.feed`; nesting lives in its state, so
it may be arbitrarily deep.
-/
import Chatflow.Json.Token

namespace Chatflow.Json

/-- A tree read off a text, which may have stopped being JSON somewhere. -/
inductive Draft where
  /-- Here the text stops being JSON. -/
  | cut
  | null
  | bool (b : Bool)
  /-- A number; without value if it is too large for a double. -/
  | num (n : Option Number)
  /-- A string; without value if it holds half of a surrogate pair. -/
  | str (s : Option String)
  /-- An array, and whether its closing bracket was read. -/
  | arr (items : List Draft) (closed : Bool)
  /-- An object, and whether its closing brace was read. -/
  | obj (members : List (Option String × Draft)) (closed : Bool)
deriving Repr, Inhabited

/-- A whole text: its draft, and whether nothing but white space comes behind it. -/
structure Reading where
  /-- The tree. -/
  draft : Draft
  /-- Whether the text ends with the value. -/
  ended : Bool

namespace Reader

/-- A container around the place of reading. -/
inductive Nest where
  /-- An array, with the items before this place, last first. -/
  | item (before : List Draft)
  /-- An object, with the members before this place, last first, and the key read here. -/
  | member (before : List (Option String × Draft)) (key : Option String)

/-- The draft of a container whose innermost value is the last thing read in it. -/
def Nest.around (closed : Bool) (d : Draft) : Nest → Draft
  | item before => .arr (d :: before).reverse closed
  | member before key => .obj ((key, d) :: before).reverse closed

/-- What the reader expects next; the containers around that place come innermost first. -/
inductive State where
  /-- A value. -/
  | value (outer : List Nest)
  /-- A value or the end of an array just opened. -/
  | firstItem (outer : List Nest)
  /-- A key or the end of an object just opened. -/
  | firstKey (outer : List Nest)
  /-- A key, after a comma. -/
  | key (before : List (Option String × Draft)) (outer : List Nest)
  /-- The colon after a key. -/
  | colon (before : List (Option String × Draft)) (key : Option String) (outer : List Nest)
  /-- A comma or closing bracket, after a value. -/
  | after (d : Draft) (outer : List Nest)
  /-- Nothing more: the reading has come to its end. -/
  | stopped (r : Reading)

/-- Breaks off: every container around the place stays open. -/
def breakOff (d : Draft) (outer : List Nest) : State :=
  .stopped ⟨outer.foldl (fun d nest => nest.around false d) d, false⟩

/-- Reads a token where a value is expected. -/
def feedValue (outer : List Nest) : Token → State
  | .openArray => .firstItem outer
  | .openObject => .firstKey outer
  | .null => .after .null outer
  | .bool b => .after (.bool b) outer
  | .num n => .after (.num n) outer
  | .str s => .after (.str s) outer
  | _ => breakOff .cut outer

/-- Reads a token behind a value. -/
def feedAfter (d : Draft) : List Nest → Token → State
  | .item before :: outer, .comma => .value (.item (d :: before) :: outer)
  | .item before :: outer, .closeArray => .after (.arr (d :: before).reverse true) outer
  | .member before k :: outer, .comma => .key ((k, d) :: before) outer
  | .member before k :: outer, .closeObject => .after (.obj ((k, d) :: before).reverse true) outer
  | [], _ => .stopped ⟨d, false⟩
  | outer, _ => breakOff d outer

/-- Reads one token. -/
def feed : State → Token → State
  | .value outer, t => feedValue outer t
  | .firstItem outer, .closeArray => .after (.arr [] true) outer
  | .firstItem outer, t => feedValue (.item [] :: outer) t
  | .firstKey outer, .closeObject => .after (.obj [] true) outer
  | .firstKey outer, .str k => .colon [] k outer
  | .firstKey outer, _ => breakOff (.obj [] false) outer
  | .key before outer, .str k => .colon before k outer
  | .key before outer, _ => breakOff (.obj before.reverse false) outer
  | .colon before k outer, .colon => .value (.member before k :: outer)
  | .colon before k outer, _ => breakOff .cut (.member before k :: outer)
  | .after d outer, t => feedAfter d outer t
  | .stopped r, _ => .stopped r

/-- The reading when the tokens are used up. -/
def finish : State → Reading
  | .after d [] => ⟨d, true⟩
  | .stopped r => r
  | s => match feed s .fault with
    | .stopped r => r
    | _ => ⟨.cut, false⟩

end Reader

/-- Reads tokens into a draft. -/
def Reading.ofTokens (tokens : List Token) : Reading :=
  Reader.finish (tokens.foldl Reader.feed (.value []))

/-- Reads a text into a draft. -/
def Reading.ofText (s : String) : Reading := .ofTokens (Token.ofText s)

mutual

/-- The draft that a value is read into. -/
def toDraft : Json → Draft
  | .null => .null
  | .bool b => .bool b
  | .num n => .num (some n)
  | .str s => .str (some s)
  | .arr items => .arr (itemsToDraft items) true
  | .obj members => .obj (membersToDraft members) true

/-- The drafts of the items of an array. -/
def itemsToDraft : List Json → List Draft
  | [] => []
  | j :: rest => toDraft j :: itemsToDraft rest

/-- The drafts of the members of an object. -/
def membersToDraft : List (String × Json) → List (Option String × Draft)
  | [] => []
  | (k, j) :: rest => (some k, toDraft j) :: membersToDraft rest

end

end Chatflow.Json
