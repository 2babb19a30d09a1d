/-
# Routes

The paths that the editing server knows.  A path is cut at its slashes before the escapes in it are
decoded, so that an id may hold a slash.  A percent sign that is not followed by two hexadecimal
digits stands for itself.
-/
import Chatflow.Json.Token

namespace Chatflow.Http

/-! ### Escapes -/

/-- The bytes that a part of a path stands for, behind those decoded so far. -/
def unescapeFrom (before : ByteArray) : List Char → ByteArray
  | '%' :: a :: b :: rest =>
    match Json.Token.hexValue? a, Json.Token.hexValue? b with
    | some high, some low => unescapeFrom (before.push (high * 16 + low).toUInt8) rest
    | _, _ => unescapeFrom (before.push 37) (a :: b :: rest)
  | c :: rest => unescapeFrom (before ++ (String.singleton c).toUTF8) rest
  | [] => before

/-- The text that a part of a path stands for; nothing if its bytes are not UTF-8. -/
def unescape? (part : List Char) : Option String :=
  String.fromUTF8? (unescapeFrom ByteArray.empty part)

/-! ### Paths -/

/-- A path that the server knows, ids still escaped. -/
inductive Route where
  | health
  | graph
  | nodes
  | node (id : List Char)
  | nodeCopy (id : List Char)
  | nodeData (id : List Char)
  | nodePosition (id : List Char)
  | edges
  | edge (id : List Char)
  | document
  | diagnostics
  | root
deriving DecidableEq, Repr

/-- The route of the parts of a path.  Ids are not empty. -/
def Route.ofParts? (parts : List (List Char)) : Option Route :=
  match parts.map String.ofList, parts with
  | ["health"], _ => some health
  | ["graph"], _ => some graph
  | ["nodes"], _ => some nodes
  | ["nodes", _], [_, id] => if id = [] then none else some (node id)
  | ["nodes", _, "copy"], [_, id, _] => if id = [] then none else some (nodeCopy id)
  | ["nodes", _, "data"], [_, id, _] => if id = [] then none else some (nodeData id)
  | ["nodes", _, "position"], [_, id, _] => if id = [] then none else some (nodePosition id)
  | ["edges"], _ => some edges
  | ["edges", _], [_, id] => if id = [] then none else some (edge id)
  | ["document"], _ => some document
  | ["diagnostics"], _ => some diagnostics
  | ["root"], _ => some root
  | _, _ => none

/-- The route of a target, its query and its fragment left out. -/
def Route.ofTarget? (target : String) : Option Route :=
  match (target.toList.takeWhile fun c => c ≠ '?' ∧ c ≠ '#').splitOn '/' with
  | [] :: parts => ofParts? parts
  | _ => none

end Chatflow.Http
