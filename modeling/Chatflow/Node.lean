/-
# Nodes

The elements of the editor's graph: nodes with a type, open data and a place on the canvas, and the
edges between them.  A node type is written by its canonical name; the tags of an older editor are
still read.
-/
import Chatflow.Json.Decode

namespace Chatflow

/-- Names a node.  Node ids are ordered by code points, which is the order of their bytes. -/
abbrev NodeId := String

/-- Names an edge. -/
abbrev EdgeId := String

/-- What a node does in the script. -/
inductive NodeType where
  | document
  | template
  | interactive
  | flow
  | webhook
  /-- A type that is not known here. -/
  | unknown
deriving DecidableEq, Repr, Inhabited

namespace NodeType

/-- All node types, in the order of tables. -/
def all : List NodeType := [document, template, interactive, flow, webhook, unknown]

/-- The canonical name. -/
def name : NodeType → String
  | document => "Document"
  | template => "Template"
  | interactive => "Interactive"
  | flow => "Flow"
  | webhook => "Webhook"
  | unknown => "Unknown"

/-- The tag of an older editor, if it had one. -/
def alias? : NodeType → Option String
  | document => some "customNode1"
  | template => some "customNode2"
  | interactive => some "customNode3"
  | flow => some "customNode4"
  | webhook => some "customNode5"
  | unknown => none

/-- The type that a tag stands for; `unknown` for any tag that is neither a name nor an alias. -/
def ofTag (tag : String) : NodeType :=
  (all.find? fun t => t.name == tag || t.alias? == some tag).getD unknown

/-- The place of a type in `all`. -/
def index (t : NodeType) : Nat := all.idxOf t

@[simp] theorem ofTag_name (t : NodeType) : ofTag t.name = t := by cases t <;> rfl

theorem ofTag_alias {t : NodeType} {s : String} (h : t.alias? = some s) : ofTag s = t := by
  cases t <;> simp [alias?] at h <;> subst h <;> rfl

theorem mem_all (t : NodeType) : t ∈ all := by cases t <;> decide

end NodeType

/-! ### Data -/

/-- The open data of a node: members in the order in which they were written. -/
structure NodeData where
  /-- The members. -/
  members : Json.Members
  /-- No object in the data repeats a key. -/
  distinct : (Json.obj members).KeysDistinct

namespace NodeData

@[ext] theorem ext {a b : NodeData} (h : a.members = b.members) : a = b := by
  cases a; cases b; cases h; rfl

instance : DecidableEq NodeData := fun a b =>
  if h : a.members = b.members then isTrue (ext h) else isFalse fun e => h (e ▸ rfl)

/-- No data. -/
def empty : NodeData := ⟨[], Json.keysDistinct_obj_nil⟩

instance : Inhabited NodeData := ⟨empty⟩

/-- Sets a member of the data. -/
def insert (key : String) (value : Json) (hv : value.KeysDistinct) (data : NodeData) : NodeData :=
  ⟨data.members.insert key value, Json.keysDistinct_insert hv data.distinct⟩

/-- Data with nothing but a title. -/
def titled (title : String) : NodeData :=
  empty.insert "title" (.str title) (by simp [Json.KeysDistinct])

/-- A member that is a string. -/
def string? (data : NodeData) (key : String) : Option String :=
  (data.members.get? key).bind Json.string?

/-- What a node is called: its string `title`, else its string `label`. -/
def label? (data : NodeData) : Option String := (data.string? "title").or (data.string? "label")

/-- The address of a document node. -/
def documentUrl? (data : NodeData) : Option String := data.string? "document_url"

/-- The data as a JSON object. -/
def toJson (data : NodeData) : Json := .obj data.members

/-- Decodes data from an object. -/
def decode : Json.Decoder NodeData := fun room d =>
  match h : Json.Decoder.members room d with
  | .ok members => .ok ⟨members, Json.Decoder.keysDistinct_of_members h⟩
  | .error e => .error e

end NodeData

/-! ### Places -/

/-- A place on the canvas. -/
structure Position where
  /-- Distance to the right. -/
  x : Int := 0
  /-- Distance downwards. -/
  y : Int := 0
deriving DecidableEq, Repr, Inhabited

namespace Position

/-- The least coordinate. -/
def minCoordinate : Int := Double.minInt64

/-- The greatest coordinate. -/
def maxCoordinate : Int := Double.maxInt64

/-- A coordinate moved into range. -/
def clamp (n : Int) : Int := max minCoordinate (min maxCoordinate n)

/-- A place moved by a distance, which stops at the edge of the canvas. -/
def offset (p : Position) (dx dy : Int) : Position := ⟨clamp (p.x + dx), clamp (p.y + dy)⟩

/-- The place as JSON. -/
def toJson (p : Position) : Json := .obj [("x", .num (.int p.x)), ("y", .num (.int p.y))]

/-- Decodes a coordinate: any number, as a double, rounded to the nearest integer in range. -/
def decodeCoordinate : Json.Decoder Int := fun room d =>
  (Json.Decoder.number room d).map fun
    | .int n => (Double.ofInt n).toInt64
    | .double x => x.toInt64

/-- The parts of a place while it is decoded. -/
structure Parts where
  x : Option Int := none
  y : Option Int := none

/-- The fields of a place. -/
def fields : List (Json.Decoder.Field Parts) :=
  [⟨"x", (·.x.isSome), fun room d parts =>
      (decodeCoordinate room d).map fun x => { parts with x := some x }⟩,
   ⟨"y", (·.y.isSome), fun room d parts =>
      (decodeCoordinate room d).map fun y => { parts with y := some y }⟩]

/-- Decodes a place. -/
def decode : Json.Decoder Position :=
  Json.Decoder.record fields {} fun parts => do return ⟨← parts.x, ← parts.y⟩

end Position

/-! ### Nodes and edges -/

/-- A node of the graph. -/
structure Node where
  /-- Its name. -/
  id : NodeId
  /-- What it does. -/
  type : NodeType
  /-- Its open data. -/
  data : NodeData := .empty
  /-- Its place on the canvas. -/
  position : Position := {}
deriving DecidableEq, Inhabited

namespace Node

/-- What the node is called. -/
def label? (n : Node) : Option String := n.data.label?

/-- The node as JSON. -/
def toJson (n : Node) : Json :=
  .obj [("id", .str n.id), ("type", .str n.type.name), ("data", n.data.toJson),
    ("position", n.position.toJson)]

/-- The parts of a node while it is decoded. -/
structure Parts where
  id : Option NodeId := none
  type : Option NodeType := none
  data : Option NodeData := none
  position : Option Position := none

/-- Decodes a node type from its tag. -/
def decodeType : Json.Decoder NodeType := fun room d =>
  (Json.Decoder.string room d).map NodeType.ofTag

/-- The fields of a node. -/
def fields : List (Json.Decoder.Field Parts) :=
  [⟨"id", (·.id.isSome), fun room d parts =>
      (Json.Decoder.string room d).map fun id => { parts with id := some id }⟩,
   ⟨"type", (·.type.isSome), fun room d parts =>
      (decodeType room d).map fun type => { parts with type := some type }⟩,
   ⟨"data", (·.data.isSome), fun room d parts =>
      (NodeData.decode room d).map fun data => { parts with data := some data }⟩,
   ⟨"position", (·.position.isSome), fun room d parts =>
      (Position.decode room d).map fun position => { parts with position := some position }⟩]

/-- Decodes a node; data and place may be missing. -/
def decode : Json.Decoder Node :=
  Json.Decoder.record fields {} fun parts => do
    return ⟨← parts.id, ← parts.type, parts.data.getD .empty, parts.position.getD {}⟩

end Node

/-- A transition from one node to another. -/
structure Edge where
  /-- Its name. -/
  id : EdgeId
  /-- The node it leaves. -/
  source : NodeId
  /-- The node it enters. -/
  target : NodeId
deriving DecidableEq, Repr, Inhabited

namespace Edge

/-- Whether a node is an end of the edge. -/
def touches (e : Edge) (id : NodeId) : Bool := e.source == id || e.target == id

/-- The edge as JSON.  Every edge is written with the same type. -/
def toJson (e : Edge) : Json :=
  .obj [("id", .str e.id), ("source", .str e.source), ("target", .str e.target),
    ("type", .str "custom")]

/-- The parts of an edge while it is decoded. -/
structure Parts where
  id : Option EdgeId := none
  source : Option NodeId := none
  target : Option NodeId := none
  /-- Whether a type was given. -/
  typed : Bool := false

/-- The fields of an edge.  A type may be given as any string or null and is not kept. -/
def fields : List (Json.Decoder.Field Parts) :=
  [⟨"id", (·.id.isSome), fun room d parts =>
      (Json.Decoder.string room d).map fun id => { parts with id := some id }⟩,
   ⟨"source", (·.source.isSome), fun room d parts =>
      (Json.Decoder.string room d).map fun source => { parts with source := some source }⟩,
   ⟨"target", (·.target.isSome), fun room d parts =>
      (Json.Decoder.string room d).map fun target => { parts with target := some target }⟩,
   ⟨"type", (·.typed), fun room d parts =>
      (Json.Decoder.orNull Json.Decoder.string room d).map fun _ => { parts with typed := true }⟩]

/-- Decodes an edge. -/
def decode : Json.Decoder Edge :=
  Json.Decoder.record fields {} fun parts => do
    return ⟨← parts.id, ← parts.source, ← parts.target⟩

end Edge

end Chatflow
