/-
# Documents

A document is the compiled script as the bot runtime reads it: a JSON object whose only member is a
list with the root step, or null where there is none.  A step writes the fields of its layout.
What follows it stands either in the field `next_node` of the step itself or in that of each
button.
-/
import Chatflow.Json.Writer
import Chatflow.Compile.Basic

namespace Chatflow

namespace Branch

/-- The key of a marker. -/
def backReferenceKey : String := "$ref"

/-- What the context of a step is about. -/
def buttonReply : String := "button_reply"

/-- What is written in a slot that a step has not got. -/
def slotOrNull (slots : List Json) (slot : Nat) : Json := slots[slot]?.getD .null

/-- A button, with the continuation in its slot if the step nests continuations. -/
def buttonJson (nests : Bool) (slots : List Json) (button : Button) (slot : Nat) : Json :=
  .obj ([("id", .str button.id), ("title", .str button.title)] ++
    if nests then [(Field.nextNode.key, slotOrNull slots slot)] else [])

/-- The buttons of a step. -/
def contextJson (s : Step) (slots : List Json) : Json :=
  .obj [("type", .str buttonReply),
    (buttonReply, .arr (s.buttons.zipIdx.map fun (button, slot) =>
      buttonJson s.nests slots button slot))]

/-- The value of a field. -/
def fieldJson (s : Step) (slots : List Json) : Field → Json
  | .id | .typeId => .str s.id
  | .botTerminate => .bool s.terminal
  | .type => .str s.type.name
  | .customType => .str NodeType.document.name
  | .documentUrl => Json.ofString? s.documentUrl
  | .text => Json.ofString? s.text
  | .context => contextJson s slots
  | .nextNode => slotOrNull slots 0

/-- A step, from what is written in its slots. -/
def stepJson (s : Step) (slots : List Json) : Json :=
  .obj (s.fields.map fun f => (f.key, fieldJson s slots f))

/-- What is written for a branch. -/
def toJson (b : Branch) : Json :=
  b.fold ⟨.null, fun target => .obj [(backReferenceKey, .str target)], stepJson⟩

@[simp] theorem toJson_empty : toJson .empty = .null := by simp [toJson]

@[simp] theorem toJson_backReference (target : NodeId) :
    toJson (.backReference target) = .obj [(backReferenceKey, .str target)] := by simp [toJson]

@[simp] theorem toJson_step (s : Step) (slots : List Branch) :
    toJson (.step s slots) = stepJson s (slots.map toJson) := by
  simp only [toJson, Tree.fold_step]; rfl

end Branch

/-- A compiled script. -/
structure Document where
  /-- The root step, or nothing. -/
  root : Branch

namespace Document

/-- The key of a document's only member. -/
def envelope : String := "create_bot_node"

/-- Whether the script has no steps. -/
def isEmpty (d : Document) : Bool := d.root.isEmpty

/-- The document as JSON. -/
def toJson (d : Document) : Json := .obj [(envelope, .arr [d.root.toJson])]

/-- The text of a document. -/
def text (d : Document) : String := d.toJson.compact

/-- The text of a document over several lines. -/
def prettyText (d : Document) : String := d.toJson.pretty

end Document

/-- The document of a compiled graph. -/
def Compilation.document (c : Compilation) : Document := ⟨c.root⟩

end Chatflow
