/-
# Schemas

What a step of each node type looks like: a schema says how the type is laid out, with which
default texts, and whether the bot ends there.  The layout decides which fields a step writes and
how many slots it has for continuations.  A registry has a schema for every node type; schemas can
be replaced, and titles can be changed without changing anybody's layout.  Registries are edited in
place (`Registry.Edit.inPlace`).
-/
import Chatflow.Node
import Chatflow.Failure

namespace Chatflow

/-- A field of a written step. -/
inductive Field where
  | id
  | botTerminate
  | type
  | typeId
  | customType
  | documentUrl
  | text
  | context
  | nextNode
deriving DecidableEq, Repr

/-- The key under which a field is written. -/
def Field.key : Field → String
  | id => "id"
  | botTerminate => "bot_terminate"
  | type => "type"
  | typeId => "type_id"
  | customType => "custom_type"
  | documentUrl => "document_url"
  | text => "text"
  | context => "context"
  | nextNode => "next_node"

/-- How the steps of a node type are laid out. -/
inductive Layout where
  /-- A document to send, at a default address. -/
  | document (defaultUrl : String)
  /-- Reply buttons with default titles, each with a continuation of its own. -/
  | buttons (titles : List String)
  /-- A single button with a default title and one continuation of the step as a whole. -/
  | action (title : String)
  /-- A text without continuation. -/
  | leaf
deriving DecidableEq, Repr

/-- The schema of a node type. -/
structure Schema where
  /-- How steps are laid out. -/
  layout : Layout
  /-- Whether the bot ends at such a step. -/
  terminal : Bool
deriving DecidableEq, Repr

namespace Layout

/-- The name under which a layout is written. -/
def name : Layout → String
  | document _ => "document"
  | buttons _ => "buttons"
  | action _ => "action"
  | leaf => "leaf"

/-- Whether steps of this layout end the bot unless a schema says otherwise. -/
def terminal : Layout → Bool
  | document _ | leaf => true
  | buttons _ | action _ => false

/-- The default titles of the buttons. -/
def titles : Layout → List String
  | buttons titles => titles
  | action title => [title]
  | document _ | leaf => []

/-- The fields that a step writes, in their order. -/
def fields : Layout → List Field
  | document _ => [.id, .botTerminate, .customType, .documentUrl]
  | buttons _ => [.id, .botTerminate, .type, .typeId, .context]
  | action _ => [.id, .botTerminate, .type, .typeId, .context, .nextNode]
  | leaf => [.id, .type, .text, .botTerminate]

/-- How many continuations a step has. -/
def slots : Layout → Nat
  | buttons titles => titles.length
  | action _ => 1
  | document _ | leaf => 0

theorem slots_eq_length_titles (l : Layout) : l.slots = l.titles.length := by cases l <;> rfl

/-- The text of a layout as JSON members. -/
def members : Layout → Json.Members
  | document url => [("default_url", .str url)]
  | buttons titles => [("titles", .ofStrings titles)]
  | action title => [("title", .str title)]
  | leaf => []

end Layout

namespace Schema

/-- The schema of a layout that ends the bot where the layout usually does. -/
def ofLayout (l : Layout) : Schema := ⟨l, l.terminal⟩

/-- The default titles of the buttons. -/
def titles (s : Schema) : List String := s.layout.titles

/-- The fields that a step writes, in their order. -/
def fields (s : Schema) : List Field := s.layout.fields

/-- How many continuations a step has. -/
def slots (s : Schema) : Nat := s.layout.slots

/-- The schema as JSON. -/
def toJson (s : Schema) : Json :=
  .obj (("layout", .str s.layout.name) :: s.layout.members ++ [("terminal", .bool s.terminal)])

end Schema

/-- The schemas of all node types. -/
structure Registry where
  /-- The schema of a type. -/
  schema : NodeType → Schema

/-- Why titles are refused. -/
inductive TitleError where
  /-- Steps of this type have no buttons. -/
  | noButtons (type : NodeType)
  /-- Steps of this type have another number of buttons. -/
  | wrongCount (type : NodeType) (expected given : Nat)
deriving DecidableEq, Repr

/-- What users see of titles that are refused. -/
def TitleError.failure (e : TitleError) : Failure :=
  ⟨.configError, some (match e with
    | noButtons type => s!"{type.name} has no buttons"
    | wrongCount type expected given =>
      s!"{type.name} takes {expected} button title(s), got {given}")⟩

namespace Registry

/-- The address of a document that names none. -/
def defaultUrl : String := "https://example.com"

/-- The standard schemas. -/
def standard : Registry where
  schema
    | .document => .ofLayout (.document defaultUrl)
    | .template => .ofLayout (.buttons ["Yes", "No"])
    | .interactive => .ofLayout (.buttons ["Register Now", "Login"])
    | .flow => .ofLayout (.action "Sent")
    | .webhook => .ofLayout (.action "Action Completed")
    | .unknown => .ofLayout .leaf

instance : Inhabited Registry := ⟨standard⟩

/-- Replaces the schema of a type. -/
def register (r : Registry) (type : NodeType) (s : Schema) : Registry :=
  ⟨fun t => if t = type then s else r.schema t⟩

/-- The layout with other titles, if the number fits. -/
def retitle (type : NodeType) : Layout → List String → Except TitleError Layout
  | .buttons old, titles =>
    if titles.length = old.length then .ok (.buttons titles)
    else .error (.wrongCount type old.length titles.length)
  | .action _, [title] => .ok (.action title)
  | .action _, titles => .error (.wrongCount type 1 titles.length)
  | .document _, _ | .leaf, _ => .error (.noButtons type)

/-- Changes the button titles of a type. -/
def setTitles (r : Registry) (type : NodeType) (titles : List String) :
    Except TitleError Registry :=
  (retitle type (r.schema type).layout titles).map fun layout =>
    r.register type ⟨layout, (r.schema type).terminal⟩

/-- Changes the address of documents that name none.  Afterwards documents have the document layout,
whatever they had before. -/
def setDocumentUrl (r : Registry) (url : String) : Registry :=
  r.register .document (.ofLayout (.document url))

/-- The schemas as a table. -/
def table (r : Registry) : List (NodeType × Schema) := NodeType.all.map fun t => (t, r.schema t)

@[simp] theorem schema_register (r : Registry) (type t : NodeType) (s : Schema) :
    (r.register type s).schema t = if t = type then s else r.schema t := rfl

/-! ### Edits in place -/

/-- An edit of a registry. -/
inductive Edit where
  /-- Replace the schema of a type. -/
  | register (type : NodeType) (s : Schema)
  /-- Change the button titles of a type. -/
  | setTitles (type : NodeType) (titles : List String)
  /-- Change the address of documents that name none. -/
  | setDocumentUrl (url : String)

/-- Makes the edit in place.  An error does not take back the steps before it. -/
def Edit.inPlace : Edit → ExceptT TitleError (StateM Registry) Unit
  | .register type s => modify fun r => r.register type s
  | .setTitles type titles => do
    let s := (← get).schema type
    match retitle type s.layout titles with
    | .ok layout => modify fun r => r.register type ⟨layout, s.terminal⟩
    | .error err => throw err
  | .setDocumentUrl url => modify fun r => r.setDocumentUrl url

/-- What comes of an edit, and the registry after it. -/
def make (r : Registry) (e : Edit) : Except TitleError Unit × Registry := e.inPlace.run.run r

/-- The registry after edits, of which some may fail. -/
def after (r : Registry) (edits : List Edit) : Registry := edits.foldl (fun r e => (r.make e).2) r

end Registry

end Chatflow
