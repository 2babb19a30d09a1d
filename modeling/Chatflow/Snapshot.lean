/-
# Snapshots

The form in which an editor saves a graph: a list of nodes and a list of edges, as JSON text.  A
snapshot need not be a graph; `Graph.ofSnapshot` checks that.
-/
import Chatflow.Json.Writer
import Chatflow.Node
import Chatflow.Failure

namespace Chatflow

/-- A saved graph. -/
structure Snapshot where
  /-- The nodes, in any order. -/
  nodes : List Node := []
  /-- The edges, in the order in which they were drawn. -/
  edges : List Edge := []
deriving DecidableEq, Inhabited

namespace Snapshot

/-- What can be wrong with a snapshot. -/
inductive Fault where
  /-- The text is not that of a snapshot. -/
  | unreadable
  /-- Two nodes have the same id. -/
  | duplicateNode (id : NodeId)
  /-- Two edges have the same id. -/
  | duplicateEdge (id : EdgeId)
  /-- An end of an edge is not among the nodes. -/
  | missingNode (edge : EdgeId) (node : NodeId)
deriving DecidableEq, Repr

/-- What users see of a fault. -/
def Fault.failure (f : Fault) : Failure :=
  ⟨.invalidSnapshot, match f with
    | unreadable => none
    | duplicateNode id => some s!"duplicate node id '{id}'"
    | duplicateEdge id => some s!"duplicate edge id '{id}'"
    | missingNode edge node => some s!"edge '{edge}' references missing node '{node}'"⟩

/-- What a fresh editor opens with: a document and a template, not connected. -/
def starter : Snapshot where
  nodes := [
    { id := "1", type := .document, data := .titled "Node 1", position := ⟨100, 100⟩ },
    { id := "2", type := .template, data := .titled "Node 2", position := ⟨400, 100⟩ }]

/-- The two members of a snapshot. -/
def members (s : Snapshot) : Json.Members :=
  [("nodes", .arr (s.nodes.map Node.toJson)), ("edges", .arr (s.edges.map Edge.toJson))]

/-- The snapshot as JSON. -/
def toJson (s : Snapshot) : Json := .obj s.members

/-- The text in which a snapshot is saved. -/
def text (s : Snapshot) : String := s.toJson.pretty

/-- The parts of a snapshot while it is decoded. -/
structure Parts where
  nodes : Option (List Node) := none
  edges : Option (List Edge) := none

/-- The fields of a snapshot. -/
def fields : List (Json.Decoder.Field Parts) :=
  [⟨"nodes", (·.nodes.isSome), fun room d parts =>
      (Json.Decoder.list Node.decode room d).map fun nodes => { parts with nodes := some nodes }⟩,
   ⟨"edges", (·.edges.isSome), fun room d parts =>
      (Json.Decoder.list Edge.decode room d).map fun edges => { parts with edges := some edges }⟩]

/-- Decodes a snapshot; a list that is missing is empty. -/
def decode : Json.Decoder Snapshot :=
  Json.Decoder.record fields {} fun parts => some ⟨parts.nodes.getD [], parts.edges.getD []⟩

/-- Reads a saved snapshot. -/
def ofText (s : String) : Except Fault Snapshot :=
  match Json.Decoder.ofText decode s with
  | .ok snapshot => .ok snapshot
  | .error _ => .error .unreadable

end Snapshot

end Chatflow
