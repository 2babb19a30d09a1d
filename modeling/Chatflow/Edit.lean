/-
# Edits

The changes that an editor can make to a graph, as values: an edit either fails, and then nothing
has changed, or gives a receipt and the graph after it.
-/
import Chatflow.Graph

namespace Chatflow

/-- A change to a graph. -/
inductive Edit where
  /-- Add a node. -/
  | addNode (type : NodeType) (data : NodeData)
  /-- Copy a node, without its edges. -/
  | copyNode (id : NodeId)
  /-- Delete a node with its edges. -/
  | deleteNode (id : NodeId)
  /-- Delete an edge. -/
  | deleteEdge (id : EdgeId)
  /-- Connect two nodes. -/
  | connect (source target : NodeId)
  /-- Replace the data of a node. -/
  | setData (id : NodeId) (data : NodeData)
  /-- Move a node. -/
  | setPosition (id : NodeId) (position : Position)

/-- What an edit reports. -/
inductive Receipt where
  /-- The id of a new node. -/
  | node (id : NodeId)
  /-- The id of a new edge. -/
  | edge (id : EdgeId)
  /-- Whether there was a node to delete, and how many edges went with it. -/
  | nodeDeleted (existed : Bool) (edges : Nat)
  /-- Whether there was an edge to delete. -/
  | edgeDeleted (existed : Bool)
  /-- Nothing but that it was done. -/
  | done
deriving DecidableEq, Repr

/-- Whether an edit can matter to the compiled script: all but moving a node. -/
def Edit.isStructural : Edit → Bool
  | setPosition _ _ => false
  | _ => true

/-- Makes an edit. -/
def Graph.apply (g : Graph) : Edit → Except EditError (Receipt × Graph)
  | .addNode type data => (g.addNodeAt type data {}).map fun (id, g) => (.node id, g)
  | .copyNode id => (g.copyNode id).map fun (copy, g) => (.node copy, g)
  | .deleteNode id =>
    let (edges, after) := g.deleteNode id
    .ok (.nodeDeleted (g.hasNode id) edges, after)
  | .deleteEdge id =>
    let (existed, g) := g.deleteEdge id
    .ok (.edgeDeleted existed, g)
  | .connect source target => (g.connect source target).map fun (id, g) => (.edge id, g)
  | .setData id data => (g.setData id data).map fun g => (.done, g)
  | .setPosition id position => (g.setPosition id position).map fun g => (.done, g)

end Chatflow
