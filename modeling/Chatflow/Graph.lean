/-
# The editor's graph

Nodes are kept under their ids, edges in the order in which they were drawn.  New nodes are called
`1`, `2`, … and new edges `e1`, `e2`, …; a counter for each remembers the largest number used so
far, also by deleted and by imported elements, so that an id is never given out twice.  The
counters stop at the largest 64-bit word; when its name is in use, the search for a new id never
ends (`EditError.endlessSearch`).
-/
import Std.Data.ExtTreeMap
import Std.Data.ExtTreeSet
import Chatflow.Snapshot

namespace Chatflow

/-- A number that only grows and stays within sixty-four bits. -/
abbrev Counter := Nat

namespace Counter

/-- The largest number. -/
def maximum : Nat := 0xFFFFFFFFFFFFFFFF

/-- The next number; the largest stays. -/
def next (n : Counter) : Counter := min (n + 1) maximum

theorem next_of_lt {n : Nat} (h : n < maximum) : next n = n + 1 := Nat.min_eq_left h

/-- The number that decimal digits stand for; without digits, with other characters among them and
beyond sixty-four bits it is zero. -/
def ofDigits (digits : List Char) : Counter :=
  if digits ≠ [] ∧ digits.all Char.isDigit ∧ Nat.ofDigitChars 10 digits 0 ≤ maximum then
    Nat.ofDigitChars 10 digits 0
  else 0

/-- The number that an id written in decimal digits stands for.  A plus sign may come first and
zeros may; any other id, and a number beyond sixty-four bits, counts as zero. -/
def ofId (id : String) : Counter :=
  match id.toList with
  | '+' :: digits => ofDigits digits
  | digits => ofDigits digits

/-- The first number after `n` whose name is not in use.  At the largest number the counter stays
where it is, so if that name is in use as well the search goes on for ever and there is none. -/
def firstUnused? (name : Nat → String) (used : List String) (n : Counter) : Option Counter :=
  if name (next n) ∉ used then some (next n)
  else if _h : n < maximum then firstUnused? name used (next n)
  else none
termination_by maximum - n
decreasing_by exact Nat.sub_lt_sub_left _h (next_of_lt _h ▸ Nat.lt_succ_self n)

end Counter

/-- A graph under edit. -/
structure Graph where
  /-- The nodes under their ids. -/
  nodes : Std.ExtTreeMap NodeId Node := ∅
  /-- The edges, oldest first. -/
  edges : List Edge := []
  /-- The number of the last node. -/
  lastNode : Counter := 0
  /-- The number of the last edge. -/
  lastEdge : Counter := 0

/-- Why an edit fails. -/
inductive EditError where
  /-- There is no node of that id. -/
  | nodeNotFound (id : NodeId)
  /-- The search for a new id never ends. -/
  | endlessSearch
deriving DecidableEq, Repr

/-- What users see of an edit that fails.  An endless search gives no answer at all, for which
trouble without a detail stands here. -/
def EditError.failure : EditError → Failure
  | nodeNotFound id => ⟨.nodeNotFound, some id⟩
  | endlessSearch => ⟨.ioError, none⟩

namespace Graph

/-- A graph without nodes. -/
def empty : Graph := {}

instance : Inhabited Graph := ⟨empty⟩

/-! ### Looking things up -/

/-- The node of an id. -/
def node? (g : Graph) (id : NodeId) : Option Node := g.nodes[id]?

/-- Whether there is a node of that id. -/
def hasNode (g : Graph) (id : NodeId) : Bool := g.nodes.contains id

/-- The first edge of an id. -/
def edge? (g : Graph) (id : EdgeId) : Option Edge := g.edges.find? (·.id == id)

/-- The edges that leave a node, oldest first. -/
def outgoing (g : Graph) (id : NodeId) : List Edge := g.edges.filter (·.source == id)

/-- The edges that leave or enter a node, oldest first. -/
def touching (g : Graph) (id : NodeId) : List Edge := g.edges.filter (·.touches id)

/-- The nodes, ordered by their ids. -/
def nodeList (g : Graph) : List Node := g.nodes.toList.map (·.2)

/-- The number of nodes. -/
def nodeCount (g : Graph) : Nat := g.nodes.size

/-- The number of edges. -/
def edgeCount (g : Graph) : Nat := g.edges.length

/-- The graph as a snapshot. -/
def snapshot (g : Graph) : Snapshot := ⟨g.nodeList, g.edges⟩

/-! ### Editing -/

/-- The id of the node with a number. -/
def nodeName (n : Nat) : NodeId := toString n

/-- The id of the edge with a number. -/
def edgeName (n : Nat) : EdgeId := "e" ++ toString n

/-- Sets a node under its own id. -/
def put (g : Graph) (n : Node) : Graph := { g with nodes := g.nodes.insert n.id n }

/-- The number of the next node, if the search for it ends. -/
def nextNode? (g : Graph) : Option Counter :=
  Counter.firstUnused? nodeName g.nodes.keys g.lastNode

/-- The number of the next edge, if the search for it ends. -/
def nextEdge? (g : Graph) : Option Counter :=
  Counter.firstUnused? edgeName (g.edges.map (·.id)) g.lastEdge

/-- Adds a node at a place under a new id, which is returned. -/
def addNodeAt (g : Graph) (type : NodeType) (data : NodeData) (position : Position) :
    Except EditError (NodeId × Graph) :=
  match g.nextNode? with
  | none => .error .endlessSearch
  | some number =>
    .ok (nodeName number,
      { g with lastNode := number }.put ⟨nodeName number, type, data, position⟩)

/-- Adds a node under a new id, which is returned, for those who know that the search for the id
ends; if it does not, nothing is added. -/
def addNode (g : Graph) (type : NodeType) (data : NodeData) : NodeId × Graph :=
  match g.addNodeAt type data {} with
  | .ok added => added
  | .error _ => (nodeName g.lastNode, g)

/-- How far a copy stands from its original. -/
def copyOffset : Int × Int := (250, 150)

/-- Copies a node under a new id, which is returned. -/
def copyNode (g : Graph) (id : NodeId) : Except EditError (NodeId × Graph) :=
  match g.node? id with
  | none => .error (.nodeNotFound id)
  | some n => g.addNodeAt n.type n.data (n.position.offset copyOffset.1 copyOffset.2)

/-- Deletes a node with the edges that touch it, and counts these.  Without such a node nothing
happens. -/
def deleteNode (g : Graph) (id : NodeId) : Nat × Graph :=
  if g.hasNode id then
    let kept := g.edges.filter fun e => !e.touches id
    (g.edges.length - kept.length, { g with nodes := g.nodes.erase id, edges := kept })
  else (0, g)

/-- Deletes the edges of an id, and tells whether there were any. -/
def deleteEdge (g : Graph) (id : EdgeId) : Bool × Graph :=
  let kept := g.edges.filter fun e => e.id != id
  (kept.length != g.edges.length, { g with edges := kept })

/-- Connects two nodes by a new edge, whose id is returned. -/
def connect (g : Graph) (source target : NodeId) : Except EditError (EdgeId × Graph) :=
  if !g.hasNode source then .error (.nodeNotFound source)
  else if !g.hasNode target then .error (.nodeNotFound target)
  else
    match g.nextEdge? with
    | none => .error .endlessSearch
    | some number =>
      .ok (edgeName number, { g with
        lastEdge := number
        edges := g.edges ++ [⟨edgeName number, source, target⟩] })

/-- Changes a node that is there. -/
def modify (g : Graph) (id : NodeId) (f : Node → Node) : Except EditError Graph :=
  match g.node? id with
  | none => .error (.nodeNotFound id)
  | some n => .ok { g with nodes := g.nodes.insert id (f n) }

/-- Replaces the data of a node. -/
def setData (g : Graph) (id : NodeId) (data : NodeData) : Except EditError Graph :=
  g.modify id fun n => { n with data }

/-- Moves a node. -/
def setPosition (g : Graph) (id : NodeId) (position : Position) : Except EditError Graph :=
  g.modify id fun n => { n with position }

/-! ### Importing -/

/-- Adds saved nodes. -/
def importNodes (g : Graph) : List Node → Except Snapshot.Fault Graph
  | [] => .ok g
  | n :: rest =>
    if g.hasNode n.id then .error (.duplicateNode n.id)
    else importNodes ({ g with lastNode := max g.lastNode (Counter.ofId n.id) }.put n) rest

/-- The number of an edge id: its own behind any leading letters `e`. -/
def edgeNumber (id : EdgeId) : Counter :=
  Counter.ofId (String.ofList (id.toList.dropWhile (· == 'e')))

/-- Adds saved edges behind those already there; `seen` holds the ids of the edges added so far,
and `added` these edges, last first. -/
def importEdges (g : Graph) (seen : Std.ExtTreeSet EdgeId) (added : List Edge) :
    List Edge → Except Snapshot.Fault Graph
  | [] => .ok { g with edges := g.edges ++ added.reverse }
  | e :: rest =>
    if seen.contains e.id then .error (.duplicateEdge e.id)
    else if !g.hasNode e.source then .error (.missingNode e.id e.source)
    else if !g.hasNode e.target then .error (.missingNode e.id e.target)
    else importEdges { g with lastEdge := max g.lastEdge (edgeNumber e.id) } (seen.insert e.id)
      (e :: added) rest

/-- The graph that a snapshot describes.  All nodes are checked before any edge, and of each edge
its id before its source and that before its target. -/
def ofSnapshot (s : Snapshot) : Except Snapshot.Fault Graph := do
  let g ← empty.importNodes s.nodes
  g.importEdges ∅ [] s.edges

end Graph

end Chatflow
