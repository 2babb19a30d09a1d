/-
# Compiling: what is asked and what is answered

The compiler walks the graph depth first from a root and unfolds it into a tree of steps.  A node
reached twice along different ways is unfolded twice; a node that is met again on the way to itself
gives a marker that leads back, or makes the compiler fail, as the policy says.  The number of steps
is limited.

This file has the settings of a compiler, what it reports, and how a single step is made from its
node; `Chatflow.Compile.Run` has the walk.
-/
import Std.Data.ExtTreeMap
import Std.Data.ExtTreeSet
import Chatflow.IdScheme
import Chatflow.Tree

namespace Chatflow

/-- What becomes of an edge that leads back to a node on the way to it. -/
inductive CyclePolicy where
  /-- It is compiled to a marker. -/
  | backReference
  /-- It makes the compiler fail. -/
  | reject
deriving DecidableEq, Repr, Inhabited

/-- The name of a policy in requests and settings. -/
def CyclePolicy.name : CyclePolicy → String
  | backReference => "back_reference"
  | reject => "reject"

/-- The policy of a name. -/
def CyclePolicy.ofName? (s : String) : Option CyclePolicy :=
  [backReference, reject].find? (·.name == s)

/-- Decodes a policy: its name, or an object whose only key is its name and whose value says
nothing, which is for the format to tell. -/
def CyclePolicy.decode (saysNothing : Json.Draft → Bool) : Json.Decoder CyclePolicy
  | _, .str (some s) => match ofName? s with
    | some p => .ok p
    | none => .error .mismatched
  | _, .obj [(some s, d)] true => match ofName? s with
    | some p => if saysNothing d then .ok p else .error .mismatched
    | none => .error .mismatched
  | _, d => d.refuse

/-- Why a graph cannot be compiled. -/
inductive CompileError where
  /-- An edge leads back to this node, and the policy does not allow it. -/
  | cycleDetected (target : NodeId)
  /-- The tree would have more steps than this. -/
  | stepLimitExceeded (limit : Nat)
deriving DecidableEq, Repr

/-- What users see of a graph that cannot be compiled. -/
def CompileError.failure : CompileError → Failure
  | cycleDetected target => ⟨.cycleDetected, some target⟩
  | stepLimitExceeded limit => ⟨.stepLimitExceeded, some (toString limit)⟩

/-- What the compiler noticed on its way. -/
structure Diagnostics where
  /-- How many steps the tree has. -/
  steps : Nat := 0
  /-- How many markers the tree has. -/
  backReferences : Nat := 0
  /-- Edges for which their source had no slot left. -/
  droppedEdges : Std.ExtTreeSet EdgeId := ∅
  /-- Nodes of unknown type. -/
  unknownNodes : Std.ExtTreeSet NodeId := ∅

/-- What the compiler noticed, as JSON members. -/
def Diagnostics.members (d : Diagnostics) : Json.Members :=
  [("steps", .ofNat d.steps), ("back_references", .ofNat d.backReferences),
    ("dropped_edges", .ofStrings d.droppedEdges.toList),
    ("unknown_nodes", .ofStrings d.unknownNodes.toList)]

/-- A compiled graph. -/
structure Compilation where
  /-- The tree; empty if the root is not in the graph. -/
  root : Branch
  /-- What the compiler noticed. -/
  diagnostics : Diagnostics

/-- The largest number of steps where none is given. -/
def Compiler.defaultStepLimit : Nat := 10000

/-- The settings of a compiler. -/
structure Compiler where
  /-- How steps look. -/
  registry : Registry := .standard
  /-- What becomes of cycles. -/
  policy : CyclePolicy := .backReference
  /-- The largest number of steps. -/
  stepLimit : Nat := Compiler.defaultStepLimit

/-! ### Looking nodes and edges up -/

/-- Puts nodes under their ids.  Of several nodes with one id the last counts. -/
def indexNodes (nodes : List Node) : Std.ExtTreeMap NodeId Node :=
  nodes.foldl (fun map n => map.insert n.id n) ∅

/-- An index has under an id the last node of that id. -/
theorem getElem?_indexNodes (nodes : List Node) (id : NodeId) :
    (indexNodes nodes)[id]? = nodes.reverse.find? (·.id == id) := by
  have key : ∀ (map : Std.ExtTreeMap NodeId Node),
      (nodes.foldl (fun map n => map.insert n.id n) map)[id]?
        = (nodes.reverse.find? (·.id == id)).or map[id]? := by
    induction nodes with
    | nil => simp
    | cons n rest ih =>
      intro map
      rw [List.foldl_cons, ih, Std.ExtTreeMap.getElem?_insert]
      by_cases h : n.id = id
      · cases hf : rest.reverse.find? (·.id == id) <;> simp [h, hf]
      · have : compare n.id id ≠ .eq := by simpa using h
        simp [this, h]
  simp [indexNodes, key]

/-- Nodes by their ids and edges by their sources. -/
structure GraphIndex where
  /-- The node of an id. -/
  nodes : Std.ExtTreeMap NodeId Node
  /-- The edges that leave a node, in order. -/
  outgoing : Std.ExtTreeMap NodeId (List Edge)
  /-- Every node stands under its own id. -/
  id_eq : ∀ {id : NodeId} {n : Node}, nodes[id]? = some n → n.id = id

namespace GraphIndex

/-- Indexes lists of nodes and edges.  Of several nodes with one id the last counts. -/
def ofLists (nodes : List Node) (edges : List Edge) : GraphIndex where
  nodes := indexNodes nodes
  outgoing := edges.foldr (fun e map => map.insert e.source (e :: map.getD e.source [])) ∅
  id_eq h := by
    rw [getElem?_indexNodes] at h
    simpa using List.find?_some h

/-- The node of an id. -/
def node? (i : GraphIndex) (id : NodeId) : Option Node := i.nodes[id]?

/-- The edges that leave a node, in order. -/
def edgesFrom (i : GraphIndex) (id : NodeId) : List Edge := i.outgoing.getD id []

/-- Looking edges up is filtering the list. -/
theorem edgesFrom_ofLists (nodes : List Node) (edges : List Edge) (id : NodeId) :
    (ofLists nodes edges).edgesFrom id = edges.filter (·.source == id) := by
  simp only [edgesFrom, ofLists]
  induction edges with
  | nil => simp
  | cons e rest ih =>
    rw [List.foldr_cons, Std.ExtTreeMap.getD_insert]
    by_cases h : e.source = id
    · simp [h, ← ih]
    · have : compare e.source id ≠ .eq := by simpa using h
      simp [this, h, ih]

/-- Looking a node up finds the last of that id. -/
theorem node?_ofLists (nodes : List Node) (edges : List Edge) (id : NodeId) :
    (ofLists nodes edges).node? id = nodes.reverse.find? (·.id == id) :=
  getElem?_indexNodes nodes id

end GraphIndex

/-! ### Making a step -/

/-- The id of the button in a slot; the first slot has the number zero. -/
def buttonId (slot : Nat) : String := "id" ++ toString (min (slot + 1) 0xFFFFFFFFFFFFFFFF)

namespace Compiler

/-- How many slots the step of a node has. -/
def slots (c : Compiler) (n : Node) : Nat := (c.registry.schema n.type).slots

/-- Where the slots of a node's step lead: along its first edges, one for each slot. -/
def targets (c : Compiler) (i : GraphIndex) (n : Node) : List (Option NodeId) :=
  (List.range (c.slots n)).map fun slot => (i.edgesFrom n.id)[slot]?.map (·.target)

/-- The edges of a node for which its step has no slot. -/
def surplus (c : Compiler) (i : GraphIndex) (n : Node) : List Edge :=
  (i.edgesFrom n.id).drop (c.slots n)

/-- The label of the node that a slot leads to, if there is such a node and it has one. -/
def targetLabel? (i : GraphIndex) (targets : List (Option NodeId)) (slot : Nat) : Option String :=
  do (← i.node? (← (← targets[slot]?))).label?

/-- The buttons of a node's step: titled by the nodes they lead to, else as the schema says. -/
def buttons (c : Compiler) (i : GraphIndex) (n : Node) : List Button :=
  (c.registry.schema n.type).titles.zipIdx.map fun (title, slot) =>
    ⟨buttonId slot, (targetLabel? i (c.targets i n) slot).getD title⟩

/-- The text of a node's step. -/
def text? (c : Compiler) (n : Node) : Option String :=
  match (c.registry.schema n.type).layout with
  | .leaf => n.label?
  | .document _ | .buttons _ | .action _ => none

/-- The address in a node's step. -/
def documentUrl? (c : Compiler) (n : Node) : Option String :=
  match (c.registry.schema n.type).layout with
  | .document url => some (n.data.documentUrl?.getD url)
  | .buttons _ | .action _ | .leaf => none

/-- The step of a node under an id. -/
def makeStep (c : Compiler) (i : GraphIndex) (n : Node) (id : String) : Step where
  id := id
  origin := n.id
  type := n.type
  terminal := (c.registry.schema n.type).terminal
  fields := (c.registry.schema n.type).fields
  text := c.text? n
  documentUrl := c.documentUrl? n
  buttons := c.buttons i n

/-- What is noticed when the step of a node is made. -/
def noteStep (c : Compiler) (i : GraphIndex) (n : Node) (d : Diagnostics) : Diagnostics where
  steps := d.steps + 1
  backReferences := d.backReferences
  droppedEdges := (c.surplus i n).foldl (fun dropped e => dropped.insert e.id) d.droppedEdges
  unknownNodes := if n.type = .unknown then d.unknownNodes.insert n.id else d.unknownNodes

end Compiler

end Chatflow
