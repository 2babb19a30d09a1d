/-
# Edits made in place

`Graph.apply` gives the graph after an edit or an error, and with an error there is no other graph
than the one before.  Here the edits are made in place, one step after the other, and what was done
before an error stays done (`InPlace.ofEdit`).  It comes to the same (`InPlace.runOn_ofEdit`): every
edit looks its nodes up before it draws an id, which counts the id as used, and behind that nothing
can fail.  So nothing is ever half done.
-/
import Chatflow.Proofs.Integrity
import Chatflow.Session

namespace Chatflow

/-- Steps on a graph that is changed in place.  An error does not take back the steps before it. -/
abbrev InPlace (α : Type) := ExceptT EditError (StateM Graph) α

namespace InPlace

/-- Makes the steps. -/
def runOn {α : Type} (x : InPlace α) (g : Graph) : Except EditError α × Graph := x.run.run g

/-- Looks a node up. -/
def lookUp (id : NodeId) : InPlace Node := do
  match (← get).node? id with
  | some n => return n
  | none => throw (.nodeNotFound id)

/-- Draws the id of a new node. -/
def drawNode : InPlace NodeId := do
  match (← get).nextNode? with
  | some number =>
    modify fun g => { g with lastNode := number }
    return Graph.nodeName number
  | none => throw .endlessSearch

/-- Draws the id of a new edge. -/
def drawEdge : InPlace EdgeId := do
  match (← get).nextEdge? with
  | some number =>
    modify fun g => { g with lastEdge := number }
    return Graph.edgeName number
  | none => throw .endlessSearch

/-- Adds a node at a place under a new id. -/
def addNode (type : NodeType) (data : NodeData) (position : Position) : InPlace Receipt := do
  let id ← drawNode
  modify fun g => g.put ⟨id, type, data, position⟩
  return .node id

/-- Makes an edit. -/
def ofEdit : Edit → InPlace Receipt
  | .addNode type data => addNode type data {}
  | .copyNode id => do
    let n ← lookUp id
    addNode n.type n.data (n.position.offset Graph.copyOffset.1 Graph.copyOffset.2)
  | .deleteNode id => do
    let g ← get
    set (g.deleteNode id).2
    return .nodeDeleted (g.hasNode id) (g.deleteNode id).1
  | .deleteEdge id => do
    let g ← get
    set (g.deleteEdge id).2
    return .edgeDeleted (g.deleteEdge id).1
  | .connect source target => do
    let _ ← lookUp source
    let _ ← lookUp target
    let id ← drawEdge
    modify fun g => { g with edges := g.edges ++ [⟨id, source, target⟩] }
    return .edge id
  | .setData id data => do
    let n ← lookUp id
    modify fun g => { g with nodes := g.nodes.insert id { n with data } }
    return .done
  | .setPosition id position => do
    let n ← lookUp id
    modify fun g => { g with nodes := g.nodes.insert id { n with position } }
    return .done

section

variable {α β : Type} {x : InPlace α} {f : α → InPlace β} {g g' : Graph}

lemma runOn_bind (x : InPlace α) (f : α → InPlace β) (g : Graph) :
    (x >>= f).runOn g = match x.runOn g with
      | (.ok a, g') => (f a).runOn g'
      | (.error err, g') => (.error err, g') := by
  show (match x.runOn g with
    | (r, g') => ExceptT.bindCont f r g') = _
  rcases x.runOn g with ⟨_ | a, g'⟩ <;> rfl

/-- Looking a node up changes nothing. -/
lemma runOn_lookUp (id : NodeId) (g : Graph) :
    (lookUp id).runOn g = (match g.node? id with
      | some n => .ok n
      | none => .error (.nodeNotFound id), g) := by
  rw [lookUp, runOn_bind]
  show InPlace.runOn (match g.node? id with
    | some n => _
    | none => _) g = _
  cases g.node? id <;> rfl

lemma runOn_drawNode (g : Graph) :
    drawNode.runOn g = match g.nextNode? with
      | some number => (.ok (Graph.nodeName number), { g with lastNode := number })
      | none => (.error .endlessSearch, g) := by
  rw [drawNode, runOn_bind]
  show InPlace.runOn (match g.nextNode? with
    | some number => _
    | none => _) g = _
  cases g.nextNode? <;> rfl

lemma runOn_drawEdge (g : Graph) :
    drawEdge.runOn g = match g.nextEdge? with
      | some number => (.ok (Graph.edgeName number), { g with lastEdge := number })
      | none => (.error .endlessSearch, g) := by
  rw [drawEdge, runOn_bind]
  show InPlace.runOn (match g.nextEdge? with
    | some number => _
    | none => _) g = _
  cases g.nextEdge? <;> rfl

lemma runOn_addNode (type : NodeType) (data : NodeData) (position : Position) (g : Graph) :
    (addNode type data position).runOn g = match g.addNodeAt type data position with
      | .ok (id, g') => (.ok (.node id), g')
      | .error err => (.error err, g) := by
  rw [addNode, runOn_bind, runOn_drawNode, Graph.addNodeAt]
  cases g.nextNode? <;> rfl

/-- Made in place, an edit comes to what `Graph.apply` gives, and one that fails has changed
nothing. -/
lemma runOn_ofEdit (e : Edit) (g : Graph) :
    (ofEdit e).runOn g = match g.apply e with
      | .ok (receipt, g') => (.ok receipt, g')
      | .error err => (.error err, g) := by
  cases e with
  | addNode type data =>
    rw [ofEdit, runOn_addNode, Graph.apply]
    cases g.addNodeAt type data {} <;> rfl
  | copyNode id =>
    rw [ofEdit, runOn_bind, runOn_lookUp, Graph.apply, Graph.copyNode]
    cases g.node? id with
    | none => rfl
    | some n =>
      simp only [runOn_addNode]
      cases g.addNodeAt n.type n.data _ <;> rfl
  | deleteNode id => rfl
  | deleteEdge id => rfl
  | connect source target =>
    rw [ofEdit, runOn_bind, runOn_lookUp, Graph.apply, Graph.connect, Graph.hasNode_eq,
      Graph.hasNode_eq]
    cases g.node? source with
    | none => rfl
    | some n =>
      simp only [runOn_bind, runOn_lookUp]
      cases g.node? target with
      | none => rfl
      | some m =>
        simp only [runOn_drawEdge]
        cases g.nextEdge? <;> rfl
  | setData id data =>
    rw [ofEdit, runOn_bind, runOn_lookUp, Graph.apply, Graph.setData, Graph.modify]
    cases g.node? id <;> rfl
  | setPosition id position =>
    rw [ofEdit, runOn_bind, runOn_lookUp, Graph.apply, Graph.setPosition, Graph.modify]
    cases g.node? id <;> rfl

/-- An edit that fails in place has changed nothing. -/
lemma eq_of_runOn_ofEdit_error {e : Edit} {err : EditError} {g g' : Graph}
    (h : (ofEdit e).runOn g = (.error err, g')) : g' = g := by
  rw [runOn_ofEdit] at h
  split at h
  · simp at h
  · exact (Prod.mk.inj h).2.symm

end

end InPlace

/-- A session makes its edits in place and makes its script anew when they have succeeded. -/
lemma Session.edit_eq_inPlace (s : Session) (e : Edit) :
    s.edit e = match (InPlace.ofEdit e).runOn s.graph with
      | (.ok receipt, graph) =>
        (.ok receipt, if e.isStructural then { s with graph }.recompile else { s with graph })
      | (.error err, graph) => (.error err, { s with graph }) := by
  rw [edit, InPlace.runOn_ofEdit]
  cases s.graph.apply e <;> rfl

/-- A request to a session that fails has changed nothing. -/
lemma Session.eq_of_respond_error {s s' : Session} {r : Request} {err : EditError}
    (h : s.respond r = (.error err, s')) : s' = s := by
  cases r with
  | setRoot root => simp [respond] at h
  | edit e =>
    rw [respond, edit_eq_inPlace] at h
    rcases hrun : (InPlace.ofEdit e).runOn s.graph with ⟨_ | receipt, graph⟩
    · rw [hrun] at h
      rw [← (Prod.mk.inj h).2, InPlace.eq_of_runOn_ofEdit_error hrun]
    · simp [hrun] at h

end Chatflow
