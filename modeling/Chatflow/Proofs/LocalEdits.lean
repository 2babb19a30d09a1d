/-
# Edits of a part

Deleting an edge and deleting, moving or filling a node are edits of a part of the graph
(`Edit.isLocal`).  Such an edit does two things (`Graph.locally_edited`): it changes the node that
it names, if that is there, and it leaves out edges, by a test that looks at that node and at
nothing else of the graph.  So edits that name different nodes commute, although a node that is
deleted may take edges with it that touch other nodes, or that the other edit deletes as well
(`Graph.edited_comm`).

What such an edit reports but for edges is a matter of the node that it names
(`Graph.outcome_congr`), and the script and the revision of a session follow the graph.  So the
edits commute on sessions as well (`Session.edit_comm`).
-/
import Chatflow.Proofs.Revisions

namespace Chatflow

/-! ### Edits -/

/-- The edits that neither add anything nor look at more than one node. -/
def Edit.isLocal : Edit → Bool
  | setData _ _ | setPosition _ _ | deleteNode _ | deleteEdge _ => true
  | addNode _ _ | copyNode _ | connect _ _ => false

/-- The node that an edit changes if it is there. -/
def Edit.node? : Edit → Option NodeId
  | setData id _ | setPosition id _ | deleteNode id => some id
  | addNode _ _ | copyNode _ | deleteEdge _ | connect _ _ => none

/-- The two edits do not name the same node. -/
def Edit.Apart (e f : Edit) : Prop := ∀ id, e.node? = some id → f.node? ≠ some id

/-- What becomes of the node. -/
def Edit.onNode : Edit → Option Node → Option Node
  | setData _ data, n => n.map ({ · with data })
  | setPosition _ position, n => n.map ({ · with position })
  | deleteNode _, _ => none
  | _, n => n

/-- Whether an edge is kept by an edit that found this node. -/
def Edit.keeps : Edit → Option Node → Edge → Bool
  | deleteNode id, some _, edge => !edge.touches id
  | deleteEdge id, _, edge => edge.id != id
  | _, _, _ => true

/-- What a receipt tells but for edges. -/
def Receipt.withoutEdges : Receipt → Receipt
  | nodeDeleted existed _ => nodeDeleted existed 0
  | edgeDeleted _ => done
  | receipt => receipt

lemma Edit.Apart.symm {e f : Edit} (h : e.Apart f) : f.Apart e :=
  fun id hf he => h id he hf

/-! ### Graphs -/

namespace Graph

variable {g g' : Graph} {e f : Edit}

/-- What an edit finds of its node. -/
def found (g : Graph) (e : Edit) : Option Node := e.node?.bind g.node?

/-- What an edit reports but for edges. -/
def outcome (g : Graph) (e : Edit) : Except EditError Receipt :=
  (g.apply e).map fun result => result.1.withoutEdges

/-- Graphs are the same if lookups, edges and counters are. -/
lemma eq_of_node? (hnode : ∀ id, g.node? id = g'.node? id) (hedges : g.edges = g'.edges)
    (hlastNode : g.lastNode = g'.lastNode) (hlastEdge : g.lastEdge = g'.lastEdge) : g = g' := by
  obtain ⟨nodes, edges, lastNode, lastEdge⟩ := g
  obtain ⟨nodes', edges', lastNode', lastEdge'⟩ := g'
  obtain rfl : nodes = nodes' := Std.ExtTreeMap.ext_getElem? hnode
  obtain rfl : edges = edges' := hedges
  obtain rfl : lastNode = lastNode' := hlastNode
  obtain rfl : lastEdge = lastEdge' := hlastEdge
  rfl

/-- A graph after a local edit: nothing but the node is changed, and edges are left out. -/
structure Locally (g : Graph) (e : Edit) (g' : Graph) : Prop where
  node?_eq : ∀ id, g'.node? id = if e.node? = some id then e.onNode (g.node? id) else g.node? id
  edges_eq : g'.edges = g.edges.filter (e.keeps (g.found e))
  lastNode_eq : g'.lastNode = g.lastNode
  lastEdge_eq : g'.lastEdge = g.lastEdge

/-- An edit that changes a node leaves the edges and all other nodes. -/
lemma locally_modify {id : NodeId} {change : Node → Node} (hnode : e.node? = some id)
    (honNode : ∀ n, e.onNode n = n.map change) (hkeeps : ∀ n edge, e.keeps n edge = true)
    (h : g.apply e = (g.modify id change).map fun g => (.done, g)) :
    g.Locally e (g.edited e) := by
  have hedges : g.edges.filter (e.keeps (g.found e)) = g.edges :=
    List.filter_eq_self.2 fun edge _ => hkeeps _ edge
  cases hn : g.node? id with
  | none =>
    have hedited : g.edited e = g := by
      rw [edited, h, modify, hn]
      rfl
    rw [hedited]
    refine ⟨fun other => ?_, hedges.symm, rfl, rfl⟩
    rw [hnode, honNode]
    split
    · next hid =>
      rw [← Option.some.inj hid, hn]
      rfl
    · rfl
  | some n =>
    have hedited : g.edited e = { g with nodes := g.nodes.insert id (change n) } := by
      rw [edited, h, modify, hn]
      rfl
    rw [hedited]
    refine ⟨fun other => ?_, hedges.symm, rfl, rfl⟩
    rw [node?_insert, hnode, honNode]
    by_cases hid : id = other
    · subst hid
      rw [if_pos rfl, if_pos rfl, hn]
      rfl
    · rw [if_neg hid, if_neg fun h => hid (Option.some.inj h)]

lemma locally_deleteNode (g : Graph) (id : NodeId) :
    g.Locally (.deleteNode id) (g.deleteNode id).2 := by
  have hfound : g.found (.deleteNode id) = g.node? id := rfl
  refine ⟨fun other => ?_, ?_, ?_, ?_⟩
  · rw [node?_deleteNode]
    simp only [Edit.node?, Edit.onNode, Option.some.injEq]
  · rw [hfound, deleteNode, hasNode_eq]
    cases g.node? id with
    | none => exact (List.filter_eq_self.2 fun _ _ => rfl).symm
    | some n => rfl
  · rw [deleteNode]
    split <;> rfl
  · rw [deleteNode]
    split <;> rfl

lemma locally_edited (h : e.isLocal) (g : Graph) : g.Locally e (g.edited e) := by
  cases e with
  | setData id data =>
    exact locally_modify rfl (fun _ => rfl) (fun _ _ => rfl) rfl
  | setPosition id position =>
    exact locally_modify rfl (fun _ => rfl) (fun _ _ => rfl) rfl
  | deleteNode id => exact locally_deleteNode g id
  | deleteEdge id => exact ⟨fun _ => rfl, rfl, rfl, rfl⟩
  | _ => simp [Edit.isLocal] at h

/-- What an edit finds is not changed by an edit of another node. -/
lemma Locally.found_eq (h : g.Locally e g') (hef : e.Apart f) : g'.found f = g.found f := by
  rw [found, found]
  cases hf : f.node? with
  | none => rfl
  | some id => exact (h.node?_eq id).trans (if_neg fun he => hef id he hf)

/-- Edits of different nodes commute. -/
lemma edited_comm (he : e.isLocal) (hf : f.isLocal) (hef : e.Apart f) (g : Graph) :
    (g.edited e).edited f = (g.edited f).edited e := by
  have hge := locally_edited he g
  have hgf := locally_edited hf g
  have hgef := locally_edited hf (g.edited e)
  have hgfe := locally_edited he (g.edited f)
  refine eq_of_node? (fun id => ?_) ?_ ?_ ?_
  · rw [hgef.node?_eq, hge.node?_eq, hgfe.node?_eq, hgf.node?_eq]
    by_cases hid : e.node? = some id
    · simp only [hid, hef id hid, if_true, if_false]
    · simp only [hid, if_false]
  · -- each of the tests looks at the same node in both orders
    rw [hgef.edges_eq, hge.edges_eq, hgfe.edges_eq, hgf.edges_eq, hge.found_eq hef,
      hgf.found_eq hef.symm, List.filter_filter, List.filter_filter]
    exact List.filter_congr fun edge _ => Bool.and_comm _ _
  · rw [hgef.lastNode_eq, hge.lastNode_eq, hgfe.lastNode_eq, hgf.lastNode_eq]
  · rw [hgef.lastEdge_eq, hge.lastEdge_eq, hgfe.lastEdge_eq, hgf.lastEdge_eq]

/-- What a local edit reports but for edges is a matter of what it finds. -/
lemma outcome_congr (he : e.isLocal) (h : g'.found e = g.found e) : g'.outcome e = g.outcome e := by
  rw [outcome, outcome]
  cases e with
  | setData id data =>
    have hnode : g'.node? id = g.node? id := h
    rw [apply, apply, setData, setData, modify, modify, hnode]
    cases g.node? id <;> rfl
  | setPosition id position =>
    have hnode : g'.node? id = g.node? id := h
    rw [apply, apply, setPosition, setPosition, modify, modify, hnode]
    cases g.node? id <;> rfl
  | deleteNode id =>
    have hnode : g'.node? id = g.node? id := h
    simp only [apply, Except.map, Receipt.withoutEdges, hasNode_eq, hnode]
  | deleteEdge id => rfl
  | _ => simp [Edit.isLocal] at he

end Graph

/-! ### Sessions -/

namespace Session

variable {s s' : Session} {e f : Edit}

/-- Sessions that are not out of date are told apart by what they were made from. -/
lemma eq_of_upToDate (hs : s.UpToDate) (hs' : s'.UpToDate) (hcompiler : s.compiler = s'.compiler)
    (hscheme : s.scheme = s'.scheme) (hroot : s.root = s'.root) (hgraph : s.graph = s'.graph)
    (hrevision : s.revision = s'.revision) : s = s' := by
  have houtput : s.output = s'.output := by rw [hs, hs', hcompiler, hscheme, hroot, hgraph]
  cases s
  cases s'
  simp_all

lemma graph_edit (s : Session) (e : Edit) : (s.edit e).2.graph = s.graph.edited e :=
  graph_respond s (.edit e)

lemma root_edit (s : Session) (e : Edit) : (s.edit e).2.root = s.root := by
  rw [edit]
  split
  · rfl
  · split <;> rfl

lemma map_edit (s : Session) (e : Edit) :
    (s.edit e).1.map Receipt.withoutEdges = s.graph.outcome e := by
  rw [edit, Graph.outcome]
  cases s.graph.apply e <;> rfl

/-- How the revision goes on is a matter of the outcome. -/
lemma revision_edit (s : Session) (e : Edit) :
    (s.edit e).2.revision = if e.renewal.takesPlace (s.graph.outcome e).isOk then s.revision.next
      else s.revision := by
  rw [(renewedIf_edit s e).revision_eq, ← map_edit]
  cases (s.edit e).1 <;> rfl

/-- After an edit of another node, an edit has the outcome that it had before. -/
lemma outcome_edit (he : e.isLocal) (hf : f.isLocal) (hef : e.Apart f) (s : Session) :
    (s.edit f).2.graph.outcome e = s.graph.outcome e := by
  rw [graph_edit]
  exact Graph.outcome_congr he ((Graph.locally_edited hf s.graph).found_eq hef.symm)

/-- Edits of different nodes commute on a session that is not out of date. -/
lemma edit_comm (hs : s.UpToDate) (he : e.isLocal) (hf : f.isLocal) (hef : e.Apart f) :
    ((s.edit e).2.edit f).2 = ((s.edit f).2.edit e).2 := by
  have hsettings : ∀ e f, ((s.edit e).2.edit f).2.compiler = s.compiler ∧
      ((s.edit e).2.edit f).2.scheme = s.scheme ∧ ((s.edit e).2.edit f).2.root = s.root := by
    intro e f
    obtain ⟨hcompiler, hscheme⟩ := settings_after s [.edit e, .edit f]
    exact ⟨hcompiler, hscheme, by rw [root_edit, root_edit]⟩
  obtain ⟨hcompiler, hscheme, hroot⟩ := hsettings e f
  obtain ⟨hcompiler', hscheme', hroot'⟩ := hsettings f e
  refine eq_of_upToDate (upToDate_edit (upToDate_edit hs e) f)
    (upToDate_edit (upToDate_edit hs f) e) (hcompiler.trans hcompiler'.symm)
    (hscheme.trans hscheme'.symm) (hroot.trans hroot'.symm) ?_ ?_
  · rw [graph_edit, graph_edit, graph_edit, graph_edit, Graph.edited_comm he hf hef]
  · -- both edits succeed or fail as they would alone, and so count in either order
    rw [revision_edit, revision_edit, revision_edit, revision_edit, outcome_edit he hf hef,
      outcome_edit hf he hef.symm]
    cases e.renewal.takesPlace _ <;> cases f.renewal.takesPlace _ <;> rfl

end Session

end Chatflow
