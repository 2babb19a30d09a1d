/-
# Deleting what was just added

A node that an edit has added, new or as a copy, and an edge that an edit has drawn can be deleted
again by the id that the edit reports.  Nothing else goes with them: the id is fresh, so no edge can
have led to the node before and no other edge has the id of the edge (`Graph.Change.deleteNode_eq`,
`Graph.Change.deleteEdge_eq`).  What stays behind is the number of the id, which is not given out
again.

A session is thereby back where it was (`Session.undone`), with the script that it had: the script
is made anew twice, and the second time from the nodes and edges of the beginning.  What became of
the script in between has no part in that, whether the new node was the root or the new edge closed
a cycle (`Session.undone_after`).
-/
import Chatflow.Proofs.LocalEdits

namespace Chatflow

/-! ### Graphs -/

namespace Graph

variable {g g' : Graph}

/-- The graph with the counters of another. -/
def counting (g g' : Graph) : Graph :=
  { g with lastNode := g'.lastNode, lastEdge := g'.lastEdge }

/-- A node under a new id is deleted without any edge. -/
lemma WellFormed.deleteNode_put (hg : g.WellFormed) {n : Node} (hfree : ¬ g.hasNode n.id)
    (number : Counter) :
    ({ g with lastNode := number }.put n).deleteNode n.id = (0, { g with lastNode := number }) := by
  have hedges : (({ g with lastNode := number }.put n).deleteNode n.id).2.edges = g.edges := by
    rw [(hg.put n number).edges_deleteNode]
    exact hg.filter_touches hfree
  have hcount := count_deleteNode ({ g with lastNode := number }.put n) n.id
  obtain ⟨hlastNode, hlastEdge, -⟩ := counters_deleteNode ({ g with lastNode := number }.put n) n.id
  refine Prod.ext ?_ (eq_of_node? (fun id => ?_) hedges hlastNode hlastEdge)
  · rw [hedges] at hcount
    exact Nat.add_eq_right.1 hcount
  · rw [node?_deleteNode, node?_put]
    split
    · next hid =>
      rw [hid, hasNode_iff, Option.not_isSome_iff_eq_none] at hfree
      exact hfree.symm
    · rfl

/-- An edge under a new id is deleted without any other. -/
lemma deleteEdge_concat {e : Edge} (hfree : e.id ∉ g.edges.map (·.id)) (number : Counter) :
    deleteEdge { g with lastEdge := number, edges := g.edges ++ [e] } e.id
      = (true, { g with lastEdge := number }) := by
  have hothers : g.edges.filter (fun other => other.id != e.id) = g.edges := by
    refine List.filter_eq_self.2 fun other hother => ?_
    exact bne_iff_ne.2 fun hid => hfree (hid ▸ List.mem_map_of_mem hother)
  have hkept : (g.edges ++ [e]).filter (fun other => other.id != e.id) = g.edges := by
    rw [List.filter_append, hothers]
    simp
  simp only [deleteEdge, hkept]
  simp

namespace Change

/-- Deleting the node that a change reports to be new takes the change back but for the counter. -/
lemma deleteNode_eq (hg : g.WellFormed) {id : NodeId} (h : g.Change (.node id) g') :
    g'.apply (.deleteNode id) = .ok (.nodeDeleted true 0, g.counting g') := by
  cases h with
  | @addNode number n free named =>
    have hfree : ¬ g.hasNode n.id := by
      rw [named, ← mem_keys_iff]
      exact Counter.notMem_of_firstUnused? free
    have hthere : ({ g with lastNode := number }.put n).hasNode n.id :=
      (hasNode_put _ _ _).2 (.inl rfl)
    rw [apply, hg.deleteNode_put hfree, hthere]
    rfl

/-- Deleting the edge that a change reports to be new takes the change back but for the counter. -/
lemma deleteEdge_eq {id : EdgeId} (h : g.Change (.edge id) g') :
    g'.apply (.deleteEdge id) = .ok (.edgeDeleted true, g.counting g') := by
  cases h with
  | @connect number e free named source target =>
    have hfree : e.id ∉ g.edges.map (·.id) := by
      rw [named]
      exact Counter.notMem_of_firstUnused? free
    rw [apply, deleteEdge_concat hfree]
    rfl

end Change

end Graph

/-! ### Sessions -/

namespace Session

variable {s s₁ : Session} {e d : Edit} {r r' : Receipt}

/-- The session as it was before another came of it by an edit that was taken back: the numbers
that were given out stay given out, and the script has been made anew twice. -/
def undone (s s₁ : Session) : Session :=
  { s with graph := s.graph.counting s₁.graph, revision := s.revision.next.next }

/-- An edit that reports something has the script made anew. -/
lemma isStructural_of_apply {g g' : Graph} (h : g.apply e = .ok (r, g')) (hr : r ≠ .done) :
    e.isStructural := by
  cases e with
  | setPosition id position =>
    obtain ⟨moved, -, heq⟩ := Json.Decoder.exists_of_map_eq_ok h
    exact absurd (congrArg Prod.fst heq).symm hr
  | _ => rfl

/-- A session after an edit that reports something. -/
lemma exists_of_edit (h : s.edit e = (.ok r, s₁)) (hr : r ≠ .done) :
    ∃ g', s.graph.apply e = .ok (r, g') ∧ s₁ = { s with graph := g' }.recompile := by
  cases happly : s.graph.apply e with
  | error err => simp [edit_of_error happly] at h
  | ok result =>
    obtain ⟨receipt, g'⟩ := result
    rw [edit_of_ok happly, Prod.mk.injEq, Except.ok.injEq] at h
    obtain ⟨rfl, rfl⟩ := h
    rw [if_pos (isStructural_of_apply happly hr)]
    exact ⟨g', rfl, rfl⟩

/-- What takes a change of the graph back takes it back in a session. -/
lemma edit_eq_undone (hs : s.UpToDate) (h : s.edit e = (.ok r, s₁)) (hr : r ≠ .done)
    (hd : d.isStructural)
    (hback : ∀ g', s.graph.Change r g' → g'.apply d = .ok (r', s.graph.counting g')) :
    s₁.edit d = (.ok r', s.undone s₁) := by
  obtain ⟨g', happly, rfl⟩ := exists_of_edit h hr
  rw [edit_of_ok (hback g' (Graph.change_of_apply happly)), if_pos hd]
  have hscript : (s.undone { s with graph := g' }.recompile).UpToDate := hs
  exact congrArg _ (eq_of_upToDate (upToDate_recompile _) hscript rfl rfl rfl rfl rfl)

/-- A session makes an edit that succeeds on its graph, and reports what that reports. -/
lemma exists_edit_of_map_eq {α : Type} {x : Except EditError (α × Graph)} {f : α → Receipt} {a : α}
    {g' : Graph} (hx : x = .ok (a, g'))
    (h : s.graph.apply e = x.map fun (a, g) => (f a, g)) : ∃ s₁, s.edit e = (.ok (f a), s₁) := by
  rw [hx] at h
  exact ⟨_, edit_of_ok h⟩

/-- Whenever an edit has reported a new node or a new edge, deleting it brings a session back to
where it was: no edge goes with the node and no other edge with the edge, the nodes, the edges in
their order and the script are the same, and but for the counters of ids and the revision so is all
the rest.  Below the maxima of the counters, adding a node succeeds, and so does copying a node and
connecting nodes that are there. -/
theorem undone_after {g : Graph} (h : g.Initial) (edits : List Edit) (c : Compiler)
    (scheme : IdScheme) (root : NodeId) (requests : List Request) :
    let s := (start c scheme (g.after edits) root).after requests
    let node := Graph.nodeName (s.graph.lastNode + 1)
    let edge := Graph.edgeName (s.graph.lastEdge + 1)
    (∀ e id s₁, s.edit e = (.ok (.node id), s₁) →
      s₁.edit (.deleteNode id) = (.ok (.nodeDeleted true 0), s.undone s₁)) ∧
    (∀ e id s₁, s.edit e = (.ok (.edge id), s₁) →
      s₁.edit (.deleteEdge id) = (.ok (.edgeDeleted true), s.undone s₁)) ∧
    (s.graph.lastNode < Counter.maximum →
      (∀ type data, ∃ s₁, s.edit (.addNode type data) = (.ok (.node node), s₁)) ∧
        ∀ id, s.graph.hasNode id → ∃ s₁, s.edit (.copyNode id) = (.ok (.node node), s₁)) ∧
    (s.graph.lastEdge < Counter.maximum →
      ∀ source target, s.graph.hasNode source → s.graph.hasNode target →
        ∃ s₁, s.edit (.connect source target) = (.ok (.edge edge), s₁)) := by
  intro s node edge
  have hgraph : s.graph = g.after (edits ++ requests.flatMap (·.edit?.toList)) := by
    rw [Graph.after_append]
    exact graph_after _ requests
  have hs : s.UpToDate := upToDate_after (upToDate_start _ root) requests
  have hwell : s.graph.WellFormed := hgraph ▸
    Graph.after_induct (fun _ _ _ hg => hg.change) (Graph.wellFormed_of_initial h) _
  have hcounted : s.graph.Counted := hgraph ▸ ((Graph.counted_of_initial h).after _).1
  refine ⟨fun e id s₁ he => ?_, fun e id s₁ he => ?_, fun hlt => ⟨fun type data => ?_,
    fun id hid => ?_⟩, fun hlt source target hsource htarget => ?_⟩
  · exact edit_eq_undone hs he (by simp) rfl fun g' => Graph.Change.deleteNode_eq hwell
  · exact edit_eq_undone hs he (by simp) rfl fun g' => Graph.Change.deleteEdge_eq
  · obtain ⟨g', hadd⟩ :=
      Graph.addNodeAt_of_nextNode? (hcounted.nextNode?_eq hlt) type data {}
    exact exists_edit_of_map_eq hadd rfl
  · obtain ⟨g', hcopy⟩ := Graph.copyNode_of_nextNode? (hcounted.nextNode?_eq hlt) hid
    exact exists_edit_of_map_eq hcopy rfl
  · obtain ⟨g', hconnect⟩ :=
      Graph.connect_of_nextEdge? (hcounted.nextEdge?_eq hlt) hsource htarget
    exact exists_edit_of_map_eq hconnect rfl

/-- The new node is the root that was missing, and the new edge closes a cycle; both are gone again
when they are deleted. -/
theorem undone_after_saved : ∃ g s₁ s₂, Graph.ofSnapshot Graph.saved = .ok g ∧
    let s := (start {} .standard g "007").after [.setRoot "8"]
    s.edit (.addNode .flow .empty) = (.ok (.node "8"), s₁) ∧
      s₁.edit (.deleteNode "8") = (.ok (.nodeDeleted true 0), s.undone s₁) ∧
      s.edit (.connect "x" "007") = (.ok (.edge "e8"), s₂) ∧
      s₂.edit (.deleteEdge "e8") = (.ok (.edgeDeleted true), s.undone s₂) := by
  obtain ⟨g, hg, hlastNode, hlastEdge, hsource, htarget⟩ : ∃ g,
      Graph.ofSnapshot Graph.saved = .ok g ∧ g.lastNode = 7 ∧ g.lastEdge = 7 ∧
        g.hasNode "x" ∧ g.hasNode "007" := ⟨_, rfl, rfl, by decide, by decide, by decide⟩
  obtain ⟨hnode, hedge, hadds, hconnects⟩ :=
    undone_after (.imported hg) [] {} .standard "007" [.setRoot "8"]
  have hgraph : ((start {} .standard (g.after []) "007").after [.setRoot "8"]).graph = g := rfl
  rw [hgraph, hlastNode] at hadds
  rw [hgraph, hlastEdge] at hconnects
  obtain ⟨s₁, hadd⟩ := (hadds (by decide)).1 .flow .empty
  obtain ⟨s₂, hconnect⟩ := hconnects (by decide) "x" "007" hsource htarget
  exact ⟨g, s₁, s₂, hg, hadd, hnode _ _ _ hadd, hconnect, hedge _ _ _ hconnect⟩

end Session

end Chatflow
