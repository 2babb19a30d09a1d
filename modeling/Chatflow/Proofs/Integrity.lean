/-
# Graphs stay whole

A graph is well formed if its nodes stand under their own ids, no two edges have the same id and
every edge has both its ends among the nodes (`Graph.WellFormed`).  No edit looks after all of that:
a new edge is checked for its ends and gets an unused id, a node takes its edges with it when it is
deleted, a new or changed node is put under its own id, and an import refuses a snapshot that is not
well formed.

So every graph that comes from the empty graph or from an accepted snapshot by edits is well formed,
whatever the edits are and whichever of them fail (`Graph.wellFormed_after`).  What an edit can do
is said once, by `Graph.Change`; whatever else holds of all graphs under edit is to be shown for its
five cases.
-/
import Mathlib.Data.List.Nodup
import Chatflow.Edit

namespace Chatflow

/-! ### Searching for a new number -/

namespace Counter

variable {name : Nat → String} {used : List String} {n m : Nat}

/-- What a search finds is not in use. -/
lemma notMem_of_firstUnused? (h : firstUnused? name used n = some m) : name m ∉ used := by
  fun_induction firstUnused? name used n with
  | case1 n hfree =>
    obtain rfl := Option.some.inj h
    exact hfree
  | case2 n hused hlt ih => exact ih h
  | case3 n hused hge => simp at h

end Counter

namespace Graph

variable {g g' : Graph}

/-! ### Looking nodes up -/

lemma hasNode_iff (g : Graph) (id : NodeId) : g.hasNode id ↔ (g.node? id).isSome := by
  rw [hasNode, Std.ExtTreeMap.contains_eq_isSome_getElem?]
  rfl

lemma hasNode_eq (g : Graph) (id : NodeId) : g.hasNode id = (g.node? id).isSome :=
  Bool.eq_iff_iff.2 (g.hasNode_iff id)

lemma hasNode_of_node? {id : NodeId} {n : Node} (h : g.node? id = some n) : g.hasNode id := by
  rw [hasNode_iff, h]
  rfl

lemma mem_keys_iff (g : Graph) (id : NodeId) : id ∈ g.nodes.keys ↔ g.hasNode id := by
  rw [Std.ExtTreeMap.mem_keys, hasNode, Std.ExtTreeMap.contains_iff_mem]

/-- A node is found under the id under which it was set, every other where it was. -/
lemma node?_insert (g : Graph) (key : NodeId) (n : Node) (id : NodeId) :
    node? { g with nodes := g.nodes.insert key n } id
      = if key = id then some n else g.node? id := by
  rw [node?, Std.ExtTreeMap.getElem?_insert]
  simp only [Std.compare_eq_iff_eq]
  rfl

lemma node?_put (g : Graph) (n : Node) (id : NodeId) :
    (g.put n).node? id = if n.id = id then some n else g.node? id := node?_insert g n.id n id

lemma hasNode_put (g : Graph) (n : Node) (id : NodeId) :
    (g.put n).hasNode id ↔ n.id = id ∨ g.hasNode id := by
  rw [hasNode_iff, node?_put, hasNode_iff]
  by_cases h : n.id = id
  · simp [h]
  · simp [h]

/-- Nothing but the node is gone from the nodes when it is deleted. -/
lemma node?_deleteNode (g : Graph) (deleted id : NodeId) :
    (g.deleteNode deleted).2.node? id = if deleted = id then none else g.node? id := by
  rw [deleteNode]
  split
  · rw [node?, Std.ExtTreeMap.getElem?_erase]
    simp only [Std.compare_eq_iff_eq]
    rfl
  · next habsent =>
    by_cases h : deleted = id
    · subst h
      simpa [hasNode_iff] using habsent
    · rw [if_neg h]

lemma hasNode_deleteNode (g : Graph) (deleted id : NodeId) :
    (g.deleteNode deleted).2.hasNode id ↔ deleted ≠ id ∧ g.hasNode id := by
  rw [hasNode_iff, node?_deleteNode, hasNode_iff]
  by_cases h : deleted = id
  · simp [h]
  · simp [h]

/-! ### What an edit can do -/

/-- The ways in which an edit can change a graph, with what it reports. -/
inductive Change (g : Graph) : Receipt → Graph → Prop where
  /-- A node is put under a new id. -/
  | addNode {number : Counter} {n : Node} (free : g.nextNode? = some number)
    (named : n.id = nodeName number) :
    Change g (.node n.id) ({ g with lastNode := number }.put n)
  /-- A node is deleted with its edges. -/
  | deleteNode (id : NodeId) :
    Change g (.nodeDeleted (g.hasNode id) (g.deleteNode id).1) (g.deleteNode id).2
  /-- The edges of an id are deleted. -/
  | deleteEdge (id : EdgeId) : Change g (.edgeDeleted (g.deleteEdge id).1) (g.deleteEdge id).2
  /-- An edge between nodes of the graph is added under a new id. -/
  | connect {number : Counter} {e : Edge} (free : g.nextEdge? = some number)
    (named : e.id = edgeName number) (source : g.hasNode e.source) (target : g.hasNode e.target) :
    Change g (.edge e.id) { g with lastEdge := number, edges := g.edges ++ [e] }
  /-- A node is replaced by another of its id. -/
  | modify {id : NodeId} {n n' : Node} (found : g.node? id = some n) (same : n'.id = n.id) :
    Change g .done { g with nodes := g.nodes.insert id n' }

lemma change_of_addNodeAt {type : NodeType} {data : NodeData} {position : Position} {id : NodeId}
    (h : g.addNodeAt type data position = .ok (id, g')) : g.Change (.node id) g' := by
  rw [addNodeAt] at h
  split at h
  · simp at h
  · next free =>
    obtain ⟨rfl, rfl⟩ : _ = id ∧ _ = g' := by simpa using h
    exact .addNode (n := ⟨_, type, data, position⟩) free rfl

lemma change_of_modify {id : NodeId} {f : Node → Node} (hf : ∀ n, (f n).id = n.id)
    (h : g.modify id f = .ok g') : g.Change .done g' := by
  rw [modify] at h
  split at h
  · simp at h
  · next found =>
    obtain rfl := Except.ok.inj h
    exact .modify found (hf _)

lemma change_of_connect {source target : NodeId} {id : EdgeId}
    (h : g.connect source target = .ok (id, g')) : g.Change (.edge id) g' := by
  rw [connect] at h
  split at h
  · simp at h
  · next hsource =>
    split at h
    · simp at h
    · next htarget =>
      split at h
      · simp at h
      · next free =>
        obtain ⟨rfl, rfl⟩ : _ = id ∧ _ = g' := by simpa using h
        exact .connect (e := ⟨_, source, target⟩) free rfl (by simpa using hsource)
          (by simpa using htarget)

/-- Every edit that succeeds changes the graph in one of these ways. -/
theorem change_of_apply {e : Edit} {r : Receipt} (h : g.apply e = .ok (r, g')) :
    g.Change r g' := by
  have hmap : ∀ {α : Type} {x : Except EditError α} {f : α → Receipt × Graph},
      x.map f = .ok (r, g') → ∃ a, x = .ok a ∧ f a = (r, g') := by
    intro α x f hx
    cases x with
    | error err => simp [Except.map] at hx
    | ok a => exact ⟨a, rfl, Except.ok.inj hx⟩
  cases e with
  | addNode type data =>
    obtain ⟨⟨id, after⟩, hadd, heq⟩ := hmap h
    obtain ⟨rfl, rfl⟩ := Prod.mk.inj heq
    exact change_of_addNodeAt hadd
  | copyNode id =>
    obtain ⟨⟨copy, after⟩, hcopy, heq⟩ := hmap h
    obtain ⟨rfl, rfl⟩ := Prod.mk.inj heq
    rw [copyNode] at hcopy
    split at hcopy
    · simp at hcopy
    · exact change_of_addNodeAt hcopy
  | deleteNode id =>
    obtain ⟨rfl, rfl⟩ := Prod.mk.inj (Except.ok.inj h)
    exact .deleteNode id
  | deleteEdge id =>
    obtain ⟨rfl, rfl⟩ := Prod.mk.inj (Except.ok.inj h)
    exact .deleteEdge id
  | connect source target =>
    obtain ⟨⟨id, after⟩, hconnect, heq⟩ := hmap h
    obtain ⟨rfl, rfl⟩ := Prod.mk.inj heq
    exact change_of_connect hconnect
  | setData id data =>
    obtain ⟨after, hset, heq⟩ := hmap h
    obtain ⟨rfl, rfl⟩ := Prod.mk.inj heq
    exact change_of_modify (f := fun n => { n with data }) (fun _ => rfl) hset
  | setPosition id position =>
    obtain ⟨after, hset, heq⟩ := hmap h
    obtain ⟨rfl, rfl⟩ := Prod.mk.inj heq
    exact change_of_modify (f := fun n => { n with position }) (fun _ => rfl) hset

/-! ### Well-formed graphs -/

/-- Nodes stand under their own ids, edges have different ids, and no edge leads from or to a node
that is not there. -/
structure WellFormed (g : Graph) : Prop where
  id_eq : ∀ {id : NodeId} {n : Node}, g.node? id = some n → n.id = id
  nodup_edges : (g.edges.map (·.id)).Nodup
  hasNode_source : ∀ e ∈ g.edges, g.hasNode e.source
  hasNode_target : ∀ e ∈ g.edges, g.hasNode e.target

/-- The list of the nodes names each of them once. -/
lemma WellFormed.nodup_nodes (hg : g.WellFormed) : (g.nodeList.map (·.id)).Nodup := by
  have hkeys : g.nodeList.map (·.id) = g.nodes.keys := by
    rw [nodeList, List.map_map, ← Std.ExtTreeMap.map_fst_toList_eq_keys]
    refine List.map_congr_left fun p hp => ?_
    exact hg.id_eq (Std.ExtTreeMap.mem_toList_iff_getElem?_eq_some.1 hp)
  rw [hkeys]
  exact Std.ExtTreeMap.nodup_keys

/-- The nodes are those of the list. -/
lemma WellFormed.node?_eq_some_iff (hg : g.WellFormed) {id : NodeId} {n : Node} :
    g.node? id = some n ↔ n ∈ g.nodeList ∧ n.id = id := by
  constructor
  · intro h
    exact ⟨List.mem_map.2 ⟨(id, n), Std.ExtTreeMap.mem_toList_iff_getElem?_eq_some.2 h, rfl⟩,
      hg.id_eq h⟩
  · rintro ⟨hmem, rfl⟩
    obtain ⟨⟨key, m⟩, hp, rfl⟩ := List.mem_map.1 hmem
    have hm : g.node? key = some m := Std.ExtTreeMap.mem_toList_iff_getElem?_eq_some.1 hp
    rwa [hg.id_eq hm]

lemma wellFormed_empty : empty.WellFormed where
  id_eq h := by simp [node?, empty] at h
  nodup_edges := List.nodup_nil
  hasNode_source := by simp [empty]
  hasNode_target := by simp [empty]

/-- A node may always be set under its own id. -/
lemma WellFormed.put (hg : g.WellFormed) (n : Node) (number : Counter) :
    ({ g with lastNode := number }.put n).WellFormed := by
  have hstays : ∀ id, g.hasNode id → (g.put n).hasNode id :=
    fun id h => (hasNode_put g n id).2 (.inr h)
  refine ⟨fun {id m} h => ?_, hg.nodup_edges, fun e he => hstays _ (hg.hasNode_source e he),
    fun e he => hstays _ (hg.hasNode_target e he)⟩
  have hm : (g.put n).node? id = some m := h
  rw [node?_put] at hm
  split at hm
  · next hid => rw [← Option.some.inj hm, hid]
  · exact hg.id_eq hm

/-- An edge may be added under an unused id between nodes that are there. -/
lemma WellFormed.concat (hg : g.WellFormed) {e : Edge} (hid : e.id ∉ g.edges.map (·.id))
    (hsource : g.hasNode e.source) (htarget : g.hasNode e.target) (number : Counter) :
    WellFormed { g with edges := g.edges ++ [e], lastEdge := number } where
  id_eq := hg.id_eq
  nodup_edges := by
    rw [List.map_append, List.map_singleton]
    exact List.nodup_append.2 ⟨hg.nodup_edges, List.nodup_singleton _, by
      rintro a ha b hb rfl
      exact hid (List.mem_singleton.1 hb ▸ ha)⟩
  hasNode_source := by
    intro e' he'
    rcases List.mem_append.1 he' with he' | he'
    · exact hg.hasNode_source e' he'
    · exact List.mem_singleton.1 he' ▸ hsource
  hasNode_target := by
    intro e' he'
    rcases List.mem_append.1 he' with he' | he'
    · exact hg.hasNode_target e' he'
    · exact List.mem_singleton.1 he' ▸ htarget

/-- No edge touches a node that is not there. -/
lemma WellFormed.filter_touches (hg : g.WellFormed) {id : NodeId} (habsent : ¬ g.hasNode id) :
    g.edges.filter (fun e => !e.touches id) = g.edges := by
  refine List.filter_eq_self.2 fun e he => ?_
  have hsource : e.source ≠ id := fun h => habsent (h ▸ hg.hasNode_source e he)
  have htarget : e.target ≠ id := fun h => habsent (h ▸ hg.hasNode_target e he)
  simp [Edge.touches, hsource, htarget]

/-- The edges that touch a node go with it, and no others. -/
lemma WellFormed.edges_deleteNode (hg : g.WellFormed) (id : NodeId) :
    (g.deleteNode id).2.edges = g.edges.filter fun e => !e.touches id := by
  rw [Graph.deleteNode]
  split
  · rfl
  · next habsent => exact (hg.filter_touches habsent).symm

/-- The deleted edges are counted. -/
lemma count_deleteNode (g : Graph) (id : NodeId) :
    (g.deleteNode id).1 + (g.deleteNode id).2.edges.length = g.edges.length := by
  rw [Graph.deleteNode]
  split
  · exact Nat.sub_add_cancel (List.length_filter_le _ _)
  · exact Nat.zero_add _

lemma WellFormed.deleteNode (hg : g.WellFormed) (id : NodeId) : (g.deleteNode id).2.WellFormed := by
  have hends : ∀ e ∈ (g.deleteNode id).2.edges, e ∈ g.edges ∧ id ≠ e.source ∧ id ≠ e.target := by
    intro e he
    rw [hg.edges_deleteNode, List.mem_filter] at he
    obtain ⟨he, htouch⟩ := he
    simp only [Edge.touches, Bool.not_eq_true', Bool.or_eq_false_iff, beq_eq_false_iff_ne] at htouch
    exact ⟨he, htouch.1.symm, htouch.2.symm⟩
  refine ⟨fun {id' n} h => ?_, ?_, fun e he => ?_, fun e he => ?_⟩
  · rw [node?_deleteNode] at h
    split at h
    · simp at h
    · exact hg.id_eq h
  · rw [hg.edges_deleteNode]
    exact hg.nodup_edges.sublist (List.filter_sublist.map _)
  · obtain ⟨he, hsource, -⟩ := hends e he
    exact (hasNode_deleteNode g id _).2 ⟨hsource, hg.hasNode_source e he⟩
  · obtain ⟨he, -, htarget⟩ := hends e he
    exact (hasNode_deleteNode g id _).2 ⟨htarget, hg.hasNode_target e he⟩

lemma WellFormed.deleteEdge (hg : g.WellFormed) (id : EdgeId) : (g.deleteEdge id).2.WellFormed where
  id_eq := hg.id_eq
  nodup_edges := hg.nodup_edges.sublist (List.filter_sublist.map _)
  hasNode_source e he := hg.hasNode_source e (List.mem_of_mem_filter he)
  hasNode_target e he := hg.hasNode_target e (List.mem_of_mem_filter he)

/-- Whatever an edit does, the graph stays well formed. -/
lemma WellFormed.change (hg : g.WellFormed) {r : Receipt} (h : g.Change r g') :
    g'.WellFormed := by
  cases h with
  | addNode free named => exact hg.put _ _
  | deleteNode id => exact hg.deleteNode id
  | deleteEdge id => exact hg.deleteEdge id
  | connect free named source target =>
    refine hg.concat ?_ source target _
    rw [named]
    exact Counter.notMem_of_firstUnused? free
  | @modify id n n' found same =>
    -- the node stands under the id of the one it replaces
    obtain rfl : n'.id = id := same.trans (hg.id_eq found)
    exact hg.put n' g.lastNode

/-! ### Imported graphs -/

/-- The graph with a saved node. -/
def withNode (g : Graph) (n : Node) : Graph :=
  { g with lastNode := max g.lastNode (Counter.ofId n.id) }.put n

/-- The graph with a saved edge. -/
def withEdge (g : Graph) (e : Edge) : Graph :=
  { g with edges := g.edges ++ [e], lastEdge := max g.lastEdge (edgeNumber e.id) }

/-- What is kept while nodes are added holds after their import. -/
lemma importNodes_induct {P : Graph → Prop} (node : ∀ g n, P g → P (g.withNode n))
    {nodes : List Node} (hg : P g) (h : g.importNodes nodes = .ok g') : P g' := by
  induction nodes generalizing g with
  | nil => exact Except.ok.inj h ▸ hg
  | cons n rest ih =>
    rw [importNodes] at h
    split at h
    · simp at h
    · exact ih (node g n hg) h

/-- What is kept while edges with unused ids are added between nodes that are there holds after
their import. -/
lemma importEdges_induct {P : Graph → Prop}
    (edge : ∀ g e, P g → e.id ∉ g.edges.map (·.id) → g.hasNode e.source → g.hasNode e.target →
      P (g.withEdge e))
    {seen : Std.ExtTreeSet EdgeId} {added edges : List Edge}
    (hseen : ∀ id, id ∈ seen ↔ id ∈ (g.edges ++ added.reverse).map (·.id))
    (hg : P { g with edges := g.edges ++ added.reverse })
    (h : g.importEdges seen added edges = .ok g') : P g' := by
  induction edges generalizing g seen added with
  | nil => exact Except.ok.inj h ▸ hg
  | cons e rest ih =>
    rw [importEdges] at h
    split at h
    · simp at h
    · next hunused =>
      split at h
      · simp at h
      · next hsource =>
        split at h
        · simp at h
        · next htarget =>
          rw [Std.ExtTreeSet.contains_iff_mem, hseen] at hunused
          have hsource : g.hasNode e.source := by simpa using hsource
          have htarget : g.hasNode e.target := by simpa using htarget
          have hadded := edge _ e hg hunused hsource htarget
          refine ih (fun id => ?_) ?_ h
          · rw [Std.ExtTreeSet.mem_insert, Std.compare_eq_iff_eq, hseen, eq_comm]
            simp only [List.reverse_cons, List.map_append, List.map_singleton, List.mem_append,
              List.mem_singleton]
            tauto
          · rwa [List.reverse_cons, ← List.append_assoc]

/-- An accepted snapshot is imported into the empty graph, first its nodes and then its edges. -/
lemma importNodes_of_ofSnapshot {s : Snapshot} (h : ofSnapshot s = .ok g) :
    ∃ g₁, Graph.empty.importNodes s.nodes = .ok g₁ ∧ g₁.importEdges ∅ [] s.edges = .ok g := by
  rw [ofSnapshot] at h
  cases hnodes : Graph.empty.importNodes s.nodes with
  | error fault => simp [hnodes, bind, Except.bind] at h
  | ok g₁ => exact ⟨g₁, rfl, by simpa [hnodes, bind, Except.bind] using h⟩

/-- What holds of the empty graph and is kept while nodes and edges are added holds of every
accepted snapshot. -/
lemma ofSnapshot_induct {P : Graph → Prop} (empty : P empty)
    (node : ∀ g n, P g → P (g.withNode n))
    (edge : ∀ g e, P g → e.id ∉ g.edges.map (·.id) → g.hasNode e.source → g.hasNode e.target →
      P (g.withEdge e))
    {s : Snapshot} (h : ofSnapshot s = .ok g) : P g := by
  obtain ⟨g₁, hnodes, hedges⟩ := importNodes_of_ofSnapshot h
  -- the edges are imported into a graph that has none
  obtain ⟨hg₁, hnone⟩ : P g₁ ∧ g₁.edges = [] :=
    importNodes_induct (P := fun g => P g ∧ g.edges = []) (fun g n hg => ⟨node g n hg.1, hg.2⟩)
      ⟨empty, rfl⟩ hnodes
  refine importEdges_induct edge (fun id => ?_) ?_ hedges
  · simp [hnone]
  · rwa [List.reverse_nil, List.append_nil]

/-! ### Runs of edits -/

/-- The graphs to start from: the empty one, and those of accepted snapshots. -/
inductive Initial : Graph → Prop where
  | empty : Initial .empty
  | imported {s : Snapshot} {g : Graph} (accepted : ofSnapshot s = .ok g) : Initial g

/-- The graph after an edit; one that fails changes nothing. -/
def edited (g : Graph) (e : Edit) : Graph :=
  match g.apply e with
  | .ok (_, g') => g'
  | .error _ => g

/-- The graph after edits, made one after the other. -/
def after (g : Graph) (edits : List Edit) : Graph := edits.foldl edited g

lemma after_append (g : Graph) (edits more : List Edit) :
    g.after (edits ++ more) = (g.after edits).after more := List.foldl_append

/-- What every change keeps holds after edits if it held before. -/
lemma after_induct {P : Graph → Prop} (change : ∀ g r g', P g → g.Change r g' → P g') (hg : P g)
    (edits : List Edit) : P (g.after edits) := by
  induction edits generalizing g with
  | nil => exact hg
  | cons e rest ih =>
    refine ih ?_
    rw [edited]
    split
    · next h => exact change _ _ _ hg (change_of_apply h)
    · exact hg

lemma wellFormed_of_initial (h : g.Initial) : g.WellFormed := by
  cases h with
  | empty => exact wellFormed_empty
  | imported accepted =>
    exact ofSnapshot_induct wellFormed_empty (fun g n hg => hg.put n _)
      (fun g e hg hid hsource htarget => hg.concat hid hsource htarget _) accepted

/-- From the empty graph or an accepted snapshot no edits lead to a graph that is not well formed,
and from there a deleted node takes with it all edges that touch it, and as many as it says, and
leaves the others in their order.  An edge touches the nodes at its ends. -/
theorem wellFormed_after (h : g.Initial) (edits : List Edit) :
    (g.after edits).WellFormed ∧ ((g.after edits).nodeList.map (·.id)).Nodup ∧
      (∀ (e : Edge) (id : NodeId), e.touches id ↔ e.source = id ∨ e.target = id) ∧
      ∀ id count g', (g.after edits).deleteNode id = (count, g') →
        ¬ g'.hasNode id ∧ (∀ e ∈ g'.edges, ¬ e.touches id) ∧
          g'.edges = (g.after edits).edges.filter (fun e => !e.touches id) ∧
          count + g'.edges.length = (g.after edits).edges.length := by
  have hafter : (g.after edits).WellFormed :=
    after_induct (fun _ _ _ hg => hg.change) (wellFormed_of_initial h) edits
  refine ⟨hafter, hafter.nodup_nodes, fun e id => by simp [Edge.touches], ?_⟩
  rintro id count g' hdelete
  obtain ⟨rfl, rfl⟩ : ((g.after edits).deleteNode id).1 = count ∧
      ((g.after edits).deleteNode id).2 = g' := by rw [hdelete]; exact ⟨rfl, rfl⟩
  have hedges := hafter.edges_deleteNode id
  refine ⟨?_, fun e he => ?_, hedges, count_deleteNode _ id⟩
  · simp [hasNode_deleteNode]
  · rw [hedges, List.mem_filter] at he
    simpa using he.2

/-- Two nodes and two edges with ids that were not given out here. -/
def saved : Snapshot where
  nodes := [{ id := "007", type := .template }, { id := "x", type := .document }]
  edges := [⟨"ee7", "007", "x"⟩, ⟨"e-1", "x", "x"⟩]

theorem wellFormed_saved : ∃ g g', ofSnapshot saved = .ok g ∧
    (g.after [.setData "x" .empty, .deleteEdge "+1"]).deleteNode "x" = (2, g') ∧
    (g.after [.setData "x" .empty, .deleteEdge "+1"]).WellFormed ∧ g'.edges = [] ∧
    ¬ g'.hasNode "x" := by
  refine ⟨_, _, rfl, rfl, ?_⟩
  obtain ⟨hwell, -, -, hdelete⟩ := wellFormed_after (.imported (s := saved) rfl)
    [.setData "x" .empty, .deleteEdge "+1"]
  exact ⟨hwell, rfl, (hdelete "x" 2 _ rfl).1⟩

end Graph

end Chatflow
