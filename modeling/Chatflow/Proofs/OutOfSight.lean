/-
# Edits that a script does not show

An edit is out of sight of the root if it concerns nothing that the root leads to along slots: a new
node unless it is the root, a node that is not reached, an edge for which a node has no slot, any
place (`Edit.OutOfSight`).  Such an edit keeps all that is in sight (`Graph.keeps_apply`), because
in a well-formed graph every slot of a node in sight leads to a node in sight.  So the script of a
session stays the same, to the last character of its text (`Session.sameEnd_edit`).

This and what holds of lists come down to one statement about any two graphs; it is put together in
`Compiler.readsInSight`.
-/
import Chatflow.Proofs.Contents
import Chatflow.Proofs.Reachable

namespace Chatflow

open Relation
open Json (Decoder)

/-! ### What is in sight -/

namespace Graph

variable {c : Compiler} {root id : NodeId} {g g' : Graph} {n : Node}

/-- The root leads to the node along slots. -/
def InSight (c : Compiler) (g : Graph) (root id : NodeId) : Prop :=
  ReflTransGen (c.SlotEdge (.ofLists g.nodeList g.edges)) root id

lemma WellFormed.node?_ofLists (hg : g.WellFormed) (id : NodeId) :
    (GraphIndex.ofLists g.nodeList g.edges).node? id = g.node? id := by
  ext n
  rw [GraphIndex.node?_eq_some_iff hg.nodup_nodes, hg.node?_eq_some_iff]

/-- The slots of a node in sight lead to nodes in sight. -/
lemma WellFormed.inSight_target (hg : g.WellFormed) (hid : g.InSight c root id)
    (hn : g.node? id = some n) {e : Edge} (he : e ∈ (g.outgoing id).take (c.slots n)) :
    g.InSight c root e.target ∧ (g.node? e.target).isSome := by
  have hmem : e ∈ g.edges := List.mem_of_mem_filter (List.mem_of_mem_take he)
  have hsome := (hasNode_iff g e.target).1 (hg.hasNode_target e hmem)
  refine ⟨hid.tail ⟨n, by rw [hg.node?_ofLists, hn], ⟨e, ?_, rfl⟩, ?_⟩, hsome⟩
  · rwa [GraphIndex.edgesFrom_ofLists]
  · rwa [hg.node?_ofLists]

/-- All that is in sight of the root is in the second graph as it is in the first. -/
structure Keeps (c : Compiler) (root : NodeId) (g g' : Graph) : Prop where
  isSome_root : (g'.node? root).isSome = (g.node? root).isSome
  exists_node : ∀ {id n}, g.InSight c root id → g.node? id = some n →
    ∃ m, g'.node? id = some m ∧ m.type = n.type ∧ m.data = n.data
  take_outgoing : ∀ {id n}, g.InSight c root id → g.node? id = some n →
    (g'.outgoing id).take (c.slots n) = (g.outgoing id).take (c.slots n)

lemma Keeps.alikeFrom (h : Keeps c root g g') (hg : g.WellFormed) (hg' : g'.WellFormed) :
    c.AlikeFrom (.ofLists g.nodeList g.edges) (.ofLists g'.nodeList g'.edges) root where
  isSome_root := by
    rw [hg.node?_ofLists, hg'.node?_ofLists]
    exact h.isSome_root
  exists_node := by
    intro id n hid hn
    rw [hg.node?_ofLists] at hn
    rw [hg'.node?_ofLists]
    exact h.exists_node hid hn
  map_target := by
    intro id n hid hn
    rw [hg.node?_ofLists] at hn
    rw [GraphIndex.edgesFrom_ofLists, GraphIndex.edgesFrom_ofLists]
    exact congrArg (List.map (·.target)) (h.take_outgoing hid hn)
  isSome_target := by
    intro id n hid hn e he
    rw [hg.node?_ofLists] at hn
    rw [GraphIndex.edgesFrom_ofLists] at he
    -- targets in sight are there, and so they are kept
    obtain ⟨htarget, hsome⟩ := hg.inSight_target hid hn he
    obtain ⟨m, hm⟩ := Option.isSome_iff_exists.1 hsome
    obtain ⟨m', hm', -⟩ := h.exists_node htarget hm
    rw [hg.node?_ofLists, hg'.node?_ofLists, hm, hm']
    rfl

/-! ### Nodes out of sight -/

/-- A new node is out of sight unless it is the root. -/
lemma keeps_put {m : Node} (hnew : ¬ g.hasNode m.id) (hroot : m.id ≠ root) (number : Counter) :
    Keeps c root g ({ g with lastNode := number }.put m) := by
  have hnode : ∀ id, m.id ≠ id → ({ g with lastNode := number }.put m).node? id = g.node? id := by
    intro id hid
    rw [node?_put, if_neg hid]
    rfl
  refine ⟨by rw [hnode root hroot], fun {id n} _ hn => ?_, fun _ _ => rfl⟩
  have hid : m.id ≠ id := fun hid => hnew (hid ▸ hasNode_of_node? hn)
  exact ⟨n, by rw [hnode id hid, hn], rfl, rfl⟩

/-- A node may be changed in its type and data if it is out of sight, else in its place. -/
lemma keeps_insert {m : Node} (hn : g.node? id = some n)
    (h : g.InSight c root id → m.type = n.type ∧ m.data = n.data) :
    Keeps c root g { g with nodes := g.nodes.insert id m } := by
  refine ⟨?_, fun {other k} hother hk => ?_, fun _ _ => rfl⟩
  · rw [node?_insert]
    split
    · next hid => rw [← hid, hn]; rfl
    · rfl
  · rw [node?_insert]
    split
    · next hid =>
      subst hid
      obtain rfl := Option.some.inj (hn.symm.trans hk)
      exact ⟨m, rfl, h hother⟩
    · exact ⟨k, hk, rfl, rfl⟩

/-! ### Edges out of sight -/

lemma take_filter_of_forall {α : Type} {p : α → Bool} {xs : List α} {k : Nat}
    (h : ∀ x ∈ xs.take k, p x) : (xs.filter p).take k = xs.take k := by
  induction xs generalizing k with
  | nil => rfl
  | cons x rest ih =>
    cases k with
    | zero => simp
    | succ k =>
      rw [List.take_succ_cons] at h ⊢
      rw [List.filter_cons_of_pos (h x List.mem_cons_self), List.take_succ_cons,
        ih fun y hy => h y (List.mem_cons_of_mem x hy)]

/-- Edges are out of sight if they stand behind those for which their source has a slot. -/
lemma take_outgoing_filter {p : Edge → Bool} {k : Nat}
    (hedges : g'.edges = g.edges.filter p) (h : ∀ e ∈ (g.outgoing id).take k, p e) :
    (g'.outgoing id).take k = (g.outgoing id).take k := by
  rw [outgoing, hedges, List.filter_comm]
  exact take_filter_of_forall h

/-- A node out of sight may be deleted with its edges. -/
lemma keeps_deleteNode (hg : g.WellFormed) (h : ¬ g.InSight c root id) :
    Keeps c root g (g.deleteNode id).2 := by
  have hnode : ∀ other, g.InSight c root other →
      (g.deleteNode id).2.node? other = g.node? other := by
    intro other hother
    rw [node?_deleteNode, if_neg fun (hid : id = other) => h (hid.symm ▸ hother)]
  refine ⟨by rw [hnode root .refl], fun {other n} hother hn => ?_, fun {other n} hother hn => ?_⟩
  · exact ⟨n, by rw [hnode other hother, hn], rfl, rfl⟩
  · refine take_outgoing_filter (hg.edges_deleteNode id) fun e he => ?_
    obtain rfl : e.source = other := by simpa using List.of_mem_filter (List.mem_of_mem_take he)
    have hsource : e.source ≠ id := fun hid => h (hid ▸ hother)
    have htarget : e.target ≠ id := fun hid => h (hid ▸ (hg.inSight_target hother hn he).1)
    simp [Edge.touches, hsource, htarget]

/-- Edges without a slot may be deleted. -/
lemma keeps_deleteEdge {deleted : EdgeId}
    (h : ∀ id n, g.InSight c root id → g.node? id = some n →
      ∀ e ∈ (g.outgoing id).take (c.slots n), e.id ≠ deleted) :
    Keeps c root g (g.deleteEdge deleted).2 := by
  refine ⟨rfl, fun {id n} _ hn => ⟨n, hn, rfl, rfl⟩, fun {id n} hid hn => ?_⟩
  exact take_outgoing_filter rfl fun e he => by simpa using h id n hid hn e he

/-- An edge may be added where there is no slot left for it. -/
lemma keeps_concat {e : Edge} (number : Counter)
    (h : ∀ n, g.InSight c root e.source → g.node? e.source = some n →
      c.slots n ≤ (g.outgoing e.source).length) :
    Keeps c root g { g with lastEdge := number, edges := g.edges ++ [e] } := by
  refine ⟨rfl, fun {id n} _ hn => ⟨n, hn, rfl, rfl⟩, fun {id n} hid hn => ?_⟩
  rw [outgoing, List.filter_append]
  by_cases hsource : e.source = id
  · subst hsource
    exact List.take_append_of_le_length (h n hid hn)
  · rw [List.filter_cons_of_neg (by simpa using hsource), List.filter_nil, List.append_nil]
    rfl

end Graph

/-! ### Edits out of sight -/

section

variable {c : Compiler} {root : NodeId} {g g' : Graph}

/-- The edit concerns nothing that the root leads to along slots. -/
def Edit.OutOfSight (c : Compiler) (g : Graph) (root : NodeId) : Edit → Prop
  | addNode _ _ | copyNode _ => g.nextNode?.map Graph.nodeName ≠ some root
  | deleteNode id | setData id _ => ¬ g.InSight c root id
  | deleteEdge deleted => ∀ id n, g.InSight c root id → g.node? id = some n →
      ∀ e ∈ (g.outgoing id).take (c.slots n), e.id ≠ deleted
  | connect source _ => ∀ n, g.InSight c root source → g.node? source = some n →
      c.slots n ≤ (g.outgoing source).length
  | setPosition _ _ => True

lemma Graph.keeps_addNodeAt (hroot : g.nextNode?.map nodeName ≠ some root) {type : NodeType}
    {data : NodeData} {position : Position} {id : NodeId}
    (h : g.addNodeAt type data position = .ok (id, g')) : Keeps c root g g' := by
  rw [addNodeAt] at h
  split at h
  · simp at h
  · next number free =>
    obtain ⟨rfl, rfl⟩ : _ = id ∧ _ = g' := by simpa using h
    refine keeps_put (m := ⟨nodeName number, type, data, position⟩) (fun hhas => ?_)
      (fun hid => hroot ?_) number
    · exact Counter.notMem_of_firstUnused? free ((mem_keys_iff g _).2 hhas)
    · rw [free, ← hid]
      rfl

/-- An edit out of sight keeps all that is in sight. -/
lemma Graph.keeps_apply (hg : g.WellFormed) {e : Edit} (he : e.OutOfSight c g root)
    {receipt : Receipt} (h : g.apply e = .ok (receipt, g')) : Keeps c root g g' := by
  cases e with
  | addNode type data =>
    obtain ⟨⟨id, after⟩, hadd, heq⟩ := Decoder.exists_of_map_eq_ok h
    exact (Prod.mk.inj heq).2 ▸ keeps_addNodeAt he hadd
  | copyNode id =>
    obtain ⟨⟨copy, after⟩, hcopy, heq⟩ := Decoder.exists_of_map_eq_ok h
    rw [copyNode] at hcopy
    split at hcopy
    · simp at hcopy
    · exact (Prod.mk.inj heq).2 ▸ keeps_addNodeAt he hcopy
  | deleteNode id =>
    obtain rfl : (g.deleteNode id).2 = g' := (Prod.mk.inj (Except.ok.inj h)).2
    exact keeps_deleteNode hg he
  | deleteEdge id =>
    obtain ⟨-, rfl⟩ := Prod.mk.inj (Except.ok.inj h)
    exact keeps_deleteEdge he
  | connect source target =>
    obtain ⟨⟨id, after⟩, hconnect, heq⟩ := Decoder.exists_of_map_eq_ok h
    obtain ⟨-, rfl⟩ := Prod.mk.inj heq
    rw [connect] at hconnect
    split at hconnect
    · simp at hconnect
    · split at hconnect
      · simp at hconnect
      · split at hconnect
        · simp at hconnect
        · next number free =>
          obtain ⟨-, rfl⟩ : _ = id ∧ _ = after := by simpa using hconnect
          exact keeps_concat (e := ⟨edgeName number, source, target⟩) number he
  | setData id data =>
    obtain ⟨after, hset, heq⟩ := Decoder.exists_of_map_eq_ok h
    obtain ⟨-, rfl⟩ := Prod.mk.inj heq
    rw [setData, modify] at hset
    split at hset
    · simp at hset
    · next n hn => exact Except.ok.inj hset ▸ keeps_insert hn fun hid => absurd hid he
  | setPosition id position =>
    obtain ⟨after, hset, heq⟩ := Decoder.exists_of_map_eq_ok h
    obtain ⟨-, rfl⟩ := Prod.mk.inj heq
    rw [setPosition, modify] at hset
    split at hset
    · simp at hset
    · next n hn => exact Except.ok.inj hset ▸ keeps_insert hn fun _ => ⟨rfl, rfl⟩

end

/-! ### Sessions -/

namespace Session

variable {s : Session}

lemma wellFormed_after_start {graph : Graph} (h : graph.Initial) (c : Compiler)
    (scheme : IdScheme) (root : NodeId) (requests : List Request) :
    ((start c scheme graph root).after requests).graph.WellFormed := by
  rw [graph_after]
  exact Graph.after_induct (fun _ _ _ hg => hg.change) (Graph.wellFormed_of_initial h) _

/-- An edit out of sight leaves the script of a session as it was. -/
lemma sameEnd_edit (hs : s.UpToDate) (hg : s.graph.WellFormed) {e : Edit}
    (he : e.OutOfSight s.compiler s.graph s.root) :
    SameEnd Compilation.SameScript s.output (s.edit e).2.output := by
  have hrefl : SameEnd Compilation.SameScript s.output s.output :=
    .refl (fun _ => ⟨rfl, rfl, rfl, rfl⟩) _
  cases h : s.graph.apply e with
  | error err => rwa [edit_of_error h]
  | ok result =>
    obtain ⟨receipt, graph⟩ := result
    rw [edit_of_ok h]
    by_cases hstructural : e.isStructural
    · rw [if_pos hstructural, hs]
      have hkeeps := Graph.keeps_apply hg he h
      exact Compiler.sameEnd_of_alikeFrom
        (hkeeps.alikeFrom hg (hg.change (Graph.change_of_apply h))) s.scheme.source
    · rwa [if_neg hstructural]

end Session

/-! ### All together -/

/-- A compiler looks only at what the root leads to along slots. -/
structure Compiler.ReadsInSight (c : Compiler) : Prop where
  /-- From lists that are alike from the root comes the same error, or the same tree with the same
  ids, of which the same is noticed but for dropped edges. -/
  sameEnd : ∀ {γ : Type} [IdGenerator γ] (generator : γ) (nodes nodes' : List Node)
    (edges edges' : List Edge) (root : NodeId),
    c.AlikeFrom (.ofLists nodes edges) (.ofLists nodes' edges') root →
      SameEnd Compilation.SameScript (c.runLists nodes edges root generator).result
        (c.runLists nodes' edges' root generator).result
  /-- The dropped edges are the same too if the nodes that are reached have the same edges. -/
  result_eq : ∀ {γ : Type} [IdGenerator γ] (generator : γ) (nodes nodes' : List Node)
    (edges edges' : List Edge) (root : NodeId),
    c.AlikeFrom (.ofLists nodes edges) (.ofLists nodes' edges') root →
      (∀ id n, ReflTransGen (c.SlotEdge (.ofLists nodes edges)) root id →
        (GraphIndex.ofLists nodes edges).node? id = some n →
          edges'.filter (·.source == id) = edges.filter (·.source == id)) →
      (c.runLists nodes edges root generator).result
        = (c.runLists nodes' edges' root generator).result
  /-- Neither the order of nodes with distinct ids matters nor their places, nor how the edges of
  different nodes are mixed. -/
  result_eq_of_perm : ∀ {γ : Type} [IdGenerator γ] (generator : γ) (nodes nodes' : List Node)
    (edges edges' : List Edge) (root : NodeId), (nodes.map (·.id)).Nodup →
    (nodes'.map Node.unplaced).Perm (nodes.map Node.unplaced) →
      (∀ id, edges'.filter (·.source == id) = edges.filter (·.source == id)) →
      (c.runLists nodes edges root generator).result
        = (c.runLists nodes' edges' root generator).result
  /-- Nor do edges for which their source has no slot, for the text of the script. -/
  text_eq_of_take : ∀ {γ : Type} [IdGenerator γ] (generator : γ) (nodes nodes' : List Node)
    (edges edges' : List Edge) (root : NodeId), (nodes.map (·.id)).Nodup →
    (nodes'.map Node.unplaced).Perm (nodes.map Node.unplaced) →
      (∀ n ∈ nodes, ((edges'.filter (·.source == n.id)).take (c.slots n)).map (·.target)
        = ((edges.filter (·.source == n.id)).take (c.slots n)).map (·.target)) →
      (c.runLists nodes edges root generator).result.map (·.document.text)
        = (c.runLists nodes' edges' root generator).result.map (·.document.text)
  /-- After any requests to a session an edit out of sight leaves its script the same, to the last
  character of the text. -/
  edit : ∀ (scheme : IdScheme) (graph : Graph) (root : NodeId) (requests : List Session.Request)
    (e : Edit), graph.Initial →
    let s := (Session.start c scheme graph root).after requests
    e.OutOfSight c s.graph s.root →
      SameEnd Compilation.SameScript s.output (s.edit e).2.output ∧
        (s.edit e).2.output.map (·.document.text) = s.output.map (·.document.text)

/-- A script depends on nothing but what its root leads to along slots. -/
theorem Compiler.readsInSight (c : Compiler) : c.ReadsInSight where
  sameEnd generator _ _ _ _ _ h := sameEnd_of_alikeFrom h generator
  result_eq generator nodes nodes' edges edges' root h hedges := by
    refine result_eq_of_alikeFrom h (fun id n hid hn => ?_) generator
    rw [GraphIndex.edgesFrom_ofLists, GraphIndex.edgesFrom_ofLists]
    exact hedges id n hid hn
  result_eq_of_perm generator nodes nodes' edges edges' root hnodup hperm hedges := by
    have h : c.AlikeFrom (.ofLists nodes edges) (.ofLists nodes' edges') root :=
      alikeFrom_of_perm hnodup hperm fun n _ => by rw [hedges n.id]
    refine result_eq_of_alikeFrom h (fun id _ _ _ => ?_) generator
    rw [GraphIndex.edgesFrom_ofLists, GraphIndex.edgesFrom_ofLists]
    exact hedges id
  text_eq_of_take generator _ _ _ _ root hnodup hperm htargets :=
    (sameEnd_of_alikeFrom (alikeFrom_of_perm hnodup hperm htargets) generator).map_eq
      fun _ _ => Compilation.SameScript.text_eq
  edit := by
    intro scheme graph root requests e hgraph s he
    have hs : s.UpToDate := Session.upToDate_after (Session.upToDate_start graph root) requests
    have hcompiler : s.compiler = c := (Session.settings_after _ requests).1
    have hend := Session.sameEnd_edit hs
      (Session.wellFormed_after_start hgraph c scheme root requests) (hcompiler.symm ▸ he)
    exact ⟨hend, (hend.map_eq fun _ _ => Compilation.SameScript.text_eq).symm⟩

theorem Compiler.readsInSight_saved : ∃ g, Graph.ofSnapshot Graph.saved = .ok g ∧
    (Edit.deleteEdge "e-1").OutOfSight {} g "007" ∧
    let s := Session.start {} .standard g "007"
    (s.edit (.deleteEdge "e-1")).2.graph.edges = [⟨"ee7", "007", "x"⟩] ∧
      (s.edit (.deleteEdge "e-1")).2.output.map (·.document.text)
        = s.output.map (·.document.text) := by
  obtain ⟨g, hg, hdocument⟩ : ∃ g, Graph.ofSnapshot Graph.saved = .ok g ∧
      g.node? "x" = some { id := "x", type := .document } := ⟨_, rfl, by decide⟩
  have hedges : g.edges = [⟨"ee7", "007", "x"⟩, ⟨"e-1", "x", "x"⟩] := (Graph.of_ofSnapshot hg).2
  have he : (Edit.deleteEdge "e-1").OutOfSight {} g "007" := by
    intro id n _ hn e hmem hid
    obtain ⟨hedge, hsource⟩ := List.mem_filter.1 (List.mem_of_mem_take hmem)
    rw [hedges] at hedge
    obtain rfl : "x" = id := by
      rcases List.mem_pair.1 hedge with rfl | rfl
      · simp at hid
      · simpa using hsource
    -- a document has no slots
    obtain rfl := Option.some.inj (hdocument.symm.trans hn)
    exact absurd hmem List.not_mem_nil
  refine ⟨g, hg, he, ?_, ?_⟩
  · show g.edges.filter (fun e => e.id != "e-1") = _
    rw [hedges]
    rfl
  · exact ((Compiler.readsInSight {}).edit .standard g "007" [] (.deleteEdge "e-1")
      (.imported hg) he).2

end Chatflow
