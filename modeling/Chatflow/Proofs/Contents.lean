/-
# What edits bring into a graph

The data and the places of a graph are those that its edits brought (`Edit.Brings`) and those that
were imported (`Graph.every_of_ofSnapshot`); no edit makes up any others (`Graph.Every.after`).  A
session does nothing to its graph but the edits that it is asked for (`Session.graph_after`).
-/
import Chatflow.Proofs.FreshIds
import Chatflow.Proofs.Json.Decoding
import Chatflow.Proofs.Session

namespace Chatflow

open Json (Decoder)

/-! ### Graphs -/

section

variable {D : NodeData → Prop} {Q : Position → Prop} {g g' : Graph}

/-- All nodes have data and places of these kinds. -/
def Graph.Every (D : NodeData → Prop) (Q : Position → Prop) (g : Graph) : Prop :=
  ∀ id n, g.node? id = some n → D n.data ∧ Q n.position

/-- The edit brings only data and places of these kinds into a graph that has no others. -/
def Edit.Brings (D : NodeData → Prop) (Q : Position → Prop) : Edit → Prop
  | addNode _ data => D data ∧ Q {}
  | copyNode _ => ∀ p, Q p → Q (p.offset Graph.copyOffset.1 Graph.copyOffset.2)
  | setData _ data => D data
  | setPosition _ position => Q position
  | deleteNode _ | deleteEdge _ | connect _ _ => True

lemma Graph.Every.insert (hg : g.Every D Q) {n : Node} (hn : D n.data ∧ Q n.position)
    (key : NodeId) : Every D Q { g with nodes := g.nodes.insert key n } := by
  intro id m hm
  rw [node?_insert] at hm
  split at hm
  · exact Option.some.inj hm ▸ hn
  · exact hg id m hm

lemma Graph.Every.addNodeAt (hg : g.Every D Q) {type : NodeType} {data : NodeData}
    {position : Position} (hn : D data ∧ Q position) {id : NodeId}
    (h : g.addNodeAt type data position = .ok (id, g')) : g'.Every D Q := by
  rw [Graph.addNodeAt] at h
  split at h
  · simp at h
  · obtain ⟨rfl, rfl⟩ : _ = id ∧ _ = g' := by simpa using h
    exact @Every.insert D Q { g with lastNode := _ } hg ⟨_, type, data, position⟩ hn _

/-- What an edit brings is all that it adds to a graph. -/
lemma Graph.Every.apply (hg : g.Every D Q) {e : Edit} (he : e.Brings D Q) {receipt : Receipt}
    (h : g.apply e = .ok (receipt, g')) : g'.Every D Q := by
  cases e with
  | addNode type data =>
    obtain ⟨⟨id, after⟩, hadd, heq⟩ := Decoder.exists_of_map_eq_ok h
    exact (Prod.mk.inj heq).2 ▸ hg.addNodeAt he hadd
  | copyNode id =>
    obtain ⟨⟨copy, after⟩, hcopy, heq⟩ := Decoder.exists_of_map_eq_ok h
    rw [copyNode] at hcopy
    split at hcopy
    · simp at hcopy
    · next n hn =>
      -- the copy has the data of a node that is there, and its place moved
      have hsame := hg id n hn
      exact (Prod.mk.inj heq).2 ▸ hg.addNodeAt ⟨hsame.1, he _ hsame.2⟩ hcopy
  | deleteNode id =>
    obtain rfl : (g.deleteNode id).2 = g' := (Prod.mk.inj (Except.ok.inj h)).2
    intro other n hn
    rw [node?_deleteNode] at hn
    split at hn
    · simp at hn
    · exact hg other n hn
  | deleteEdge id =>
    obtain ⟨-, rfl⟩ := Prod.mk.inj (Except.ok.inj h)
    exact hg
  | connect source target =>
    obtain ⟨⟨id, after⟩, hconnect, heq⟩ := Decoder.exists_of_map_eq_ok h
    obtain ⟨-, rfl⟩ := Prod.mk.inj heq
    cases change_of_connect hconnect with
    | connect free named source target => exact hg
  | setData id data =>
    obtain ⟨after, hset, heq⟩ := Decoder.exists_of_map_eq_ok h
    obtain ⟨-, rfl⟩ := Prod.mk.inj heq
    rw [setData, modify] at hset
    split at hset
    · simp at hset
    · next n hn =>
      have hdata : D data := he
      exact Except.ok.inj hset ▸ hg.insert (n := { n with data }) ⟨hdata, (hg id n hn).2⟩ id
  | setPosition id position =>
    obtain ⟨after, hset, heq⟩ := Decoder.exists_of_map_eq_ok h
    obtain ⟨-, rfl⟩ := Prod.mk.inj heq
    rw [setPosition, modify] at hset
    split at hset
    · simp at hset
    · next n hn =>
      have hposition : Q position := he
      exact Except.ok.inj hset ▸ hg.insert (n := { n with position }) ⟨(hg id n hn).1, hposition⟩ id

lemma Graph.Every.after (hg : g.Every D Q) {edits : List Edit} (h : ∀ e ∈ edits, e.Brings D Q) :
    (g.after edits).Every D Q := by
  induction edits generalizing g with
  | nil => exact hg
  | cons e rest ih =>
    refine ih ?_ fun f hf => h f (List.mem_cons_of_mem e hf)
    rw [edited]
    split
    · next happly => exact hg.apply (h e List.mem_cons_self) happly
    · exact hg

lemma Graph.Every.importNodes (hg : g.Every D Q) {nodes : List Node}
    (hnodes : ∀ n ∈ nodes, D n.data ∧ Q n.position) (h : g.importNodes nodes = .ok g') :
    g'.Every D Q := by
  induction nodes generalizing g with
  | nil => exact Except.ok.inj h ▸ hg
  | cons n rest ih =>
    rw [Graph.importNodes] at h
    split at h
    · simp at h
    · refine ih ?_ (fun m hm => hnodes m (List.mem_cons_of_mem n hm)) h
      exact @insert D Q { g with lastNode := _ } hg n (hnodes n List.mem_cons_self) n.id

/-- An imported graph has the data and the places of its snapshot. -/
lemma Graph.every_of_ofSnapshot {s : Snapshot} (h : ofSnapshot s = .ok g)
    (hs : ∀ n ∈ s.nodes, D n.data ∧ Q n.position) : g.Every D Q := by
  obtain ⟨g₁, hnodes, hedges⟩ := importNodes_of_ofSnapshot h
  have hempty : empty.Every D Q := fun id n hn => by simp [node?, empty] at hn
  intro id n hn
  rw [node?, (of_importEdges hedges).1] at hn
  exact hempty.importNodes hs hnodes id n hn

end

/-! ### Sessions -/

namespace Session

/-- The edit that a request asks for. -/
def Request.edit? : Request → Option Edit
  | .edit e => some e
  | .setRoot _ => none

lemma graph_respond (s : Session) (q : Request) :
    (s.respond q).2.graph = s.graph.after q.edit?.toList := by
  cases q with
  | setRoot root => rfl
  | edit e =>
    show (s.edit e).2.graph = s.graph.edited e
    rw [Graph.edited]
    cases h : s.graph.apply e with
    | error err => rw [edit_of_error h]
    | ok result =>
      rw [edit_of_ok h]
      by_cases he : e.isStructural
      · rw [if_pos he]
        rfl
      · rw [if_neg he]

/-- All that requests do to the graph is in their edits. -/
lemma graph_after (s : Session) (requests : List Request) :
    (s.after requests).graph = s.graph.after (requests.flatMap (·.edit?.toList)) := by
  induction requests generalizing s with
  | nil => rfl
  | cons q rest ih =>
    rw [List.flatMap_cons, Graph.after_append, ← graph_respond]
    exact ih _

lemma after_append (s : Session) (requests more : List Request) :
    s.after (requests ++ more) = (s.after requests).after more := List.foldl_append

lemma revision_respond_le {s : Session} (hs : s.revision ≤ Counter.maximum) (q : Request) :
    (s.respond q).2.revision ≤ Counter.maximum := by
  cases q with
  | setRoot root => exact Counter.next_le_maximum _
  | edit e =>
    rw [respond, edit]
    split
    · exact hs
    · split
      · exact Counter.next_le_maximum _
      · exact hs

lemma revision_after_le {s : Session} (hs : s.revision ≤ Counter.maximum)
    (requests : List Request) : (s.after requests).revision ≤ Counter.maximum := by
  induction requests generalizing s with
  | nil => exact hs
  | cons q rest ih => exact ih (revision_respond_le hs q)

end Session

end Chatflow
