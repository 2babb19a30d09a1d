/-
# What a compilation names

A compilation talks about the graph by ids: those of the nodes its steps and markers stand for,
those of the nodes of unknown type and those of the edges that got no slot.  What was noticed is
what the steps and markers of the plan add to it one after the other
(`Compiler.diagnostics_of_run`), so it can be said id by id where it comes from
(`mem_droppedEdges_of_run`, `mem_unknownNodes_of_run`).  All that is named is there
(`Compiler.names_of_runLists`), and so is the node at which a compilation fails because of a cycle
(`Compiler.eq_of_runLists_eq_error`).
-/
import Chatflow.Proofs.Cycle

namespace Chatflow

namespace Compiler

variable {c : Compiler} {i : GraphIndex} {d : Diagnostics}

/-! ### What is noticed -/

/-- A list of edges puts its ids into a set. -/
lemma mem_foldl_insert {id : EdgeId} {edges : List Edge} {dropped : Std.ExtTreeSet EdgeId} :
    id ∈ edges.foldl (fun dropped e => dropped.insert e.id) dropped ↔
      id ∈ dropped ∨ ∃ e ∈ edges, e.id = id := by
  induction edges generalizing dropped with
  | nil => simp
  | cons e rest ih =>
    rw [List.foldl_cons, ih, Std.ExtTreeSet.mem_insert, Std.LawfulEqCmp.compare_eq_iff_eq]
    simp only [List.mem_cons, exists_eq_or_imp]
    tauto

lemma mem_droppedEdges_noteStep {n : Node} {id : EdgeId} :
    id ∈ (c.noteStep i n d).droppedEdges ↔
      id ∈ d.droppedEdges ∨ ∃ e ∈ c.surplus i n, e.id = id := mem_foldl_insert

lemma mem_unknownNodes_noteStep {n : Node} {id : NodeId} :
    id ∈ (c.noteStep i n d).unknownNodes ↔
      id ∈ d.unknownNodes ∨ n.type = .unknown ∧ n.id = id := by
  by_cases h : n.type = .unknown
  · rw [noteStep, if_pos h, Std.ExtTreeSet.mem_insert, Std.LawfulEqCmp.compare_eq_iff_eq]
    tauto
  · rw [noteStep, if_neg h]
    tauto

/-- What each step may add is there in the end if it was there before or some step adds it. -/
lemma foldl_noticed_iff {P : Diagnostics → Prop} {Q : Node → Prop}
    (hstep : ∀ n d, P (c.noteStep i n d) ↔ P d ∨ Q n) (hmarker : ∀ d, P (noteMarker d) ↔ P d)
    {xs : List (Node ⊕ NodeId)} : P (xs.foldl (c.noticed i) d) ↔ P d ∨ ∃ n, .inl n ∈ xs ∧ Q n := by
  induction xs generalizing d with
  | nil => simp
  | cons x rest ih =>
    rw [List.foldl_cons, ih]
    cases x with
    | inl n =>
      rw [show c.noticed i d (.inl n) = c.noteStep i n d from rfl, hstep, or_assoc]
      simp only [List.mem_cons, Sum.inl.injEq, or_and_right, exists_or, exists_eq_left]
    | inr target =>
      rw [show c.noticed i d (.inr target) = noteMarker d from rfl, hmarker]
      simp

/-! ### Nodes of a plan -/

lemma mem_steps_plan_iff {path : List NodeId} {n m : Node} :
    m ∈ (c.plan i path n).steps ↔
      m = n ∨ ∃ target k, some target ∈ c.targets i n ∧ i.node? target = some k ∧
        target ∉ n.id :: path ∧ m ∈ (c.plan i (n.id :: path) k).steps := by
  rw [plan_eq, Tree.steps_step, List.mem_cons, List.mem_flatMap]
  refine or_congr_right ⟨?_, ?_⟩
  · rintro ⟨b, hb, hm⟩
    obtain ⟨slot, hmem, rfl⟩ := List.mem_map.1 hb
    rcases planSlot_cases c i (n.id :: path) slot with
      ⟨-, hslot⟩ | ⟨target, -, -, -, hslot⟩ | ⟨target, k, rfl, hk, hp, hslot⟩
    · simp [hslot] at hm
    · simp [hslot] at hm
    · rw [hslot] at hm
      exact ⟨target, k, hmem, hk, hp, hm⟩
  · rintro ⟨target, k, hmem, hk, hp, hm⟩
    refine ⟨_, List.mem_map_of_mem hmem, ?_⟩
    rwa [planSlot_of_not_mem hk hp]

/-- A plan for a node that is there is made of nodes that are there. -/
lemma node?_of_mem_steps_plan {path : List NodeId} {n m : Node} (hn : i.node? n.id = some n)
    (hm : m ∈ (c.plan i path n).steps) : i.node? m.id = some m := by
  induction path, n using plan.induct (i := i) with
  | case1 path n ih =>
    rcases mem_steps_plan_iff.1 hm with rfl | ⟨target, k, -, hk, hp, hm⟩
    · exact hn
    · obtain rfl := i.id_eq hk
      exact ih k.id k hk hp hk hm

/-- The markers of a plan lead to nodes that are there. -/
lemma isSome_of_mem_markers_plan {path : List NodeId} {n : Node} {target : NodeId}
    (hn : i.node? n.id = some n) (ht : target ∈ (c.plan i path n).markers) :
    (i.node? target).isSome := by
  obtain ⟨_, -, ⟨_, -, -, hsome⟩, -⟩ := reach_of_mem_markers_plan hn ht
  exact hsome

/-! ### Compilations -/

section Run

variable {γ : Type} [IdGenerator γ] {root : NodeId} {generator : γ} {comp : Compilation}

/-- What was noticed is what the steps and markers of the plan add one after the other. -/
lemma diagnostics_of_run {n : Node} (hn : i.node? root = some n)
    (h : (c.run i root generator).result = .ok comp) :
    comp.diagnostics = (c.plan i [] n).preorder.foldl (c.noticed i) {} := by
  rw [run_eq_build hn, result_ofBuilt_eq_ok_iff] at h
  obtain ⟨l, h, hdiagnostics⟩ := h
  rw [← hdiagnostics, diagnostics_of_forM_visit (forM_visit_of_build h)]

/-- The dropped edges are those for which the steps of the plan have no slot. -/
lemma mem_droppedEdges_of_run {n : Node} {id : EdgeId} (hn : i.node? root = some n)
    (h : (c.run i root generator).result = .ok comp) :
    id ∈ comp.diagnostics.droppedEdges ↔
      ∃ m ∈ (c.plan i [] n).steps, ∃ e ∈ c.surplus i m, e.id = id := by
  rw [diagnostics_of_run hn h, foldl_noticed_iff (P := fun d => id ∈ d.droppedEdges)
    (fun n d => mem_droppedEdges_noteStep) (fun d => Iff.rfl)]
  simp [Tree.mem_steps_iff]

/-- The unknown nodes are those in the plan that are of unknown type. -/
lemma mem_unknownNodes_of_run {n : Node} {id : NodeId} (hn : i.node? root = some n)
    (h : (c.run i root generator).result = .ok comp) :
    id ∈ comp.diagnostics.unknownNodes ↔
      ∃ m ∈ (c.plan i [] n).steps, m.type = .unknown ∧ m.id = id := by
  rw [diagnostics_of_run hn h, foldl_noticed_iff (P := fun d => id ∈ d.unknownNodes)
    (fun n d => mem_unknownNodes_noteStep) (fun d => Iff.rfl)]
  simp [Tree.mem_steps_iff]

end Run

end Compiler

/-! ### Names -/

/-- All nodes and edges that a compiled graph names are in the lists. -/
structure Compilation.Names (comp : Compilation) (nodes : List Node) (edges : List Edge) :
    Prop where
  /-- Every step stands for a node. -/
  origin_mem : ∀ s ∈ comp.root.steps, s.origin ∈ nodes.map (·.id)
  /-- Every marker leads to a node. -/
  marker_mem : ∀ target ∈ comp.root.markers, target ∈ nodes.map (·.id)
  /-- Every dropped edge is an edge. -/
  droppedEdge_mem : ∀ id ∈ comp.diagnostics.droppedEdges, id ∈ edges.map (·.id)
  /-- Every unknown node is a node. -/
  unknownNode_mem : ∀ id ∈ comp.diagnostics.unknownNodes, id ∈ nodes.map (·.id)

namespace Compiler

variable {c : Compiler} {nodes : List Node} {edges : List Edge} {γ : Type} [IdGenerator γ]
  {root : NodeId} {generator : γ}

lemma mem_map_id_of_node? {id : NodeId} (h : ((GraphIndex.ofLists nodes edges).node? id).isSome) :
    id ∈ nodes.map (·.id) := by
  obtain ⟨n, hn⟩ := Option.isSome_iff_exists.1 h
  rw [← (GraphIndex.ofLists nodes edges).id_eq hn]
  rw [GraphIndex.node?_ofLists] at hn
  exact List.mem_map_of_mem (List.mem_reverse.1 (List.mem_of_find?_eq_some hn))

lemma mem_of_mem_surplus {n : Node} {e : Edge} (h : e ∈ c.surplus (.ofLists nodes edges) n) :
    e ∈ edges := by
  have hfrom := List.mem_of_mem_drop h
  rw [GraphIndex.edgesFrom_ofLists] at hfrom
  exact List.mem_of_mem_filter hfrom

/-- A compiled graph names nothing that is not there. -/
lemma names_of_runLists {comp : Compilation}
    (h : (c.runLists nodes edges root generator).result = .ok comp) : comp.Names nodes edges := by
  rw [runLists] at h
  cases hroot : (GraphIndex.ofLists nodes edges).node? root with
  | none =>
    rw [run_of_absent hroot, Except.ok.injEq] at h
    subst h
    exact ⟨by simp, by simp, by simp, by simp⟩
  | some n =>
    obtain rfl : n.id = root := (GraphIndex.ofLists nodes edges).id_eq hroot
    have hmap := map_origin_of_run hroot h
    have hnode : ∀ m ∈ (c.plan (.ofLists nodes edges) [] n).steps, m.id ∈ nodes.map (·.id) := by
      intro m hm
      exact mem_map_id_of_node? (by rw [node?_of_mem_steps_plan hroot hm]; rfl)
    refine ⟨fun s hs => ?_, fun target ht => ?_, fun id hid => ?_, fun id hid => ?_⟩
    · have : s.origin ∈ (comp.root.map (·.origin)).steps := by
        rw [Tree.steps_map]
        exact List.mem_map_of_mem hs
      rw [hmap, Tree.steps_map] at this
      obtain ⟨m, hm, heq⟩ := List.mem_map.1 this
      rw [← heq]
      exact hnode m hm
    · rw [← Tree.markers_map Step.origin, hmap, Tree.markers_map] at ht
      exact mem_map_id_of_node? (isSome_of_mem_markers_plan hroot ht)
    · obtain ⟨m, -, e, he, rfl⟩ := (mem_droppedEdges_of_run hroot h).1 hid
      exact List.mem_map_of_mem (mem_of_mem_surplus he)
    · obtain ⟨m, hm, -, rfl⟩ := (mem_unknownNodes_of_run hroot h).1 hid
      exact hnode m hm

end Compiler

end Chatflow
