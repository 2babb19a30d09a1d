/-
# What the root cannot reach does not matter

The compiler looks at a node only when it comes to it along a slot, or to read the label of a node
to which a slot leads.  So it cannot tell two graphs apart in which the root leads along slots to
the same types, the same data and the same targets (`Compiler.AlikeFrom`): their plans have the same
steps in the same places (`AlikeFrom.map_plan`), and both compilations fail alike, or both give the
same tree with the same ids (`sameEnd_of_alikeFrom`).  They may still differ in the edges that got
no slot, unless the nodes that are reached have the same edges altogether
(`result_eq_of_alikeFrom`).

For lists this means that neither the order of the nodes matters nor how the edges of different
nodes are mixed.
-/
import Chatflow.Proofs.StepIds

namespace Chatflow

/-- The same tree, and the same was noticed but for dropped edges. -/
structure Compilation.SameScript (comp comp' : Compilation) : Prop where
  root_eq : comp.root = comp'.root
  alike : comp.diagnostics.Alike comp'.diagnostics

/-- The same tree has the same text. -/
lemma Compilation.SameScript.text_eq {comp comp' : Compilation} (h : comp.SameScript comp') :
    comp.document.text = comp'.document.text := by
  rw [document, document, h.root_eq]

namespace Compiler

open Relation

variable {c : Compiler} {i j : GraphIndex} {root : NodeId}

/-- What the root reaches along slots in the first graph is the same in the second. -/
structure AlikeFrom (c : Compiler) (i j : GraphIndex) (root : NodeId) : Prop where
  /-- The root is in both graphs or in neither. -/
  isSome_root : (j.node? root).isSome = (i.node? root).isSome
  /-- A node that is reached has the same type and the same data. -/
  exists_node : ∀ {id n}, ReflTransGen (c.SlotEdge i) root id → i.node? id = some n →
    ∃ m, j.node? id = some m ∧ m.type = n.type ∧ m.data = n.data
  /-- Its slots lead to the same targets. -/
  map_target : ∀ {id n}, ReflTransGen (c.SlotEdge i) root id → i.node? id = some n →
    ((j.edgesFrom id).take (c.slots n)).map (·.target)
      = ((i.edgesFrom id).take (c.slots n)).map (·.target)
  /-- These targets are in both graphs or in neither. -/
  isSome_target : ∀ {id n}, ReflTransGen (c.SlotEdge i) root id → i.node? id = some n →
    ∀ e ∈ (i.edgesFrom id).take (c.slots n),
      (j.node? e.target).isSome = (i.node? e.target).isSome

/-! ### Nodes and their slots -/

namespace AlikeFrom

variable {id : NodeId} {n : Node}

/-- A node that is reached is the same but for its place. -/
lemma exists_position (h : c.AlikeFrom i j root) (hid : ReflTransGen (c.SlotEdge i) root id)
    (hn : i.node? id = some n) : ∃ p, j.node? id = some { n with position := p } := by
  obtain ⟨m, hm, htype, hdata⟩ := h.exists_node hid hn
  have hm' : m = { n with position := m.position } := by
    rw [← htype, ← hdata, i.id_eq hn, ← j.id_eq hm]
  exact ⟨m.position, hm'.symm ▸ hm⟩

/-- So are its targets. -/
lemma targets_eq (h : c.AlikeFrom i j root) (hid : ReflTransGen (c.SlotEdge i) root n.id)
    (hn : i.node? n.id = some n) (p : Position) :
    c.targets j { n with position := p } = c.targets i n := by
  have htake : ∀ (k : GraphIndex) (m : Node), c.targets k m = (List.range (c.slots m)).map
      fun slot => (((k.edgesFrom m.id).take (c.slots m)).map (·.target))[slot]? := by
    intro k m
    refine List.map_congr_left fun slot hslot => ?_
    rw [List.getElem?_map, List.getElem?_take_of_lt (List.mem_range.1 hslot)]
  rw [htake, htake]
  show (List.range (c.slots n)).map (fun slot =>
      (((j.edgesFrom n.id).take (c.slots n)).map (·.target))[slot]?) = _
  rw [h.map_target hid hn]

/-- A slot leads nowhere in both graphs, or to the same node but for its place. -/
lemma target_cases (h : c.AlikeFrom i j root) (hid : ReflTransGen (c.SlotEdge i) root n.id)
    (hn : i.node? n.id = some n) {target : NodeId} (ht : some target ∈ c.targets i n) :
    (i.node? target = none ∧ j.node? target = none) ∨
      ∃ m p, i.node? target = some m ∧ j.node? target = some { m with position := p } ∧
        ReflTransGen (c.SlotEdge i) root m.id := by
  cases hm : i.node? target with
  | none =>
    obtain ⟨e, he, rfl⟩ := some_mem_targets_iff.1 ht
    have hsome := h.isSome_target hid hn e he
    rw [hm] at hsome
    exact Or.inl ⟨rfl, Option.not_isSome_iff_eq_none.1 (by simp [hsome])⟩
  | some m =>
    obtain rfl := i.id_eq hm
    have hreach := hid.tail ((slotEdge_iff hn).2 ⟨ht, by simp [hm]⟩)
    obtain ⟨p, hp⟩ := h.exists_position hreach hm
    exact Or.inr ⟨m, p, rfl, hp, hreach⟩

/-! ### Plans -/

/-- The steps of a node that is reached are the same. -/
lemma makeStep_eq (h : c.AlikeFrom i j root) (hid : ReflTransGen (c.SlotEdge i) root n.id)
    (hn : i.node? n.id = some n) (p : Position) (stepId : String) :
    c.makeStep j { n with position := p } stepId = c.makeStep i n stepId := by
  have hlabel : ∀ slot, targetLabel? j (c.targets i n) slot
      = targetLabel? i (c.targets i n) slot := by
    intro slot
    rcases ht : (c.targets i n)[slot]? with _ | _ | target
    · simp [targetLabel?, ht]
    · simp [targetLabel?, ht]
    · -- the labels of the nodes to which slots lead are part of their data
      rcases h.target_cases hid hn (List.mem_of_getElem? ht) with ⟨hi, hj⟩ | ⟨m, p, hi, hj, -⟩
      · simp [targetLabel?, ht, hi, hj]
      · simp [targetLabel?, ht, hi, hj, Node.label?]
  have hbuttons : c.buttons j { n with position := p } = c.buttons i n := by
    simp only [buttons, h.targets_eq hid hn p, hlabel]
  simp only [makeStep, hbuttons]
  rfl

/-- The plans of a node that is reached have the same steps in the same places. -/
lemma map_plan (h : c.AlikeFrom i j root) (path : List NodeId)
    (hid : ReflTransGen (c.SlotEdge i) root n.id) (hn : i.node? n.id = some n) (p : Position) :
    (c.plan j path { n with position := p }).map (fun m => c.makeStep j m "")
      = (c.plan i path n).map fun m => c.makeStep i m "" := by
  induction path, n using plan.induct (i := i) generalizing p with
  | case1 path n ih =>
    rw [plan_eq, plan_eq, h.targets_eq hid hn, Tree.map_step, Tree.map_step,
      h.makeStep_eq hid hn, List.map_map, List.map_map]
    congr 1
    refine List.map_congr_left fun t ht => ?_
    cases t with
    | none => simp [planSlot]
    | some target =>
      rw [Function.comp_apply, Function.comp_apply]
      rcases h.target_cases hid hn ht with ⟨hi, hj⟩ | ⟨m, p', hi, hj, hm⟩
      · rw [planSlot_of_absent (by simpa using hj), planSlot_of_absent (by simpa using hi)]
        simp
      · by_cases hp : target ∈ n.id :: path
        · rw [planSlot_of_mem (by simp [hj]) hp, planSlot_of_mem (by simp [hi]) hp]
          simp
        · rw [planSlot_of_not_mem hj hp, planSlot_of_not_mem hi hp]
          obtain rfl := i.id_eq hi
          exact ih m.id m hi hp hm hi p'

end AlikeFrom

/-- A plan is made of nodes that are reached from its own. -/
lemma reach_of_mem_steps_plan {path : List NodeId} {n m : Node} (hn : i.node? n.id = some n)
    (hm : m ∈ (c.plan i path n).steps) : ReflTransGen (c.SlotEdge i) n.id m.id := by
  induction path, n using plan.induct (i := i) with
  | case1 path n ih =>
    rcases mem_steps_plan_iff.1 hm with rfl | ⟨target, k, ht, hk, hp, hm⟩
    · exact .refl
    · obtain rfl := i.id_eq hk
      exact .head ((slotEdge_iff hn).2 ⟨ht, by simp [hk]⟩) (ih k.id k hk hp hk hm)

/-! ### Compilations -/

section Run

variable {γ : Type} [IdGenerator γ] {generator : γ} {comp : Compilation}

/-- The steps of a compilation stand for nodes that are there and are reached from the root. -/
lemma reach_of_mem_steps (h : (c.run i root generator).result = .ok comp) {s : Step}
    (hs : s ∈ comp.root.steps) :
    ReflTransGen (c.SlotEdge i) root s.origin ∧ ∃ n, i.node? s.origin = some n := by
  obtain ⟨n, hn, -⟩ := node_of_mem_steps h hs
  refine ⟨?_, n, hn⟩
  cases hroot : i.node? root with
  | none =>
    rw [run_of_absent hroot, Except.ok.injEq] at h
    simp [← h] at hs
  | some k =>
    obtain rfl := i.id_eq hroot
    obtain ⟨m, hm, horigin⟩ := (Tree.exists_mem_steps_iff (map_origin_of_run hroot h)
      (P := (s.origin = ·))).1 ⟨s, hs, rfl⟩
    exact horigin ▸ reach_of_mem_steps_plan hroot hm

/-- Graphs that are alike from the root fail alike, or give the same tree. -/
lemma sameEnd_of_alikeFrom (h : c.AlikeFrom i j root) (generator : γ) :
    SameEnd Compilation.SameScript (c.run i root generator).result
      (c.run j root generator).result := by
  cases hroot : i.node? root with
  | none =>
    have hroot' : j.node? root = none := by
      have hsome := h.isSome_root
      rw [hroot] at hsome
      exact Option.not_isSome_iff_eq_none.1 (by simp [hsome])
    rw [run_of_absent hroot, run_of_absent hroot']
    exact .ok ⟨rfl, rfl, rfl, rfl⟩
  | some n =>
    obtain rfl := i.id_eq hroot
    obtain ⟨p, hroot'⟩ := h.exists_position .refl hroot
    have hplan := h.map_plan [] .refl hroot p
    refine sameEnd_of_map_eq hroot hroot' hplan.symm fun comp comp' hcomp hcomp' => ?_
    have hmap : comp.root.map Step.anonymous = comp'.root.map Step.anonymous := by
      rw [map_anonymous_of_run hroot hcomp, map_anonymous_of_run hroot' hcomp', hplan]
    exact ⟨root_eq_of_map_anonymous_eq hcomp hcomp' hmap,
      alike_of_map_anonymous_eq hcomp hcomp' hmap⟩

/-- If moreover all edges of the nodes that are reached are the same, so is the result. -/
lemma result_eq_of_alikeFrom (h : c.AlikeFrom i j root)
    (hedges : ∀ id n, ReflTransGen (c.SlotEdge i) root id → i.node? id = some n →
      j.edgesFrom id = i.edgesFrom id) (generator : γ) :
    (c.run i root generator).result = (c.run j root generator).result := by
  refine (sameEnd_of_alikeFrom h generator).eq fun comp comp' hcomp hcomp' hsame => ?_
  obtain ⟨tree, diagnostics⟩ := comp
  obtain ⟨tree', diagnostics'⟩ := comp'
  obtain rfl : tree = tree' := hsame.root_eq
  have hdiagnostics : diagnostics = diagnostics' :=
    diagnostics_eq_of_map_anonymous_eq hcomp hcomp' rfl fun s hs => by
      obtain ⟨hreach, n, hn⟩ := reach_of_mem_steps hcomp hs
      exact (hedges _ n hreach hn).symm
  rw [hdiagnostics]

end Run

end Compiler

/-! ### Lists in another order -/

namespace GraphIndex

variable {nodes nodes' : List Node} {edges edges' : List Edge}

/-- Where ids are distinct, a node is looked up just if it is in the list. -/
lemma node?_eq_some_iff (hnodup : (nodes.map (·.id)).Nodup) {id : NodeId} {n : Node} :
    (ofLists nodes edges).node? id = some n ↔ n ∈ nodes ∧ n.id = id := by
  constructor
  · intro h
    refine ⟨?_, (ofLists nodes edges).id_eq h⟩
    rw [node?_ofLists] at h
    exact List.mem_reverse.1 (List.mem_of_find?_eq_some h)
  · rintro ⟨hn, rfl⟩
    cases h : (ofLists nodes edges).node? n.id with
    | none =>
      rw [node?_ofLists, List.find?_eq_none] at h
      exact absurd (beq_self_eq_true n.id) (h n (List.mem_reverse.2 hn))
    | some m =>
      have hid := (ofLists nodes edges).id_eq h
      rw [node?_ofLists] at h
      have hm := List.mem_reverse.1 (List.mem_of_find?_eq_some h)
      rw [List.inj_on_of_nodup_map hnodup hm hn hid]

/-- The order of nodes with distinct ids has no part in lookups. -/
lemma node?_of_perm (hnodup : (nodes.map (·.id)).Nodup) (hperm : nodes'.Perm nodes)
    (id : NodeId) : (ofLists nodes' edges').node? id = (ofLists nodes edges).node? id := by
  have hnodup' : (nodes'.map (·.id)).Nodup := (hperm.map _).nodup_iff.2 hnodup
  ext n
  rw [node?_eq_some_iff hnodup, node?_eq_some_iff hnodup', hperm.mem_iff]

/-- Nor have their places. -/
lemma map_unplaced_of_perm (hnodup : (nodes.map (·.id)).Nodup)
    (hperm : (nodes'.map Node.unplaced).Perm (nodes.map Node.unplaced)) (id : NodeId) :
    ((ofLists nodes' edges').node? id).map Node.unplaced
      = ((ofLists nodes edges).node? id).map Node.unplaced := by
  rw [← node?_map_unplaced, ← node?_map_unplaced]
  refine node?_of_perm ?_ hperm id
  rwa [List.map_map]

end GraphIndex

namespace Compiler

open Relation

variable {c : Compiler} {i j : GraphIndex} {root : NodeId}

/-- Graphs are alike from every root if they have the same nodes but for their places and these
have the same targets. -/
lemma alikeFrom_of_map_unplaced
    (hnodes : ∀ id, (j.node? id).map Node.unplaced = (i.node? id).map Node.unplaced)
    (htargets : ∀ id n, i.node? id = some n →
      ((j.edgesFrom id).take (c.slots n)).map (·.target)
        = ((i.edgesFrom id).take (c.slots n)).map (·.target)) : c.AlikeFrom i j root := by
  have hsome : ∀ id, (j.node? id).isSome = (i.node? id).isSome := by
    intro id
    simpa using congrArg Option.isSome (hnodes id)
  refine ⟨hsome root, fun {id n} _ hn => ?_, fun {id n} _ => htargets id n, fun _ _ e _ => hsome _⟩
  obtain ⟨m, hm⟩ := Option.isSome_iff_exists.1 ((hsome id).trans (by simp [hn]))
  have heq : m.unplaced = n.unplaced := by simpa [hm, hn] using hnodes id
  have htype : m.unplaced.type = n.unplaced.type := by rw [heq]
  have hdata : m.unplaced.data = n.unplaced.data := by rw [heq]
  exact ⟨m, hm, htype, hdata⟩

/-- What comes of lists is up to the nodes but for their order and places, and to the first edges
of each node. -/
lemma alikeFrom_of_perm {nodes nodes' : List Node} {edges edges' : List Edge}
    (hnodup : (nodes.map (·.id)).Nodup)
    (hperm : (nodes'.map Node.unplaced).Perm (nodes.map Node.unplaced))
    (htargets : ∀ n ∈ nodes, ((edges'.filter (·.source == n.id)).take (c.slots n)).map (·.target)
      = ((edges.filter (·.source == n.id)).take (c.slots n)).map (·.target)) :
    c.AlikeFrom (.ofLists nodes edges) (.ofLists nodes' edges') root := by
  refine alikeFrom_of_map_unplaced (GraphIndex.map_unplaced_of_perm hnodup hperm) fun id n hn => ?_
  obtain ⟨hmem, rfl⟩ := (GraphIndex.node?_eq_some_iff hnodup).1 hn
  rw [GraphIndex.edgesFrom_ofLists, GraphIndex.edgesFrom_ofLists]
  exact htargets n hmem

end Compiler

end Chatflow
