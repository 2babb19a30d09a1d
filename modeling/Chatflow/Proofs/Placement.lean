/-
# Places do not matter

The compiler reads what a node is called, its type and its data, but not its place on the canvas.
So if the places of all nodes are forgotten (`Node.unplaced`), every lookup gives the same up to
places, every node the same step, and the compilation is the same
(`Compiler.runLists_map_unplaced`).

For graphs under edit this says that the compiled script is a function of the nodes up to their
places, the edges and the root (`Session.compile_congr`).
-/
import Chatflow.Proofs.Plan
import Chatflow.Session

namespace Chatflow

/-- The node at the origin of the canvas. -/
def Node.unplaced (n : Node) : Node := { n with position := {} }

/-! ### Lookups -/

/-- Forgetting places commutes with looking nodes up. -/
lemma GraphIndex.node?_map_unplaced (nodes : List Node) (edges : List Edge) (id : NodeId) :
    (ofLists (nodes.map Node.unplaced) edges).node? id
      = ((ofLists nodes edges).node? id).map Node.unplaced := by
  rw [node?_ofLists, node?_ofLists, ← List.map_reverse, List.find?_map]
  rfl

/-- Edges have no places. -/
lemma GraphIndex.edgesFrom_map_unplaced (nodes : List Node) (edges : List Edge) (id : NodeId) :
    (ofLists (nodes.map Node.unplaced) edges).edgesFrom id
      = (ofLists nodes edges).edgesFrom id := by
  rw [edgesFrom_ofLists, edgesFrom_ofLists]

namespace Compiler

section Unplaced

variable {c : Compiler} {nodes : List Node} {edges : List Edge}

/-! ### Steps -/

lemma targets_unplaced (n : Node) :
    c.targets (.ofLists (nodes.map Node.unplaced) edges) n.unplaced
      = c.targets (.ofLists nodes edges) n := by
  rw [targets, targets, GraphIndex.edgesFrom_map_unplaced]
  rfl

lemma surplus_unplaced (n : Node) :
    c.surplus (.ofLists (nodes.map Node.unplaced) edges) n.unplaced
      = c.surplus (.ofLists nodes edges) n := by
  rw [surplus, surplus, GraphIndex.edgesFrom_map_unplaced]
  rfl

/-- Buttons take their titles from labels, which are part of the data. -/
lemma targetLabel?_unplaced (targets : List (Option NodeId)) (slot : Nat) :
    targetLabel? (.ofLists (nodes.map Node.unplaced) edges) targets slot
      = targetLabel? (.ofLists nodes edges) targets slot := by
  have hlabel : ∀ target,
      ((GraphIndex.ofLists (nodes.map Node.unplaced) edges).node? target).bind Node.label?
        = ((GraphIndex.ofLists nodes edges).node? target).bind Node.label? := by
    intro target
    rw [GraphIndex.node?_map_unplaced, Option.bind_map]
    rfl
  simp only [targetLabel?, Option.bind_eq_bind, hlabel]

lemma makeStep_unplaced (n : Node) (id : String) :
    c.makeStep (.ofLists (nodes.map Node.unplaced) edges) n.unplaced id
      = c.makeStep (.ofLists nodes edges) n id := by
  simp only [makeStep, buttons, targets_unplaced, targetLabel?_unplaced]
  rfl

lemma noteStep_unplaced (n : Node) (d : Diagnostics) :
    c.noteStep (.ofLists (nodes.map Node.unplaced) edges) n.unplaced d
      = c.noteStep (.ofLists nodes edges) n d := by
  simp only [noteStep, surplus_unplaced]
  rfl

variable {γ : Type} [IdGenerator γ]

lemma openStep_unplaced (n : Node) :
    (c.openStep (.ofLists (nodes.map Node.unplaced) edges) n.unplaced : Build γ Step)
      = c.openStep (.ofLists nodes edges) n := by
  funext l
  simp only [openStep, makeStep_unplaced, noteStep_unplaced]

/-! ### Plans -/

omit [IdGenerator γ] in
/-- Forgetting places commutes with planning. -/
lemma plan_unplaced (path : List NodeId) (n : Node) :
    c.plan (.ofLists (nodes.map Node.unplaced) edges) path n.unplaced
      = (c.plan (.ofLists nodes edges) path n).map Node.unplaced := by
  induction path, n using plan.induct (i := .ofLists nodes edges) with
  | case1 path n ih =>
    rw [plan_eq, plan_eq, targets_unplaced, Tree.map_step, List.map_map]
    congr 1
    refine List.map_congr_left fun t _ => ?_
    cases t with
    | none => simp [planSlot]
    | some target =>
      simp only [planSlot, Function.comp_apply, GraphIndex.node?_map_unplaced]
      cases hm : (GraphIndex.ofLists nodes edges).node? target with
      | none => simp
      | some m =>
        by_cases hp : target ∈ n.id :: path
        · have : target ∈ n.unplaced.id :: path := hp
          simp [hp, this]
        · have : target ∉ n.unplaced.id :: path := hp
          simp only [Option.map_some, if_neg hp, if_neg this]
          exact ih target m hm hp

/-- A plan without places is built like the plan itself. -/
lemma build_map_unplaced (p : Tree Node) :
    (c.build (.ofLists (nodes.map Node.unplaced) edges) (p.map Node.unplaced) : Build γ Branch)
      = c.build (.ofLists nodes edges) p := by
  simp only [build, Tree.fold_map, openStep_unplaced]

/-- The places of the nodes have no part in what is compiled. -/
lemma runLists_map_unplaced (root : NodeId) (generator : γ) :
    c.runLists (nodes.map Node.unplaced) edges root generator
      = c.runLists nodes edges root generator := by
  rw [runLists, runLists]
  cases hn : (GraphIndex.ofLists nodes edges).node? root with
  | none =>
    rw [run_of_absent hn, run_of_absent (by rw [GraphIndex.node?_map_unplaced, hn]; rfl)]
  | some n =>
    have hn' : (GraphIndex.ofLists (nodes.map Node.unplaced) edges).node? root
        = some n.unplaced := by
      rw [GraphIndex.node?_map_unplaced, hn]
      rfl
    rw [run_eq_build hn, run_eq_build hn', plan_unplaced, build_map_unplaced]

end Unplaced

end Compiler

/-! ### Graphs -/

/-- Two graphs have the same nodes up to places if under every id they do. -/
lemma Graph.map_unplaced_nodeList {g g' : Graph}
    (h : ∀ id, (g.node? id).map Node.unplaced = (g'.node? id).map Node.unplaced) :
    g.nodeList.map Node.unplaced = g'.nodeList.map Node.unplaced := by
  have hlist : ∀ g : Graph, g.nodeList.map Node.unplaced
      = ((g.nodes.map fun _ n => n.unplaced).toList.map (·.2)) := by
    intro g
    rw [nodeList, Std.ExtTreeMap.toList_map, List.map_map, List.map_map]
    rfl
  -- equal maps have equal lists, whatever edits they come from
  have hnodes : (g.nodes.map fun _ n => n.unplaced) = g'.nodes.map fun _ n => n.unplaced :=
    Std.ExtTreeMap.ext_getElem? fun id => by
      rw [Std.ExtTreeMap.getElem?_map, Std.ExtTreeMap.getElem?_map]
      exact h id
  rw [hlist, hlist, hnodes]

/-- What a session compiles depends on the nodes up to their places, the edges and the root. -/
lemma Session.compile_congr {c : Compiler} {scheme : IdScheme} {g g' : Graph} {root : NodeId}
    (hedges : g.edges = g'.edges)
    (hnodes : ∀ id, (g.node? id).map Node.unplaced = (g'.node? id).map Node.unplaced) :
    compile c scheme g root = compile c scheme g' root := by
  rw [compile, compile, ← Compiler.runLists_map_unplaced, Graph.map_unplaced_nodeList hnodes,
    Compiler.runLists_map_unplaced, hedges]

end Chatflow
