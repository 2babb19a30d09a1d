/-
# What was noticed can be read off the tree

The compiler counts steps and markers and collects names while the tree is still in pieces.  What it
has in the end is what a reader of the finished tree would find (`Compiler.accounts_of_runLists`):
the number of its steps and of its markers, the nodes of unknown type among those its steps stand
for, and the edges for which these nodes have no slot.  How often a shared node was unfolded makes
no difference to the names, as they are kept in sets.

A reader can count steps without recursion, with the branches still to be looked at in a list
(`Tree.countFrom`); that comes to the same number (`Tree.countFrom_eq`).
-/
import Chatflow.Proofs.Faults
import Chatflow.Proofs.StepLimit

namespace Chatflow

/-! ### Counting with a list -/

namespace Tree

variable {σ : Type}

lemma total_append (xs ys : List Nat) : total (xs ++ ys) = total xs + total ys :=
  List.sum_append

/-- The branches in slots that are not empty, last first. -/
def pendingSlots (slots : List (Tree σ)) : List (Tree σ) :=
  (slots.filter fun b => !b.isEmpty).reverse

lemma pendingSlots_cons (b : Tree σ) (rest : List (Tree σ)) :
    pendingSlots (b :: rest) = pendingSlots rest ++ if b.isEmpty then [] else [b] := by
  rw [pendingSlots, List.filter_cons]
  cases b.isEmpty <;> simp [pendingSlots]

lemma sizeSlots_pendingSlots_le (slots : List (Tree σ)) :
    sizeSlots (pendingSlots slots) ≤ sizeSlots slots := by
  induction slots with
  | nil => simp [pendingSlots]
  | cons b rest ih =>
    rw [pendingSlots_cons, sizeSlots_append]
    split
    · simp only [sizeSlots]
      omega
    · simp only [sizeSlots]
      omega

/-- Goes on counting the steps of pending branches, the first of which comes next.  When a step is
counted its slots take its place. -/
def countFrom (count : Nat) : List (Tree σ) → Nat
  | [] => count
  | .step _ slots :: rest => countFrom (count + 1) (pendingSlots slots ++ rest)
  | .empty :: rest => countFrom count rest
  | .backReference _ :: rest => countFrom count rest
termination_by pending => sizeSlots pending
decreasing_by
  · have := sizeSlots_pendingSlots_le slots
    simp only [sizeSlots_append, sizeSlots, size]
    omega
  · simp [sizeSlots, size]
  · simp [sizeSlots, size]

/-- Slots that are not pending have no steps. -/
lemma total_pendingSlots (slots : List (Tree σ)) :
    total ((pendingSlots slots).map stepCount) = total (slots.map stepCount) := by
  induction slots with
  | nil => rfl
  | cons b rest ih =>
    rw [pendingSlots_cons, List.map_append, total_append, ih, List.map_cons, Nat.add_comm]
    cases b with
    | empty => simp [isEmpty, total]
    | backReference target => simp [isEmpty, total]
    | step s slots => simp [isEmpty, total]

/-- The list is counted to the number of steps in all its branches. -/
lemma countFrom_eq (count : Nat) (pending : List (Tree σ)) :
    countFrom count pending = count + total (pending.map stepCount) := by
  fun_induction countFrom count pending with
  | case1 count => rfl
  | case2 count s slots rest ih =>
    rw [ih, List.map_append, total_append, total_pendingSlots, List.map_cons, stepCount_step]
    simp only [total, List.foldr_cons]
    omega
  | case3 count rest ih => simpa [total] using ih
  | case4 count target rest ih => simpa [total] using ih

end Tree

/-- The same was noticed, but for dropped edges. -/
structure Diagnostics.Alike (d d' : Diagnostics) : Prop where
  steps_eq : d.steps = d'.steps
  backReferences_eq : d.backReferences = d'.backReferences
  unknownNodes_eq : d.unknownNodes = d'.unknownNodes

lemma Diagnostics.Alike.eq {d d' : Diagnostics} (h : d.Alike d')
    (hdropped : d.droppedEdges = d'.droppedEdges) : d = d' := by
  obtain ⟨steps, backReferences, droppedEdges, unknownNodes⟩ := d
  obtain ⟨hsteps, hback, hunknown⟩ := h
  simp only at hsteps hback hunknown hdropped
  rw [hsteps, hback, hunknown, hdropped]

namespace Compiler

variable {γ : Type} [IdGenerator γ] {c : Compiler} {i : GraphIndex} {root : NodeId}
  {generator : γ} {comp : Compilation}

/-! ### Steps and markers -/

omit [IdGenerator γ] in
lemma backReferences_foldl_noticed (d : Diagnostics) (xs : List (Node ⊕ NodeId)) :
    (xs.foldl (c.noticed i) d).backReferences
      = d.backReferences + (xs.filterMap Sum.getRight?).length := by
  induction xs generalizing d with
  | nil => rfl
  | cons x rest ih =>
    rw [List.foldl_cons, ih]
    cases x with
    | inl n => simp [noticed, noteStep, List.filterMap_cons]
    | inr target => simp [noticed, noteMarker, Nat.add_assoc, Nat.add_comm 1]

/-- A compilation notices as many markers as its tree has. -/
lemma backReferences_of_run (h : (c.run i root generator).result = .ok comp) :
    comp.diagnostics.backReferences = comp.root.markers.length := by
  cases hroot : i.node? root with
  | none =>
    rw [run_of_absent hroot, Except.ok.injEq] at h
    simp [← h]
  | some n =>
    rw [diagnostics_of_run hroot h, backReferences_foldl_noticed, markers_of_run hroot h]
    exact Nat.zero_add _

/-! ### Names -/

/-- Every step stands for a node that is there, and is of its type. -/
lemma node_of_mem_steps (h : (c.run i root generator).result = .ok comp) {s : Step}
    (hs : s ∈ comp.root.steps) : ∃ n, i.node? s.origin = some n ∧ s.type = n.type := by
  cases hroot : i.node? root with
  | none =>
    rw [run_of_absent hroot, Except.ok.injEq] at h
    simp [← h] at hs
  | some n =>
    obtain rfl : n.id = root := i.id_eq hroot
    obtain ⟨m, hm, hstep⟩ := (Tree.exists_mem_steps_iff (map_anonymous_of_run hroot h)
      (P := (s.anonymous = ·))).1 ⟨s, hs, rfl⟩
    have horigin : s.origin = m.id := congrArg Step.origin hstep
    have htype : s.type = m.type := congrArg Step.type hstep
    exact ⟨m, horigin ▸ node?_of_mem_steps_plan hroot hm, htype⟩

/-- The unknown nodes are those that steps of unknown type stand for. -/
lemma mem_unknownNodes_iff (h : (c.run i root generator).result = .ok comp) {id : NodeId} :
    id ∈ comp.diagnostics.unknownNodes ↔
      ∃ s ∈ comp.root.steps, s.type = .unknown ∧ s.origin = id := by
  cases hroot : i.node? root with
  | none =>
    rw [run_of_absent hroot, Except.ok.injEq] at h
    simp [← h]
  | some n =>
    rw [mem_unknownNodes_of_run hroot h]
    exact (Tree.exists_mem_steps_iff (map_anonymous_of_run hroot h)
      (P := fun s => s.type = .unknown ∧ s.origin = id)).symm

/-- The dropped edges are those for which the nodes that steps stand for have no slot. -/
lemma mem_droppedEdges_iff (h : (c.run i root generator).result = .ok comp) {id : EdgeId} :
    id ∈ comp.diagnostics.droppedEdges ↔ ∃ s ∈ comp.root.steps,
      ∃ e ∈ (i.edgesFrom s.origin).drop (c.registry.schema s.type).slots, e.id = id := by
  cases hroot : i.node? root with
  | none =>
    rw [run_of_absent hroot, Except.ok.injEq] at h
    simp [← h]
  | some n =>
    rw [mem_droppedEdges_of_run hroot h]
    exact (Tree.exists_mem_steps_iff (map_anonymous_of_run hroot h) (P := fun s =>
      ∃ e ∈ (i.edgesFrom s.origin).drop (c.registry.schema s.type).slots, e.id = id)).symm

/-! ### Compilations -/

section Compare

variable {δ : Type} [IdGenerator δ] {j : GraphIndex} {generator' : δ} {comp' : Compilation}

/-- With the same tree up to ids the same was noticed, but for dropped edges. -/
lemma alike_of_map_anonymous_eq (h : (c.run i root generator).result = .ok comp)
    (h' : (c.run j root generator').result = .ok comp')
    (hmap : comp.root.map Step.anonymous = comp'.root.map Step.anonymous) :
    comp.diagnostics.Alike comp'.diagnostics := by
  refine ⟨?_, ?_, Std.ExtTreeSet.ext_mem fun id => ?_⟩
  · rw [steps_of_run h, steps_of_run h', ← Tree.stepCount_map Step.anonymous, hmap,
      Tree.stepCount_map]
  · rw [backReferences_of_run h, backReferences_of_run h', ← Tree.markers_map Step.anonymous, hmap,
      Tree.markers_map]
  · rw [mem_unknownNodes_iff h, mem_unknownNodes_iff h']
    exact Tree.exists_mem_steps_iff hmap (P := fun s => s.type = .unknown ∧ s.origin = id)

/-- If moreover the nodes of the steps have the same edges, the same was noticed. -/
lemma diagnostics_eq_of_map_anonymous_eq (h : (c.run i root generator).result = .ok comp)
    (h' : (c.run j root generator').result = .ok comp')
    (hmap : comp.root.map Step.anonymous = comp'.root.map Step.anonymous)
    (hedges : ∀ s ∈ comp.root.steps, i.edgesFrom s.origin = j.edgesFrom s.origin) :
    comp.diagnostics = comp'.diagnostics := by
  refine (alike_of_map_anonymous_eq h h' hmap).eq (Std.ExtTreeSet.ext_mem fun id => ?_)
  rw [mem_droppedEdges_iff h, mem_droppedEdges_iff h']
  refine Iff.trans (exists_congr fun s => and_congr_right fun hs => ?_)
    (Tree.exists_mem_steps_iff hmap (P := fun s =>
      ∃ e ∈ (j.edgesFrom s.origin).drop (c.registry.schema s.type).slots, e.id = id))
  rw [hedges s hs]
  rfl

end Compare

/-- What was noticed is what can be read off the tree. -/
structure Accounts (c : Compiler) (nodes : List Node) (edges : List Edge) (comp : Compilation) :
    Prop where
  /-- The steps are counted, all of them and once each. -/
  steps_eq : comp.diagnostics.steps = comp.root.stepCount
  /-- They are as many as are found with a list of branches still to be looked at. -/
  steps_eq_countFrom : comp.diagnostics.steps = Tree.countFrom 0 [comp.root]
  /-- The markers are counted. -/
  backReferences_eq : comp.diagnostics.backReferences = comp.root.markers.length
  /-- A step is of the type of the node it stands for, which is the last of its id. -/
  node_of_step : ∀ s ∈ comp.root.steps,
    ∃ n, nodes.reverse.find? (·.id == s.origin) = some n ∧ s.type = n.type
  /-- The unknown nodes are those that steps of unknown type stand for. -/
  mem_unknownNodes_iff : ∀ id, id ∈ comp.diagnostics.unknownNodes ↔
    ∃ s ∈ comp.root.steps, s.type = .unknown ∧ s.origin = id
  /-- The dropped edges are those that leave the node of a step behind as many others as there are
  slots for its type. -/
  mem_droppedEdges_iff : ∀ id, id ∈ comp.diagnostics.droppedEdges ↔
    ∃ s ∈ comp.root.steps, ∃ k e, (c.registry.schema s.type).slots ≤ k ∧
      (edges.filter (·.source == s.origin))[k]? = some e ∧ e.id = id

lemma mem_drop_iff {e : Edge} {edges : List Edge} {count : Nat} :
    e ∈ edges.drop count ↔ ∃ k, count ≤ k ∧ edges[k]? = some e := by
  simp only [List.mem_iff_getElem?, List.getElem?_drop]
  constructor
  · rintro ⟨k, hk⟩
    exact ⟨count + k, Nat.le_add_right _ _, hk⟩
  · rintro ⟨k, hle, hk⟩
    exact ⟨k - count, by rwa [Nat.add_sub_cancel' hle]⟩

/-- A compilation that succeeds has noticed what can be read off its tree, no more and no less. -/
theorem accounts_of_runLists {nodes : List Node} {edges : List Edge}
    (h : (c.runLists nodes edges root generator).result = .ok comp) :
    c.Accounts nodes edges comp := by
  have hsteps := steps_of_run h
  refine ⟨hsteps, ?_, backReferences_of_run h, fun s hs => ?_,
    fun id => mem_unknownNodes_iff h, fun id => ?_⟩
  · rw [hsteps, Tree.countFrom_eq]
    simp [Tree.total]
  · rw [← GraphIndex.node?_ofLists nodes edges]
    exact node_of_mem_steps h hs
  · simp only [mem_droppedEdges_iff h, GraphIndex.edgesFrom_ofLists, mem_drop_iff]
    constructor
    · rintro ⟨s, hs, e, ⟨k, hle, hk⟩, he⟩
      exact ⟨s, hs, k, e, hle, hk, he⟩
    · rintro ⟨s, hs, k, e, hle, hk, he⟩
      exact ⟨s, hs, e, ⟨k, hle, hk⟩, he⟩

/-- A shop: a menu saved twice under one id, the second time as what it is now, with a menu below
it that leads back, and a node of unknown type to which both menus lead. -/
def shop : List Node :=
  [{ id := "a", type := .flow }, { id := "a", type := .template }, { id := "b", type := .template },
    { id := "u", type := .unknown }]

/-- The third edge of the menu leads nowhere, has no slot and shares its id with the first; the
unknown node has no slots at all. -/
def shopEdges : List Edge :=
  [⟨"e1", "a", "b"⟩, ⟨"e2", "a", "u"⟩, ⟨"e1", "a", "x"⟩, ⟨"e3", "b", "a"⟩, ⟨"e4", "b", "u"⟩,
    ⟨"e5", "u", "b"⟩]

lemma plan_shop : plan {} (.ofLists shop shopEdges) [] { id := "a", type := .template }
    = .step { id := "a", type := .template }
        [.step { id := "b", type := .template }
          [.backReference "a", .step { id := "u", type := .unknown } []],
        .step { id := "u", type := .unknown } []] := by
  have hunknown : ∀ path, plan {} (.ofLists shop shopEdges) path { id := "u", type := .unknown }
      = .step { id := "u", type := .unknown } [] := fun path => plan_eq _ _ _ _
  rw [plan_eq, show targets {} (.ofLists shop shopEdges) { id := "a", type := .template }
      = [some "b", some "u"] from rfl, List.map_cons, List.map_singleton,
    planSlot_of_not_mem (m := { id := "b", type := .template }) (by decide) (by decide),
    planSlot_of_not_mem (m := { id := "u", type := .unknown }) (by decide) (by decide), plan_eq,
    show targets {} (.ofLists shop shopEdges) { id := "b", type := .template }
      = [some "a", some "u"] from rfl, List.map_cons, List.map_singleton,
    planSlot_of_mem (by decide) (by decide),
    planSlot_of_not_mem (m := { id := "u", type := .unknown }) (by decide) (by decide),
    hunknown, hunknown]

theorem accounts_shop : ∃ comp,
    (runLists {} shop shopEdges "a" IdScheme.standard.source).result = .ok comp ∧
      comp.diagnostics.steps = 4 ∧ comp.diagnostics.backReferences = 1 ∧
      Accounts {} shop shopEdges comp := by
  have hroot : (GraphIndex.ofLists shop shopEdges).node? "a"
      = some { id := "a", type := .template } := by decide
  obtain ⟨comp, h⟩ := exists_run_eq_ok (c := {}) IdScheme.standard.source hroot
    (by rw [plan_shop]; simp [fault?, defaultStepLimit])
  have haccounts : Accounts {} shop shopEdges comp := accounts_of_runLists h
  refine ⟨comp, h, ?_, ?_, haccounts⟩
  · rw [haccounts.steps_eq, ← Tree.stepCount_map Step.origin, map_origin_of_run hroot h, plan_shop]
    simp [Tree.total]
  · rw [haccounts.backReferences_eq, markers_of_run hroot h, plan_shop]
    simp

end Compiler

end Chatflow
