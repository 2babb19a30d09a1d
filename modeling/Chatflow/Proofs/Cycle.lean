/-
# Cycles

Under the policy `reject` a compilation fails at the first marker of its plan.  A plan knows nothing
of cycles: it only compares the target of an edge with the nodes on the way to it.  Here both are
compared with the graph of slot edges (`Compiler.SlotEdge`), those edges for which their source has
a slot and whose ends are there.

Every marker of a plan lies on a cycle that can be reached from the root of the plan
(`cycle_of_mem_markers_plan`).  Conversely, in a plan without markers the walk along slot edges
meets no node twice, because everything that can be reached is planned inside all nodes on the way
to it (`planned_of_transGen`); so there is no cycle to be reached.
-/
import Mathlib.Logic.Relation
import Chatflow.Proofs.SlotWalk

namespace Chatflow.Compiler

open Relation

variable {c : Compiler} {i : GraphIndex}

/-- Among the first edges that leave `a`, as many as its step has slots, there is one that enters
`b`, and both nodes are there. -/
def SlotEdge (c : Compiler) (i : GraphIndex) (a b : NodeId) : Prop :=
  ∃ n, i.node? a = some n ∧ (∃ e ∈ (i.edgesFrom a).take (c.slots n), e.target = b) ∧
    (i.node? b).isSome

lemma some_mem_targets_iff {n : Node} {b : NodeId} :
    some b ∈ c.targets i n ↔ ∃ e ∈ (i.edgesFrom n.id).take (c.slots n), e.target = b := by
  rw [List.mem_iff_getElem?]
  constructor
  · rintro ⟨slot, h⟩
    rw [getElem?_targets] at h
    split at h
    · next hslot =>
      rw [Option.some.injEq, target?, if_pos hslot, Option.map_eq_some_iff] at h
      obtain ⟨e, he, hb⟩ := h
      exact ⟨e, List.mem_of_getElem? (i := slot) (by rwa [List.getElem?_take_of_lt hslot]), hb⟩
    · simp at h
  · rintro ⟨e, he, hb⟩
    obtain ⟨slot, hslot⟩ := List.mem_iff_getElem?.1 he
    rw [List.getElem?_take] at hslot
    split at hslot
    · next hlt =>
      exact ⟨slot, by rw [getElem?_targets, if_pos hlt, target?, if_pos hlt, hslot, ← hb]; rfl⟩
    · simp at hslot

lemma slotEdge_iff {n : Node} {b : NodeId} (hn : i.node? n.id = some n) :
    c.SlotEdge i n.id b ↔ some b ∈ c.targets i n ∧ (i.node? b).isSome := by
  rw [some_mem_targets_iff]
  constructor
  · rintro ⟨m, hm, he, hb⟩
    obtain rfl : n = m := Option.some.inj (hn.symm.trans hm)
    exact ⟨he, hb⟩
  · rintro ⟨he, hb⟩
    exact ⟨n, hn, he, hb⟩

/-! ### Markers of a plan -/

lemma mem_markers_plan_iff {path : List NodeId} {n : Node} {t : NodeId} :
    t ∈ (c.plan i path n).markers ↔
      ∃ target m, some target ∈ c.targets i n ∧ i.node? target = some m ∧
        if target ∈ n.id :: path then t = target else t ∈ (c.plan i (n.id :: path) m).markers := by
  rw [plan_eq, Tree.markers_step, List.mem_flatMap]
  constructor
  · rintro ⟨b, hb, ht⟩
    obtain ⟨slot, hmem, rfl⟩ := List.mem_map.1 hb
    rcases planSlot_cases c i (n.id :: path) slot with
      ⟨-, hslot⟩ | ⟨target, rfl, hsome, hp, hslot⟩ | ⟨target, m, rfl, hm, hp, hslot⟩
    · simp [hslot] at ht
    · obtain ⟨m, hm⟩ := Option.isSome_iff_exists.1 hsome
      refine ⟨target, m, hmem, hm, ?_⟩
      rw [if_pos hp]
      simpa [hslot] using ht
    · refine ⟨target, m, hmem, hm, ?_⟩
      rwa [if_neg hp, ← hslot]
  · rintro ⟨target, m, hmem, hm, ht⟩
    refine ⟨_, List.mem_map_of_mem hmem, ?_⟩
    split at ht
    · next hp => simp [planSlot_of_mem (by rw [hm]; rfl) hp, ht]
    · next hp => rwa [planSlot_of_not_mem hm hp]

/-- A marker leads from a node that can be reached to its target, and the target is on the path or
on the way to that node. -/
lemma reach_of_mem_markers_plan {path : List NodeId} {n : Node} {t : NodeId}
    (hn : i.node? n.id = some n) (ht : t ∈ (c.plan i path n).markers) :
    ∃ b, ReflTransGen (c.SlotEdge i) n.id b ∧ c.SlotEdge i b t ∧
      (t ∈ path ∨ ReflTransGen (c.SlotEdge i) n.id t ∧ ReflTransGen (c.SlotEdge i) t b) := by
  induction path, n using plan.induct (i := i) with
  | case1 path n ih =>
    obtain ⟨target, m, htarget, hm, ht⟩ := mem_markers_plan_iff.1 ht
    have hedge : c.SlotEdge i n.id target := (slotEdge_iff hn).2 ⟨htarget, by simp [hm]⟩
    split at ht
    · next hp =>
      subst ht
      refine ⟨n.id, .refl, hedge, ?_⟩
      -- the slot leads to the node itself or to one further up
      rcases List.mem_cons.1 hp with rfl | hp
      · exact Or.inr ⟨.refl, .refl⟩
      · exact Or.inl hp
    · next hp =>
      obtain rfl : m.id = target := i.id_eq hm
      obtain ⟨b, hmb, hbt, ht⟩ := ih m.id m hm hp hm ht
      have hnb : ReflTransGen (c.SlotEdge i) n.id b := .head hedge hmb
      refine ⟨b, hnb, hbt, ?_⟩
      -- a target on the longer path is this node or on the path before
      rcases ht with ht | ⟨hmt, htb⟩
      · rcases List.mem_cons.1 ht with rfl | ht
        · exact Or.inr ⟨.refl, hnb⟩
        · exact Or.inl ht
      · exact Or.inr ⟨.head hedge hmt, htb⟩

/-- The target of a marker is reached from the root and lies on a cycle. -/
lemma cycle_of_mem_markers_plan {n : Node} {t : NodeId} (hn : i.node? n.id = some n)
    (ht : t ∈ (c.plan i [] n).markers) :
    ReflTransGen (c.SlotEdge i) n.id t ∧ TransGen (c.SlotEdge i) t t := by
  obtain ⟨b, -, hbt, h | ⟨hnt, htb⟩⟩ := reach_of_mem_markers_plan hn ht
  · simp at h
  · exact ⟨hnt, TransGen.tail' htb hbt⟩

/-- Along a slot edge a plan without markers goes on, away from its path. -/
lemma planned_of_slotEdge {path : List NodeId} {n : Node} {b : NodeId}
    (hn : i.node? n.id = some n) (hplan : (c.plan i path n).markers = [])
    (h : c.SlotEdge i n.id b) :
    b ∉ n.id :: path ∧ ∃ m, i.node? b = some m ∧ (c.plan i (n.id :: path) m).markers = [] := by
  obtain ⟨hb, hsome⟩ := (slotEdge_iff hn).1 h
  obtain ⟨m, hm⟩ := Option.isSome_iff_exists.1 hsome
  have hp : b ∉ n.id :: path := by
    intro hp
    have : b ∈ (c.plan i path n).markers :=
      mem_markers_plan_iff.2 ⟨b, m, hb, hm, by rw [if_pos hp]⟩
    simp [hplan] at this
  refine ⟨hp, m, hm, List.eq_nil_iff_forall_not_mem.2 fun t ht => ?_⟩
  have : t ∈ (c.plan i path n).markers := mem_markers_plan_iff.2 ⟨b, m, hb, hm, by rwa [if_neg hp]⟩
  simp [hplan] at this

/-- From a plan without markers everything that can be reached is planned inside the node of the
plan, and is not on its own path. -/
lemma planned_of_transGen {path : List NodeId} {n : Node} {b : NodeId}
    (hn : i.node? n.id = some n) (hplan : (c.plan i path n).markers = [])
    (h : TransGen (c.SlotEdge i) n.id b) :
    ∃ path' m, n.id ∈ path' ∧ b ∉ path' ∧ i.node? b = some m ∧
      (c.plan i path' m).markers = [] := by
  induction h with
  | single h =>
    obtain ⟨hb, m, hm, hplan'⟩ := planned_of_slotEdge hn hplan h
    exact ⟨n.id :: path, m, by simp, hb, hm, hplan'⟩
  | tail _ h ih =>
    obtain ⟨path', m, hmem, -, hm, hplan'⟩ := ih
    obtain rfl := i.id_eq hm
    obtain ⟨hb, k, hk, hplan''⟩ := planned_of_slotEdge hm hplan' h
    exact ⟨m.id :: path', k, by simp [hmem], hb, hk, hplan''⟩

/-- From the root of a plan without markers no cycle can be reached. -/
lemma not_cycle_of_markers_plan {n : Node} {v : NodeId} (hn : i.node? n.id = some n)
    (hplan : (c.plan i [] n).markers = []) (hv : ReflTransGen (c.SlotEdge i) n.id v) :
    ¬ TransGen (c.SlotEdge i) v v := by
  intro hcycle
  -- going round the cycle would plan `v` inside itself
  have hplanned : ∃ path m, i.node? v = some m ∧ (c.plan i path m).markers = [] := by
    rcases reflTransGen_iff_eq_or_transGen.1 hv with rfl | hv
    · exact ⟨[], n, hn, hplan⟩
    · obtain ⟨path, m, -, -, hm, hplan'⟩ := planned_of_transGen hn hplan hv
      exact ⟨path, m, hm, hplan'⟩
  obtain ⟨path, m, hm, hplan'⟩ := hplanned
  obtain rfl := i.id_eq hm
  obtain ⟨path', _, hmem, hnot, -, -⟩ := planned_of_transGen hm hplan' hcycle
  exact hnot hmem

/-! ### Compilations that forbid cycles -/

section Reject

variable {γ : Type} [IdGenerator γ] {root : NodeId} {generator : γ}

/-- Nothing is reached along slot edges from a root that is not there. -/
lemma not_slotEdge_of_absent {b : NodeId} (hroot : i.node? root = none) :
    ¬ c.SlotEdge i root b := by
  rintro ⟨n, hn, -⟩
  simp [hroot] at hn

/-- A node at which a compilation fails because of a cycle is reached from the root and lies on a
cycle. -/
lemma cycle_of_run_eq_error {t : NodeId}
    (h : (c.run i root generator).result = .error (.cycleDetected t)) :
    ReflTransGen (c.SlotEdge i) root t ∧ TransGen (c.SlotEdge i) t t := by
  cases hroot : i.node? root with
  | none => simp [run_of_absent hroot] at h
  | some n =>
    obtain rfl : n.id = root := i.id_eq hroot
    rw [run_eq_build hroot, result_ofBuilt_eq_error_iff] at h
    obtain ⟨l, h⟩ := h
    rcases eq_of_build_eq_error h with he | ⟨target, ht, he, -⟩
    · simp at he
    · obtain rfl : t = target := by simpa using he
      exact cycle_of_mem_markers_plan hroot ht

/-- A compilation that forbids cycles and succeeds has no marker, and no cycle can be reached. -/
lemma no_cycle_of_run_eq_ok {comp : Compilation} (hpolicy : c.policy = .reject)
    (h : (c.run i root generator).result = .ok comp) :
    comp.root.markers = [] ∧
      ∀ v, ReflTransGen (c.SlotEdge i) root v → ¬ TransGen (c.SlotEdge i) v v := by
  cases hroot : i.node? root with
  | none =>
    rw [run_of_absent hroot, Except.ok.injEq] at h
    subst h
    refine ⟨Tree.markers_empty, fun v hv hcycle => ?_⟩
    rcases hv.cases_head with rfl | ⟨b, hb, -⟩
    · obtain ⟨b, hb, -⟩ := TransGen.head'_iff.1 hcycle
      exact not_slotEdge_of_absent hroot hb
    · exact not_slotEdge_of_absent hroot hb
  | some n =>
    obtain rfl : n.id = root := i.id_eq hroot
    have hmap := map_origin_of_run hroot h
    rw [run_eq_build hroot, result_ofBuilt_eq_ok_iff] at h
    obtain ⟨l, h, -⟩ := h
    have hplan := markers_eq_nil_of_build hpolicy h
    refine ⟨?_, fun v => not_cycle_of_markers_plan hroot hplan⟩
    rw [← Tree.markers_map Step.origin, hmap, Tree.markers_map, hplan]

/-- Unless it stops at the limit, a compilation that forbids cycles fails just if a cycle of slot
edges can be reached from the root, names a node of such a cycle, and else gives a tree without
markers. -/
theorem cycleDetected_iff_of_reject {nodes : List Node} {edges : List Edge}
    (hpolicy : c.policy = .reject)
    (hlimit : ∀ limit, (c.runLists nodes edges root generator).result ≠
      .error (.stepLimitExceeded limit)) :
    ((∃ t, (c.runLists nodes edges root generator).result = .error (.cycleDetected t)) ↔
        ∃ v, ReflTransGen (c.SlotEdge (.ofLists nodes edges)) root v ∧
          TransGen (c.SlotEdge (.ofLists nodes edges)) v v) ∧
      (∀ t, (c.runLists nodes edges root generator).result = .error (.cycleDetected t) →
        ReflTransGen (c.SlotEdge (.ofLists nodes edges)) root t ∧
          TransGen (c.SlotEdge (.ofLists nodes edges)) t t) ∧
      ((∀ t, (c.runLists nodes edges root generator).result ≠ .error (.cycleDetected t)) →
        ∃ comp, (c.runLists nodes edges root generator).result = .ok comp ∧
          comp.root.markers = []) := by
  rw [runLists] at *
  refine ⟨⟨?_, ?_⟩, fun t => cycle_of_run_eq_error, ?_⟩
  · rintro ⟨t, ht⟩
    exact ⟨t, cycle_of_run_eq_error ht⟩
  · rintro ⟨v, hv, hcycle⟩
    cases hresult : (c.run (.ofLists nodes edges) root generator).result with
    | ok comp => exact absurd hcycle ((no_cycle_of_run_eq_ok hpolicy hresult).2 v hv)
    | error e =>
      cases e with
      | cycleDetected t => exact ⟨t, rfl⟩
      | stepLimitExceeded limit => exact absurd hresult (hlimit limit)
  · intro hcycle
    cases hresult : (c.run (.ofLists nodes edges) root generator).result with
    | ok comp => exact ⟨comp, rfl, (no_cycle_of_run_eq_ok hpolicy hresult).1⟩
    | error e =>
      cases e with
      | cycleDetected t => exact absurd hresult (hcycle t)
      | stepLimitExceeded limit => exact absurd hresult (hlimit limit)

/-- The first button of the menu is a cycle, at which compiling fails. -/
theorem cycleDetected_menu :
    (runLists { policy := .reject } [menu] menuEdges "a" IdScheme.standard.source).result
        = .error (.cycleDetected "a") ∧
      TransGen (SlotEdge { policy := .reject } (.ofLists [menu] menuEdges)) "a" "a" := by
  have hrun : (runLists { policy := .reject } [menu] menuEdges "a"
      IdScheme.standard.source).result = .error (.cycleDetected "a") := by
    rw [runLists, run_eq_build (n := menu) (by decide), plan_menu, build_step,
      Build.bind_of_ok (openStep_of_not_le (by decide)), List.mapM_cons, build_backReference,
      Build.bind_of_error (Build.bind_of_error (leadBack_reject rfl _ _))]
    rfl
  have hlimit : ∀ limit, (runLists { policy := .reject } [menu] menuEdges "a"
      IdScheme.standard.source).result ≠ .error (.stepLimitExceeded limit) := by
    intro limit
    simp [hrun]
  exact ⟨hrun, ((cycleDetected_iff_of_reject rfl hlimit).2.1 "a" hrun).2⟩

end Reject

end Chatflow.Compiler
