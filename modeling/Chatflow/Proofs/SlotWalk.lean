/-
# Walks along slots

A list of slot numbers can be followed in two places.  In a compiled tree it is an address; in the
graph it is a walk that leaves each node along the edge at the place of the slot
(`Compiler.walk?`).  This file compares the two.  The tree has a step where the walk is simple, a
marker where a simple walk is closed by one more edge, and an empty slot where a simple walk cannot
go on (`Compiler.Unfolds`).

The comparison is made for plans, inside any path: the part of a plan that stands at the end of
a simple walk is the plan of the last node inside the nodes before it (`at?_plan_of_walk?`), and
only the ends of such walks carry steps (`walk?_of_at?_plan`).
-/
import Chatflow.Proofs.Plan

namespace Chatflow.Compiler

variable {c : Compiler} {i : GraphIndex}

/-! ### Walks -/

/-- Where a slot of a node leads: along the edge that has the number of the slot among the edges
that leave the node. -/
def target? (c : Compiler) (i : GraphIndex) (n : Node) (slot : Nat) : Option NodeId :=
  if slot < c.slots n then (i.edgesFrom n.id)[slot]?.map (·.target) else none

lemma getElem?_targets (c : Compiler) (i : GraphIndex) (n : Node) (slot : Nat) :
    (c.targets i n)[slot]? = if slot < c.slots n then some (c.target? i n slot) else none := by
  by_cases h : slot < c.slots n
  · simp [targets, target?, h]
  · simp [targets, h]

lemma lt_slots_of_target? {n : Node} {slot : Nat} {t : NodeId}
    (h : c.target? i n slot = some t) : slot < c.slots n := by
  by_contra hs
  simp [target?, hs] at h

/-- The nodes on the walk from a node along slots, if there is an edge at every slot and it leads
to a node. -/
def walk? (c : Compiler) (i : GraphIndex) (n : Node) : List Nat → Option (List Node)
  | [] => some [n]
  | slot :: address =>
    ((c.target? i n slot).bind i.node?).bind fun m => (c.walk? i m address).map (n :: ·)

/-- The walk along slots passes the nodes `visited` and none of them twice. -/
structure SimpleWalk (c : Compiler) (i : GraphIndex) (n : Node) (address : List Nat)
    (visited : List Node) : Prop where
  follows : c.walk? i n address = some visited
  distinct : (visited.map (·.id)).Nodup

lemma walk?_cons_eq_some_iff {n : Node} {slot : Nat} {address : List Nat} {visited : List Node} :
    c.walk? i n (slot :: address) = some visited ↔
      ∃ target m rest, c.target? i n slot = some target ∧ i.node? target = some m ∧
        c.walk? i m address = some rest ∧ visited = n :: rest := by
  simp only [walk?, Option.bind_eq_some_iff, Option.map_eq_some_iff]
  constructor
  · rintro ⟨m, ⟨target, ht, hm⟩, rest, hrest, rfl⟩
    exact ⟨target, m, rest, ht, hm, hrest, rfl⟩
  · rintro ⟨target, m, rest, ht, hm, hrest, rfl⟩
    exact ⟨m, ⟨target, ht, hm⟩, rest, hrest, rfl⟩

/-- A walk starts where it starts. -/
lemma walk?_eq_cons {n : Node} {address : List Nat} {visited : List Node}
    (h : c.walk? i n address = some visited) : ∃ rest, visited = n :: rest := by
  cases address with
  | nil => exact ⟨[], (Option.some.inj h).symm⟩
  | cons slot address =>
    obtain ⟨_, _, rest, _, _, _, rfl⟩ := walk?_cons_eq_some_iff.1 h
    exact ⟨rest, rfl⟩

/-- All nodes on a walk are in the graph. -/
lemma node?_of_mem_walk? {n v : Node} {address : List Nat} {visited : List Node}
    (hn : i.node? n.id = some n) (h : c.walk? i n address = some visited) (hv : v ∈ visited) :
    i.node? v.id = some v := by
  induction address generalizing n visited with
  | nil =>
    obtain rfl : [n] = visited := Option.some.inj h
    rw [List.mem_singleton] at hv
    rwa [hv]
  | cons slot address ih =>
    obtain ⟨target, m, rest, -, hm, hrest, rfl⟩ := walk?_cons_eq_some_iff.1 h
    rcases List.mem_cons.1 hv with rfl | hv
    · exact hn
    · obtain rfl : m.id = target := i.id_eq hm
      exact ih hm hrest hv

/-- A walk is interrupted behind some of its slots. -/
lemma walk?_append {n : Node} {above below : List Nat} {visited : List Node}
    (h : c.walk? i n (above ++ below) = some visited) :
    ∃ m front rest, c.walk? i n above = some (front ++ [m]) ∧ c.walk? i m below = some rest ∧
      visited = front ++ rest := by
  induction above generalizing n visited with
  | nil => exact ⟨n, [], visited, rfl, h, rfl⟩
  | cons slot above ih =>
    obtain ⟨target, k, rest, ht, hk, hrest, rfl⟩ := walk?_cons_eq_some_iff.1 h
    obtain ⟨m, front, rest, habove, hbelow, rfl⟩ := ih hrest
    exact ⟨m, n :: front, rest, walk?_cons_eq_some_iff.2 ⟨target, k, _, ht, hk, habove, rfl⟩,
      hbelow, rfl⟩

/-- A walk is interrupted at a node it passes. -/
lemma walk?_of_mem {n v : Node} {address : List Nat} {visited : List Node}
    (h : c.walk? i n address = some visited) (hv : v ∈ visited) :
    ∃ above below front rest, address = above ++ below ∧ visited = front ++ v :: rest ∧
      c.walk? i n above = some (front ++ [v]) := by
  induction address generalizing n visited with
  | nil =>
    obtain rfl : [n] = visited := Option.some.inj h
    obtain rfl := List.mem_singleton.1 hv
    exact ⟨[], [], [], [], rfl, rfl, rfl⟩
  | cons slot address ih =>
    obtain ⟨target, k, rest, ht, hk, hrest, rfl⟩ := walk?_cons_eq_some_iff.1 h
    rcases List.mem_cons.1 hv with rfl | hv
    · exact ⟨[], slot :: address, [], rest, rfl, rfl, rfl⟩
    · obtain ⟨above, below, front, rest, rfl, rfl, habove⟩ := ih hrest hv
      exact ⟨slot :: above, below, n :: front, rest, rfl, rfl,
        walk?_cons_eq_some_iff.2 ⟨target, k, _, ht, hk, habove, rfl⟩⟩

/-- Up to a node on it a simple walk is simple. -/
lemma SimpleWalk.exists_of_mem {n v : Node} {address : List Nat} {visited : List Node}
    (h : c.SimpleWalk i n address visited) (hv : v ∈ visited) :
    ∃ above below front, address = above ++ below ∧ c.SimpleWalk i n above (front ++ [v]) := by
  obtain ⟨above, below, front, rest, rfl, hvisited, habove⟩ := walk?_of_mem h.follows hv
  have hdistinct := h.distinct
  rw [hvisited, ← List.singleton_append, ← List.append_assoc, List.map_append] at hdistinct
  exact ⟨above, below, front, rfl, habove, (List.nodup_append.1 hdistinct).1⟩

/-! ### Walks and plans -/

/-- What stands at an address below a node of a plan. -/
lemma at?_plan_cons {path : List NodeId} {n : Node} {slot : Nat} {address : List Nat} :
    (c.plan i path n).at? (slot :: address) =
      if slot < c.slots n then (c.planSlot i (n.id :: path) (c.target? i n slot)).at? address
      else none := by
  rw [plan_eq, Tree.at?_cons, Tree.slots, List.getElem?_map, getElem?_targets]
  split <;> rfl

/-- Two lists of ids have none in common and none twice: the nodes of a path and those of a walk
that starts below it. -/
def Fresh (path : List NodeId) (visited : List Node) : Prop :=
  (visited.map (·.id)).Nodup ∧ ∀ v ∈ visited, v.id ∉ path

lemma fresh_cons_iff {path : List NodeId} {n : Node} {visited : List Node} :
    Fresh path (n :: visited) ↔ n.id ∉ path ∧ Fresh (n.id :: path) visited := by
  simp only [Fresh, List.map_cons, List.nodup_cons, List.mem_map, List.mem_cons, not_or]
  constructor
  · rintro ⟨⟨hn, hnodup⟩, h⟩
    refine ⟨h n (Or.inl rfl), hnodup, fun v hv => ⟨fun he => hn ⟨v, hv, he⟩, h v (Or.inr hv)⟩⟩
  · rintro ⟨hn, hnodup, h⟩
    refine ⟨⟨fun ⟨v, hv, he⟩ => (h v hv).1 he, hnodup⟩, ?_⟩
    rintro v (rfl | hv)
    · exact hn
    · exact (h v hv).2

/-- At the end of a simple walk stands the plan of its last node, inside all nodes before. -/
lemma at?_plan_of_walk? {path : List NodeId} {n m : Node} {address : List Nat}
    {front : List Node} (h : c.walk? i n address = some (front ++ [m]))
    (hfresh : Fresh path (front ++ [m])) :
    (c.plan i path n).at? address = some (c.plan i ((front.map (·.id)).reverse ++ path) m) := by
  induction address generalizing path n front with
  | nil =>
    obtain ⟨rfl, rfl⟩ : front = [] ∧ n = m := by
      have h := Option.some.inj h
      cases front <;> simp_all
    rfl
  | cons slot address ih =>
    obtain ⟨target, k, rest, ht, hk, hrest, hvisited⟩ := walk?_cons_eq_some_iff.1 h
    obtain ⟨rest, rfl⟩ := walk?_eq_cons hrest
    cases front with
    | nil => simp at hvisited
    | cons n' front =>
      rw [List.cons_append, List.cons.injEq] at hvisited
      obtain ⟨rfl, hvisited⟩ := hvisited
      rw [← hvisited] at hrest
      have hrest' : Fresh (n'.id :: path) (front ++ [m]) := (fresh_cons_iff.1 hfresh).2
      -- the walk goes on behind the path, so that its next node is expanded
      have htarget : target ∉ n'.id :: path := by
        rw [← i.id_eq hk]
        exact hrest'.2 k (by rw [hvisited]; simp)
      rw [at?_plan_cons, if_pos (lt_slots_of_target? ht), ht, planSlot_of_not_mem hk htarget,
        ih hrest hrest']
      simp

/-- A step of a plan stands at the end of a simple walk. -/
lemma walk?_of_at?_plan {path : List NodeId} {n m : Node} {address : List Nat}
    {slots : List (Tree Node)} (h : (c.plan i path n).at? address = some (.step m slots))
    (hn : n.id ∉ path) :
    ∃ front, c.walk? i n address = some (front ++ [m]) ∧ Fresh path (front ++ [m]) := by
  induction address generalizing path n with
  | nil =>
    rw [plan_eq, Tree.at?_nil, Option.some.injEq, Tree.step.injEq] at h
    obtain ⟨rfl, -⟩ := h
    exact ⟨[], rfl, by simp [Fresh, hn]⟩
  | cons slot address ih =>
    rw [at?_plan_cons] at h
    split at h
    · rcases planSlot_cases c i (n.id :: path) (c.target? i n slot) with
        ⟨-, hslot⟩ | ⟨target, -, -, -, hslot⟩ | ⟨target, k, ht, hk, hp, hslot⟩
      · -- below an empty slot and below a marker there is no step
        rw [hslot] at h
        simpa using (Tree.eq_of_at?_of_slots_eq_nil rfl h).2
      · rw [hslot] at h
        simpa using (Tree.eq_of_at?_of_slots_eq_nil rfl h).2
      · rw [hslot] at h
        rw [← i.id_eq hk] at hp
        obtain ⟨front, hwalk, hfresh⟩ := ih h hp
        exact ⟨n :: front, walk?_cons_eq_some_iff.2 ⟨target, k, _, ht, hk, hwalk, rfl⟩,
          fresh_cons_iff.2 ⟨hn, hfresh⟩⟩
    · simp at h

/-! ### What stands where in a plan -/

/-- The steps of a plan are the ends of simple walks, and their slots are planned inside the nodes
of the walk. -/
lemma at?_plan_eq_step_iff {n m : Node} {address : List Nat} {slots : List (Tree Node)} :
    (c.plan i [] n).at? address = some (.step m slots) ↔
      ∃ front, c.SimpleWalk i n address (front ++ [m]) ∧
        slots = (c.targets i m).map (c.planSlot i ((front ++ [m]).map (·.id)).reverse) := by
  have hplan : ∀ front : List Node, c.SimpleWalk i n address (front ++ [m]) →
      (c.plan i [] n).at? address = some (.step m
        ((c.targets i m).map (c.planSlot i ((front ++ [m]).map (·.id)).reverse))) := by
    intro front hwalk
    rw [at?_plan_of_walk? hwalk.follows ⟨hwalk.distinct, by simp⟩, plan_eq]
    simp
  constructor
  · -- the slots of the step are known only once it is planned at the end of the walk
    intro h
    obtain ⟨front, hwalk, hfresh⟩ := walk?_of_at?_plan h (by simp)
    have hstep := hplan front ⟨hwalk, hfresh.1⟩
    rw [h, Option.some.injEq, Tree.step.injEq] at hstep
    exact ⟨front, ⟨hwalk, hfresh.1⟩, hstep.2⟩
  · rintro ⟨front, hwalk, rfl⟩
    exact hplan front hwalk

/-- What stands below a step of a plan is planned for one of its slots. -/
lemma at?_plan_concat_iff {n : Node} {b : Tree Node} {address : List Nat} {slot : Nat} :
    (c.plan i [] n).at? (address ++ [slot]) = some b ↔
      ∃ front last, c.SimpleWalk i n address (front ++ [last]) ∧ slot < c.slots last ∧
        c.planSlot i ((front ++ [last]).map (·.id)).reverse (c.target? i last slot) = b := by
  rw [Tree.at?_concat_eq_some_iff]
  constructor
  · rintro ⟨last, slots, hstep, hb⟩
    obtain ⟨front, hwalk, rfl⟩ := at?_plan_eq_step_iff.1 hstep
    rw [List.getElem?_map, getElem?_targets] at hb
    split at hb
    · next hslot => exact ⟨front, last, hwalk, hslot, Option.some.inj hb⟩
    · simp at hb
  · rintro ⟨front, last, hwalk, hslot, hb⟩
    refine ⟨last, _, at?_plan_eq_step_iff.2 ⟨front, hwalk, rfl⟩, ?_⟩
    rw [List.getElem?_map, getElem?_targets, if_pos hslot, ← hb]
    rfl

lemma planSlot_eq_backReference_iff {path : List NodeId} {t : Option NodeId} {m : NodeId} :
    c.planSlot i path t = .backReference m ↔ t = some m ∧ (i.node? m).isSome ∧ m ∈ path := by
  constructor
  · intro h
    rcases planSlot_cases c i path t with
      ⟨-, hslot⟩ | ⟨target, rfl, hsome, hp, hslot⟩ | ⟨target, k, -, -, -, hslot⟩
    · simp [hslot] at h
    · rw [hslot, Tree.backReference.injEq] at h
      exact ⟨by rw [h], by rwa [← h], by rwa [← h]⟩
    · simp [hslot, plan_eq] at h
  · rintro ⟨rfl, hsome, hp⟩
    exact planSlot_of_mem hsome hp

lemma planSlot_eq_empty_iff {path : List NodeId} {t : Option NodeId} :
    c.planSlot i path t = .empty ↔ t.bind i.node? = none := by
  constructor
  · intro h
    rcases planSlot_cases c i path t with
      ⟨habsent, -⟩ | ⟨target, -, -, -, hslot⟩ | ⟨target, k, -, -, -, hslot⟩
    · exact habsent
    · simp [hslot] at h
    · simp [hslot, plan_eq] at h
  · exact planSlot_of_absent

/-! ### What stands where in a compiled tree -/

/-- The tree is that of the walks from `n`. -/
structure Unfolds (c : Compiler) (i : GraphIndex) (n : Node) (tree : Branch) : Prop where
  /-- Steps stand at the ends of simple walks. -/
  step_iff : ∀ address m,
    (∃ s slots, tree.at? address = some (.step s slots) ∧ s.origin = m) ↔
      ∃ before last, c.SimpleWalk i n address (before ++ [last]) ∧ last.id = m
  /-- Markers stand where an edge leads from the end of a simple walk back onto it. -/
  backReference_iff : ∀ address m, tree.at? address = some (.backReference m) ↔
    ∃ front slot before last, address = front ++ [slot] ∧
      c.SimpleWalk i n front (before ++ [last]) ∧ c.target? i last slot = some m ∧
      m ∈ (before ++ [last]).map (·.id)
  /-- Empty slots stand where a simple walk cannot go on. -/
  empty_iff : ∀ address, tree.at? address = some .empty ↔
    ∃ front slot before last, address = front ++ [slot] ∧
      c.SimpleWalk i n front (before ++ [last]) ∧ slot < c.slots last ∧
      (c.target? i last slot).bind i.node? = none
  /-- A step stands in no other step of its node. -/
  origin_ne : ∀ above below s slots s' slots', below ≠ [] →
    tree.at? above = some (.step s slots) →
    tree.at? (above ++ below) = some (.step s' slots') → s'.origin ≠ s.origin
  /-- A marker stands in a step of the node it leads to. -/
  origin_of_backReference : ∀ address m, tree.at? address = some (.backReference m) →
    ∃ above below s slots, address = above ++ below ∧ below ≠ [] ∧
      tree.at? above = some (.step s slots) ∧ s.origin = m
  /-- There are as many steps as simple walks. -/
  encard_simpleWalks :
    {address | ∃ visited, c.SimpleWalk i n address visited}.encard = tree.stepCount

section Unfolding

variable {n : Node} {tree : Branch}

lemma step_iff_of_map_origin (h : tree.map (·.origin) = (c.plan i [] n).map (·.id))
    (address : List Nat) (m : NodeId) :
    (∃ s slots, tree.at? address = some (.step s slots) ∧ s.origin = m) ↔
      ∃ before last, c.SimpleWalk i n address (before ++ [last]) ∧ last.id = m := by
  rw [← Tree.exists_at?_map_eq_step_iff, h, Tree.exists_at?_map_eq_step_iff]
  constructor
  · rintro ⟨last, slots, hstep, hm⟩
    obtain ⟨before, hwalk, -⟩ := at?_plan_eq_step_iff.1 hstep
    exact ⟨before, last, hwalk, hm⟩
  · rintro ⟨before, last, hwalk, hm⟩
    exact ⟨last, _, at?_plan_eq_step_iff.2 ⟨before, hwalk, rfl⟩, hm⟩

lemma backReference_iff_of_map_origin (hn : i.node? n.id = some n)
    (h : tree.map (·.origin) = (c.plan i [] n).map (·.id)) (address : List Nat) (m : NodeId) :
    tree.at? address = some (.backReference m) ↔
      ∃ front slot before last, address = front ++ [slot] ∧
        c.SimpleWalk i n front (before ++ [last]) ∧ c.target? i last slot = some m ∧
        m ∈ (before ++ [last]).map (·.id) := by
  rw [← Tree.at?_map_eq_backReference_iff (f := Step.origin), h,
    Tree.at?_map_eq_backReference_iff]
  constructor
  · intro hm
    rcases List.eq_nil_or_concat' address with rfl | ⟨front, slot, rfl⟩
    · simp [plan_eq] at hm
    · obtain ⟨before, last, hwalk, -, hslot⟩ := at?_plan_concat_iff.1 hm
      obtain ⟨ht, -, hmem⟩ := planSlot_eq_backReference_iff.1 hslot
      exact ⟨front, slot, before, last, rfl, hwalk, ht, List.mem_reverse.1 hmem⟩
  · rintro ⟨front, slot, before, last, rfl, hwalk, ht, hmem⟩
    refine at?_plan_concat_iff.2 ⟨before, last, hwalk, lt_slots_of_target? ht, ?_⟩
    refine planSlot_eq_backReference_iff.2 ⟨ht, ?_, List.mem_reverse.2 hmem⟩
    obtain ⟨v, hv, rfl⟩ := List.mem_map.1 hmem
    simp [node?_of_mem_walk? hn hwalk.follows hv]

lemma empty_iff_of_map_origin (h : tree.map (·.origin) = (c.plan i [] n).map (·.id))
    (address : List Nat) :
    tree.at? address = some .empty ↔
      ∃ front slot before last, address = front ++ [slot] ∧
        c.SimpleWalk i n front (before ++ [last]) ∧ slot < c.slots last ∧
        (c.target? i last slot).bind i.node? = none := by
  rw [← Tree.at?_map_eq_empty_iff (f := Step.origin), h, Tree.at?_map_eq_empty_iff]
  constructor
  · intro hm
    rcases List.eq_nil_or_concat' address with rfl | ⟨front, slot, rfl⟩
    · simp [plan_eq] at hm
    · obtain ⟨before, last, hwalk, hlt, hslot⟩ := at?_plan_concat_iff.1 hm
      exact ⟨front, slot, before, last, rfl, hwalk, hlt, planSlot_eq_empty_iff.1 hslot⟩
  · rintro ⟨front, slot, before, last, rfl, hwalk, hlt, ht⟩
    exact at?_plan_concat_iff.2 ⟨before, last, hwalk, hlt, planSlot_eq_empty_iff.2 ht⟩

/-- The end of a simple walk differs from every node that the walk has left before. -/
lemma id_ne_of_simpleWalk {m last : Node} {above below : List Nat} {front before : List Node}
    (hbelow : below ≠ []) (habove : c.SimpleWalk i n above (front ++ [m]))
    (hwalk : c.SimpleWalk i n (above ++ below) (before ++ [last])) : last.id ≠ m.id := by
  obtain ⟨m', front', rest, habove', hrest, hvisited⟩ := walk?_append hwalk.follows
  rw [habove.follows, Option.some.injEq] at habove'
  obtain ⟨rfl, hm⟩ := List.append_inj' habove' rfl
  obtain rfl : m = m' := by simpa using hm
  obtain ⟨slot, below, rfl⟩ := List.exists_cons_of_ne_nil hbelow
  obtain ⟨target, k, rest, -, -, hk, rfl⟩ := walk?_cons_eq_some_iff.1 hrest
  obtain ⟨rest, rfl⟩ := walk?_eq_cons hk
  have hlast : last ∈ k :: rest := by
    have hlast := congrArg List.getLast? hvisited
    rw [List.getLast?_concat, List.getLast?_append, List.getLast?_cons_cons,
      List.getLast?_eq_some_getLast (List.cons_ne_nil k rest), Option.some_or,
      Option.some.injEq] at hlast
    rw [hlast]
    exact List.getLast_mem _
  have hdistinct := hwalk.distinct
  rw [hvisited, List.map_append, List.map_cons, List.nodup_append] at hdistinct
  intro he
  exact (List.nodup_cons.1 hdistinct.2.1).1 (he ▸ List.mem_map_of_mem hlast)

/-- Every tree with the origins of a plan unfolds the walks from the plan's node. -/
lemma unfolds_of_map_origin (hn : i.node? n.id = some n)
    (h : tree.map (·.origin) = (c.plan i [] n).map (·.id)) : c.Unfolds i n tree where
  step_iff := step_iff_of_map_origin h
  backReference_iff := backReference_iff_of_map_origin hn h
  empty_iff := empty_iff_of_map_origin h
  origin_ne := by
    intro above below s slots s' slots' hbelow hs hs'
    obtain ⟨front, m, habove, hm⟩ := (step_iff_of_map_origin h above _).1 ⟨s, slots, hs, rfl⟩
    obtain ⟨before, last, hwalk, hlast⟩ :=
      (step_iff_of_map_origin h (above ++ below) _).1 ⟨s', slots', hs', rfl⟩
    rw [← hm, ← hlast]
    exact id_ne_of_simpleWalk hbelow habove hwalk
  origin_of_backReference := by
    intro address m hm
    obtain ⟨front, slot, before, last, rfl, hwalk, -, hmem⟩ :=
      (backReference_iff_of_map_origin hn h address m).1 hm
    obtain ⟨v, hv, rfl⟩ := List.mem_map.1 hmem
    obtain ⟨above, below, front', rfl, habove⟩ := hwalk.exists_of_mem hv
    obtain ⟨s, slots, hs, ho⟩ := (step_iff_of_map_origin h above v.id).2 ⟨front', v, habove, rfl⟩
    -- the slot of the marker itself lies below that step
    exact ⟨above, below ++ [slot], s, slots, List.append_assoc .., by simp, hs, ho⟩
  encard_simpleWalks := by
    rw [← Tree.encard_stepAddresses]
    congr 1
    ext address
    constructor
    · rintro ⟨visited, hwalk⟩
      obtain ⟨rest, rfl⟩ := walk?_eq_cons hwalk.follows
      have hne : n :: rest ≠ [] := by simp
      rw [← List.dropLast_append_getLast hne] at hwalk
      obtain ⟨s, slots, hs, -⟩ := (step_iff_of_map_origin h address _).2 ⟨_, _, hwalk, rfl⟩
      exact ⟨s, slots, hs⟩
    · rintro ⟨s, slots, hs⟩
      obtain ⟨before, last, hwalk, -⟩ := (step_iff_of_map_origin h address _).1 ⟨s, slots, hs, rfl⟩
      exact ⟨_, hwalk⟩

end Unfolding

/-- A compiled tree has its steps at the ends of the simple walks along slots, its markers where
such a walk is closed, and its empty slots where one cannot go on. -/
theorem unfolds_of_runLists {γ : Type} [IdGenerator γ] {c : Compiler} {nodes : List Node}
    {edges : List Edge} {root : NodeId} {generator : γ} {n : Node} {comp : Compilation}
    (hroot : (GraphIndex.ofLists nodes edges).node? root = some n)
    (hrun : (c.runLists nodes edges root generator).result = .ok comp) :
    c.Unfolds (.ofLists nodes edges) n comp.root := by
  have hn : n.id = root := GraphIndex.id_eq _ hroot
  subst hn
  exact unfolds_of_map_origin hroot (map_origin_of_run hroot hrun)

/-- A menu of two buttons. -/
def menu : Node := { id := "a", type := .template }

/-- The first button of the menu leads back to it, the second nowhere. -/
def menuEdges : List Edge := [⟨"e1", "a", "a"⟩]

lemma plan_menu (policy : CyclePolicy) :
    plan { policy } (.ofLists [menu] menuEdges) [] menu
      = .step menu [.backReference "a", .empty] := by
  rw [plan_eq, show targets { policy } (.ofLists [menu] menuEdges) menu = [some "a", none] from rfl,
    List.map_cons, planSlot_of_mem (by decide) (by decide)]
  rfl

theorem unfolds_menu : ∃ comp,
    (runLists {} [menu] menuEdges "a" IdScheme.standard.source).result = .ok comp ∧
      Unfolds {} (.ofLists [menu] menuEdges) menu comp.root := by
  have hrun : ∃ comp,
      (runLists {} [menu] menuEdges "a" IdScheme.standard.source).result = .ok comp := by
    rw [runLists, run_eq_build (n := menu) (by decide), plan_menu, build_step,
      Build.bind_of_ok (openStep_of_not_le (by decide)), List.mapM_cons, List.mapM_cons,
      List.mapM_nil, build_backReference, build_empty, pure_bind, pure_bind, bind_assoc,
      Build.bind_of_ok (leadBack_backReference rfl _ _)]
    exact ⟨_, rfl⟩
  obtain ⟨comp, hrun⟩ := hrun
  exact ⟨comp, hrun, unfolds_of_runLists (by decide) hrun⟩

end Chatflow.Compiler
