/-
# How far a compilation goes

A compilation is seen here one move after the other (`Compiler.moves`), with its step limit or
without one (`Compiler.movesFreely`).

A node that several edges enter is unfolded once for each way to it, so the number of steps says
little about how long this takes.  What brings the walk to its end is that a node on the path is not
opened again.  Filling a slot takes a single move if all nodes are on the path, and otherwise the
opening and closing of one step and the filling of its slots, with one node less off the path
(`slotMoves`).  Added up over the open slots of all open steps this goes down with every move
(`movesLeft_lt`), whatever the step limit and the policy.

For the same reason neither the stack nor the tree is deeper than there are nodes
(`runLists_bounded`).
-/
import Mathlib.Data.List.MinMax
import Chatflow.Proofs.Diagnostics

namespace Chatflow

/-- The largest number of slots of any step. -/
def Registry.width (r : Registry) : Nat :=
  (NodeType.all.map fun t => (r.schema t).slots).foldr max 0

lemma GraphIndex.mem_offPath_nil {i : GraphIndex} {id : NodeId} :
    id ∈ i.offPath [] ↔ (i.node? id).isSome := by
  rw [offPath, List.mem_filter, Std.ExtTreeMap.mem_keys, Std.ExtTreeMap.mem_iff_isSome_getElem?]
  simp [node?]

namespace Compiler

variable {γ : Type}

/-! ### Going on -/

/-- Goes on, unless the walk has come to its end. -/
def Move.next (f : Walk γ → Move γ) : Move γ → Move γ
  | .walk w => f w
  | .done o => .done o

/-- Goes on a number of times. -/
def Move.after (f : Walk γ → Move γ) (m : Move γ) : Nat → Move γ
  | 0 => m
  | k + 1 => (m.after f k).next f

section After

variable {f : Walk γ → Move γ} {m : Move γ}

lemma Move.after_done (o : Outcome γ) (k : Nat) : (Move.done o).after f k = .done o := by
  induction k with
  | zero => rfl
  | succ k ih => rw [Move.after, ih, Move.next]

lemma Move.after_add (j k : Nat) : m.after f (j + k) = (m.after f j).after f k := by
  induction k with
  | zero => rfl
  | succ k ih => rw [← Nat.add_assoc, Move.after, ih, Move.after]

/-- What holds at first and is kept by going on holds at any time. -/
lemma Move.after_induct {P : Move γ → Prop} (first : P m) (next : ∀ w, P (.walk w) → P (f w))
    (k : Nat) : P (m.after f k) := by
  induction k with
  | zero => exact first
  | succ k ih =>
    rw [Move.after]
    cases h : m.after f k with
    | walk w =>
      rw [h] at ih
      exact next w ih
    | done o =>
      rw [h] at ih
      exact ih

/-- If every move leaves less to do, the walk comes to its end. -/
lemma Move.exists_done {P : Walk γ → Prop} {μ : Walk γ → Nat}
    (hf : ∀ w w', P w → f w = .walk w' → P w' ∧ μ w' < μ w) {w : Walk γ} (hw : P w)
    {k : Nat} (hk : μ w < k) : ∃ o, (Move.walk w).after f k = .done o := by
  induction k generalizing w with
  | zero => exact absurd hk (Nat.not_lt_zero _)
  | succ k ih =>
    -- the first move is the one that leaves less to do, so it is set apart from the others
    rw [Nat.add_comm, Move.after_add]
    cases hm : f w with
    | done o => exact ⟨o, by rw [Move.after, Move.after, Move.next, hm, Move.after_done]⟩
    | walk w' =>
      obtain ⟨hw', hlt⟩ := hf w w' hw hm
      rw [Move.after, Move.after, Move.next, hm]
      exact ih hw' (Nat.lt_of_lt_of_le hlt (Nat.lt_succ_iff.1 hk))

end After

/-! ### A compilation, move by move -/

variable [IdGenerator γ] {c : Compiler} {i : GraphIndex} {root : NodeId} {generator : γ}

/-- The walk whose only step is that of `n`. -/
def Walk.single (c : Compiler) (i : GraphIndex) (n : Node) (generator : γ) : Walk γ where
  top := c.openFrame i n (IdGenerator.next generator).1
  below := []
  onPath := (∅ : Std.ExtTreeSet NodeId).insert n.id
  generator := (IdGenerator.next generator).2
  diagnostics := c.noteStep i n {}

/-- Opens the step of the root. -/
def start (c : Compiler) (i : GraphIndex) (root : NodeId) (generator : γ) : Move γ :=
  match i.node? root with
  | none => .done ⟨.ok ⟨.empty, {}⟩, generator⟩
  | some n =>
    if c.stepLimit ≤ 0 then .done ⟨.error (.stepLimitExceeded c.stepLimit), generator⟩
    else .walk (.single c i n generator)

/-- The compiler with another step limit. -/
def withLimit (c : Compiler) (limit : Nat) : Compiler := { c with stepLimit := limit }

/-- Where a compilation is after a number of moves. -/
def moves (c : Compiler) (i : GraphIndex) (root : NodeId) (generator : γ) (k : Nat) : Move γ :=
  (c.start i root generator).after (c.advance i) k

/-- One move, with the step limit out of reach. -/
def advanceFreely (c : Compiler) (i : GraphIndex) (w : Walk γ) : Move γ :=
  (c.withLimit (w.diagnostics.steps + 1)).advance i w

/-- Where a compilation without a step limit is after a number of moves. -/
def movesFreely (c : Compiler) (i : GraphIndex) (root : NodeId) (generator : γ) (k : Nat) :
    Move γ :=
  ((c.withLimit 1).start i root generator).after (c.advanceFreely i) k

lemma moves_succ (k : Nat) :
    c.moves i root generator (k + 1) = (c.moves i root generator k).next (c.advance i) := rfl

lemma movesFreely_succ (k : Nat) :
    c.movesFreely i root generator (k + 1)
      = (c.movesFreely i root generator k).next (c.advanceFreely i) := rfl

lemma movesFreely_add (j k : Nat) :
    c.movesFreely i root generator (j + k)
      = (c.movesFreely i root generator j).after (c.advanceFreely i) k := Move.after_add j k

/-- What is to come of a move. -/
def settle (c : Compiler) (i : GraphIndex) : Move γ → Outcome γ
  | .walk w => c.finish i w
  | .done o => o

lemma settle_start : c.settle i (c.start i root generator) = c.run i root generator := by
  rw [start, run]
  cases i.node? root with
  | none => rfl
  | some n =>
    simp only
    split <;> rfl

/-- However many moves have been made, the same is to come of them. -/
lemma settle_moves (k : Nat) :
    c.settle i (c.moves i root generator k) = c.run i root generator := by
  refine Move.after_induct (P := fun m => c.settle i m = c.run i root generator) settle_start ?_ k
  intro w hw
  rw [← hw, settle, finish]
  cases c.advance i w <;> rfl

lemma eq_run_of_moves {k : Nat} {o : Outcome γ} (h : c.moves i root generator k = .done o) :
    o = c.run i root generator := by
  rw [← settle_moves k, h]
  rfl

lemma start_eq_walk {w : Walk γ} (h : c.start i root generator = .walk w) :
    ∃ n, i.node? root = some n ∧ w = .single c i n generator := by
  rw [start] at h
  split at h
  · simp at h
  · next n hn =>
    split at h
    · simp at h
    · exact ⟨n, hn, (Move.walk.inj h).symm⟩

/-- At any time the set beside the stack holds just the nodes on the stack, which are all different
and all there. -/
lemma sound_of_moves {k : Nat} {w : Walk γ} (h : c.moves i root generator k = .walk w) :
    w.Sound i := by
  refine Move.after_induct (f := c.advance i) (P := fun m => ∀ w, m = .walk w → w.Sound i)
    ?_ ?_ k w h
  · intro w hw
    obtain ⟨n, hn, rfl⟩ := start_eq_walk hw
    exact .single hn rfl rfl
  · exact fun w hw w' h => sound_advance (hw w rfl) h

/-! ### What is left to be done -/

/-- How many moves it can take to fill a slot, if steps have at most `width` slots and `room` nodes
are off the path. -/
def slotMoves (width : Nat) : Nat → Nat
  | 0 => 1
  | room + 1 => 2 + width * slotMoves width room

/-- How many moves it can take to close frames. -/
def framesMoves (i : GraphIndex) (width : Nat) : List Frame → Nat
  | [] => 0
  | f :: below =>
    1 + f.targets.length * slotMoves width (i.offPath (pathOf (f :: below))).length
      + framesMoves i width below

/-- How many moves a walk can still take. -/
def Walk.movesLeft (i : GraphIndex) (width : Nat) (w : Walk γ) : Nat :=
  framesMoves i width (w.top :: w.below)

section MovesLeft

variable {width room room' : Nat}

lemma slotMoves_pos (width room : Nat) : 0 < slotMoves width room := by
  cases room with
  | zero => exact Nat.one_pos
  | succ room => exact Nat.lt_of_lt_of_le Nat.two_pos (Nat.le_add_right _ _)

lemma slotMoves_mono (width : Nat) : Monotone (slotMoves width) := by
  refine monotone_nat_of_le_succ fun room => ?_
  induction room with
  | zero => exact slotMoves_pos width 1
  | succ room ih => exact Nat.add_le_add_left (Nat.mul_le_mul_left _ ih) 2

/-- A slot can take more moves than closing a step that is opened in it. -/
lemma lt_slotMoves {slots : Nat} (hslots : slots ≤ width) (hroom : room' < room) :
    1 + slots * slotMoves width room' < slotMoves width room := by
  cases room with
  | zero => exact absurd hroom (Nat.not_lt_zero _)
  | succ room =>
    have hmono : slotMoves width room' ≤ slotMoves width room :=
      slotMoves_mono width (Nat.lt_succ_iff.1 hroom)
    calc 1 + slots * slotMoves width room'
        ≤ 1 + width * slotMoves width room := Nat.add_le_add_left (Nat.mul_le_mul hslots hmono) 1
      _ < 2 + width * slotMoves width room := Nat.add_lt_add_right Nat.one_lt_two _

omit [IdGenerator γ] in
lemma length_targets_le (c : Compiler) (i : GraphIndex) (n : Node) :
    (c.targets i n).length ≤ c.registry.width := by
  rw [targets, List.length_map, List.length_range]
  exact List.le_max_of_le (List.mem_map_of_mem (NodeType.mem_all n.type)) le_rfl

omit [IdGenerator γ] in
lemma pathOf_cons (f : Frame) (below : List Frame) :
    pathOf (f :: below) = f.step.origin :: pathOf below := rfl

variable {f : Frame} {below : List Frame} {target : Option NodeId} {rest : List (Option NodeId)}

omit [IdGenerator γ] in
lemma framesMoves_close (parent : Frame) (b : Branch) (hf : f.targets = []) :
    framesMoves i width (parent.fill parent.targets b :: below)
      < framesMoves i width (f :: parent :: below) := by
  simp only [framesMoves, pathOf_cons, Frame.fill, hf, List.length_nil]
  omega

omit [IdGenerator γ] in
lemma framesMoves_fill (b : Branch) (hf : f.targets = target :: rest) :
    framesMoves i width (f.fill rest b :: below) < framesMoves i width (f :: below) := by
  have hpos := slotMoves_pos width (i.offPath (pathOf (f :: below))).length
  simp only [framesMoves, pathOf_cons, Frame.fill, hf, List.length_cons, Nat.succ_mul] at hpos ⊢
  omega

omit [IdGenerator γ] in
/-- The slots of a step just opened take less than the one slot that it fills, because its node was
off the path. -/
lemma framesMoves_open {id : NodeId} {n : Node} (stepId : String) (hn : i.node? id = some n)
    (hp : id ∉ pathOf (f :: below)) (hf : f.targets = target :: rest) :
    framesMoves i c.registry.width (c.openFrame i n stepId :: { f with targets := rest } :: below)
      < framesMoves i c.registry.width (f :: below) := by
  have hlt := lt_slotMoves (length_targets_le c i n) (GraphIndex.length_offPath_lt hn hp)
  simp only [framesMoves, pathOf_cons, openFrame, makeStep, hf, List.length_cons,
    Nat.succ_mul] at hlt ⊢
  omega

/-- Every move leaves less to do. -/
lemma movesLeft_lt {w w' : Walk γ} (hw : w.Sound i) (h : c.advance i w = .walk w') :
    w'.movesLeft i c.registry.width < w.movesLeft i c.registry.width := by
  have hmove := c.moves_advance i w
  rw [h] at hmove
  cases hmove with
  | close full inside =>
    rw [Walk.movesLeft, Walk.movesLeft, inside]
    exact framesMoves_close _ _ full
  | skip slot absent => exact framesMoves_fill _ slot
  | mark slot back policy => exact framesMoves_fill _ slot
  | enter slot off found room =>
    exact framesMoves_open _ found (fun hp => off ((hw.mem_onPath _).2 hp)) slot

lemma movesLeft_single {n : Node} (hn : i.node? root = some n) :
    (Walk.single c i n generator).movesLeft i c.registry.width
      < slotMoves c.registry.width (i.offPath []).length :=
  lt_slotMoves (length_targets_le c i n) (GraphIndex.length_offPath_lt hn List.not_mem_nil)

end MovesLeft

/-- Where moves are those of a compiler, each with a step limit of its own, they come to an end. -/
lemma exists_done_of_start {f : Walk γ → Move γ} {limit : Walk γ → Nat}
    (hf : ∀ w, f w = (c.withLimit (limit w)).advance i w) :
    ∃ o, (c.start i root generator).after f
      (slotMoves c.registry.width (i.offPath []).length) = .done o := by
  cases hstart : c.start i root generator with
  | done o => exact ⟨o, Move.after_done o _⟩
  | walk w =>
    obtain ⟨n, hn, rfl⟩ := start_eq_walk hstart
    refine Move.exists_done (P := Walk.Sound i) (μ := Walk.movesLeft i c.registry.width) ?_
      (.single hn rfl rfl) (movesLeft_single hn)
    intro w w' hw h
    rw [hf] at h
    exact ⟨sound_advance hw h, movesLeft_lt (c := c.withLimit (limit w)) hw h⟩

lemma exists_moves_eq_done (c : Compiler) (i : GraphIndex) (root : NodeId) (generator : γ) :
    ∃ o, c.moves i root generator (slotMoves c.registry.width (i.offPath []).length) = .done o :=
  exists_done_of_start fun _ => rfl

lemma exists_movesFreely_eq_done (c : Compiler) (i : GraphIndex) (root : NodeId) (generator : γ) :
    ∃ o, c.movesFreely i root generator (slotMoves c.registry.width (i.offPath []).length)
      = .done o :=
  exists_done_of_start (c := c.withLimit 1) fun _ => rfl

/-! ### Depth -/

omit [IdGenerator γ] in
/-- A plan is no deeper than there are nodes off its path. -/
lemma depth_plan_le {path : List NodeId} {n : Node} (hn : i.node? n.id = some n)
    (hp : n.id ∉ path) : (c.plan i path n).depth ≤ (i.offPath path).length := by
  induction path, n using plan.induct (i := i) with
  | case1 path n ih =>
    have hlt := GraphIndex.length_offPath_lt hn hp
    have hslots : ((c.targets i n).map fun t => (c.planSlot i (n.id :: path) t).depth).foldr max 0
        ≤ (i.offPath (n.id :: path)).length := by
      refine List.max_le_of_forall_le _ _ ?_
      intro d hd
      obtain ⟨t, -, rfl⟩ := List.mem_map.1 hd
      rcases planSlot_cases c i (n.id :: path) t with
        ⟨-, hslot⟩ | ⟨target, -, -, -, hslot⟩ | ⟨target, m, -, hm, hp, hslot⟩
      · simp [hslot]
      · simp [hslot]
      · obtain rfl := i.id_eq hm
        rw [hslot]
        exact ih m.id m hm hp hm hp
    rw [plan_eq, Tree.depth_step, List.map_map]
    exact Nat.le_trans (Nat.add_le_add_left hslots 1) (by omega)

lemma depth_le_of_run {comp : Compilation} (h : (c.run i root generator).result = .ok comp) :
    comp.root.depth ≤ (i.offPath []).length := by
  cases hroot : i.node? root with
  | none =>
    rw [run_of_absent hroot, Except.ok.injEq] at h
    simp [← h]
  | some n =>
    obtain rfl := i.id_eq hroot
    rw [← Tree.depth_map Step.origin, map_origin_of_run hroot h, Tree.depth_map]
    exact depth_plan_le hroot List.not_mem_nil

omit [IdGenerator γ] in
lemma Walk.Sound.length_path_le {w : Walk γ} (hw : w.Sound i) :
    w.path.length ≤ (i.offPath []).length := by
  refine (hw.nodup.subperm fun id hid => ?_).length_le
  exact GraphIndex.mem_offPath_nil.2 (hw.present id hid)

lemma root_of_run {n : Node} {comp : Compilation} (hroot : i.node? root = some n)
    (h : (c.run i root generator).result = .ok comp) :
    ∃ s slots, comp.root = .step s slots ∧ s.origin = root := by
  have hmap := map_origin_of_run hroot h
  rw [plan_eq, Tree.map_step, Tree.map_eq_step_iff] at hmap
  obtain ⟨s, slots, hstep, horigin, -⟩ := hmap
  exact ⟨s, slots, hstep, horigin.trans (i.id_eq hroot)⟩

end Compiler

/-! ### Lists of nodes -/

namespace GraphIndex

variable {nodes : List Node} {edges : List Edge}

lemma isSome_node?_ofLists {id : NodeId} :
    ((ofLists nodes edges).node? id).isSome ↔ id ∈ nodes.map (·.id) := by
  rw [node?_ofLists, List.find?_isSome]
  simp

lemma node?_ofLists_eq_none_iff {id : NodeId} :
    (ofLists nodes edges).node? id = none ↔ id ∉ nodes.map (·.id) := by
  rw [← Option.not_isSome_iff_eq_none, isSome_node?_ofLists]

/-- At first there are as many nodes off the path as there are ids. -/
lemma length_offPath_nil :
    ((ofLists nodes edges).offPath []).length = (nodes.map (·.id)).toFinset.card := by
  have hnodup : ((ofLists nodes edges).offPath []).Nodup := Std.ExtTreeMap.nodup_keys.filter _
  rw [← List.toFinset_card_of_nodup hnodup]
  congr 1
  ext id
  rw [List.mem_toFinset, List.mem_toFinset, mem_offPath_nil, isSome_node?_ofLists]

end GraphIndex

namespace Compiler

variable {γ : Type} [IdGenerator γ]

/-- How many moves compiling a list of nodes can take, be there a step limit or none. -/
def moveBound (c : Compiler) (nodes : List Node) : Nat :=
  slotMoves c.registry.width (nodes.map (·.id)).toFinset.card

/-- The number of ids in a list of nodes bounds how long its compilation goes on and how deep it
goes. -/
structure Bounded (c : Compiler) (nodes : List Node) (edges : List Edge) (root : NodeId)
    (generator : γ) : Prop where
  /-- Whatever the step limit, the walk has come to its end after so many moves. -/
  done : ∀ limit,
    (c.withLimit limit).moves (.ofLists nodes edges) root generator (c.moveBound nodes)
      = .done ((c.withLimit limit).runLists nodes edges root generator)
  /-- So it has without a step limit. -/
  done_freely : ∃ o,
    c.movesFreely (.ofLists nodes edges) root generator (c.moveBound nodes) = .done o
  /-- At any time the open steps are those of different nodes. -/
  nodup_path : ∀ k w, c.moves (.ofLists nodes edges) root generator k = .walk w → w.path.Nodup
  /-- At any time the set beside the stack holds just the nodes of the open steps. -/
  mem_onPath_iff : ∀ k w, c.moves (.ofLists nodes edges) root generator k = .walk w →
    ∀ id, id ∈ w.onPath ↔ id ∈ w.path
  /-- The stack is no higher than there are ids. -/
  length_path_le : ∀ k w, c.moves (.ofLists nodes edges) root generator k = .walk w →
    w.path.length ≤ (nodes.map (·.id)).toFinset.card
  /-- Steps are nested no deeper than there are ids. -/
  depth_le : ∀ comp, (c.runLists nodes edges root generator).result = .ok comp →
    comp.root.depth ≤ (nodes.map (·.id)).toFinset.card
  /-- The result is empty just if the root is no node. -/
  empty_iff : ∀ comp, (c.runLists nodes edges root generator).result = .ok comp →
    (comp.root = .empty ↔ root ∉ nodes.map (·.id))
  /-- Otherwise it is the step of the root. -/
  origin_eq : ∀ comp, (c.runLists nodes edges root generator).result = .ok comp →
    root ∈ nodes.map (·.id) → ∃ s slots, comp.root = .step s slots ∧ s.origin = root

/-- The walk is kept within bounds by the nodes, without help from the step limit. -/
theorem runLists_bounded (c : Compiler) (nodes : List Node) (edges : List Edge) (root : NodeId)
    (generator : γ) : c.Bounded nodes edges root generator := by
  have hbound : c.moveBound nodes =
      slotMoves c.registry.width ((GraphIndex.ofLists nodes edges).offPath []).length := by
    rw [GraphIndex.length_offPath_nil]
    rfl
  have hstep : ∀ comp, (c.runLists nodes edges root generator).result = .ok comp →
      root ∈ nodes.map (·.id) → ∃ s slots, comp.root = .step s slots ∧ s.origin = root := by
    intro comp h hmem
    obtain ⟨n, hn⟩ := Option.isSome_iff_exists.1 (GraphIndex.isSome_node?_ofLists.2 hmem)
    exact root_of_run hn h
  refine ⟨fun limit => ?_, ?_, fun k w h => (sound_of_moves h).nodup, fun k w h id => ?_,
    fun k w h => ?_, fun comp h => ?_, fun comp h => ?_, hstep⟩
  · rw [hbound]
    obtain ⟨o, ho⟩ := exists_moves_eq_done (c.withLimit limit) (.ofLists nodes edges) root generator
    exact ho.trans (congrArg Move.done (eq_run_of_moves ho))
  · rw [hbound]
    exact exists_movesFreely_eq_done c _ root generator
  · rw [← Std.ExtTreeSet.contains_iff_mem]
    exact (sound_of_moves h).mem_onPath id
  · exact (sound_of_moves h).length_path_le.trans_eq GraphIndex.length_offPath_nil
  · exact (depth_le_of_run h).trans_eq GraphIndex.length_offPath_nil
  · constructor
    · intro hempty hmem
      obtain ⟨s, slots, hs, -⟩ := hstep comp h hmem
      rw [hempty] at hs
      simp at hs
    · intro hmem
      rw [runLists, run_of_absent (GraphIndex.node?_ofLists_eq_none_iff.2 hmem),
        Except.ok.injEq] at h
      rw [← h]

end Compiler

end Chatflow
