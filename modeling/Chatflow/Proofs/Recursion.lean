/-
# Compiling as a recursion

`Chatflow.Compile.Run` compiles with the steps under way on a stack of its own.  Here the same tree
is described by plain recursion: `Compiler.expand` opens the step of a node, fills its slots
from left to right, each by an expansion of its own or by what needs none, and closes it.  What is
noticed on the way and the generator of ids are handed on from slot to slot, also when the
expansion fails.

The path of an expansion is the list of the nodes it stands in, innermost first.  A target on the
path is not expanded, so the recursion ends when there are no more nodes off the path.

The main statement is `runLists_eq_expandFrom`: the walk with its stack comes to the same end as
the recursion.  For the proof a walk is read as what is left to be done (`Walk.outlook`): its top
frame is completed, then the frame below it, and so on.  Every move keeps the outlook, as long as
the set beside the stack holds exactly the nodes on it (`Walk.Sound`).
-/
import Mathlib.Data.List.Basic
import Chatflow.Compile.Run

namespace Chatflow

/-! ### Building a part of a tree -/

/-- What is handed on while a tree is built. -/
structure Ledger (γ : Type) where
  /-- The generator of step ids. -/
  generator : γ
  /-- What was noticed so far. -/
  diagnostics : Diagnostics

/-- Building something, which can fail; a failure leaves the ledger as it is at that moment. -/
abbrev Build (γ : Type) := EStateM CompileError (Ledger γ)

namespace Build

variable {γ α β : Type} {x : Build γ α} {f : α → Build γ β} {l l' : Ledger γ}

/-- After a success the rest is built with the ledger that the success leaves. -/
lemma bind_of_ok {a : α} (h : x l = .ok a l') : (x >>= f) l = f a l' := by
  show EStateM.bind x f l = f a l'
  simp [EStateM.bind, h]

/-- After a failure nothing more is built. -/
lemma bind_of_error {e : CompileError} (h : x l = .error e l') : (x >>= f) l = .error e l' := by
  show EStateM.bind x f l = .error e l'
  simp [EStateM.bind, h]

end Build

/-- The outcome of building a tree. -/
def Outcome.ofBuilt {γ : Type} : EStateM.Result CompileError (Ledger γ) Branch → Outcome γ
  | .ok tree l => ⟨.ok ⟨tree, l.diagnostics⟩, l.generator⟩
  | .error e l => ⟨.error e, l.generator⟩

namespace GraphIndex

/-- The ids of nodes that are not on a path. -/
def offPath (i : GraphIndex) (path : List NodeId) : List NodeId :=
  i.nodes.keys.filter (· ∉ path)

/-- A node that joins a path is off it no more. -/
lemma length_offPath_lt {i : GraphIndex} {path : List NodeId} {id : NodeId} {n : Node}
    (hn : i.node? id = some n) (hp : id ∉ path) :
    (i.offPath (n.id :: path)).length < (i.offPath path).length := by
  have hid : n.id = id := i.id_eq hn
  have hk : id ∈ i.nodes.keys := by
    rw [Std.ExtTreeMap.mem_keys]
    exact Std.ExtTreeMap.mem_iff_isSome_getElem?.2 (by simp [show i.nodes[id]? = some n from hn])
  subst hid
  have hsub : i.offPath (n.id :: path) = (i.offPath path).filter (· ≠ n.id) := by
    simp [offPath, List.filter_filter]
  rw [hsub]
  refine List.length_filter_lt_length_iff_exists.2 ⟨n.id, ?_, by simp⟩
  simp [offPath, hk, hp]

end GraphIndex

namespace Compiler

variable {γ : Type} [IdGenerator γ]

/-- What is noticed when a marker is made. -/
def noteMarker (d : Diagnostics) : Diagnostics := { d with backReferences := d.backReferences + 1 }

/-- Opens the step of a node, unless there are as many steps as there may be. -/
def openStep (c : Compiler) (i : GraphIndex) (n : Node) : Build γ Step := fun l =>
  if c.stepLimit ≤ l.diagnostics.steps then .error (.stepLimitExceeded c.stepLimit) l
  else
    let (id, generator) := IdGenerator.next l.generator
    .ok (c.makeStep i n id) ⟨generator, c.noteStep i n l.diagnostics⟩

lemma openStep_of_le {c : Compiler} {i : GraphIndex} {n : Node} {l : Ledger γ}
    (h : c.stepLimit ≤ l.diagnostics.steps) :
    c.openStep i n l = .error (.stepLimitExceeded c.stepLimit) l := if_pos h

lemma openStep_of_not_le {c : Compiler} {i : GraphIndex} {n : Node} {l : Ledger γ}
    (h : ¬ c.stepLimit ≤ l.diagnostics.steps) :
    c.openStep i n l = .ok (c.makeStep i n (IdGenerator.next l.generator).1)
      ⟨(IdGenerator.next l.generator).2, c.noteStep i n l.diagnostics⟩ := if_neg h

omit [IdGenerator γ] in
/-- Fills a slot that leads to a node on the path: by a marker, unless that is forbidden. -/
def leadBack (c : Compiler) (target : NodeId) : Build γ Branch := fun l =>
  match c.policy with
  | .reject => .error (.cycleDetected target) l
  | .backReference => .ok (.backReference target) ⟨l.generator, noteMarker l.diagnostics⟩

omit [IdGenerator γ] in
lemma leadBack_reject {c : Compiler} (h : c.policy = .reject) (target : NodeId) (l : Ledger γ) :
    c.leadBack target l = .error (.cycleDetected target) l := by
  simp [leadBack, h]

omit [IdGenerator γ] in
lemma leadBack_backReference {c : Compiler} (h : c.policy = .backReference) (target : NodeId)
    (l : Ledger γ) :
    c.leadBack target l = .ok (.backReference target) ⟨l.generator, noteMarker l.diagnostics⟩ := by
  simp [leadBack, h]

/-- The tree of a node inside a path. -/
def expand (c : Compiler) (i : GraphIndex) (path : List NodeId) (n : Node) : Build γ Branch := do
  let step ← c.openStep i n
  let slots ← (c.targets i n).mapM fun
    | none => pure .empty
    | some target =>
      match _hm : i.node? target with
      | none => pure .empty
      | some m =>
        if _hp : target ∈ n.id :: path then c.leadBack target
        else expand c i (n.id :: path) m
  return .step step slots
termination_by (i.offPath (n.id :: path)).length
decreasing_by exact GraphIndex.length_offPath_lt _hm _hp

/-- What is built in a slot that leads to `target`, the path being that of the step that has the
slot. -/
def fillSlot (c : Compiler) (i : GraphIndex) (path : List NodeId) :
    Option NodeId → Build γ Branch
  | none => pure .empty
  | some target =>
    match i.node? target with
    | none => pure .empty
    | some m => if target ∈ path then c.leadBack target else c.expand i path m

lemma fillSlot_of_absent {c : Compiler} {i : GraphIndex} {path : List NodeId}
    {t : Option NodeId} (h : t.bind i.node? = none) :
    (c.fillSlot i path t : Build γ Branch) = pure .empty := by
  cases t with
  | none => rfl
  | some target =>
    rw [Option.bind_some] at h
    rw [fillSlot, h]

lemma fillSlot_of_mem {c : Compiler} {i : GraphIndex} {path : List NodeId} {target : NodeId}
    (hn : (i.node? target).isSome) (hp : target ∈ path) :
    (c.fillSlot i path (some target) : Build γ Branch) = c.leadBack target := by
  obtain ⟨m, hm⟩ := Option.isSome_iff_exists.1 hn
  simp [fillSlot, hm, hp]

lemma fillSlot_of_not_mem {c : Compiler} {i : GraphIndex} {path : List NodeId} {target : NodeId}
    {m : Node} (hn : i.node? target = some m) (hp : target ∉ path) :
    (c.fillSlot i path (some target) : Build γ Branch) = c.expand i path m := by
  simp [fillSlot, hn, hp]

/-- Fills the remaining slots of a frame and closes it. -/
def complete (c : Compiler) (i : GraphIndex) (path : List NodeId) (f : Frame) : Build γ Branch := do
  let slots ← f.targets.mapM (c.fillSlot i path)
  return .step f.step (f.filled.reverse ++ slots)

lemma complete_of_nil {c : Compiler} {i : GraphIndex} {path : List NodeId} {f : Frame}
    (h : f.targets = []) : (c.complete i path f : Build γ Branch) = pure f.close := by
  simp [complete, h, Frame.close]

lemma complete_of_cons {c : Compiler} {i : GraphIndex} {path : List NodeId} {f : Frame}
    {target : Option NodeId} {rest : List (Option NodeId)} (h : f.targets = target :: rest) :
    (c.complete i path f : Build γ Branch) =
      c.fillSlot i path target >>= fun b => c.complete i path (f.fill rest b) := by
  simp [complete, h, Frame.fill]

/-- A tree is expanded by opening its step and completing the frame. -/
lemma expand_eq (c : Compiler) (i : GraphIndex) (path : List NodeId) (n : Node) :
    (c.expand i path n : Build γ Branch) =
      c.openStep i n >>= fun step => c.complete i (n.id :: path) ⟨step, [], c.targets i n⟩ := by
  rw [expand]
  simp only [complete, List.reverse_nil, List.nil_append]
  congr 1
  funext step
  congr 2
  funext t
  cases t with
  | none => rfl
  | some target =>
    simp only [fillSlot]
    cases i.node? target <;> simp

/-! ### The walk and what it comes to -/

omit [IdGenerator γ] in
/-- The nodes of frames, in their order. -/
def pathOf (frames : List Frame) : List NodeId := frames.map (·.step.origin)

/-- Puts a tree into the next slot of the first frame, completes that frame, puts it into the
next, and so on. -/
def resume (c : Compiler) (i : GraphIndex) : List Frame → Branch → Build γ Branch
  | [], b => pure b
  | f :: below, b =>
    c.complete i (pathOf (f :: below)) (f.fill f.targets b) >>= c.resume i below

/-- The nodes of all open steps, innermost first. -/
def Walk.path (w : Walk γ) : List NodeId := pathOf (w.top :: w.below)

/-- What a walk hands on. -/
def Walk.ledger (w : Walk γ) : Ledger γ := ⟨w.generator, w.diagnostics⟩

/-- What a walk comes to if everything that is left to be done is done by recursion. -/
def Walk.outlook (c : Compiler) (i : GraphIndex) (w : Walk γ) : Outcome γ :=
  .ofBuilt ((c.complete i w.path w.top >>= c.resume i w.below) w.ledger)

/-- The set beside the stack holds the nodes on the stack, which are all different and all
there. -/
structure Walk.Sound (i : GraphIndex) (w : Walk γ) : Prop where
  mem_onPath : ∀ id, w.onPath.contains id ↔ id ∈ w.path
  nodup : w.path.Nodup
  present : ∀ id ∈ w.path, (i.node? id).isSome

omit [IdGenerator γ] in
/-- A frame in which nothing but slots were filled leaves a walk sound. -/
lemma Walk.Sound.of_path_eq {i : GraphIndex} {w w' : Walk γ} (hw : w.Sound i)
    (hpath : w'.path = w.path) (hset : w'.onPath = w.onPath) : w'.Sound i := by
  obtain ⟨hmem, hnodup, hpresent⟩ := hw
  exact ⟨fun id => by rw [hset, hpath]; exact hmem id, by rwa [hpath], by rwa [hpath]⟩

omit [IdGenerator γ] in
/-- Closing the top frame leaves a walk sound: its node leaves the set with it. -/
lemma Walk.Sound.close {i : GraphIndex} {w w' : Walk γ} (hw : w.Sound i)
    (hpath : w.path = w.top.step.origin :: w'.path)
    (hset : w'.onPath = w.onPath.erase w.top.step.origin) : w'.Sound i := by
  obtain ⟨hmem, hnodup, hpresent⟩ := hw
  rw [hpath] at hmem hpresent
  rw [hpath, List.nodup_cons] at hnodup
  refine ⟨fun id => ?_, hnodup.2, fun id hid => hpresent id (List.mem_cons_of_mem _ hid)⟩
  have hid := hmem id
  rw [Std.ExtTreeSet.contains_iff_mem] at hid ⊢
  rw [hset, Std.ExtTreeSet.mem_erase, hid, List.mem_cons, ne_eq, Std.compare_eq_iff_eq]
  constructor
  · rintro ⟨hne, rfl | hid⟩
    · exact absurd rfl hne
    · exact hid
  · -- no open step below is of the same node, so that taking it out does not take out more
    intro hid
    exact ⟨fun he => hnodup.1 (he ▸ hid), Or.inr hid⟩

omit [IdGenerator γ] in
/-- Opening the step of a node that is not on the path leaves a walk sound. -/
lemma Walk.Sound.open {i : GraphIndex} {w w' : Walk γ} (hw : w.Sound i) {id : NodeId} {n : Node}
    (hn : i.node? id = some n) (hid : id ∉ w.path) (hpath : w'.path = n.id :: w.path)
    (hset : w'.onPath = w.onPath.insert n.id) : w'.Sound i := by
  obtain ⟨hmem, hnodup, hpresent⟩ := hw
  obtain rfl : n.id = id := i.id_eq hn
  refine ⟨fun id => ?_, ?_, ?_⟩
  · have hid := hmem id
    rw [Std.ExtTreeSet.contains_iff_mem] at hid ⊢
    rw [hset, hpath, Std.ExtTreeSet.mem_insert, hid, List.mem_cons, Std.compare_eq_iff_eq, eq_comm]
  · rw [hpath]
    exact List.nodup_cons.2 ⟨hid, hnodup⟩
  · rw [hpath]
    intro id hid
    rcases List.mem_cons.1 hid with rfl | hid
    · simp [hn]
    · exact hpresent id hid

omit [IdGenerator γ] in
/-- A walk with a single step, that of a node in the graph, is sound. -/
lemma Walk.Sound.single {i : GraphIndex} {w : Walk γ} {root : NodeId} {n : Node}
    (hn : i.node? root = some n) (hpath : w.path = [n.id])
    (hset : w.onPath = (∅ : Std.ExtTreeSet NodeId).insert n.id) : w.Sound i := by
  obtain rfl : n.id = root := i.id_eq hn
  refine ⟨fun id => ?_, ?_, ?_⟩
  · rw [Std.ExtTreeSet.contains_iff_mem, hset, hpath, Std.ExtTreeSet.mem_insert,
      Std.compare_eq_iff_eq, List.mem_singleton]
    simp [eq_comm (a := id)]
  · simp [hpath]
  · simp [hpath, hn]

/-- A move keeps the set and the stack in step. -/
lemma sound_advance {c : Compiler} {i : GraphIndex} {w w' : Walk γ} (hw : w.Sound i)
    (h : c.advance i w = .walk w') : w'.Sound i := by
  have hmove := c.moves_advance i w
  rw [h] at hmove
  cases hmove with
  | close full inside => exact hw.close (by simp [Walk.path, pathOf, inside, Frame.fill]) rfl
  | skip slot absent => exact hw.of_path_eq rfl rfl
  | mark slot back policy => exact hw.of_path_eq rfl rfl
  | @enter target rest n slot off found room =>
    exact hw.open found (fun hid => off ((hw.mem_onPath target).2 hid)) rfl rfl

/-- The outlook of a walk whose top frame is full: its step goes into the next frame. -/
lemma outlook_of_nil {c : Compiler} {i : GraphIndex} {w : Walk γ} (h : w.top.targets = []) :
    w.outlook c i = .ofBuilt (c.resume i w.below w.top.close w.ledger) := by
  rw [Walk.outlook, complete_of_nil h, pure_bind]

/-- The outlook of a walk with a slot to fill. -/
lemma outlook_of_cons {c : Compiler} {i : GraphIndex} {w : Walk γ} {target : Option NodeId}
    {rest : List (Option NodeId)} (h : w.top.targets = target :: rest) :
    w.outlook c i = .ofBuilt ((c.fillSlot i w.path target >>= fun b =>
      c.complete i w.path (w.top.fill rest b) >>= c.resume i w.below) w.ledger) := by
  rw [Walk.outlook, complete_of_cons h, bind_assoc]

/-- A walk that comes to its end comes to what its outlook said. -/
lemma outlook_eq_of_done {c : Compiler} {i : GraphIndex} {w : Walk γ} {o : Outcome γ}
    (hw : w.Sound i) (h : c.advance i w = .done o) : w.outlook c i = o := by
  have hmove := c.moves_advance i w
  rw [h] at hmove
  cases hmove with
  | finish full bottom =>
    rw [outlook_of_nil full, bottom]
    rfl
  | @reject target rest slot back policy =>
    have hp : target ∈ w.path := (hw.mem_onPath target).1 back
    rw [outlook_of_cons slot, fillSlot_of_mem (hw.present target hp) hp,
      Build.bind_of_error (leadBack_reject policy target w.ledger)]
    rfl
  | @exceed target rest n slot off found limit =>
    have hp : target ∉ w.path := fun hid => off ((hw.mem_onPath target).2 hid)
    rw [outlook_of_cons slot, fillSlot_of_not_mem found hp, expand_eq, bind_assoc,
      Build.bind_of_error (openStep_of_le (l := w.ledger) limit)]
    rfl

/-- A move keeps the outlook. -/
lemma outlook_advance {c : Compiler} {i : GraphIndex} {w w' : Walk γ} (hw : w.Sound i)
    (h : c.advance i w = .walk w') : w.outlook c i = w'.outlook c i := by
  have hmove := c.moves_advance i w
  rw [h] at hmove
  cases hmove with
  | close full inside =>
    rw [outlook_of_nil full, inside]
    rfl
  | skip slot absent =>
    rw [outlook_of_cons slot, fillSlot_of_absent absent, pure_bind]
    rfl
  | @mark target rest slot back policy =>
    have hp : target ∈ w.path := (hw.mem_onPath target).1 back
    rw [outlook_of_cons slot, fillSlot_of_mem (hw.present target hp) hp,
      Build.bind_of_ok (leadBack_backReference policy target w.ledger)]
    rfl
  | @enter target rest n slot off found room =>
    -- the new step is completed first, then the frame below, with the slot filled by it
    have hp : target ∉ w.path := fun hid => off ((hw.mem_onPath target).2 hid)
    rw [outlook_of_cons slot, fillSlot_of_not_mem found hp, expand_eq, bind_assoc,
      Build.bind_of_ok (openStep_of_not_le (l := w.ledger) room)]
    rfl

/-- From a sound walk on, the walk comes to its outlook. -/
lemma finish_eq_outlook (c : Compiler) (i : GraphIndex) (w : Walk γ) (hw : w.Sound i) :
    c.finish i w = w.outlook c i := by
  -- over the moves that are left; each keeps the outlook only while the walk is sound
  fun_induction finish c i w with
  | case1 w o h => exact (outlook_eq_of_done hw h).symm
  | case2 w w' h ih => rw [outlook_advance hw h, ih (sound_advance hw h)]

/-! ### The recursion -/

/-- Compiles what can be reached from `root` by plain recursion. -/
def expandFrom (c : Compiler) (i : GraphIndex) (root : NodeId) (generator : γ) : Outcome γ :=
  match i.node? root with
  | none => ⟨.ok ⟨.empty, {}⟩, generator⟩
  | some n => .ofBuilt (c.expand i [] n ⟨generator, {}⟩)

/-- The walk comes to the same end as the recursion. -/
lemma run_eq_expandFrom (c : Compiler) (i : GraphIndex) (root : NodeId) (generator : γ) :
    c.run i root generator = c.expandFrom i root generator := by
  rw [run, expandFrom]
  cases hn : i.node? root with
  | none => rfl
  | some n =>
    simp only
    split
    · next hlimit =>
      rw [expand_eq, Build.bind_of_error (openStep_of_le (l := ⟨generator, {}⟩) hlimit)]
      rfl
    · next hlimit =>
      rw [expand_eq, Build.bind_of_ok (openStep_of_not_le (l := ⟨generator, {}⟩) hlimit),
        finish_eq_outlook _ _ _ (.single hn rfl rfl)]
      have hresume : c.resume (γ := γ) i [] = pure := by
        funext b
        rfl
      simp only [Walk.outlook, hresume, bind_pure]
      rfl

/-- Compiling lists of nodes and edges, with a stack of open steps, is compiling them by recursion.
The recursion looks a node up as the last in the list that has the id, and finds the edges that
leave it in the order of the list.  The slots of a step, of which the schema of the node's type says
how many there are, lead where these edges do, the first slot along the first edge and so on. -/
theorem runLists_eq_expandFrom (c : Compiler) (nodes : List Node) (edges : List Edge)
    (root : NodeId) (generator : γ) :
    c.runLists nodes edges root generator
        = c.expandFrom (.ofLists nodes edges) root generator ∧
      (∀ id, (GraphIndex.ofLists nodes edges).node? id = nodes.reverse.find? (·.id == id)) ∧
      (∀ id, (GraphIndex.ofLists nodes edges).edgesFrom id = edges.filter (·.source == id)) ∧
      ∀ n, c.targets (.ofLists nodes edges) n
        = (List.range (c.registry.schema n.type).slots).map fun slot =>
            (edges.filter (·.source == n.id))[slot]?.map (·.target) :=
  ⟨run_eq_expandFrom c _ root generator, GraphIndex.node?_ofLists nodes edges,
    GraphIndex.edgesFrom_ofLists nodes edges, fun n => by
      rw [targets, GraphIndex.edgesFrom_ofLists, slots]⟩

end Compiler

end Chatflow
