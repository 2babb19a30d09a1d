/-
# Compiling: the walk

The walk keeps the steps whose slots are being filled on a stack, the innermost on top, and the ids
of their nodes in a set beside it.  `Compiler.advance` does one thing: it fills the next slot of
the top step with what needs no further walk, or opens the step that the slot leads to, or closes
the top step when its slots are full.  `Compiler.run` repeats that until the step at the bottom is
closed or something fails.

Slots are filled from left to right and a step draws its id when it is opened, so ids are given out
in the order of the finished tree, parents before children.
-/
import Chatflow.Compile.Basic

namespace Chatflow

/-- How a compilation ends, and the state in which it leaves the generator. -/
structure Outcome (γ : Type) where
  /-- The compiled graph, or why there is none. -/
  result : Except CompileError Compilation
  /-- The generator afterwards. -/
  generator : γ

namespace Compiler

/-- A step whose slots are being filled. -/
structure Frame where
  /-- The step. -/
  step : Step
  /-- The branches of its first slots, last first. -/
  filled : List Branch
  /-- Where its remaining slots lead. -/
  targets : List (Option NodeId)

/-- The walk between two moves. -/
structure Walk (γ : Type) where
  /-- The innermost open step. -/
  top : Frame
  /-- The steps it stands in, innermost first. -/
  below : List Frame
  /-- The nodes of all open steps. -/
  onPath : Std.ExtTreeSet NodeId
  /-- The generator of step ids. -/
  generator : γ
  /-- What was noticed so far. -/
  diagnostics : Diagnostics

/-- What one move leads to. -/
inductive Move (γ : Type) where
  /-- The walk goes on. -/
  | walk (w : Walk γ)
  /-- The walk has come to its end. -/
  | done (o : Outcome γ)

variable {γ : Type}

/-- The frame of a step just opened. -/
def openFrame (c : Compiler) (i : GraphIndex) (n : Node) (id : String) : Frame :=
  ⟨c.makeStep i n id, [], c.targets i n⟩

/-- The step of a frame whose slots are full. -/
def Frame.close (f : Frame) : Branch := .step f.step f.filled.reverse

/-- The frame with its next slot filled, the other slots leading to `rest`. -/
def Frame.fill (f : Frame) (rest : List (Option NodeId)) (b : Branch) : Frame :=
  ⟨f.step, b :: f.filled, rest⟩

/-- One move of the walk. -/
def advance [IdGenerator γ] (c : Compiler) (i : GraphIndex) (w : Walk γ) : Move γ :=
  match w.top.targets with
  | [] =>
    match w.below with
    | [] => .done ⟨.ok ⟨w.top.close, w.diagnostics⟩, w.generator⟩
    | parent :: below =>
      .walk { w with
        top := parent.fill parent.targets w.top.close
        below
        onPath := w.onPath.erase w.top.step.origin }
  | none :: rest => .walk { w with top := w.top.fill rest .empty }
  | some target :: rest =>
    if w.onPath.contains target then
      match c.policy with
      | .reject => .done ⟨.error (.cycleDetected target), w.generator⟩
      | .backReference =>
        .walk { w with
          top := w.top.fill rest (.backReference target)
          diagnostics := { w.diagnostics with
            backReferences := w.diagnostics.backReferences + 1 } }
    else
      match i.node? target with
      | none => .walk { w with top := w.top.fill rest .empty }
      | some n =>
        if c.stepLimit ≤ w.diagnostics.steps then
          .done ⟨.error (.stepLimitExceeded c.stepLimit), w.generator⟩
        else
          let (id, generator) := IdGenerator.next w.generator
          .walk {
            top := c.openFrame i n id
            below := { w.top with targets := rest } :: w.below
            onPath := w.onPath.insert n.id
            generator
            diagnostics := c.noteStep i n w.diagnostics }

/-- How many moves frames leave to make. -/
def framesWork : List Frame → Nat
  | [] => 0
  | f :: below => f.targets.length + 1 + framesWork below

/-- How many moves are left before the next step is opened. -/
def Walk.work (w : Walk γ) : Nat := framesWork (w.top :: w.below)

/-- The ways in which a move can go. -/
inductive Moves [IdGenerator γ] (c : Compiler) (i : GraphIndex) (w : Walk γ) : Move γ → Prop where
  /-- The step at the bottom is closed. -/
  | finish (full : w.top.targets = []) (bottom : w.below = []) :
    Moves c i w (.done ⟨.ok ⟨w.top.close, w.diagnostics⟩, w.generator⟩)
  /-- A step is closed and put into the one below. -/
  | close {parent : Frame} {below : List Frame} (full : w.top.targets = [])
    (inside : w.below = parent :: below) :
    Moves c i w (.walk { w with
      top := parent.fill parent.targets w.top.close
      below
      onPath := w.onPath.erase w.top.step.origin })
  /-- A slot that leads to no node stays empty. -/
  | skip {target : Option NodeId} {rest : List (Option NodeId)}
    (slot : w.top.targets = target :: rest) (absent : target.bind i.node? = none) :
    Moves c i w (.walk { w with top := w.top.fill rest .empty })
  /-- A slot that leads back gets a marker. -/
  | mark {target : NodeId} {rest : List (Option NodeId)}
    (slot : w.top.targets = some target :: rest) (back : w.onPath.contains target)
    (policy : c.policy = .backReference) :
    Moves c i w (.walk { w with
      top := w.top.fill rest (.backReference target)
      diagnostics := { w.diagnostics with
        backReferences := w.diagnostics.backReferences + 1 } })
  /-- A slot that leads back is not allowed. -/
  | reject {target : NodeId} {rest : List (Option NodeId)}
    (slot : w.top.targets = some target :: rest) (back : w.onPath.contains target)
    (policy : c.policy = .reject) :
    Moves c i w (.done ⟨.error (.cycleDetected target), w.generator⟩)
  /-- A slot leads on, and its step is opened. -/
  | enter {target : NodeId} {rest : List (Option NodeId)} {n : Node}
    (slot : w.top.targets = some target :: rest) (off : ¬ w.onPath.contains target)
    (found : i.node? target = some n) (room : ¬ c.stepLimit ≤ w.diagnostics.steps) :
    Moves c i w (.walk {
      top := c.openFrame i n (IdGenerator.next w.generator).1
      below := { w.top with targets := rest } :: w.below
      onPath := w.onPath.insert n.id
      generator := (IdGenerator.next w.generator).2
      diagnostics := c.noteStep i n w.diagnostics })
  /-- A slot leads on, but there are as many steps as there may be. -/
  | exceed {target : NodeId} {rest : List (Option NodeId)} {n : Node}
    (slot : w.top.targets = some target :: rest) (off : ¬ w.onPath.contains target)
    (found : i.node? target = some n) (limit : c.stepLimit ≤ w.diagnostics.steps) :
    Moves c i w (.done ⟨.error (.stepLimitExceeded c.stepLimit), w.generator⟩)

/-- Every move goes in one of these ways. -/
theorem moves_advance [IdGenerator γ] (c : Compiler) (i : GraphIndex) (w : Walk γ) :
    c.Moves i w (c.advance i w) := by
  unfold advance
  split
  · next full =>
    split
    · next bottom => exact .finish full bottom
    · next inside => exact .close full inside
  · next slot => exact .skip slot rfl
  · next slot =>
    split
    · next back =>
      split
      · next policy => exact .reject slot back policy
      · next policy => exact .mark slot back policy
    · next off =>
      split
      · next absent => exact .skip slot absent
      · next found =>
        split
        · next limit => exact .exceed slot off found limit
        · next room => exact .enter slot off found room

/-- A move opens a step, of which there are only so many, or leaves less to do before the next. -/
theorem advance_decreases [IdGenerator γ] {c : Compiler} {i : GraphIndex} {w w' : Walk γ}
    (h : c.advance i w = .walk w') :
    c.stepLimit - w'.diagnostics.steps < c.stepLimit - w.diagnostics.steps ∨
      (w'.diagnostics.steps = w.diagnostics.steps ∧ w'.work < w.work) := by
  have hmove := c.moves_advance i w
  rw [h] at hmove
  cases hmove with
  | close full inside => right; simp [Walk.work, framesWork, Frame.fill, full, inside]
  | skip slot absent => right; simp [Walk.work, framesWork, Frame.fill, slot]
  | mark slot back policy => right; simp [Walk.work, framesWork, Frame.fill, slot]
  | enter slot off found room => left; simp only [noteStep]; omega

/-- Moves on until the walk has come to its end. -/
def finish [IdGenerator γ] (c : Compiler) (i : GraphIndex) (w : Walk γ) : Outcome γ :=
  match _h : c.advance i w with
  | .done o => o
  | .walk w' => finish c i w'
termination_by (c.stepLimit - w.diagnostics.steps, w.work)
decreasing_by
  rcases advance_decreases _h with hlt | ⟨heq, hlt⟩
  · exact Prod.Lex.left _ _ hlt
  · rw [heq]; exact Prod.Lex.right _ hlt

/-- Compiles what can be reached from `root`. -/
def run [IdGenerator γ] (c : Compiler) (i : GraphIndex) (root : NodeId) (generator : γ) :
    Outcome γ :=
  match i.node? root with
  | none => ⟨.ok ⟨.empty, {}⟩, generator⟩
  | some n =>
    if c.stepLimit ≤ 0 then ⟨.error (.stepLimitExceeded c.stepLimit), generator⟩
    else
      let (id, generator) := IdGenerator.next generator
      c.finish i {
        top := c.openFrame i n id
        below := []
        onPath := (∅ : Std.ExtTreeSet NodeId).insert n.id
        generator
        diagnostics := c.noteStep i n {} }

/-- Compiles lists of nodes and edges, which need not be those of a graph. -/
def runLists [IdGenerator γ] (c : Compiler) (nodes : List Node) (edges : List Edge)
    (root : NodeId) (generator : γ) : Outcome γ :=
  c.run (.ofLists nodes edges) root generator

end Compiler

end Chatflow
