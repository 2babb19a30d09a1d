/-
# Compiled trees

A compiled script is a tree of steps.  Under a step hangs one branch for every slot of its layout: a
step again, a marker that leads back to a step further up, or nothing.  What a step consists of
is a parameter of the trees; those that the compiler makes are called `Branch`.

Trees can be as deep as a script is long.  `Tree.fold` therefore evaluates an algebra with
the steps under evaluation in a list of its own; `Tree.fold_eq` says that this is the plain
recursion, and the `simp` lemmas behind it give that recursion case by case.
-/
import Chatflow.Schema

namespace Chatflow

/-- A reply button. -/
structure Button where
  /-- The id of the button, unique in its step. -/
  id : String
  /-- What the button says. -/
  title : String
deriving DecidableEq, Repr

/-- A step of a compiled script, without what follows it. -/
structure Step where
  /-- The id of the step, unique in the script. -/
  id : String
  /-- The node that the step was compiled from. -/
  origin : NodeId
  /-- The type of that node. -/
  type : NodeType
  /-- Whether the bot ends here. -/
  terminal : Bool
  /-- The fields that the step writes, in their order. -/
  fields : List Field
  /-- The text of a leaf. -/
  text : Option String
  /-- The address of a document. -/
  documentUrl : Option String
  /-- The reply buttons. -/
  buttons : List Button
deriving DecidableEq, Repr

/-- Whether continuations are written inside the buttons and not as a field of the step. -/
def Step.nests (s : Step) : Bool := !s.fields.contains .nextNode

/-- What can hang in a slot, and what a whole script is. -/
inductive Tree (σ : Type) where
  /-- Nothing. -/
  | empty
  /-- A marker that leads back to the step of a node further up. -/
  | backReference (target : NodeId)
  /-- A step with one branch for each of its slots. -/
  | step (step : σ) (slots : List (Tree σ))
deriving Repr, Inhabited

/-- What the compiler makes. -/
abbrev Branch := Tree Step

namespace Tree

variable {σ β : Type}

/-- Whether the branch is empty. -/
def isEmpty : Tree σ → Bool
  | empty => true
  | _ => false

theorem isEmpty_iff {b : Tree σ} : b.isEmpty ↔ b = empty := by cases b <;> simp [isEmpty]

/-! ### Induction -/

mutual

/-- What holds of a step whenever it holds of the branches in its slots holds of every branch. -/
@[induction_eliminator]
theorem induct {P : Tree σ → Prop} (empty : P .empty)
    (backReference : ∀ target, P (.backReference target))
    (step : ∀ s slots, (∀ b ∈ slots, P b) → P (.step s slots)) : ∀ b, P b
  | .empty => empty
  | .backReference target => backReference target
  | .step s slots => step s slots (inductSlots empty backReference step slots)

theorem inductSlots {P : Tree σ → Prop} (empty : P .empty)
    (backReference : ∀ target, P (.backReference target))
    (step : ∀ s slots, (∀ b ∈ slots, P b) → P (.step s slots)) :
    ∀ slots : List (Tree σ), ∀ b ∈ slots, P b
  | [], _, h => by simp at h
  | c :: rest, b, h =>
    (List.mem_cons.1 h).elim (fun e => e ▸ induct empty backReference step c)
      (inductSlots empty backReference step rest b)

end

/-! ### Evaluating an algebra -/

/-- What an evaluation makes of each kind of branch. -/
structure Algebra (σ β : Type) where
  /-- The value of an empty slot. -/
  empty : β
  /-- The value of a marker. -/
  backReference : NodeId → β
  /-- The value of a step from those of its slots. -/
  step : σ → List β → β

mutual

/-- The value of a branch, by plain recursion. -/
def eval (alg : Algebra σ β) : Tree σ → β
  | .empty => alg.empty
  | .backReference target => alg.backReference target
  | .step s slots => alg.step s (evalSlots alg slots)

/-- The values of the branches in slots. -/
def evalSlots (alg : Algebra σ β) : List (Tree σ) → List β
  | [] => []
  | b :: rest => eval alg b :: evalSlots alg rest

end

mutual

/-- The number of branches in a branch, itself included. -/
def size : Tree σ → Nat
  | .empty => 1
  | .backReference _ => 1
  | .step _ slots => 1 + sizeSlots slots

/-- The number of branches in slots. -/
def sizeSlots : List (Tree σ) → Nat
  | [] => 0
  | b :: rest => size b + sizeSlots rest

end

theorem size_pos (b : Tree σ) : 0 < b.size := by
  cases b with
  | empty => simp [size]
  | backReference target => simp [size]
  | step s slots => rw [size]; omega

@[simp] theorem sizeSlots_append (bs cs : List (Tree σ)) :
    sizeSlots (bs ++ cs) = sizeSlots bs + sizeSlots cs := by
  induction bs with
  | nil => simp [sizeSlots]
  | cons b rest ih => simp [sizeSlots, ih, Nat.add_assoc]

/-- A step whose slots are under evaluation. -/
structure Pending (σ β : Type) where
  /-- The step. -/
  step : σ
  /-- The values of its first slots, last first. -/
  done : List β
  /-- The slots still to be evaluated. -/
  todo : List (Tree σ)

/-- What the evaluation turns to next. -/
inductive Focus (σ β : Type) where
  /-- A branch to be evaluated. -/
  | branch (b : Tree σ)
  /-- A value to be put into the step above. -/
  | value (v : β)

/-- How much work is left at a place. -/
def Focus.work : Focus σ β → Nat
  | branch b => 2 * b.size
  | value _ => 1

/-- How much work is left in the steps above. -/
def pendingWork : List (Pending σ β) → Nat
  | [] => 0
  | p :: above => 1 + 2 * sizeSlots p.todo + pendingWork above

/-- Evaluates with the steps above in a list. -/
def evalFrom (alg : Algebra σ β) : Focus σ β → List (Pending σ β) → β
  | .branch .empty, above => evalFrom alg (.value alg.empty) above
  | .branch (.backReference target), above =>
    evalFrom alg (.value (alg.backReference target)) above
  | .branch (.step s []), above => evalFrom alg (.value (alg.step s [])) above
  | .branch (.step s (b :: rest)), above => evalFrom alg (.branch b) (⟨s, [], rest⟩ :: above)
  | .value v, [] => v
  | .value v, ⟨s, done, []⟩ :: above =>
    evalFrom alg (.value (alg.step s (v :: done).reverse)) above
  | .value v, ⟨s, done, b :: rest⟩ :: above =>
    evalFrom alg (.branch b) (⟨s, v :: done, rest⟩ :: above)
termination_by focus above => focus.work + pendingWork above
decreasing_by all_goals simp [Focus.work, size, sizeSlots, pendingWork] <;> omega

/-- The value of a branch. -/
def fold (alg : Algebra σ β) (b : Tree σ) : β := evalFrom alg (.branch b) []

/-- The value of slots from the first few values and the rest. -/
theorem evalFrom_value (alg : Algebra σ β) {todo : List (Tree σ)}
    (h : ∀ b ∈ todo, ∀ above, evalFrom alg (.branch b) above
      = evalFrom alg (.value (eval alg b)) above)
    (s : σ) (v : β) (done : List β) (above : List (Pending σ β)) :
    evalFrom alg (.value v) (⟨s, done, todo⟩ :: above)
      = evalFrom alg (.value (alg.step s (done.reverse ++ v :: evalSlots alg todo))) above := by
  induction todo generalizing v done with
  | nil => rw [evalFrom]; simp [evalSlots]
  | cons b rest ih =>
    rw [evalFrom, h b (by simp), ih (fun b hb => h b (by simp [hb]))]
    simp [evalSlots]

/-- Evaluating a branch hands its value to the step above. -/
theorem evalFrom_branch (alg : Algebra σ β) (b : Tree σ) : ∀ above : List (Pending σ β),
    evalFrom alg (.branch b) above = evalFrom alg (.value (eval alg b)) above := by
  induction b with
  | empty => intro above; rw [evalFrom]; rfl
  | backReference target => intro above; rw [evalFrom]; rfl
  | step s slots ih =>
    intro above
    cases slots with
    | nil => rw [evalFrom]; rfl
    | cons b rest =>
      rw [evalFrom, ih b (by simp), evalFrom_value alg fun c hc => ih c (by simp [hc])]
      simp [eval, evalSlots]

/-- The evaluation with a list is the plain recursion. -/
theorem fold_eq (alg : Algebra σ β) (b : Tree σ) : fold alg b = eval alg b := by
  rw [fold, evalFrom_branch, evalFrom]

theorem evalSlots_eq (alg : Algebra σ β) (slots : List (Tree σ)) :
    evalSlots alg slots = slots.map (fold alg) := by
  induction slots with
  | nil => rfl
  | cons b rest ih => simp [evalSlots, ih, fold_eq]

@[simp] theorem fold_empty (alg : Algebra σ β) : fold alg .empty = alg.empty := by
  simp [fold_eq, eval]

@[simp] theorem fold_backReference (alg : Algebra σ β) (target : NodeId) :
    fold alg (.backReference target) = alg.backReference target := by
  simp [fold_eq, eval]

@[simp] theorem fold_step (alg : Algebra σ β) (s : σ) (slots : List (Tree σ)) :
    fold alg (.step s slots) = alg.step s (slots.map (fold alg)) := by
  simp [fold_eq, eval, evalSlots_eq]

/-! ### Counting -/

/-- The sum of counts. -/
def total (counts : List Nat) : Nat := counts.foldr (· + ·) 0

/-- The number of steps in a branch. -/
def stepCount (b : Tree σ) : Nat :=
  b.fold ⟨0, fun _ => 0, fun _ counts => 1 + total counts⟩

@[simp] theorem stepCount_empty : stepCount (.empty : Tree σ) = 0 := by simp [stepCount]

@[simp] theorem stepCount_backReference (target : NodeId) :
    stepCount (.backReference target : Tree σ) = 0 := by simp [stepCount]

@[simp] theorem stepCount_step (s : σ) (slots : List (Tree σ)) :
    stepCount (.step s slots) = 1 + total (slots.map stepCount) := by
  simp only [stepCount, fold_step]; rfl

end Tree

end Chatflow
