/-
# The step limit

A step limit takes nothing from a compilation but the steps beyond it.  Made with a limit, each move
is what it is without one, unless it opens a step too many, and then the compilation fails
(`start_withLimit`, `advance_withLimit`).  So up to the limit both go the same way move by move
(`moves_withLimit`), and beyond it the one with the limit has failed (`exceeded_of_lt`).

The number of steps opened never goes down, and at the end it is the number of steps of the tree
(`steps_of_run`).  Hence a limit is felt or not according to the number of steps alone, and two
limits that are not felt give the same (`runLists_limitExact`).
-/
import Chatflow.Proofs.Termination

namespace Chatflow.Compiler

variable {γ : Type} {limit : Nat}

/-! ### Moves under a limit -/

/-- The move, or failure if it opens a step beyond the limit; the id of that step is not drawn. -/
def Move.cap (limit : Nat) (generator : γ) : Move γ → Move γ
  | .walk w =>
    if limit < w.diagnostics.steps then .done ⟨.error (.stepLimitExceeded limit), generator⟩
    else .walk w
  | .done o => .done o

lemma Move.cap_of_lt {w : Walk γ} (h : limit < w.diagnostics.steps) (generator : γ) :
    (Move.walk w).cap limit generator
      = .done ⟨.error (.stepLimitExceeded limit), generator⟩ := if_pos h

lemma Move.cap_of_le {m : Move γ} (h : ∀ w, m = .walk w → w.diagnostics.steps ≤ limit)
    (generator : γ) : m.cap limit generator = m := by
  cases m with
  | walk w => exact if_neg (Nat.not_lt.2 (h w rfl))
  | done o => rfl

variable [IdGenerator γ] {c : Compiler} {i : GraphIndex} {root : NodeId} {generator : γ}

lemma start_withLimit (c : Compiler) (i : GraphIndex) (root : NodeId) (generator : γ)
    (limit : Nat) :
    (c.withLimit limit).start i root generator
      = ((c.withLimit 1).start i root generator).cap limit generator := by
  rw [start, start]
  cases i.node? root with
  | none => rfl
  | some n =>
    have hfree : ¬ (c.withLimit 1).stepLimit ≤ 0 := Nat.not_succ_le_zero 0
    simp only [if_neg hfree]
    split
    · next hlimit => exact (Move.cap_of_lt (Nat.lt_succ_of_le hlimit) _).symm
    · next hlimit => exact (if_neg fun hlt => hlimit (Nat.lt_succ_iff.1 hlt)).symm

/-- Below the limit a move with the limit is one without, or fails at its step. -/
lemma advance_withLimit {w : Walk γ} (h : w.diagnostics.steps ≤ limit) :
    (c.withLimit limit).advance i w = (c.advanceFreely i w).cap limit w.generator := by
  have hle : ¬ limit < w.diagnostics.steps := Nat.not_lt.2 h
  have hfree : ¬ (c.withLimit (w.diagnostics.steps + 1)).stepLimit ≤ w.diagnostics.steps :=
    Nat.not_succ_le_self _
  rw [advanceFreely, advance, advance]
  cases htargets : w.top.targets with
  | nil =>
    cases hbelow : w.below with
    | nil => rfl
    | cons parent below => exact (if_neg hle).symm
  | cons t rest =>
    cases t with
    | none => exact (if_neg hle).symm
    | some target =>
      simp only
      cases hback : w.onPath.contains target with
      | true =>
        simp only [if_true]
        cases hpolicy : c.policy with
        | reject => simp only [withLimit, hpolicy, Move.cap]
        | backReference => simp only [withLimit, hpolicy, Move.cap, if_neg hle]
      | false =>
        simp only [Bool.false_eq_true, if_false]
        cases hn : i.node? target with
        | none => exact (if_neg hle).symm
        | some n =>
          -- this is the only move that looks at the limit
          simp only [if_neg hfree]
          split
          · next hlimit => exact (Move.cap_of_lt (Nat.lt_succ_of_le hlimit) _).symm
          · next hlimit => exact (if_neg fun hlt => hlimit (Nat.lt_succ_iff.1 hlt)).symm

/-! ### Counting steps -/

/-- The number of steps opened has a property, unless the compilation has failed. -/
def Move.Steps (p : Nat → Prop) : Move γ → Prop
  | .walk w => p w.diagnostics.steps
  | .done o => ∀ comp, o.result = .ok comp → p comp.diagnostics.steps

lemma start_steps {p : Nat → Prop} (hzero : p 0) (hone : 0 < c.stepLimit → p 1) :
    (c.start i root generator).Steps p := by
  rw [start]
  split
  · rintro comp ⟨⟩
    exact hzero
  · split
    · rintro comp ⟨⟩
    · next hlimit => exact hone (Nat.pos_of_ne_zero fun h => hlimit h.le)

/-- A move keeps the number of steps, or adds one if it is below the limit. -/
lemma advance_steps {w : Walk γ} {p : Nat → Prop} (hkeep : p w.diagnostics.steps)
    (hopen : w.diagnostics.steps < c.stepLimit → p (w.diagnostics.steps + 1)) :
    (c.advance i w).Steps p := by
  have hmove := c.moves_advance i w
  generalize c.advance i w = m at hmove
  cases hmove with
  | finish full bottom =>
    rintro comp ⟨⟩
    exact hkeep
  | close full inside => exact hkeep
  | skip slot absent => exact hkeep
  | mark slot back policy => exact hkeep
  | reject slot back policy => rintro comp ⟨⟩
  | enter slot off found room => exact hopen (Nat.lt_of_not_le room)
  | exceed slot off found limit => rintro comp ⟨⟩

/-- A compilation that succeeds has kept its limit. -/
lemma steps_le_of_run {comp : Compilation} (h : (c.run i root generator).result = .ok comp) :
    comp.diagnostics.steps ≤ c.stepLimit := by
  obtain ⟨o, ho⟩ := exists_moves_eq_done c i root generator
  have hsteps : (c.moves i root generator
      (slotMoves c.registry.width (i.offPath []).length)).Steps (· ≤ c.stepLimit) :=
    Move.after_induct (P := Move.Steps (· ≤ c.stepLimit)) (start_steps (Nat.zero_le _) id)
      (fun w hw => advance_steps hw id) _
  rw [ho] at hsteps
  rw [← eq_run_of_moves ho] at h
  exact hsteps comp h

/-- Without a limit the number of steps opened does not go down. -/
lemma steps_movesFreely {j k : Nat} {w : Walk γ}
    (hw : c.movesFreely i root generator j = .walk w) (hjk : j ≤ k) :
    (c.movesFreely i root generator k).Steps (w.diagnostics.steps ≤ ·) := by
  obtain ⟨d, rfl⟩ := Nat.exists_eq_add_of_le hjk
  rw [movesFreely_add, hw]
  refine Move.after_induct ?_ (fun v hv => advance_steps hv fun _ => Nat.le_succ_of_le hv) d
  exact Nat.le_refl _

/-! ### A compilation with a limit and without -/

/-- As long as no step beyond the limit is opened, the limit is not felt. -/
lemma moves_withLimit {k : Nat}
    (h : ∀ j ≤ k, ∀ w, c.movesFreely i root generator j = .walk w → w.diagnostics.steps ≤ limit) :
    (c.withLimit limit).moves i root generator k = c.movesFreely i root generator k := by
  induction k with
  | zero => exact (start_withLimit c i root generator limit).trans (Move.cap_of_le (h 0 le_rfl) _)
  | succ k ih =>
    have hk := ih fun j hj => h j (Nat.le_succ_of_le hj)
    have hnext := h (k + 1) le_rfl
    rw [movesFreely_succ] at hnext
    rw [moves_succ, movesFreely_succ, hk]
    cases hm : c.movesFreely i root generator k with
    | done o => rfl
    | walk w =>
      rw [hm] at hnext
      exact (advance_withLimit (h k (Nat.le_succ k) w hm)).trans (Move.cap_of_le hnext _)

/-- Once a step beyond the limit is opened, the compilation with the limit has failed. -/
lemma exceeded_of_lt {k : Nat} {w : Walk γ}
    (hw : c.movesFreely i root generator k = .walk w) (hlt : limit < w.diagnostics.steps) :
    ((c.withLimit limit).run i root generator).result = .error (.stepLimitExceeded limit) := by
  induction k generalizing w with
  | zero =>
    have hstart : (c.withLimit limit).moves i root generator 0
        = .done ⟨.error (.stepLimitExceeded limit), generator⟩ := by
      refine (start_withLimit c i root generator limit).trans ?_
      rw [show (c.withLimit 1).start i root generator = .walk w from hw, Move.cap_of_lt hlt]
    rw [← eq_run_of_moves hstart]
  | succ k ih =>
    rw [movesFreely_succ] at hw
    cases hm : c.movesFreely i root generator k with
    | done o => simp [hm, Move.next] at hw
    | walk v =>
      rw [hm] at hw
      by_cases hv : limit < v.diagnostics.steps
      · exact ih hm hv
      · -- the move from `v` opens the first step beyond the limit
        have hle : ∀ j ≤ k, ∀ u, c.movesFreely i root generator j = .walk u →
            u.diagnostics.steps ≤ limit := by
          intro j hj u hu
          have hsteps := steps_movesFreely hu hj
          rw [hm] at hsteps
          exact Nat.le_trans hsteps (Nat.not_lt.1 hv)
        have hnext : (c.withLimit limit).moves i root generator (k + 1)
            = .done ⟨.error (.stepLimitExceeded limit), v.generator⟩ := by
          rw [moves_succ, moves_withLimit hle, hm, Move.next, advance_withLimit (Nat.not_lt.1 hv),
            show c.advanceFreely i v = .walk w from hw, Move.cap_of_lt hlt]
        rw [← eq_run_of_moves hnext]

/-- If no step beyond the limit is opened, the outcome is that without a limit. -/
lemma run_withLimit_eq {k : Nat} {o : Outcome γ} (ho : c.movesFreely i root generator k = .done o)
    (h : ∀ j w, c.movesFreely i root generator j = .walk w → w.diagnostics.steps ≤ limit) :
    (c.withLimit limit).run i root generator = o :=
  (eq_run_of_moves ((moves_withLimit fun j _ => h j).trans ho)).symm

/-- Without a limit a compilation fails only at a cycle that is not allowed. -/
lemma error_of_movesFreely {k : Nat} {o : Outcome γ} {e : CompileError}
    (h : c.movesFreely i root generator k = .done o) (he : o.result = .error e) :
    c.policy = .reject ∧ ∃ target, e = .cycleDetected target := by
  refine Move.after_induct (f := c.advanceFreely i) (P := fun m => ∀ o, m = .done o →
    o.result = .error e → c.policy = .reject ∧ ∃ target, e = .cycleDetected target)
    ?_ ?_ k o h he
  · intro o ho he
    rw [start] at ho
    cases hroot : i.node? root with
    | none =>
      rw [hroot, Move.done.injEq] at ho
      simp [← ho] at he
    | some n => simp [hroot, withLimit] at ho
  · intro w _ o ho he
    have hmove := (c.withLimit (w.diagnostics.steps + 1)).moves_advance i w
    rw [← advanceFreely, ho] at hmove
    cases hmove with
    | finish full bottom => simp at he
    | @reject target rest slot back policy => exact ⟨policy, target, (Except.error.inj he).symm⟩
    | exceed slot off found limit => exact absurd limit (Nat.not_succ_le_self _)

lemma movesFreely_of_absent (hroot : i.node? root = none) (k : Nat) :
    c.movesFreely i root generator k = .done ⟨.ok ⟨.empty, {}⟩, generator⟩ := by
  rw [movesFreely, start, hroot]
  exact Move.after_done _ _

/-- A compilation fails at a limit just if without one it opens more steps. -/
lemma exceeded_iff_exists_lt {l : Nat} :
    ((c.withLimit limit).run i root generator).result = .error (.stepLimitExceeded l) ↔
      l = limit ∧ ∃ k w, c.movesFreely i root generator k = .walk w ∧
        limit < w.diagnostics.steps := by
  constructor
  · intro h
    by_cases hmore : ∃ k w, c.movesFreely i root generator k = .walk w ∧ limit < w.diagnostics.steps
    · obtain ⟨k, w, hw, hlt⟩ := hmore
      rw [exceeded_of_lt hw hlt, Except.error.injEq, CompileError.stepLimitExceeded.injEq] at h
      exact ⟨h.symm, k, w, hw, hlt⟩
    · obtain ⟨o, ho⟩ := exists_movesFreely_eq_done c i root generator
      have hle : ∀ j w, c.movesFreely i root generator j = .walk w →
          w.diagnostics.steps ≤ limit := by
        intro j w hw
        by_contra hj
        exact hmore ⟨j, w, hw, Nat.not_le.1 hj⟩
      rw [run_withLimit_eq ho hle] at h
      obtain ⟨-, target, he⟩ := error_of_movesFreely ho h
      simp at he
  · rintro ⟨rfl, k, w, hw, hlt⟩
    exact exceeded_of_lt hw hlt

lemma steps_le_of_not_exceeded
    (h : ∀ l, ((c.withLimit limit).run i root generator).result ≠ .error (.stepLimitExceeded l))
    (j : Nat) (w : Walk γ) (hw : c.movesFreely i root generator j = .walk w) :
    w.diagnostics.steps ≤ limit := by
  by_contra hlt
  exact h limit (exceeded_iff_exists_lt.2 ⟨rfl, j, w, hw, Nat.not_le.1 hlt⟩)

/-- On its way a compilation without a limit has opened no more steps than at its end. -/
lemma steps_le_of_movesFreely {j k : Nat} {w : Walk γ} {comp : Compilation} {g : γ}
    (hk : c.movesFreely i root generator k = .done ⟨.ok comp, g⟩)
    (hw : c.movesFreely i root generator j = .walk w) :
    w.diagnostics.steps ≤ comp.diagnostics.steps := by
  rcases Nat.le_total j k with hjk | hkj
  · have hsteps := steps_movesFreely hw hjk
    rw [hk] at hsteps
    exact hsteps comp rfl
  · obtain ⟨d, rfl⟩ := Nat.exists_eq_add_of_le hkj
    rw [movesFreely_add, hk, Move.after_done] at hw
    simp at hw

/-! ### Counting the steps of a tree -/

omit [IdGenerator γ] in
lemma steps_foldl_noticed (c : Compiler) (i : GraphIndex) (d : Diagnostics)
    (xs : List (Node ⊕ NodeId)) :
    (xs.foldl (c.noticed i) d).steps = d.steps + (xs.filterMap Sum.getLeft?).length := by
  induction xs generalizing d with
  | nil => rfl
  | cons x rest ih =>
    rw [List.foldl_cons, ih]
    cases x with
    | inl n => simp [noticed, noteStep, Nat.add_assoc, Nat.add_comm 1]
    | inr target => simp [noticed, noteMarker, List.filterMap_cons]

/-- A compilation notices as many steps as its tree has. -/
lemma steps_of_run {comp : Compilation} (h : (c.run i root generator).result = .ok comp) :
    comp.diagnostics.steps = comp.root.stepCount := by
  cases hroot : i.node? root with
  | none =>
    rw [run_of_absent hroot, Except.ok.injEq] at h
    simp [← h]
  | some n =>
    rw [diagnostics_of_run hroot h, steps_foldl_noticed, ← Tree.steps, Tree.length_steps,
      ← Tree.stepCount_map (fun n : Node => n.id), ← map_origin_of_run hroot h, Tree.stepCount_map]
    exact Nat.zero_add _

/-- A tree that there is without a limit is that under every limit which its steps keep. -/
lemma run_withLimit_eq_of_stepCount_le {k : Nat} {comp : Compilation} {g : γ}
    (hk : c.movesFreely i root generator k = .done ⟨.ok comp, g⟩)
    (hle : comp.root.stepCount ≤ limit) :
    (c.withLimit limit).run i root generator = ⟨.ok comp, g⟩ := by
  have hcount : comp.diagnostics.steps = comp.root.stepCount := by
    have hrun := run_withLimit_eq hk fun j w hw => steps_le_of_movesFreely hk hw
    exact steps_of_run (congrArg Outcome.result hrun)
  refine run_withLimit_eq hk fun j w hw => ?_
  exact Nat.le_trans (steps_le_of_movesFreely hk hw) (hcount.trans_le hle)

/-! ### Two limits -/

variable {nodes : List Node} {edges : List Edge}

/-- The step limit decides by the number of steps alone whether a compilation fails, and has no
part in what it gives. -/
structure LimitExact (c : Compiler) (nodes : List Node) (edges : List Edge) (root : NodeId)
    (generator : γ) : Prop where
  /-- What does not fail at a limit is the same at any larger one. -/
  eq_of_le : ∀ L M, L ≤ M →
    (∀ l, ((c.withLimit L).runLists nodes edges root generator).result
      ≠ .error (.stepLimitExceeded l)) →
    (c.withLimit M).runLists nodes edges root generator
      = (c.withLimit L).runLists nodes edges root generator
  /-- A failure names the limit. -/
  limit_eq : ∀ L l, ((c.withLimit L).runLists nodes edges root generator).result
    = .error (.stepLimitExceeded l) → l = L
  /-- Without a limit a compilation comes to its end, and so it does with a limit at which it does
  not fail. -/
  eq_freely : ∃ k o, c.movesFreely (.ofLists nodes edges) root generator k = .done o ∧
    ∀ L, (∀ l, ((c.withLimit L).runLists nodes edges root generator).result
        ≠ .error (.stepLimitExceeded l)) →
      (c.withLimit L).runLists nodes edges root generator = o
  /-- It fails at a limit just if the root is there and without a limit more steps are opened. -/
  exceeded_iff : ∀ L, ((c.withLimit L).runLists nodes edges root generator).result
      = .error (.stepLimitExceeded L) ↔
    root ∈ nodes.map (·.id) ∧
      ∃ k w, c.movesFreely (.ofLists nodes edges) root generator k = .walk w ∧
        L < w.diagnostics.steps
  /-- Where cycles are allowed, it succeeds just if the tree that there is without a limit has no
  more steps. -/
  ok_iff : c.policy = .backReference →
    ∃ k comp g, c.movesFreely (.ofLists nodes edges) root generator k = .done ⟨.ok comp, g⟩ ∧
      ∀ L, (∃ comp', ((c.withLimit L).runLists nodes edges root generator).result = .ok comp') ↔
        comp.root.stepCount ≤ L
  /-- No tree has more steps than the limit. -/
  stepCount_le : ∀ L comp, ((c.withLimit L).runLists nodes edges root generator).result = .ok comp →
    comp.root.stepCount ≤ L
  /-- Where the root is not there, no limit is felt. -/
  eq_of_absent : root ∉ nodes.map (·.id) → ∀ L,
    (c.withLimit L).runLists nodes edges root generator = ⟨.ok ⟨.empty, {}⟩, generator⟩

/-- A compilation fails at a limit just if it opens more steps without one, and is otherwise the
same with a limit and without. -/
theorem runLists_limitExact (c : Compiler) (nodes : List Node) (edges : List Edge) (root : NodeId)
    (generator : γ) : c.LimitExact nodes edges root generator := by
  obtain ⟨o, ho⟩ := exists_movesFreely_eq_done c (.ofLists nodes edges) root generator
  have hcount : ∀ L comp,
      ((c.withLimit L).runLists nodes edges root generator).result = .ok comp →
      comp.root.stepCount ≤ L := by
    intro L comp h
    rw [← steps_of_run h]
    exact steps_le_of_run h
  have hfree : ∀ L, (∀ l, ((c.withLimit L).runLists nodes edges root generator).result
        ≠ .error (.stepLimitExceeded l)) →
      (c.withLimit L).runLists nodes edges root generator = o := fun L h =>
    run_withLimit_eq ho (steps_le_of_not_exceeded h)
  refine ⟨fun L M hLM h => ?_, fun L l h => (exceeded_iff_exists_lt.1 h).1, ⟨_, o, ho, hfree⟩,
    fun L => ?_, fun hpolicy => ?_, hcount, fun habsent L => ?_⟩
  · -- what keeps the smaller limit keeps the larger one
    rw [hfree L h]
    exact run_withLimit_eq ho fun j w hw => Nat.le_trans (steps_le_of_not_exceeded h j w hw) hLM
  · constructor
    · intro h
      obtain ⟨-, k, w, hw, hlt⟩ := exceeded_iff_exists_lt.1 h
      refine ⟨?_, k, w, hw, hlt⟩
      by_contra hroot
      rw [movesFreely_of_absent (GraphIndex.node?_ofLists_eq_none_iff.2 hroot)] at hw
      simp at hw
    · rintro ⟨-, k, w, hw, hlt⟩
      exact exceeded_of_lt hw hlt
  · obtain ⟨result, g⟩ := o
    cases result with
    | error e =>
      obtain ⟨hreject, -⟩ := error_of_movesFreely ho rfl
      simp [hpolicy] at hreject
    | ok comp =>
      refine ⟨_, comp, g, ho, fun L => ⟨?_, fun hle => ⟨comp, ?_⟩⟩⟩
      · rintro ⟨comp', hcomp'⟩
        have hrun := hfree L (by simp [hcomp'])
        exact hcount L comp (congrArg Outcome.result hrun)
      · exact congrArg Outcome.result (run_withLimit_eq_of_stepCount_le ho hle)
  · exact run_of_absent (GraphIndex.node?_ofLists_eq_none_iff.2 habsent) generator

end Chatflow.Compiler
