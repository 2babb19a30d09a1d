/-
# The two cycle policies

Whether cycles are marked or rejected makes no difference to the plan of a compilation, which knows
nothing of policies (`plan_withPolicy`), and none to the building of a plan without markers
(`build_withPolicy`).  A plan with markers is built under both policies alike until the
first marker in pre-order is reached; there one goes on and the other fails
(`build_reject_of_marker`), unless both have failed before at the step limit.

So the policies agree wherever both can, and where they do not, the marked tree tells at which node
the other compilation fails (`runLists_policiesAgree`).
-/
import Chatflow.Proofs.Plan

namespace Chatflow.Compiler

/-- The compiler with another policy. -/
def withPolicy (c : Compiler) (policy : CyclePolicy) : Compiler := { c with policy }

variable {γ : Type} {c : Compiler} {i : GraphIndex} {policy : CyclePolicy}

/-! ### Plans -/

lemma plan_withPolicy (path : List NodeId) (n : Node) :
    (c.withPolicy policy).plan i path n = c.plan i path n := by
  refine plan_congr (fun m => ?_) path n
  rfl

/-- The first marker of a tree in pre-order, with steps only before it. -/
lemma exists_preorder_eq_of_markers {σ : Type} {p : Tree σ} {t : NodeId} {ts : List NodeId}
    (h : p.markers = t :: ts) :
    ∃ before after, p.preorder = before ++ .inr t :: after ∧ ∀ x ∈ before, ∃ s, x = .inl s := by
  obtain ⟨before, x, after, hpre, hbefore, hx, -⟩ := List.filterMap_eq_cons_iff.1 h
  obtain rfl := Sum.getRight?_eq_some_iff.1 hx
  refine ⟨before, after, hpre, fun x hx => ?_⟩
  cases x with
  | inl s => exact ⟨s, rfl⟩
  | inr target => simpa using hbefore _ hx

/-! ### Building -/

variable [IdGenerator γ]

/-- A plan without markers is built alike under both policies. -/
lemma build_withPolicy {p : Tree Node} (h : p.markers = []) :
    ((c.withPolicy policy).build i p : Build γ Branch) = c.build i p := by
  induction p with
  | empty => rw [build_empty, build_empty]
  | backReference target => simp at h
  | step n slots ih =>
    rw [Tree.markers_step, List.flatMap_eq_nil_iff] at h
    have hslots : (slots.mapM ((c.withPolicy policy).build i) : Build γ (List Branch))
        = slots.mapM (c.build i) := by
      induction slots with
      | nil => rfl
      | cons b rest ihs =>
        rw [List.mapM_cons, List.mapM_cons, ih b (by simp) (h b (by simp)),
          ihs (fun d hd => ih d (by simp [hd])) fun d hd => h d (by simp [hd])]
    rw [build_step, build_step, hslots]
    rfl

/-- Steps are visited alike under both policies. -/
lemma forM_visit_withPolicy {xs : List (Node ⊕ NodeId)} (h : ∀ x ∈ xs, ∃ n, x = .inl n) :
    (forM xs ((c.withPolicy policy).visit i) : Build γ Unit) = forM xs (c.visit i) := by
  induction xs with
  | nil => rfl
  | cons x rest ih =>
    obtain ⟨n, rfl⟩ := h x (by simp)
    rw [List.forM_cons, List.forM_cons, ih fun y hy => h y (by simp [hy])]
    rfl

/-- Where cycles are rejected, a plan with markers cannot be built: building fails at the first
marker, or as it does where cycles are marked. -/
lemma build_reject_of_marker {p : Tree Node} {t : NodeId} {ts : List NodeId}
    (h : p.markers = t :: ts) (l : Ledger γ) :
    (∃ m, (c.withPolicy .reject).build i p l = .error (.cycleDetected t) m) ∨
      ∃ e m, (c.withPolicy .reject).build i p l = .error e m ∧
        (c.withPolicy .backReference).build i p l = .error e m := by
  obtain ⟨before, after, hpre, hbefore⟩ := exists_preorder_eq_of_markers h
  simp only [build_eq_error_iff, hpre, List.forM_append, forM_visit_withPolicy hbefore]
  cases hvisit : (forM before (c.visit i) : Build γ Unit) l with
  | error e m => exact Or.inr ⟨e, m, Build.bind_of_error hvisit, Build.bind_of_error hvisit⟩
  | ok u m =>
    -- the marker is reached, and with it the end
    have hmarker : ((c.withPolicy .reject).visit i (.inr t) : Build γ Unit) m
        = .error (.cycleDetected t) m :=
      Build.effect_eq_error_iff.2 (leadBack_reject rfl t m)
    rw [Build.bind_of_ok hvisit, List.forM_cons]
    exact Or.inl ⟨m, Build.bind_of_error hmarker⟩

/-! ### Compilations -/

variable {root : NodeId} {generator : γ}

/-- If the tree of a compilation has no markers, the other policy gives the same compilation. -/
lemma run_eq_of_markers_eq_nil {policy' : CyclePolicy} {comp : Compilation}
    (h : ((c.withPolicy policy).run i root generator).result = .ok comp)
    (hmarkers : comp.root.markers = []) :
    (c.withPolicy policy').run i root generator = (c.withPolicy policy).run i root generator := by
  cases hroot : i.node? root with
  | none => rw [run_of_absent hroot, run_of_absent hroot]
  | some n =>
    have hplan : (c.plan i [] n).markers = [] := by
      rw [← plan_withPolicy, ← markers_of_run hroot h, hmarkers]
    rw [run_eq_build hroot, run_eq_build hroot, plan_withPolicy, plan_withPolicy,
      build_withPolicy hplan, build_withPolicy hplan]

/-- Where cycles are rejected, a compilation fails at the first marker of the plan, or as it does
where cycles are marked. -/
lemma run_reject_of_marker {n : Node} {t : NodeId} {ts : List NodeId}
    (hroot : i.node? root = some n) (h : (c.plan i [] n).markers = t :: ts) (generator : γ) :
    ((c.withPolicy .reject).run i root generator).result = .error (.cycleDetected t) ∨
      ∃ e, ((c.withPolicy .reject).run i root generator).result = .error e ∧
        ((c.withPolicy .backReference).run i root generator).result = .error e := by
  simp only [run_eq_build hroot, plan_withPolicy, result_ofBuilt_eq_error_iff]
  rcases build_reject_of_marker h ⟨generator, {}⟩ with hm | ⟨e, m, hm⟩
  · exact Or.inl hm
  · exact Or.inr ⟨e, ⟨m, hm.1⟩, m, hm.2⟩

/-- If the tree of a compilation that marks cycles has markers, a compilation that rejects cycles
fails at the target of the first. -/
lemma run_reject_of_markers_eq_cons {comp : Compilation} {t : NodeId} {ts : List NodeId}
    (h : ((c.withPolicy .backReference).run i root generator).result = .ok comp)
    (hmarkers : comp.root.markers = t :: ts) :
    ((c.withPolicy .reject).run i root generator).result = .error (.cycleDetected t) := by
  cases hroot : i.node? root with
  | none =>
    rw [run_of_absent hroot, Except.ok.injEq] at h
    simp [← h] at hmarkers
  | some n =>
    have hplan : (c.plan i [] n).markers = t :: ts := by
      rw [← plan_withPolicy, ← markers_of_run hroot h, hmarkers]
    rcases run_reject_of_marker hroot hplan generator with hcycle | ⟨e, -, he⟩
    · exact hcycle
    · simp [h] at he

/-- If a compilation that marks cycles fails, one that rejects them fails in the same way or
because of a cycle. -/
lemma run_reject_of_error {e : CompileError}
    (h : ((c.withPolicy .backReference).run i root generator).result = .error e) :
    ((c.withPolicy .reject).run i root generator).result = .error e ∨
      ∃ t, ((c.withPolicy .reject).run i root generator).result = .error (.cycleDetected t) := by
  cases hroot : i.node? root with
  | none => simp [run_of_absent hroot] at h
  | some n =>
    cases hplan : (c.plan i [] n).markers with
    | nil =>
      left
      rw [run_eq_build hroot, plan_withPolicy, build_withPolicy hplan] at h ⊢
      exact h
    | cons t ts =>
      rcases run_reject_of_marker hroot hplan generator with hcycle | ⟨e', he', he⟩
      · exact Or.inr ⟨t, hcycle⟩
      · obtain rfl : e = e' := Except.error.inj (h.symm.trans he)
        exact Or.inl he'

/-- What the outcomes under the two policies have to do with each other. -/
structure PoliciesAgree (marking rejecting : Outcome γ) : Prop where
  /-- A tree without markers is compiled to the same end under both. -/
  eq_of_unmarked : ∀ comp, marking.result = .ok comp → comp.root.markers = [] → rejecting = marking
  /-- If there are markers, the first of them in pre-order is the cycle that is rejected. -/
  rejects_first : ∀ comp t ts, marking.result = .ok comp → comp.root.markers = t :: ts →
    rejecting.result = .error (.cycleDetected t)
  /-- Without a marked tree there is none of the other kind either. -/
  fails_of_exceeded : ∀ limit, marking.result = .error (.stepLimitExceeded limit) →
    rejecting.result = .error (.stepLimitExceeded limit) ∨
      ∃ t, rejecting.result = .error (.cycleDetected t)
  /-- What is not rejected is the same under both, and has no markers. -/
  eq_of_accepted : ∀ comp, rejecting.result = .ok comp →
    marking = rejecting ∧ comp.root.markers = []

/-- Compiled with the same settings but for the policy, the same nodes and edges come to the same
end under both policies as long as nothing leads back; else the one fails at the first node to
which the other leads back. -/
theorem runLists_policiesAgree (c : Compiler) (nodes : List Node) (edges : List Edge)
    (root : NodeId) (generator : γ) :
    PoliciesAgree ((c.withPolicy .backReference).runLists nodes edges root generator)
      ((c.withPolicy .reject).runLists nodes edges root generator) where
  eq_of_unmarked _ := run_eq_of_markers_eq_nil
  rejects_first _ _ _ := run_reject_of_markers_eq_cons
  fails_of_exceeded _ := run_reject_of_error
  eq_of_accepted comp h := by
    have hmarkers : comp.root.markers = [] := by
      cases hroot : (GraphIndex.ofLists nodes edges).node? root with
      | none =>
        rw [runLists, run_of_absent hroot, Except.ok.injEq] at h
        simp [← h]
      | some n =>
        rw [markers_of_run hroot h]
        rw [runLists, run_eq_build hroot, result_ofBuilt_eq_ok_iff] at h
        obtain ⟨l, h, -⟩ := h
        exact markers_eq_nil_of_build rfl h
    exact ⟨run_eq_of_markers_eq_nil h hmarkers, hmarkers⟩

end Chatflow.Compiler
