/-
# Compiling does not get in the way of editing

A session answers what its graph by itself would answer (`Graph.answer`) and does to the graph what
the edit does, whatever has become of the script.  So two sessions on one graph that are asked for
the same edits stay in step (`Session.InStep`), however much their compilers, their schemes and
their roots differ: they give the same answers, have the same graph afterwards, and make their
scripts anew at the same times.

Whether a session has a script to show is a matter of the graph and the root as they are at the time
(`Compiler.Compilable`): the root must not unfold to more steps than there may be, and where cycles
are rejected none may be in reach of it.  So nothing stands in the way of the edit that removes the
cause, and with it the script is back (`Session.inStep_after`).
-/
import Chatflow.Proofs.Cycle
import Chatflow.Proofs.Faults
import Chatflow.Proofs.Revisions

namespace Chatflow

/-! ### Graphs that have a script -/

namespace Compiler

open Relation (ReflTransGen TransGen)

/-- There is no fault in a row that has no more steps than are left, and no markers where these are
not allowed. -/
lemma fault?_eq_none_iff {σ : Type} {c : Compiler} {steps : Nat} {xs : List (σ ⊕ NodeId)}
    (hsteps : steps ≤ c.stepLimit) :
    c.fault? steps xs = none ↔ steps + (xs.filterMap Sum.getLeft?).length ≤ c.stepLimit ∧
      (c.policy = .reject → xs.filterMap Sum.getRight? = []) := by
  induction xs generalizing steps with
  | nil => simpa [fault?] using hsteps
  | cons x rest ih =>
    cases x with
    | inl s =>
      rw [fault?]
      split
      · next hlimit =>
        refine iff_of_false (by simp) fun h => ?_
        have hle : steps + ((rest.filterMap Sum.getLeft?).length + 1) ≤ c.stepLimit := h.1
        omega
      · next hlimit =>
        rw [ih (by omega), Nat.add_assoc, Nat.add_comm 1]
        rfl
    | inr target =>
      rw [fault?]
      cases hpolicy : c.policy with
      | reject => simp
      | backReference =>
        simp only [ih hsteps, hpolicy, reduceCtorEq, false_imp_iff, and_true]
        rfl

/-- Nothing stands in the way of a script: the root unfolds to no more steps than there may be, and
where cycles are rejected none can be reached from it. -/
structure Compilable (c : Compiler) (i : GraphIndex) (root : NodeId) : Prop where
  stepCount_le : ∀ n, i.node? root = some n → (c.plan i [] n).stepCount ≤ c.stepLimit
  no_cycle : c.policy = .reject →
    ∀ v, ReflTransGen (c.SlotEdge i) root v → ¬ TransGen (c.SlotEdge i) v v

variable {γ : Type} [IdGenerator γ] {c : Compiler} {i : GraphIndex} {root : NodeId} {n : Node}

omit [IdGenerator γ] in
lemma fault?_plan_eq_none_iff :
    c.fault? 0 (c.plan i [] n).preorder = none ↔
      (c.plan i [] n).stepCount ≤ c.stepLimit ∧
        (c.policy = .reject → (c.plan i [] n).markers = []) := by
  rw [fault?_eq_none_iff (Nat.zero_le _), Nat.zero_add, ← Tree.length_steps]
  rfl

/-- A compilation succeeds just if nothing stands in the way. -/
lemma exists_run_eq_ok_iff (generator : γ) :
    (∃ comp, (c.run i root generator).result = .ok comp) ↔ c.Compilable i root := by
  constructor
  · rintro ⟨comp, h⟩
    refine ⟨fun n hn => ?_, fun hpolicy => (no_cycle_of_run_eq_ok hpolicy h).2⟩
    cases hfault : c.fault? 0 (c.plan i [] n).preorder with
    | none => exact (fault?_plan_eq_none_iff.1 hfault).1
    | some e => exact absurd (h.symm.trans ((run_eq_error_iff hn).2 hfault)) (by simp)
  · intro h
    cases hroot : i.node? root with
    | none => exact ⟨_, congrArg Outcome.result (run_of_absent hroot generator)⟩
    | some n =>
      obtain rfl : n.id = root := i.id_eq hroot
      refine exists_run_eq_ok generator hroot (fault?_plan_eq_none_iff.2
        ⟨h.stepCount_le n hroot, fun hpolicy => List.eq_nil_iff_forall_not_mem.2 fun t ht => ?_⟩)
      obtain ⟨hreach, hcycle⟩ := cycle_of_mem_markers_plan hroot ht
      exact h.no_cycle hpolicy t hreach hcycle

end Compiler

/-! ### Answers -/

/-- What a graph by itself answers to an edit; no edit is done at once. -/
def Graph.answer (g : Graph) : Option Edit → Except EditError Receipt
  | some e => (g.apply e).map Prod.fst
  | none => .ok .done

namespace Session

variable {s s' : Session} {g : Graph} {q q' : Request}

/-- A session answers what its graph would answer. -/
lemma answer_respond (s : Session) (q : Request) : (s.respond q).1 = s.graph.answer q.edit? := by
  cases q with
  | setRoot root => rfl
  | edit e =>
    show (s.edit e).1 = (s.graph.apply e).map Prod.fst
    cases h : s.graph.apply e with
    | error err => rw [edit_of_error h]; rfl
    | ok result => rw [edit_of_ok h]; rfl

/-- When the script is made anew is a matter of the edit; every other root counts alike. -/
lemma renewal_congr (h : q.edit? = q'.edit?) : q.renewal = q'.renewal := by
  cases q with
  | setRoot root =>
    cases q' with
    | setRoot root' => rfl
    | edit e => simp [Request.edit?] at h
  | edit e =>
    cases q' with
    | setRoot root' => simp [Request.edit?] at h
    | edit e' => exact congrArg Edit.renewal (Option.some.inj h)

/-- Both sessions have this graph, and have made their scripts anew equally often. -/
structure InStep (g : Graph) (s s' : Session) : Prop where
  graph_eq : s.graph = g
  graph_eq' : s'.graph = g
  revision_eq : s.revision = s'.revision

namespace InStep

lemma start (c c' : Compiler) (scheme scheme' : IdScheme) (graph : Graph) (root root' : NodeId) :
    InStep graph (.start c scheme graph root) (.start c' scheme' graph root') := ⟨rfl, rfl, rfl⟩

/-- Asked for the same, sessions in step give the answer of the graph. -/
lemma answer_eq (h : InStep g s s') (hq : q.edit? = q'.edit?) :
    (s.respond q).1 = g.answer q.edit? ∧ (s'.respond q').1 = g.answer q.edit? := by
  rw [answer_respond, answer_respond, h.graph_eq, h.graph_eq', hq]
  exact ⟨rfl, rfl⟩

/-- Asked for the same, sessions stay in step. -/
lemma respond (h : InStep g s s') (hq : q.edit? = q'.edit?) :
    InStep (g.after q.edit?.toList) (s.respond q).2 (s'.respond q').2 where
  graph_eq := by rw [graph_respond, h.graph_eq]
  graph_eq' := by rw [graph_respond, h.graph_eq', hq]
  revision_eq := by
    obtain ⟨hanswer, hanswer'⟩ := h.answer_eq hq
    rw [(renewedIf_respond s q).revision_eq, (renewedIf_respond s' q').revision_eq, hanswer,
      hanswer', renewal_congr hq, h.revision_eq]

lemma after (h : InStep g s s') {requests requests' : List Request}
    (hrequests : requests.map Request.edit? = requests'.map Request.edit?) :
    InStep (g.after (requests.flatMap (·.edit?.toList))) (s.after requests)
      (s'.after requests') := by
  induction requests generalizing g s s' requests' with
  | nil =>
    obtain rfl := List.map_eq_nil_iff.1 hrequests.symm
    exact h
  | cons q rest ih =>
    obtain ⟨q', rest', rfl, hq, hrest⟩ := List.map_eq_cons_iff.1 hrequests.symm
    rw [List.flatMap_cons, Graph.after_append]
    exact ih (h.respond hq.symm) hrest.symm

end InStep

/-- A session has a script to show just if nothing in the graph stands in the way of one. -/
lemma exists_output_iff (c : Compiler) (scheme : IdScheme) (graph : Graph) (root : NodeId)
    (requests : List Request) :
    let s := (start c scheme graph root).after requests
    (∃ comp, s.output = .ok comp) ↔
      c.Compilable (.ofLists s.graph.nodeList s.graph.edges) s.root := by
  intro s
  have hs : s.output = compile c scheme s.graph s.root := output_eq_compile graph root requests
  rw [hs]
  exact Compiler.exists_run_eq_ok_iff scheme.source

/-- Two sessions that start with one graph and are asked for the same edits, and for whatever other
roots at the same times, have at every moment the graph that these edits make by themselves, have
made their scripts anew equally often, and give to every request the answer of that graph; and each
has a script just if in that graph nothing stands in the way of one. -/
theorem inStep_after (c c' : Compiler) (scheme scheme' : IdScheme) (graph : Graph)
    (root root' : NodeId) {requests requests' : List Request}
    (h : requests.map Request.edit? = requests'.map Request.edit?) (k : Nat) :
    let s := (start c scheme graph root).after (requests.take k)
    let s' := (start c' scheme' graph root').after (requests'.take k)
    let bare := graph.after ((requests.take k).flatMap (·.edit?.toList))
    s.graph = bare ∧ s'.graph = bare ∧ s.revision = s'.revision ∧
      (∀ q q' : Request, q.edit? = q'.edit? →
        (s.respond q).1 = bare.answer q.edit? ∧ (s'.respond q').1 = bare.answer q.edit?) ∧
      ((∃ comp, s.output = .ok comp) ↔
        c.Compilable (.ofLists bare.nodeList bare.edges) s.root) ∧
      ((∃ comp, s'.output = .ok comp) ↔
        c'.Compilable (.ofLists bare.nodeList bare.edges) s'.root) := by
  intro s s' bare
  have htake : (requests.take k).map Request.edit? = (requests'.take k).map Request.edit? := by
    rw [List.map_take, List.map_take, h]
  have hstep : InStep bare s s' := (InStep.start c c' scheme scheme' graph root root').after htake
  have hscript := exists_output_iff c scheme graph root (requests.take k)
  have hscript' := exists_output_iff c' scheme' graph root' (requests'.take k)
  refine ⟨hstep.graph_eq, hstep.graph_eq', hstep.revision_eq, fun q q' => hstep.answer_eq, ?_, ?_⟩
  · rw [← hstep.graph_eq]
    exact hscript
  · rw [← hstep.graph_eq']
    exact hscript'

/-- A menu whose first button leads back to it. -/
def looped : Graph := { Graph.empty.put Compiler.menu with edges := Compiler.menuEdges }

lemma not_compilable_looped :
    ¬ Compiler.Compilable { policy := .reject } (.ofLists looped.nodeList looped.edges) "a" := by
  intro h
  refine h.no_cycle rfl "a" .refl (.single ⟨Compiler.menu, rfl, ⟨⟨"e1", "a", "a"⟩, ?_, rfl⟩, rfl⟩)
  exact List.mem_of_getElem? (i := 0) rfl

/-- Without its edge the menu is no loop. -/
lemma compilable_cut : Compiler.Compilable { policy := .reject } (.ofLists looped.nodeList []) "a"
    where
  stepCount_le n hn := by
    obtain rfl : Compiler.menu = n := Option.some.inj hn
    rw [Compiler.plan_eq, show Compiler.targets _ _ _ = [none, none] from rfl]
    simp [Compiler.planSlot_of_absent, Tree.total, Compiler.defaultStepLimit]
  no_cycle _ v _ hcycle := by
    obtain ⟨_, ⟨n, -, ⟨e, he, -⟩, -⟩, -⟩ := Relation.TransGen.head'_iff.1 hcycle
    rw [GraphIndex.edgesFrom_ofLists] at he
    simp at he

/-- The loop at the root is rejected in the first session and out of sight from the root of the
second; they are in step all the same, and without its edge the first has a script. -/
theorem inStep_after_looped :
    let s := (start { policy := .reject } .standard looped "b").after
    let s' := (start {} (.seeded 7) looped "a").after
    let cut : Request := .edit (.deleteEdge "e1")
    (s [.setRoot "a"]).graph = (s' [.setRoot "b"]).graph ∧
      (s [.setRoot "a"]).revision = (s' [.setRoot "b"]).revision ∧
      (¬ ∃ comp, (s [.setRoot "a"]).output = .ok comp) ∧
      (∃ comp, (s' [.setRoot "b"]).output = .ok comp) ∧
      ∃ comp, (s [.setRoot "a", cut]).output = .ok comp := by
  intro s s' cut
  have hsame : [.setRoot "a", cut].map Request.edit? = [.setRoot "b", cut].map Request.edit? := rfl
  have moment := inStep_after { policy := .reject } {} .standard (.seeded 7) looped "b" "a" hsame
  obtain ⟨hgraph, hgraph', hrevision, -, hscript, hscript'⟩ := moment 1
  obtain ⟨-, -, -, -, hscript₂, -⟩ := moment 2
  have habsent : (GraphIndex.ofLists looped.nodeList looped.edges).node? "b" = none := rfl
  refine ⟨hgraph.trans hgraph'.symm, hrevision, mt hscript.1 not_compilable_looped,
    hscript'.2 ⟨fun n hn => ?_, fun hpolicy => absurd hpolicy (by decide)⟩,
    hscript₂.2 compilable_cut⟩
  exact absurd (hn.symm.trans habsent) (Option.some_ne_none n)

end Session

end Chatflow
