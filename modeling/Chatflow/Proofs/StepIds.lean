/-
# Step ids are decoration

A step draws its id when it is opened, before anything below it, so the ids of a tree are the first
ids of the generator, in pre-order; markers and empty slots draw none (`Compiler.draws_of_build`).

Nothing else in a compilation depends on ids.  With another generator it fails alike, or notices
the same and gives the same tree up to the ids (`Compiler.sameEnd_generator`).  The script of a
session takes its ids from the start of a scheme, so all its steps have different ids
(`Session.nodup_ids_after`), and those of a longer script begin like those of a shorter one.
-/
import Chatflow.Proofs.DistinctIds
import Chatflow.Proofs.Faults
import Chatflow.Proofs.Session
import Chatflow.Proofs.Tally

namespace Chatflow

open IdGenerator (ids after)

variable {γ : Type} [IdGenerator γ]

/-- The steps have the first ids of one state of the generator and leave it in the other. -/
structure Draws (steps : List Step) (g g' : γ) : Prop where
  ids_eq : steps.map (·.id) = ids steps.length g
  after_eq : g' = after steps.length g

namespace Draws

lemma nil (g : γ) : Draws [] g g := ⟨rfl, rfl⟩

lemma append {xs ys : List Step} {g g' g'' : γ} (hxs : Draws xs g g') (hys : Draws ys g' g'') :
    Draws (xs ++ ys) g g'' := by
  obtain ⟨hids, rfl⟩ := hxs
  obtain ⟨hids', rfl⟩ := hys
  constructor
  · rw [List.map_append, List.length_append, IdGenerator.ids_add, hids, hids']
  · rw [List.length_append, IdGenerator.after_add]

end Draws

namespace Compiler

variable {c : Compiler} {i : GraphIndex} {root : NodeId} {generator : γ} {comp : Compilation}

/-- While a step is opened its id is drawn. -/
lemma draws_of_openStep {n : Node} {step : Step} {l l' : Ledger γ}
    (h : c.openStep i n l = .ok step l') : Draws [step] l.generator l'.generator := by
  by_cases hlimit : c.stepLimit ≤ l.diagnostics.steps
  · simp [openStep_of_le hlimit] at h
  · rw [openStep_of_not_le hlimit, EStateM.Result.ok.injEq] at h
    obtain ⟨rfl, rfl⟩ := h
    exact ⟨rfl, rfl⟩

/-- A slot takes up the generator where the slot before has left it. -/
lemma draws_of_mapM {slots : List (Tree Node)} {bs : List Branch} {l l' : Ledger γ}
    (hslots : ∀ p ∈ slots, ∀ (b : Branch) (m m' : Ledger γ), c.build i p m = .ok b m' →
      Draws b.steps m.generator m'.generator)
    (h : slots.mapM (c.build i) l = .ok bs l') :
    Draws (bs.flatMap Tree.steps) l.generator l'.generator := by
  induction slots generalizing bs l with
  | nil =>
    obtain ⟨rfl, rfl⟩ := Build.pure_eq_ok_iff.1 h
    exact .nil _
  | cons p rest ih =>
    rw [List.mapM_cons] at h
    obtain ⟨b, m, hb, h⟩ := Build.bind_eq_ok_iff.1 h
    obtain ⟨bs', m', hbs, h⟩ := Build.bind_eq_ok_iff.1 h
    obtain ⟨rfl, rfl⟩ := Build.pure_eq_ok_iff.1 h
    exact (hslots p (by simp) b l m hb).append (ih (fun q hq => hslots q (by simp [hq])) hbs)

/-- While a plan is built the ids of its steps are drawn in pre-order, and no others. -/
lemma draws_of_build {p : Tree Node} {b : Branch} {l l' : Ledger γ}
    (h : c.build i p l = .ok b l') : Draws b.steps l.generator l'.generator := by
  induction p generalizing b l l' with
  | empty =>
    rw [build_empty] at h
    obtain ⟨rfl, rfl⟩ := Build.pure_eq_ok_iff.1 h
    rw [Tree.steps_empty]
    exact .nil _
  | backReference target =>
    rw [build_backReference] at h
    cases hpolicy : c.policy with
    | reject => simp [leadBack_reject hpolicy] at h
    | backReference =>
      rw [leadBack_backReference hpolicy, EStateM.Result.ok.injEq] at h
      obtain ⟨rfl, rfl⟩ := h
      rw [Tree.steps_backReference]
      exact .nil _
  | step n slots ih =>
    rw [build_step] at h
    obtain ⟨step, m, hstep, h⟩ := Build.bind_eq_ok_iff.1 h
    obtain ⟨bs, m', hbs, h⟩ := Build.bind_eq_ok_iff.1 h
    obtain ⟨rfl, rfl⟩ := Build.pure_eq_ok_iff.1 h
    rw [Tree.steps_step]
    exact (draws_of_openStep hstep).append (draws_of_mapM (fun q hq b m m' => ih q hq) hbs)

/-- A compilation that succeeds draws the ids of its steps in pre-order. -/
lemma draws_of_run (h : (c.run i root generator).result = .ok comp) :
    Draws comp.root.steps generator (c.run i root generator).generator := by
  cases hroot : i.node? root with
  | none =>
    rw [run_of_absent hroot] at h ⊢
    obtain rfl := Except.ok.inj h
    rw [Tree.steps_empty]
    exact .nil _
  | some n =>
    rw [run_eq_build hroot] at h ⊢
    cases hbuild : c.build i (c.plan i [] n) ⟨generator, {}⟩ with
    | error e l => simp [hbuild, Outcome.ofBuilt] at h
    | ok b l =>
      rw [hbuild, Outcome.ofBuilt, Except.ok.injEq] at h
      subst h
      exact draws_of_build hbuild

/-- A step is told by its id and the rest of it. -/
lemma eq_of_anonymous_eq {s r : Step} (hid : s.id = r.id) (h : s.anonymous = r.anonymous) :
    s = r :=
  calc s = { s.anonymous with id := s.id } := rfl
    _ = { r.anonymous with id := r.id } := by rw [h, hid]
    _ = r := rfl

lemma steps_eq_of_map_eq {xs ys : List Step} (hids : xs.map (·.id) = ys.map (·.id))
    (hanonymous : xs.map Step.anonymous = ys.map Step.anonymous) : xs = ys := by
  induction xs generalizing ys with
  | nil => simpa using hids.symm
  | cons s rest ih =>
    cases ys with
    | nil => simp at hids
    | cons r rest' =>
      obtain ⟨hid, hids⟩ := List.cons.inj hids
      obtain ⟨hstep, hsteps⟩ := List.cons.inj hanonymous
      rw [eq_of_anonymous_eq hid hstep, ih hids hsteps]

/-- With the same generator, trees that are the same up to ids are the same. -/
lemma root_eq_of_map_anonymous_eq {j : GraphIndex} {root' : NodeId} {comp' : Compilation}
    (h : (c.run i root generator).result = .ok comp)
    (h' : (c.run j root' generator).result = .ok comp')
    (hmap : comp.root.map Step.anonymous = comp'.root.map Step.anonymous) :
    comp.root = comp'.root := by
  have hsteps := congrArg Tree.steps hmap
  rw [Tree.steps_map, Tree.steps_map] at hsteps
  have hlength : comp.root.steps.length = comp'.root.steps.length := by
    simpa using congrArg List.length hsteps
  have hids : comp.root.steps.map (·.id) = comp'.root.steps.map (·.id) := by
    rw [(draws_of_run h).ids_eq, (draws_of_run h').ids_eq, hlength]
  exact Tree.eq_of_map_eq_of_steps_eq hmap (steps_eq_of_map_eq hids hsteps)

/-! ### Other generators -/

/-- With another generator a compilation comes to the same end, but for the ids of its steps. -/
lemma sameEnd_generator {δ : Type} [IdGenerator δ] (generator' : δ) :
    SameEnd (fun comp comp' => comp.diagnostics = comp'.diagnostics ∧
        comp.root.map Step.anonymous = comp'.root.map Step.anonymous)
      (c.run i root generator).result (c.run i root generator').result := by
  cases hroot : i.node? root with
  | none =>
    rw [run_of_absent hroot, run_of_absent hroot]
    exact .ok ⟨rfl, rfl⟩
  | some n =>
    -- both build the same plan
    refine sameEnd_of_map_eq (f := id) (g := id) hroot hroot rfl fun comp comp' h h' => ?_
    have hmap := (map_anonymous_of_run hroot h).trans (map_anonymous_of_run hroot h').symm
    exact ⟨diagnostics_eq_of_map_anonymous_eq h h' hmap fun _ _ => rfl, hmap⟩

/-- Ids do no more than name the steps of a compilation. -/
structure IdsDecorate (c : Compiler) (nodes : List Node) (edges : List Edge) (root : NodeId) :
    Prop where
  /-- With any two generators it fails alike, or the same is noticed and the trees are the same when
  the ids of their steps are erased. -/
  sameEnd : ∀ {γ δ : Type} [IdGenerator γ] [IdGenerator δ] (generator : γ) (generator' : δ),
    SameEnd (fun comp comp' => comp.diagnostics = comp'.diagnostics ∧
        comp.root.map Step.anonymous = comp'.root.map Step.anonymous)
      (c.runLists nodes edges root generator).result
      (c.runLists nodes edges root generator').result
  /-- The steps in pre-order have the first ids of the generator, which is left behind them. -/
  draws : ∀ {γ : Type} [IdGenerator γ] (generator : γ) (comp : Compilation),
    (c.runLists nodes edges root generator).result = .ok comp →
      comp.root.steps.map (·.id) = ids comp.root.stepCount generator ∧
        (c.runLists nodes edges root generator).generator = after comp.root.stepCount generator
  /-- Markers carry ids of nodes. -/
  marker_mem : ∀ {γ : Type} [IdGenerator γ] (generator : γ) (comp : Compilation),
    (c.runLists nodes edges root generator).result = .ok comp →
      ∀ target ∈ comp.root.markers, target ∈ nodes.map (·.id)

lemma idsDecorate (c : Compiler) (nodes : List Node) (edges : List Edge) (root : NodeId) :
    c.IdsDecorate nodes edges root where
  sameEnd _ generator' := sameEnd_generator generator'
  draws generator comp h := by
    obtain ⟨hids, hafter⟩ := draws_of_run h
    rw [Tree.length_steps] at hids hafter
    exact ⟨hids, hafter⟩
  marker_mem _ _ h := (names_of_runLists h).marker_mem

end Compiler

namespace Session

/-- Compiling does not depend on where step ids come from, and draws one for each step, in
pre-order.  So after any requests to a session its steps have the first ids of its scheme, whatever
it showed before, and no two of them the same if there can be no more steps than words. -/
theorem nodup_ids_after (c : Compiler) :
    (∀ nodes edges root, c.IdsDecorate nodes edges root) ∧
      ∀ scheme graph root requests comp,
        ((start c scheme graph root).after requests).output = .ok comp →
          comp.root.steps.map (·.id) = ids comp.root.stepCount scheme.source ∧
            (c.stepLimit ≤ UInt64.size → (comp.root.steps.map (·.id)).Nodup) := by
  refine ⟨c.idsDecorate, fun scheme graph root requests comp h => ?_⟩
  rw [output_eq_compile, compile] at h
  have hids := ((c.idsDecorate _ _ _).draws _ comp h).1
  refine ⟨hids, fun hlimit => ?_⟩
  have hle : comp.root.stepCount ≤ c.stepLimit := by
    rw [← Compiler.steps_of_run h]
    exact Compiler.steps_le_of_run h
  rw [hids]
  exact scheme.nodup_ids (hle.trans hlimit)

lemma plan_saved : Compiler.plan {} (.ofLists Graph.saved.nodes Graph.saved.edges) []
      { id := "007", type := .template }
    = .step { id := "007", type := .template }
        [.step { id := "x", type := .document } [], .empty] := by
  rw [Compiler.plan_eq,
    show Compiler.targets {} (.ofLists Graph.saved.nodes Graph.saved.edges)
      { id := "007", type := .template } = [some "x", none] from rfl,
    List.map_cons, List.map_singleton,
    Compiler.planSlot_of_not_mem (m := { id := "x", type := .document }) (by decide) (by decide),
    Compiler.plan_eq]
  rfl

theorem nodup_ids_after_saved : ∃ g comp, Graph.ofSnapshot Graph.saved = .ok g ∧
    ((start {} .standard g "007").after [.setRoot "x", .setRoot "007"]).output = .ok comp ∧
      comp.root.steps.map (·.id) = ["id_1", "id_2"] ∧ (comp.root.steps.map (·.id)).Nodup := by
  obtain ⟨g, hg, hnodes⟩ : ∃ g, Graph.ofSnapshot Graph.saved = .ok g ∧
      g.nodeList = Graph.saved.nodes := ⟨_, rfl, by decide⟩
  have hedges : g.edges = Graph.saved.edges := (Graph.of_ofSnapshot hg).2
  have hroot : (GraphIndex.ofLists Graph.saved.nodes Graph.saved.edges).node? "007"
      = some { id := "007", type := .template } := by decide
  obtain ⟨comp, hcomp⟩ := Compiler.exists_run_eq_ok (c := {}) IdScheme.standard.source hroot
    (by rw [plan_saved]; simp [Compiler.fault?, Compiler.defaultStepLimit])
  have houtput : ((start {} .standard g "007").after [.setRoot "x", .setRoot "007"]).output
      = .ok comp := by
    show compile {} .standard g "007" = .ok comp
    rw [compile, hnodes, hedges]
    exact hcomp
  obtain ⟨hids, hnodup⟩ := (nodup_ids_after {}).2 .standard g "007" _ comp houtput
  have hcount : comp.root.stepCount = 2 := by
    rw [← Tree.stepCount_map Step.origin, Compiler.map_origin_of_run hroot hcomp, plan_saved]
    simp [Tree.total]
  refine ⟨g, comp, hg, houtput, ?_, hnodup (by decide)⟩
  rw [hids, hcount]
  rfl

end Session

end Chatflow
