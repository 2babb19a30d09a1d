/-
# Planning and building

What the recursion of `Chatflow.Proofs.Recursion` makes of a graph falls into two parts.  Which
nodes stand where in the tree is decided by the graph, the registry and the root alone: that is the
plan (`Compiler.plan`), a tree of nodes.  Building a plan (`Compiler.build`) gives its steps their
ids, counts them, and stops at the limit or at a marker that is not allowed.

Building a plan fails, draws ids and notices things exactly as if it went through the list of the
plan's steps and markers in pre-order (`effect_build`), and where it succeeds the tree is the plan,
each node replaced by its step (`map_anonymous_of_build`).  So what can be said of a compilation is
said of a plan or of a list.
-/
import Chatflow.Proofs.Recursion
import Chatflow.Proofs.Tree

namespace Chatflow

/-! ### Lists of builders -/

namespace Build

variable {γ α β : Type} {l l' : Ledger γ}

lemma pure_eq_ok_iff {a b : α} : (pure a : Build γ α) l = .ok b l' ↔ a = b ∧ l = l' := by
  rw [show (pure a : Build γ α) l = .ok a l from rfl, EStateM.Result.ok.injEq]

lemma bind_eq_ok_iff {x : Build γ α} {f : α → Build γ β} {b : β} :
    (x >>= f) l = .ok b l' ↔ ∃ a m, x l = .ok a m ∧ f a m = .ok b l' := by
  cases hx : x l with
  | ok a m => simp [bind_of_ok hx]
  | error e m => simp [bind_of_error hx]

lemma bind_eq_error_iff {x : Build γ α} {f : α → Build γ β} {e : CompileError} :
    (x >>= f) l = .error e l' ↔
      x l = .error e l' ∨ ∃ a m, x l = .ok a m ∧ f a m = .error e l' := by
  cases hx : x l with
  | ok a m => simp [bind_of_ok hx]
  | error e m => simp [bind_of_error hx]

/-- The effect of a builder: all but what it builds. -/
def effect (x : Build γ α) : Build γ Unit := x >>= fun _ => pure ()

lemma effect_eq_ok_iff {x : Build γ α} {u : Unit} :
    x.effect l = .ok u l' ↔ ∃ a, x l = .ok a l' := by
  rw [effect, bind_eq_ok_iff]
  constructor
  · rintro ⟨a, m, hx, hu⟩
    obtain ⟨-, rfl⟩ := pure_eq_ok_iff.1 hu
    exact ⟨a, hx⟩
  · rintro ⟨a, hx⟩
    exact ⟨a, l', hx, rfl⟩

lemma effect_eq_error_iff {x : Build γ α} {e : CompileError} :
    x.effect l = .error e l' ↔ x l = .error e l' := by
  rw [effect, bind_eq_error_iff]
  constructor
  · rintro (hx | ⟨a, m, hx, hu⟩)
    · exact hx
    · exact absurd hu nofun
  · exact Or.inl

/-- The effect of building one thing after the other. -/
lemma effect_mapM (f : α → Build γ β) (xs : List α) :
    effect (xs.mapM f) = forM xs fun x => (f x).effect := by
  induction xs with
  | nil => rfl
  | cons x rest ih =>
    rw [List.forM_cons, ← ih]
    simp [effect]

/-- What is built from a list matches the list, item by item. -/
lemma map_eq_of_mapM {δ : Type} {f : α → Build γ β} {g : β → δ} {h : α → δ} {xs : List α}
    {ys : List β} (hf : ∀ x ∈ xs, ∀ m m' y, f x m = .ok y m' → g y = h x)
    (hxs : xs.mapM f l = .ok ys l') : ys.map g = xs.map h := by
  induction xs generalizing ys l l' with
  | nil =>
    obtain ⟨rfl, -⟩ := pure_eq_ok_iff.1 hxs
    rfl
  | cons x rest ih =>
    rw [List.mapM_cons, bind_eq_ok_iff] at hxs
    obtain ⟨y, m, hy, hxs⟩ := hxs
    obtain ⟨ys', m', hys, hxs⟩ := bind_eq_ok_iff.1 hxs
    obtain ⟨rfl, -⟩ := pure_eq_ok_iff.1 hxs
    rw [List.map_cons, List.map_cons, hf x (by simp) l m y hy,
      ih (fun z hz => hf z (by simp [hz])) hys]

/-- Where going through a list succeeds, it does so at every item. -/
lemma ok_of_forM_eq_ok {f : α → Build γ Unit} {xs : List α} {u : Unit}
    (h : (forM xs f : Build γ Unit) l = .ok u l') : ∀ x ∈ xs, ∃ m m', f x m = .ok () m' := by
  induction xs generalizing l with
  | nil => simp
  | cons x rest ih =>
    rw [List.forM_cons] at h
    obtain ⟨_, m, hx, h⟩ := bind_eq_ok_iff.1 h
    intro y hy
    rcases List.mem_cons.1 hy with rfl | hy
    · exact ⟨l, m, hx⟩
    · exact ih h y hy

/-- Where going through a list fails, it does so at some item. -/
lemma error_of_forM_eq_error {f : α → Build γ Unit} {xs : List α} {e : CompileError}
    (h : (forM xs f : Build γ Unit) l = .error e l') : ∃ x ∈ xs, ∃ m, f x m = .error e l' := by
  induction xs generalizing l with
  | nil => exact absurd h nofun
  | cons x rest ih =>
    rw [List.forM_cons] at h
    rcases bind_eq_error_iff.1 h with h | ⟨_, m, -, h⟩
    · exact ⟨x, by simp, l, h⟩
    · obtain ⟨y, hy, hm⟩ := ih h
      exact ⟨y, by simp [hy], hm⟩

end Build

/-- The step without its id. -/
def Step.anonymous (s : Step) : Step := { s with id := "" }

namespace Compiler

variable {γ : Type} [IdGenerator γ]

/-! ### Plans -/

omit [IdGenerator γ] in
/-- The tree of a node inside a path before its steps have ids. -/
def plan (c : Compiler) (i : GraphIndex) (path : List NodeId) (n : Node) : Tree Node :=
  .step n <| (c.targets i n).map fun
    | none => .empty
    | some target =>
      match _hm : i.node? target with
      | none => .empty
      | some m =>
        if _hp : target ∈ n.id :: path then .backReference target
        else plan c i (n.id :: path) m
termination_by (i.offPath (n.id :: path)).length
decreasing_by exact GraphIndex.length_offPath_lt _hm _hp

/-- What is planned for a slot, the path being that of the step that has the slot. -/
def planSlot (c : Compiler) (i : GraphIndex) (path : List NodeId) : Option NodeId → Tree Node
  | none => .empty
  | some target =>
    match i.node? target with
    | none => .empty
    | some m => if target ∈ path then .backReference target else c.plan i path m

lemma plan_eq (c : Compiler) (i : GraphIndex) (path : List NodeId) (n : Node) :
    c.plan i path n = .step n ((c.targets i n).map (c.planSlot i (n.id :: path))) := by
  rw [plan]
  congr 2
  funext t
  cases t with
  | none => rfl
  | some target =>
    simp only [planSlot]
    cases i.node? target <;> simp

lemma planSlot_of_absent {c : Compiler} {i : GraphIndex} {path : List NodeId}
    {t : Option NodeId} (h : t.bind i.node? = none) : c.planSlot i path t = .empty := by
  cases t with
  | none => rfl
  | some target =>
    rw [Option.bind_some] at h
    rw [planSlot, h]

lemma planSlot_of_mem {c : Compiler} {i : GraphIndex} {path : List NodeId} {target : NodeId}
    (h : (i.node? target).isSome) (hp : target ∈ path) :
    c.planSlot i path (some target) = .backReference target := by
  obtain ⟨m, hm⟩ := Option.isSome_iff_exists.1 h
  simp only [planSlot, hm, if_pos hp]

lemma planSlot_of_not_mem {c : Compiler} {i : GraphIndex} {path : List NodeId} {target : NodeId}
    {m : Node} (hm : i.node? target = some m) (hp : target ∉ path) :
    c.planSlot i path (some target) = c.plan i path m := by
  simp only [planSlot, hm, if_neg hp]

/-- What a slot can be planned to be. -/
lemma planSlot_cases (c : Compiler) (i : GraphIndex) (path : List NodeId) (t : Option NodeId) :
    (t.bind i.node? = none ∧ c.planSlot i path t = .empty) ∨
      (∃ target, t = some target ∧ (i.node? target).isSome ∧ target ∈ path ∧
        c.planSlot i path t = .backReference target) ∨
      ∃ target m, t = some target ∧ i.node? target = some m ∧ target ∉ path ∧
        c.planSlot i path t = c.plan i path m := by
  cases h : t.bind i.node? with
  | none => exact Or.inl ⟨rfl, planSlot_of_absent h⟩
  | some m =>
    obtain ⟨target, rfl, hm⟩ := Option.bind_eq_some_iff.1 h
    by_cases hp : target ∈ path
    · have hsome : (i.node? target).isSome := by rw [hm]; rfl
      exact Or.inr (Or.inl ⟨target, rfl, hsome, hp, planSlot_of_mem hsome hp⟩)
    · exact Or.inr (Or.inr ⟨target, m, rfl, hm, hp, planSlot_of_not_mem hm hp⟩)

omit [IdGenerator γ] in
/-- A plan knows of a compiler only where the slots lead. -/
lemma plan_congr {c c' : Compiler} {i : GraphIndex} (h : ∀ n, c'.targets i n = c.targets i n)
    (path : List NodeId) (n : Node) : c'.plan i path n = c.plan i path n := by
  induction path, n using plan.induct (i := i) with
  | case1 path n ih =>
    rw [plan_eq, plan_eq, h]
    refine congrArg (Tree.step n) (List.map_congr_left fun t _ => ?_)
    rcases planSlot_cases c i (n.id :: path) t with
      ⟨habsent, hslot⟩ | ⟨target, rfl, hsome, hp, hslot⟩ | ⟨target, m, rfl, hm, hp, hslot⟩
    · rw [hslot, planSlot_of_absent habsent]
    · rw [hslot, planSlot_of_mem hsome hp]
    · rw [hslot, planSlot_of_not_mem hm hp, ih target m hm hp]

/-! ### Building a plan -/

/-- Builds the tree of a plan. -/
def build (c : Compiler) (i : GraphIndex) (p : Tree Node) : Build γ Branch :=
  p.fold ⟨pure .empty, c.leadBack, fun n slots => do
    let step ← c.openStep i n
    let slots ← slots.mapM id
    return .step step slots⟩

lemma build_empty (c : Compiler) (i : GraphIndex) :
    (c.build i .empty : Build γ Branch) = pure .empty := by simp [build]

lemma build_backReference (c : Compiler) (i : GraphIndex) (target : NodeId) :
    (c.build i (.backReference target) : Build γ Branch) = c.leadBack target := by simp [build]

lemma build_step (c : Compiler) (i : GraphIndex) (n : Node) (slots : List (Tree Node)) :
    (c.build i (.step n slots) : Build γ Branch) = do
      let step ← c.openStep i n
      let slots ← slots.mapM (c.build i)
      return .step step slots := by
  simp only [build, Tree.fold_step, List.mapM_map]
  rfl

/-- The recursion builds its plan. -/
lemma expand_eq_build (c : Compiler) (i : GraphIndex) (path : List NodeId) (n : Node) :
    (c.expand i path n : Build γ Branch) = c.build i (c.plan i path n) := by
  induction path, n using plan.induct (i := i) with
  | case1 path n ih =>
    have hslot : (c.fillSlot i (n.id :: path) : Option NodeId → Build γ Branch) =
        fun t => c.build i (c.planSlot i (n.id :: path) t) := by
      funext t
      rcases planSlot_cases c i (n.id :: path) t with
        ⟨habsent, hslot⟩ | ⟨target, rfl, hsome, hp, hslot⟩ | ⟨target, m, rfl, hm, hp, hslot⟩
      · rw [fillSlot_of_absent habsent, hslot, build_empty]
      · rw [fillSlot_of_mem hsome hp, hslot, build_backReference]
      · rw [fillSlot_of_not_mem hm hp, hslot, ih target m hm hp]
    rw [expand_eq, plan_eq, build_step, List.mapM_map]
    simp only [complete, hslot, List.reverse_nil, List.nil_append]
    rfl

/-! ### The list behind a tree -/

/-- The effect of a step or a marker of a plan. -/
def visit (c : Compiler) (i : GraphIndex) : Node ⊕ NodeId → Build γ Unit
  | .inl n => (c.openStep i n).effect
  | .inr target => (c.leadBack target).effect

/-- Building a plan has the effects of its steps and markers in pre-order. -/
lemma effect_build (c : Compiler) (i : GraphIndex) (p : Tree Node) :
    (c.build i p : Build γ Branch).effect = forM p.preorder (c.visit i) := by
  induction p with
  | empty =>
    rw [build_empty, Tree.preorder_empty]
    rfl
  | backReference target =>
    rw [build_backReference, Tree.preorder_backReference, List.forM_cons]
    simp [visit, Build.effect]
  | step n slots ih =>
    -- the effects of the slots follow each other as their lists do in the list of the step
    have hslots : (slots.mapM (c.build i) : Build γ (List Branch)).effect =
        forM (slots.flatMap Tree.preorder) (c.visit i) := by
      rw [Build.effect_mapM]
      induction slots with
      | nil => rfl
      | cons b rest ihs =>
        rw [List.forM_cons, List.flatMap_cons, List.forM_append, ih b (by simp),
          ihs fun d hd => ih d (by simp [hd])]
    rw [build_step, Tree.preorder_step, List.forM_cons, ← hslots]
    simp [visit, Build.effect]

/-- Where building a plan succeeds, so does going through its list, to the same ledger. -/
lemma forM_visit_of_build {c : Compiler} {i : GraphIndex} {p : Tree Node} {b : Branch}
    {l l' : Ledger γ} (h : c.build i p l = .ok b l') :
    (forM p.preorder (c.visit i) : Build γ Unit) l = .ok () l' := by
  rw [← effect_build]
  exact Build.effect_eq_ok_iff.2 ⟨b, h⟩

/-- Building a plan fails if and as going through its list does. -/
lemma build_eq_error_iff {c : Compiler} {i : GraphIndex} {p : Tree Node} {e : CompileError}
    {l l' : Ledger γ} :
    c.build i p l = .error e l' ↔
      (forM p.preorder (c.visit i) : Build γ Unit) l = .error e l' := by
  rw [← effect_build, Build.effect_eq_error_iff]

/-- A visit fails at a step because there are too many, at a marker because it is forbidden. -/
lemma visit_eq_error {c : Compiler} {i : GraphIndex} {x : Node ⊕ NodeId} {e : CompileError}
    {l l' : Ledger γ} (h : c.visit i x l = .error e l') :
    e = .stepLimitExceeded c.stepLimit ∨
      ∃ target, x = .inr target ∧ e = .cycleDetected target ∧ c.policy = .reject := by
  cases x with
  | inl n =>
    left
    rw [visit, Build.effect_eq_error_iff] at h
    by_cases hlimit : c.stepLimit ≤ l.diagnostics.steps
    · rw [openStep_of_le hlimit, EStateM.Result.error.injEq] at h
      exact h.1.symm
    · simp [openStep_of_not_le hlimit] at h
  | inr target =>
    right
    rw [visit, Build.effect_eq_error_iff] at h
    cases hpolicy : c.policy with
    | reject =>
      rw [leadBack_reject hpolicy, EStateM.Result.error.injEq] at h
      exact ⟨target, rfl, h.1.symm, rfl⟩
    | backReference => simp [leadBack_backReference hpolicy] at h

/-- Building a plan fails at the limit, or at a marker if these are forbidden. -/
lemma eq_of_build_eq_error {c : Compiler} {i : GraphIndex} {p : Tree Node} {e : CompileError}
    {l l' : Ledger γ} (h : c.build i p l = .error e l') :
    e = .stepLimitExceeded c.stepLimit ∨
      ∃ target ∈ p.markers, e = .cycleDetected target ∧ c.policy = .reject := by
  obtain ⟨x, hx, m, hm⟩ := Build.error_of_forM_eq_error (build_eq_error_iff.1 h)
  rcases visit_eq_error hm with he | ⟨target, rfl, he, hpolicy⟩
  · exact Or.inl he
  · exact Or.inr ⟨target, Tree.mem_markers_iff.2 hx, he, hpolicy⟩

/-- Where markers are forbidden, only plans without markers can be built. -/
lemma markers_eq_nil_of_build {c : Compiler} {i : GraphIndex} {p : Tree Node} {b : Branch}
    {l l' : Ledger γ} (hpolicy : c.policy = .reject) (h : c.build i p l = .ok b l') :
    p.markers = [] := by
  refine List.eq_nil_iff_forall_not_mem.2 fun target ht => ?_
  obtain ⟨m, m', hm⟩ :=
    Build.ok_of_forM_eq_ok (forM_visit_of_build h) _ (Tree.mem_markers_iff.1 ht)
  obtain ⟨b, hb⟩ := Build.effect_eq_ok_iff.1 hm
  simp [leadBack_reject hpolicy] at hb

/-- What was noticed after a step or a marker. -/
def noticed (c : Compiler) (i : GraphIndex) (d : Diagnostics) : Node ⊕ NodeId → Diagnostics
  | .inl n => c.noteStep i n d
  | .inr _ => noteMarker d

lemma diagnostics_of_visit {c : Compiler} {i : GraphIndex} {x : Node ⊕ NodeId} {u : Unit}
    {l l' : Ledger γ} (h : c.visit i x l = .ok u l') :
    l'.diagnostics = c.noticed i l.diagnostics x := by
  cases x with
  | inl n =>
    obtain ⟨step, h⟩ := Build.effect_eq_ok_iff.1 h
    by_cases hlimit : c.stepLimit ≤ l.diagnostics.steps
    · simp [openStep_of_le hlimit] at h
    · rw [openStep_of_not_le hlimit, EStateM.Result.ok.injEq] at h
      rw [← h.2]
      rfl
  | inr target =>
    obtain ⟨b, h⟩ := Build.effect_eq_ok_iff.1 h
    cases hpolicy : c.policy with
    | reject => simp [leadBack_reject hpolicy] at h
    | backReference =>
      rw [leadBack_backReference hpolicy, EStateM.Result.ok.injEq] at h
      rw [← h.2]
      rfl

/-- What was noticed while a plan was built. -/
lemma diagnostics_of_forM_visit {c : Compiler} {i : GraphIndex} {xs : List (Node ⊕ NodeId)}
    {u : Unit} {l l' : Ledger γ} (h : (forM xs (c.visit i) : Build γ Unit) l = .ok u l') :
    l'.diagnostics = xs.foldl (c.noticed i) l.diagnostics := by
  induction xs generalizing l with
  | nil =>
    obtain ⟨-, rfl⟩ := Build.pure_eq_ok_iff.1 h
    rfl
  | cons x rest ih =>
    rw [List.forM_cons] at h
    obtain ⟨_, m, hx, h⟩ := Build.bind_eq_ok_iff.1 h
    rw [ih h, diagnostics_of_visit hx, List.foldl_cons]

/-! ### The tree of a plan -/

/-- The tree of a successful build is the plan with a step for each node. -/
lemma map_anonymous_of_build {c : Compiler} {i : GraphIndex} {p : Tree Node} {b : Branch}
    {l l' : Ledger γ} (h : c.build i p l = .ok b l') :
    b.map Step.anonymous = p.map fun n => c.makeStep i n "" := by
  induction p generalizing b l l' with
  | empty =>
    rw [build_empty] at h
    obtain ⟨rfl, -⟩ := Build.pure_eq_ok_iff.1 h
    simp
  | backReference target =>
    rw [build_backReference] at h
    cases hpolicy : c.policy with
    | reject => simp [leadBack_reject hpolicy] at h
    | backReference =>
      rw [leadBack_backReference hpolicy, EStateM.Result.ok.injEq] at h
      rw [← h.1]
      simp
  | step n slots ih =>
    rw [build_step] at h
    obtain ⟨step, m, hstep, h⟩ := Build.bind_eq_ok_iff.1 h
    obtain ⟨bs, m', hbs, h⟩ := Build.bind_eq_ok_iff.1 h
    obtain ⟨rfl, -⟩ := Build.pure_eq_ok_iff.1 h
    have hanon : step.anonymous = c.makeStep i n "" := by
      by_cases hlimit : c.stepLimit ≤ l.diagnostics.steps
      · simp [openStep_of_le hlimit] at hstep
      · rw [openStep_of_not_le hlimit, EStateM.Result.ok.injEq] at hstep
        rw [← hstep.1]
        rfl
    rw [Tree.map_step, Tree.map_step, hanon,
      Build.map_eq_of_mapM (fun p hp m m' b hb => ih p hp hb) hbs]

/-! ### Compilations -/

/-- What a compilation is when its root is there. -/
lemma run_eq_build {c : Compiler} {i : GraphIndex} {root : NodeId} {n : Node}
    (hn : i.node? root = some n) (generator : γ) :
    c.run i root generator = .ofBuilt (c.build i (c.plan i [] n) ⟨generator, {}⟩) := by
  rw [run_eq_expandFrom, expandFrom, hn, ← expand_eq_build]

lemma run_of_absent {c : Compiler} {i : GraphIndex} {root : NodeId} (hn : i.node? root = none)
    (generator : γ) : c.run i root generator = ⟨.ok ⟨.empty, {}⟩, generator⟩ := by
  rw [run, hn]

omit [IdGenerator γ] in
lemma result_ofBuilt_eq_ok_iff {r : EStateM.Result CompileError (Ledger γ) Branch}
    {comp : Compilation} :
    (Outcome.ofBuilt r).result = .ok comp ↔
      ∃ l, r = .ok comp.root l ∧ l.diagnostics = comp.diagnostics := by
  obtain ⟨root, diagnostics⟩ := comp
  cases r with
  | ok b l => simp [Outcome.ofBuilt]
  | error e l => simp [Outcome.ofBuilt]

omit [IdGenerator γ] in
lemma result_ofBuilt_eq_error_iff {r : EStateM.Result CompileError (Ledger γ) Branch}
    {e : CompileError} : (Outcome.ofBuilt r).result = .error e ↔ ∃ l, r = .error e l := by
  cases r with
  | ok b l => simp [Outcome.ofBuilt]
  | error e l => simp [Outcome.ofBuilt]

/-- A compilation that succeeds with its root there gives the plan with a step for each node. -/
lemma map_anonymous_of_run {c : Compiler} {i : GraphIndex} {root : NodeId} {n : Node}
    {generator : γ} {comp : Compilation} (hn : i.node? root = some n)
    (h : (c.run i root generator).result = .ok comp) :
    comp.root.map Step.anonymous = (c.plan i [] n).map fun m => c.makeStep i m "" := by
  rw [run_eq_build hn, result_ofBuilt_eq_ok_iff] at h
  obtain ⟨l, h, -⟩ := h
  exact map_anonymous_of_build h

/-- It has the shape of the plan. -/
lemma map_origin_of_run {c : Compiler} {i : GraphIndex} {root : NodeId} {n : Node}
    {generator : γ} {comp : Compilation} (hn : i.node? root = some n)
    (h : (c.run i root generator).result = .ok comp) :
    comp.root.map (·.origin) = (c.plan i [] n).map (·.id) := by
  have hmap := congrArg (Tree.map Step.origin) (map_anonymous_of_run hn h)
  rw [Tree.map_map, Tree.map_map] at hmap
  exact hmap

/-- It has the markers of the plan. -/
lemma markers_of_run {c : Compiler} {i : GraphIndex} {root : NodeId} {n : Node}
    {generator : γ} {comp : Compilation} (hn : i.node? root = some n)
    (h : (c.run i root generator).result = .ok comp) :
    comp.root.markers = (c.plan i [] n).markers := by
  rw [← Tree.markers_map Step.origin, map_origin_of_run hn h, Tree.markers_map]

end Compiler

end Chatflow
