/-
# Where a compilation fails

Whether a plan can be built, and if not, at which of its steps and markers it fails, is decided by
the list of these in pre-order: at a step that finds as many opened before it as there may be, or at
a marker where cycles are rejected, whichever comes first (`Compiler.fault?`).  The graph has no
other part in it, and the generator of ids has none at all.

So two compilations whose plans have their steps and markers in the same places fail alike, or
neither does (`Compiler.sameEnd_of_map_eq`), and then it is left to compare what they give.
-/
import Chatflow.Proofs.Plan

namespace Chatflow

/-- Two compilations fail with the same error, or both succeed and what they give is related. -/
inductive SameEnd (R : Compilation → Compilation → Prop) :
    Except CompileError Compilation → Except CompileError Compilation → Prop where
  /-- Both fail, for the same reason. -/
  | error (e : CompileError) : SameEnd R (.error e) (.error e)
  /-- Both succeed. -/
  | ok {comp comp' : Compilation} (related : R comp comp') : SameEnd R (.ok comp) (.ok comp')

namespace SameEnd

variable {R : Compilation → Compilation → Prop} {r r' : Except CompileError Compilation}

lemma refl (hR : ∀ comp, R comp comp) (r : Except CompileError Compilation) : SameEnd R r r := by
  cases r with
  | error e => exact .error e
  | ok comp => exact .ok (hR comp)

/-- Ends are the same if what was given is. -/
lemma eq (h : SameEnd R r r')
    (hR : ∀ comp comp', r = .ok comp → r' = .ok comp' → R comp comp' → comp = comp') : r = r' := by
  cases h with
  | error e => rfl
  | ok related => exact congrArg Except.ok (hR _ _ rfl rfl related)

/-- What is read off compilations is the same if related compilations agree on it. -/
lemma map_eq {α : Type} {f : Compilation → α} (h : SameEnd R r r')
    (hf : ∀ comp comp', R comp comp' → f comp = f comp') : r.map f = r'.map f := by
  cases h with
  | error e => rfl
  | ok related => exact congrArg Except.ok (hf _ _ related)

end SameEnd

namespace Compiler

/-- Why steps and markers in a row cannot all be built by a compiler that has opened `steps` steps
before, if they cannot. -/
def fault? (c : Compiler) {σ : Type} (steps : Nat) : List (σ ⊕ NodeId) → Option CompileError
  | [] => none
  | .inl _ :: rest =>
    if c.stepLimit ≤ steps then some (.stepLimitExceeded c.stepLimit)
    else c.fault? (steps + 1) rest
  | .inr target :: rest =>
    match c.policy with
    | .reject => some (.cycleDetected target)
    | .backReference => c.fault? steps rest

variable {σ τ : Type} {c : Compiler}

/-- What the steps consist of does not matter. -/
lemma fault?_map (f : σ → τ) (steps : Nat) (xs : List (σ ⊕ NodeId)) :
    c.fault? steps (xs.map (Sum.map f id)) = c.fault? steps xs := by
  induction xs generalizing steps with
  | nil => rfl
  | cons x rest ih =>
    cases x with
    | inl s => simp only [List.map_cons, Sum.map_inl, fault?, ih]
    | inr target => simp only [List.map_cons, Sum.map_inr, id_eq, fault?, ih]

lemma fault?_preorder_map (f : σ → τ) (steps : Nat) (t : Tree σ) :
    c.fault? steps (t.map f).preorder = c.fault? steps t.preorder := by
  rw [Tree.preorder_map, fault?_map]

variable {γ : Type} [IdGenerator γ] {i : GraphIndex} {root : NodeId} {generator : γ} {n : Node}
  {e : CompileError}

/-- Going through a list fails at its fault. -/
lemma forM_visit_eq_error_iff {xs : List (Node ⊕ NodeId)} {l : Ledger γ} :
    (∃ l', (forM xs (c.visit i) : Build γ Unit) l = .error e l') ↔
      c.fault? l.diagnostics.steps xs = some e := by
  induction xs generalizing l with
  | nil =>
    rw [fault?]
    constructor
    · rintro ⟨l', h⟩
      exact absurd h nofun
    · simp
  | cons x rest ih =>
    rw [List.forM_cons]
    cases x with
    | inl n =>
      rw [fault?]
      split
      · next hlimit =>
        have hvisit := Build.effect_eq_error_iff.2 (openStep_of_le (i := i) (n := n) hlimit)
        rw [show c.visit i (.inl n) = (c.openStep i n).effect from rfl,
          Build.bind_of_error hvisit]
        simp
      · next hlimit =>
        have hvisit : (c.openStep i n).effect l = .ok () _ :=
          Build.effect_eq_ok_iff.2 ⟨_, openStep_of_not_le hlimit⟩
        rw [show c.visit i (.inl n) = (c.openStep i n).effect from rfl, Build.bind_of_ok hvisit, ih]
        rfl
    | inr target =>
      rw [fault?]
      cases hpolicy : c.policy with
      | reject =>
        have hvisit := Build.effect_eq_error_iff.2 (leadBack_reject hpolicy target l)
        rw [show c.visit i (.inr target) = (c.leadBack target).effect from rfl,
          Build.bind_of_error hvisit]
        simp
      | backReference =>
        have hvisit : (c.leadBack target).effect l = .ok () _ :=
          Build.effect_eq_ok_iff.2 ⟨_, leadBack_backReference hpolicy target l⟩
        rw [show c.visit i (.inr target) = (c.leadBack target).effect from rfl,
          Build.bind_of_ok hvisit, ih]
        rfl

/-- A compilation whose root is there fails at the fault of its plan. -/
lemma run_eq_error_iff (hn : i.node? root = some n) :
    (c.run i root generator).result = .error e ↔
      c.fault? 0 (c.plan i [] n).preorder = some e := by
  rw [run_eq_build hn, result_ofBuilt_eq_error_iff]
  simp only [build_eq_error_iff]
  exact forM_visit_eq_error_iff (l := ⟨generator, {}⟩)

/-- It succeeds if the plan has none. -/
lemma exists_run_eq_ok (generator : γ) (hn : i.node? root = some n)
    (h : c.fault? 0 (c.plan i [] n).preorder = none) :
    ∃ comp, (c.run i root generator).result = .ok comp := by
  cases hresult : (c.run i root generator).result with
  | ok comp => exact ⟨comp, rfl⟩
  | error e => simp [(run_eq_error_iff hn).1 hresult] at h

/-- Two compilations whose plans have their steps and markers in the same places come to the same
end, if what they give is related whenever they succeed. -/
lemma sameEnd_of_map_eq {δ : Type} [IdGenerator δ] {j : GraphIndex} {m : Node} {generator' : δ}
    {f g : Node → σ} {R : Compilation → Compilation → Prop} (hn : i.node? root = some n)
    (hm : j.node? root = some m) (hplan : (c.plan i [] n).map f = (c.plan j [] m).map g)
    (hR : ∀ comp comp', (c.run i root generator).result = .ok comp →
      (c.run j root generator').result = .ok comp' → R comp comp') :
    SameEnd R (c.run i root generator).result (c.run j root generator').result := by
  have hfault : c.fault? 0 (c.plan i [] n).preorder = c.fault? 0 (c.plan j [] m).preorder := by
    rw [← fault?_preorder_map f, hplan, fault?_preorder_map]
  cases hfault' : c.fault? 0 (c.plan j [] m).preorder with
  | some e =>
    rw [(run_eq_error_iff hn).2 (hfault.trans hfault'), (run_eq_error_iff hm).2 hfault']
    exact .error e
  | none =>
    obtain ⟨comp, hcomp⟩ := exists_run_eq_ok generator hn (hfault.trans hfault')
    obtain ⟨comp', hcomp'⟩ := exists_run_eq_ok generator' hm hfault'
    rw [hcomp, hcomp']
    exact .ok (hR comp comp' hcomp hcomp')

end Compiler

end Chatflow
