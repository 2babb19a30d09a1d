/-
# Reading trees

Two ways to look at a tree from outside: in pre-order, as the list of its steps and markers
(`Tree.preorder`), and by addresses, which are lists of slot numbers that lead down from the root
(`Tree.at?`).  There are as many addresses of steps as there are steps
(`encard_stepAddresses`).  Both views go along with a change of what the steps consist of
(`Tree.map`).
-/
import Mathlib.Data.Set.Card
import Chatflow.Tree

namespace Chatflow.Tree

variable {σ τ υ : Type}

/-! ### Changing the steps -/

/-- The tree with every step changed. -/
def map (f : σ → τ) (t : Tree σ) : Tree τ :=
  t.fold ⟨.empty, .backReference, fun s slots => .step (f s) slots⟩

@[simp] lemma map_empty (f : σ → τ) : map f .empty = .empty := by simp [map]

@[simp] lemma map_backReference (f : σ → τ) (target : NodeId) :
    map f (.backReference target) = .backReference target := by simp [map]

@[simp] lemma map_step (f : σ → τ) (s : σ) (slots : List (Tree σ)) :
    map f (.step s slots) = .step (f s) (slots.map (map f)) := by
  simp only [map, fold_step]
  rfl

/-- Evaluating a changed tree is evaluating the tree with the change in the algebra. -/
lemma fold_map {β : Type} (alg : Algebra τ β) (f : σ → τ) (t : Tree σ) :
    (t.map f).fold alg = t.fold ⟨alg.empty, alg.backReference, fun s => alg.step (f s)⟩ := by
  induction t with
  | empty => simp
  | backReference target => simp
  | step s slots ih =>
    rw [map_step, fold_step, fold_step, List.map_map]
    exact congrArg (alg.step (f s)) (List.map_congr_left ih)

lemma map_map (g : τ → υ) (f : σ → τ) (t : Tree σ) : (t.map f).map g = t.map fun s => g (f s) :=
  fold_map _ f t

/-! ### Pre-order -/

/-- The steps and markers of a tree, parents before children and slots from left to right. -/
def preorder (t : Tree σ) : List (σ ⊕ NodeId) :=
  t.fold ⟨[], fun target => [.inr target], fun s slots => .inl s :: slots.flatten⟩

@[simp] lemma preorder_empty : (empty : Tree σ).preorder = [] := by simp [preorder]

@[simp] lemma preorder_backReference (target : NodeId) :
    (backReference target : Tree σ).preorder = [.inr target] := by simp [preorder]

@[simp] lemma preorder_step (s : σ) (slots : List (Tree σ)) :
    (step s slots).preorder = .inl s :: slots.flatMap preorder := by
  simp only [preorder, fold_step, List.flatMap_def]
  rfl

/-- The steps of a tree in pre-order. -/
def steps (t : Tree σ) : List σ := t.preorder.filterMap Sum.getLeft?

/-- The targets of the markers of a tree in pre-order. -/
def markers (t : Tree σ) : List NodeId := t.preorder.filterMap Sum.getRight?

lemma mem_steps_iff {s : σ} {t : Tree σ} : s ∈ t.steps ↔ .inl s ∈ t.preorder := by
  simp [steps, List.mem_filterMap, Sum.getLeft?_eq_some_iff]

lemma mem_markers_iff {target : NodeId} {t : Tree σ} :
    target ∈ t.markers ↔ .inr target ∈ t.preorder := by
  simp [markers, List.mem_filterMap, Sum.getRight?_eq_some_iff]

@[simp] lemma steps_empty : (empty : Tree σ).steps = [] := by simp [steps]

@[simp] lemma steps_backReference (target : NodeId) :
    (backReference target : Tree σ).steps = [] := by simp [steps]

@[simp] lemma steps_step (s : σ) (slots : List (Tree σ)) :
    (step s slots).steps = s :: slots.flatMap steps := by
  rw [steps, preorder_step, List.filterMap_cons, List.filterMap_flatMap]
  rfl

@[simp] lemma markers_empty : (empty : Tree σ).markers = [] := by simp [markers]

@[simp] lemma markers_backReference (target : NodeId) :
    (backReference target : Tree σ).markers = [target] := by simp [markers]

@[simp] lemma markers_step (s : σ) (slots : List (Tree σ)) :
    (step s slots).markers = slots.flatMap markers := by
  rw [markers, preorder_step, List.filterMap_cons, List.filterMap_flatMap]
  rfl

lemma preorder_map (f : σ → τ) (t : Tree σ) :
    (t.map f).preorder = t.preorder.map (Sum.map f id) := by
  induction t with
  | empty => simp
  | backReference target => simp
  | step s slots ih =>
    rw [map_step, preorder_step, preorder_step, List.map_cons, List.map_flatMap, List.flatMap_map,
      List.flatMap_congr ih]
    rfl

lemma steps_map (f : σ → τ) (t : Tree σ) : (t.map f).steps = t.steps.map f := by
  induction t with
  | empty => simp
  | backReference target => simp
  | step s slots ih =>
    simp only [map_step, steps_step, List.map_cons, List.flatMap_map, List.map_flatMap]
    rw [List.flatMap_congr ih]

/-- What can be said of the steps of a tree after a change can be said of the steps of another tree
that is the same after a change of its own. -/
lemma exists_mem_steps_iff {f : σ → υ} {g : τ → υ} {t : Tree σ} {u : Tree τ}
    (h : t.map f = u.map g) {P : υ → Prop} :
    (∃ s ∈ t.steps, P (f s)) ↔ ∃ s ∈ u.steps, P (g s) := by
  have hsteps := congrArg steps h
  rw [steps_map, steps_map] at hsteps
  constructor
  · rintro ⟨s, hs, hP⟩
    obtain ⟨r, hr, heq⟩ := List.mem_map.1 (hsteps ▸ List.mem_map_of_mem hs)
    exact ⟨r, hr, heq ▸ hP⟩
  · rintro ⟨r, hr, hP⟩
    obtain ⟨s, hs, heq⟩ := List.mem_map.1 (hsteps ▸ List.mem_map_of_mem hr)
    exact ⟨s, hs, heq ▸ hP⟩

lemma markers_map (f : σ → τ) (t : Tree σ) : (t.map f).markers = t.markers := by
  induction t with
  | empty => simp
  | backReference target => simp
  | step s slots ih =>
    simp only [map_step, markers_step, List.flatMap_map]
    rw [List.flatMap_congr ih]

/-! ### Counting and measuring -/

/-- A tree has as many steps as its list of steps is long. -/
lemma length_steps (t : Tree σ) : t.steps.length = t.stepCount := by
  induction t with
  | empty => simp
  | backReference target => simp
  | step s slots ih =>
    rw [steps_step, stepCount_step, List.length_cons, List.length_flatMap, List.map_congr_left ih,
      Nat.add_comm]
    rfl

lemma stepCount_map (f : σ → τ) (t : Tree σ) : (t.map f).stepCount = t.stepCount := by
  rw [← length_steps, steps_map, List.length_map, length_steps]

lemma steps_slots_injective {f : σ → τ} {slots slots' : List (Tree σ)}
    (h : ∀ b ∈ slots, ∀ b', b.map f = b'.map f → b.steps = b'.steps → b = b')
    (hmap : slots.map (map f) = slots'.map (map f))
    (hsteps : slots.flatMap steps = slots'.flatMap steps) : slots = slots' := by
  induction slots generalizing slots' with
  | nil => simpa using hmap.symm
  | cons b rest ih =>
    cases slots' with
    | nil => simp at hmap
    | cons b' rest' =>
      obtain ⟨hb, hrest⟩ := List.cons.inj hmap
      have hlength : b.steps.length = b'.steps.length := by
        rw [length_steps, ← stepCount_map f, hb, stepCount_map, length_steps]
      obtain ⟨hbs, hrests⟩ := List.append_inj hsteps hlength
      rw [h b (by simp) b' hb hbs, ih (fun c hc => h c (by simp [hc])) hrest hrests]

/-- A tree is determined by its shape and its steps in pre-order. -/
lemma eq_of_map_eq_of_steps_eq {f : σ → τ} {t t' : Tree σ} (hmap : t.map f = t'.map f)
    (hsteps : t.steps = t'.steps) : t = t' := by
  induction t generalizing t' with
  | empty => cases t' <;> simp_all
  | backReference target => cases t' <;> simp_all
  | step s slots ih =>
    cases t' with
    | empty => simp at hmap
    | backReference target => simp at hmap
    | step s' slots' =>
      rw [map_step, map_step, step.injEq] at hmap
      rw [steps_step, steps_step] at hsteps
      obtain ⟨rfl, hrest⟩ := List.cons.inj hsteps
      rw [steps_slots_injective (fun b hb b' => ih b hb) hmap.2 hrest]

/-- The number of steps on the longest way down. -/
def depth (t : Tree σ) : Nat :=
  t.fold ⟨0, fun _ => 0, fun _ depths => 1 + depths.foldr max 0⟩

@[simp] lemma depth_empty : (empty : Tree σ).depth = 0 := by simp [depth]

@[simp] lemma depth_backReference (target : NodeId) :
    (backReference target : Tree σ).depth = 0 := by simp [depth]

@[simp] lemma depth_step (s : σ) (slots : List (Tree σ)) :
    (step s slots).depth = 1 + (slots.map depth).foldr max 0 := by
  simp only [depth, fold_step]
  rfl

lemma depth_map (f : σ → τ) (t : Tree σ) : (t.map f).depth = t.depth := fold_map _ f t

/-! ### Addresses -/

/-- The branches in the slots of a tree's root. -/
def slots : Tree σ → List (Tree σ)
  | .step _ slots => slots
  | .empty | .backReference _ => []

/-- What stands at an address: the numbers of the slots that lead to it from the root. -/
def at? (t : Tree σ) : List Nat → Option (Tree σ)
  | [] => some t
  | slot :: address => t.slots[slot]?.bind fun b => b.at? address

@[simp] lemma at?_nil (t : Tree σ) : t.at? [] = some t := rfl

lemma at?_cons (t : Tree σ) (slot : Nat) (address : List Nat) :
    t.at? (slot :: address) = t.slots[slot]?.bind fun b => b.at? address := rfl

/-- What stands below an address. -/
lemma at?_append (t : Tree σ) (address below : List Nat) :
    t.at? (address ++ below) = (t.at? address).bind fun b => b.at? below := by
  induction address generalizing t with
  | nil => rfl
  | cons slot address ih =>
    rw [List.cons_append, at?_cons, at?_cons]
    cases t.slots[slot]? with
    | none => rfl
    | some b => exact ih b

lemma slots_map (f : σ → τ) (t : Tree σ) : (t.map f).slots = t.slots.map (map f) := by
  cases t <;> simp [slots]

lemma at?_map (f : σ → τ) (t : Tree σ) (address : List Nat) :
    (t.map f).at? address = (t.at? address).map (map f) := by
  induction address generalizing t with
  | nil => rfl
  | cons slot address ih =>
    rw [at?_cons, at?_cons, slots_map, List.getElem?_map]
    cases t.slots[slot]? with
    | none => rfl
    | some b => exact ih b

lemma map_eq_step_iff {f : σ → τ} {t : Tree σ} {x : τ} {slots : List (Tree τ)} :
    t.map f = .step x slots ↔ ∃ s bs, t = .step s bs ∧ f s = x ∧ bs.map (map f) = slots := by
  cases t <;> simp

/-- Steps stand at the same addresses after a change. -/
lemma exists_at?_map_eq_step_iff {f : σ → τ} {t : Tree σ} {address : List Nat} {x : τ} :
    (∃ slots, (t.map f).at? address = some (.step x slots)) ↔
      ∃ s slots, t.at? address = some (.step s slots) ∧ f s = x := by
  simp only [at?_map, Option.map_eq_some_iff, map_eq_step_iff]
  constructor
  · rintro ⟨_, _, ht, s, bs, rfl, hs, -⟩
    exact ⟨s, bs, ht, hs⟩
  · rintro ⟨s, bs, ht, hs⟩
    exact ⟨_, _, ht, s, bs, rfl, hs, rfl⟩

/-- Markers stand at the same addresses after a change. -/
lemma at?_map_eq_backReference_iff {f : σ → τ} {t : Tree σ} {address : List Nat}
    {target : NodeId} :
    (t.map f).at? address = some (.backReference target) ↔
      t.at? address = some (.backReference target) := by
  have hmap : ∀ u : Tree σ, u.map f = .backReference target ↔ u = .backReference target := by
    intro u
    cases u <;> simp
  simp [at?_map, hmap]

/-- Empty slots stand at the same addresses after a change. -/
lemma at?_map_eq_empty_iff {f : σ → τ} {t : Tree σ} {address : List Nat} :
    (t.map f).at? address = some .empty ↔ t.at? address = some .empty := by
  have hmap : ∀ u : Tree σ, u.map f = .empty ↔ u = .empty := by
    intro u
    cases u <;> simp
  simp [at?_map, hmap]

/-- Only a step has something below it. -/
lemma at?_concat_eq_some_iff {t b : Tree σ} {address : List Nat} {slot : Nat} :
    t.at? (address ++ [slot]) = some b ↔
      ∃ s slots, t.at? address = some (.step s slots) ∧ slots[slot]? = some b := by
  rw [at?_append, Option.bind_eq_some_iff]
  constructor
  · rintro ⟨u, hu, hb⟩
    cases u with
    | empty => simp [at?_cons, slots] at hb
    | backReference target => simp [at?_cons, slots] at hb
    | step s slots => exact ⟨s, slots, hu, by simpa [at?_cons, Tree.slots] using hb⟩
  · rintro ⟨s, slots, hu, hb⟩
    exact ⟨.step s slots, hu, by simp [at?_cons, Tree.slots, hb]⟩

/-- Where there are no slots, nothing stands below. -/
lemma eq_of_at?_of_slots_eq_nil {t b : Tree σ} {address : List Nat} (hs : t.slots = [])
    (h : t.at? address = some b) : address = [] ∧ b = t := by
  cases address with
  | nil => exact ⟨rfl, (Option.some.inj h).symm⟩
  | cons slot address => simp [at?_cons, hs] at h

/-- The addresses at which a step stands. -/
def stepAddresses (t : Tree σ) : Set (List Nat) := {a | ∃ s slots, t.at? a = some (.step s slots)}

/-- The addresses of steps in a list of branches, each behind the number of its branch. -/
def slotAddresses (slots : List (Tree σ)) : Set (List Nat) :=
  {a | ∃ slot rest b, a = slot :: rest ∧ slots[slot]? = some b ∧ rest ∈ b.stepAddresses}

lemma nil_notMem_slotAddresses (slots : List (Tree σ)) : [] ∉ slotAddresses slots := by
  rintro ⟨slot, address, c, h, -⟩
  simp at h

/-- The address with its first slot moved one further. -/
def moveOn : List Nat → List Nat
  | [] => []
  | slot :: rest => (slot + 1) :: rest

lemma moveOn_injective : Function.Injective moveOn := by
  rintro (_ | ⟨a, as⟩) (_ | ⟨b, bs⟩) h <;> simp_all [moveOn]

lemma stepAddresses_of_slots_eq_nil {t : Tree σ} (hs : t.slots = [])
    (hn : ∀ s slots, t ≠ .step s slots) : t.stepAddresses = ∅ := by
  refine Set.eq_empty_iff_forall_notMem.2 ?_
  rintro address ⟨s, slots, h⟩
  exact hn s slots (eq_of_at?_of_slots_eq_nil hs h).2.symm

lemma stepAddresses_step (s : σ) (slots : List (Tree σ)) :
    (step s slots).stepAddresses = insert [] (slotAddresses slots) := by
  ext a
  cases a with
  | nil => simp [stepAddresses]
  | cons slot address =>
    simp only [stepAddresses, slotAddresses, Set.mem_ofPred_eq, Set.mem_insert_iff, at?_cons,
      Tree.slots, Option.bind_eq_some_iff, reduceCtorEq, false_or, List.cons.injEq]
    constructor
    · rintro ⟨r, rest, b, hb, h⟩
      exact ⟨slot, address, b, ⟨rfl, rfl⟩, hb, r, rest, h⟩
    · rintro ⟨_, _, b, ⟨rfl, rfl⟩, hb, r, rest, h⟩
      exact ⟨r, rest, b, hb, h⟩

lemma slotAddresses_nil : slotAddresses ([] : List (Tree σ)) = ∅ := by
  simp [slotAddresses]

lemma slotAddresses_cons (b : Tree σ) (rest : List (Tree σ)) :
    slotAddresses (b :: rest) = List.cons 0 '' b.stepAddresses ∪ moveOn '' slotAddresses rest := by
  ext a
  constructor
  · rintro ⟨slot, address, c, rfl, hc, h⟩
    -- an address in the first branch, or one in a later branch moved on
    cases slot with
    | zero =>
      rw [List.getElem?_cons_zero, Option.some.injEq] at hc
      subst hc
      exact Or.inl ⟨address, h, rfl⟩
    | succ slot => exact Or.inr ⟨slot :: address, ⟨slot, address, c, rfl, hc, h⟩, rfl⟩
  · rintro (⟨address, h, rfl⟩ | ⟨_, ⟨slot, address, c, rfl, hc, h⟩, rfl⟩)
    · exact ⟨0, address, b, rfl, rfl, h⟩
    · exact ⟨slot + 1, address, c, rfl, hc, h⟩

/-- The first branch and the others have no addresses in common. -/
lemma notMem_moveOn_of_mem_cons (A B : Set (List Nat)) (hB : [] ∉ B) :
    ∀ address ∈ List.cons 0 '' A, address ∉ moveOn '' B := by
  rintro _ ⟨a, -, rfl⟩ ⟨b, hb, h⟩
  cases b with
  | nil => exact hB hb
  | cons slot rest => exact Nat.succ_ne_zero slot (List.cons.inj h).1

/-- Where every branch has as many addresses of steps as it has steps, so have they all. -/
lemma encard_slotAddresses {slots : List (Tree σ)}
    (h : ∀ b ∈ slots, b.stepAddresses.encard = b.stepCount) :
    (slotAddresses slots).encard = total (slots.map stepCount) := by
  induction slots with
  | nil => simp [slotAddresses_nil, total]
  | cons b rest ih =>
    have hdisjoint := notMem_moveOn_of_mem_cons b.stepAddresses _ (nil_notMem_slotAddresses rest)
    rw [slotAddresses_cons, Set.encard_union_eq (Set.disjoint_left.2 hdisjoint),
      List.cons_injective.encard_image, moveOn_injective.encard_image, h b (by simp),
      ih fun c hc => h c (by simp [hc])]
    simp [total]

/-- A tree has as many addresses of steps as it has steps. -/
lemma encard_stepAddresses (t : Tree σ) : t.stepAddresses.encard = t.stepCount := by
  induction t with
  | empty => simp [stepAddresses_of_slots_eq_nil (t := (empty : Tree σ)) rfl (by simp)]
  | backReference target =>
    simp [stepAddresses_of_slots_eq_nil (t := (backReference target : Tree σ)) rfl (by simp)]
  | step s slots ih =>
    rw [stepAddresses_step, Set.encard_insert_of_notMem (nil_notMem_slotAddresses slots),
      encard_slotAddresses ih, stepCount_step, Nat.add_comm]
    rfl

end Chatflow.Tree
