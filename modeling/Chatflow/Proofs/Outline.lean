/-
# What an outline shows

An outline is written with a list of the entries still to be shown: when a step is shown, the
entries of its slots take its place.  What comes out has one entry for every place in the tree,
the empty slots included, and the places come in the order of their addresses
(`Document.outline_eq_join`): the address of a step comes before those of its slots, and these come
from left to right, each with all that hangs in it.

How deep a place lies is the length of its address, and its label is the one of the slot with which
the address ends, in the step right above (`Outline.labelAt`).  So an entry depends on nothing but
its place, and not on what was shown before.
-/
import Chatflow.Outline
import Chatflow.Proofs.Tree

namespace Chatflow

namespace Tree

variable {σ : Type}

/-! ### Addresses in pre-order -/

/-- The addresses of all that stands in a tree, parents before children and slots from left to
right. -/
def addresses (t : Tree σ) : List (List Nat) :=
  t.fold ⟨[[]], fun _ => [[]], fun _ below =>
    [] :: below.zipIdx.flatMap fun (addresses, slot) => addresses.map (slot :: ·)⟩

@[simp] lemma addresses_empty : (empty : Tree σ).addresses = [[]] := by simp [addresses]

@[simp] lemma addresses_backReference (target : NodeId) :
    (backReference target : Tree σ).addresses = [[]] := by simp [addresses]

lemma addresses_step (s : σ) (slots : List (Tree σ)) :
    (step s slots).addresses
      = [] :: slots.zipIdx.flatMap fun (b, slot) => b.addresses.map (slot :: ·) := by
  simp only [addresses, fold_step, List.zipIdx_map, List.flatMap_map]
  rfl

/-- The addresses are those at which something stands. -/
lemma mem_addresses_iff {t : Tree σ} {address : List Nat} :
    address ∈ t.addresses ↔ ∃ b, t.at? address = some b := by
  induction t generalizing address with
  | empty => cases address <;> simp [at?_cons, slots]
  | backReference target => cases address <;> simp [at?_cons, slots]
  | step s slots ih =>
    cases address with
    | nil => simp [addresses_step]
    | cons slot address =>
      simp only [addresses_step, List.mem_cons, reduceCtorEq, false_or, List.mem_flatMap,
        List.mem_map, List.cons.injEq, at?_cons, Tree.slots, Option.bind_eq_some_iff]
      constructor
      · rintro ⟨⟨b, _⟩, hb, _, haddress, rfl, rfl⟩
        have hslot := List.mem_zipIdx_iff_getElem?.1 hb
        obtain ⟨c, hc⟩ := (ih b (List.mem_of_getElem? hslot)).1 haddress
        exact ⟨c, b, hslot, hc⟩
      · rintro ⟨c, b, hslot, hc⟩
        have haddress := (ih b (List.mem_of_getElem? hslot)).2 ⟨c, hc⟩
        exact ⟨(b, slot), List.mem_zipIdx_iff_getElem?.2 hslot, address, haddress, rfl, rfl⟩

/-- Slots are numbered from left to right. -/
lemma pairwise_zipIdx (slots : List (Tree σ)) :
    slots.zipIdx.Pairwise fun p q => p.2 < q.2 := by
  have hnumbers : (slots.zipIdx.map Prod.snd).Pairwise (· < ·) := by
    rw [List.zipIdx_map_snd]
    exact List.pairwise_lt_range' 1
  exact List.pairwise_map.1 hnumbers

/-- The addresses come in lexicographic order, so that none comes twice. -/
lemma pairwise_addresses (t : Tree σ) : t.addresses.Pairwise (· < ·) := by
  induction t with
  | empty => simp
  | backReference target => simp
  | step s slots ih =>
    rw [addresses_step, List.pairwise_cons, List.pairwise_flatMap]
    refine ⟨?_, ?_, ?_⟩
    · intro address haddress
      obtain ⟨p, -, haddress⟩ := List.mem_flatMap.1 haddress
      obtain ⟨below, -, rfl⟩ := List.mem_map.1 haddress
      exact List.nil_lt_cons _ _
    · -- within one slot the order is that of the branch in it
      rintro ⟨b, slot⟩ hb
      have hslot := List.mem_zipIdx_iff_getElem?.1 hb
      rw [List.pairwise_map]
      refine (ih b (List.mem_of_getElem? hslot)).imp fun h => ?_
      exact List.cons_lt_cons_iff.2 (Or.inr ⟨rfl, h⟩)
    · -- between slots it is that of their numbers
      refine (pairwise_zipIdx slots).imp fun hlt => ?_
      intro address haddress address' haddress'
      obtain ⟨below, -, rfl⟩ := List.mem_map.1 haddress
      obtain ⟨below', -, rfl⟩ := List.mem_map.1 haddress'
      exact List.cons_lt_cons_iff.2 (Or.inl hlt)

end Tree

namespace Outline

/-! ### Places and their entries -/

/-- The label of a place: that of the slot it is, in the step right above it.  The slots of a step
that writes its own `next_node` are all called `next`, others are called like their buttons. -/
def labelAt (t : Branch) (address : List Nat) : Option String :=
  match address.getLast?, t.at? address.dropLast with
  | some slot, some (.step s _) =>
    if Field.nextNode ∈ s.fields then some "next" else s.buttons[slot]?.map (·.title)
  | _, _ => none

/-- What is shown of the branch at a place: of a step its id, its type and its origin, of a marker
where it leads. -/
def captionAt (t : Branch) (address : List Nat) : String :=
  match t.at? address with
  | some (.step s _) => s.id ++ " " ++ s.type.name ++ " (node " ++ s.origin ++ ")"
  | some (.backReference target) => "$ref " ++ target
  | _ => "-"

/-- The entry of a place without the end of its line: two spaces for each level, the label in
brackets where there is one, and what stands there. -/
def entryAt (t : Branch) (address : List Nat) : String :=
  String.ofList (List.replicate (2 * address.length) ' ') ++
    ((labelAt t address).elim "" fun label => "[" ++ label ++ "] ") ++ captionAt t address

variable {s : Step} {slots : List Branch}

lemma bracketed_eq (label : Option String) :
    bracketed label = label.elim "" fun label => "[" ++ label ++ "] " := by
  cases label <;> rfl

lemma slotLabel_eq (s : Step) (slot : Nat) : slotLabel s slot
    = if Field.nextNode ∈ s.fields then some "next" else s.buttons[slot]?.map (·.title) := by
  by_cases h : Field.nextNode ∈ s.fields <;> simp [slotLabel, Step.nests, h]

@[simp] lemma labelAt_nil (t : Branch) : labelAt t [] = none := rfl

lemma labelAt_concat {t : Branch} {address : List Nat} (h : t.at? address = some (.step s slots))
    (slot : Nat) : labelAt t (address ++ [slot]) = slotLabel s slot := by
  rw [labelAt, List.getLast?_concat, List.dropLast_concat, h, slotLabel_eq]

/-- Only a slot has a label. -/
lemma exists_of_labelAt {t : Branch} {address : List Nat} {label : String}
    (h : labelAt t address = some label) :
    ∃ above slot s slots, address = above ++ [slot] ∧ t.at? above = some (.step s slots) ∧
      slotLabel s slot = some label := by
  rcases List.eq_nil_or_concat' address with rfl | ⟨above, slot, rfl⟩
  · simp at h
  · rw [labelAt, List.getLast?_concat, List.dropLast_concat] at h
    split at h
    · next slot' s slots hslot hstep =>
      obtain rfl := Option.some.inj hslot
      exact ⟨above, slot, s, slots, rfl, hstep, by rw [slotLabel_eq, h]⟩
    · simp at h

/-- Below a slot the labels are those of the branch in it, but for the label of the slot itself. -/
lemma labelAt_cons {b : Branch} {slot : Nat} (h : slots[slot]? = some b) (address : List Nat) :
    labelAt (.step s slots) (slot :: address)
      = if address = [] then slotLabel s slot else labelAt b address := by
  cases address using List.reverseRecOn with
  | nil =>
    have hroot : (Tree.step s slots).at? [] = some (.step s slots) := rfl
    simpa using labelAt_concat hroot slot
  | append_singleton address last =>
    have hat : (Tree.step s slots).at? (slot :: address) = b.at? address := by
      rw [Tree.at?_cons, Tree.slots, h, Option.bind_some]
    rw [if_neg (by simp), labelAt, labelAt, ← List.cons_append, List.getLast?_concat,
      List.getLast?_concat, List.dropLast_concat, List.dropLast_concat, hat]

lemma captionAt_eq {t b : Branch} {address : List Nat} (h : t.at? address = some b) :
    captionAt t address = caption b := by
  rw [captionAt, h]
  cases b with
  | empty => rfl
  | backReference target => exact congrArg (· ++ target) (by decide : "$ref " = "$ref" ++ " ")
  | step s slots => rfl

/-! ### The list of entries -/

/-- What an entry and all below it come to: the lines of the branch, moved to the right by the depth
at which it stands and with the label of the entry at its root. -/
def Entry.linesBelow (e : Entry) : List String :=
  e.branch.addresses.map fun address =>
    indent (e.depth + address.length) ++
      bracketed (if address = [] then e.label else labelAt e.branch address) ++
      captionAt e.branch address ++ "\n"

/-- An entry comes to its own line and to what the entries right below it come to. -/
lemma linesBelow_eq (e : Entry) :
    e.linesBelow = e.line :: e.children.flatMap Entry.linesBelow := by
  obtain ⟨depth, label, b⟩ := e
  have hline : ∀ b : Branch, indent (depth + ([] : List Nat).length) ++ bracketed label ++
      captionAt b [] ++ "\n" = Entry.line ⟨depth, label, b⟩ := by
    intro b
    rw [captionAt_eq (Tree.at?_nil b)]
    rfl
  cases b with
  | empty => simp [Entry.linesBelow, Entry.children, ← hline]
  | backReference target => simp [Entry.linesBelow, Entry.children, ← hline]
  | step s slots =>
    simp only [Entry.linesBelow, Entry.children, entriesOf, Tree.addresses_step, List.map_cons,
      if_true, hline, List.map_flatMap, List.flatMap_map, List.map_map]
    refine congrArg _ (List.flatMap_congr fun p hp => List.map_congr_left fun address _ => ?_)
    obtain ⟨b, slot⟩ := p
    have hslot : slots[slot]? = some b := List.mem_zipIdx_iff_getElem?.1 hp
    -- the place is one deeper in the step than it is in the branch in the slot
    have hdepth : depth + (slot :: address).length = depth + 1 + address.length := by
      rw [List.length_cons]
      omega
    have hcaption : captionAt (.step s slots) (slot :: address) = captionAt b address := by
      rw [captionAt, captionAt, Tree.at?_cons, Tree.slots, hslot, Option.bind_some]
    simp only [Function.comp_apply, hdepth, labelAt_cons hslot, hcaption, List.cons_ne_nil,
      if_false]

/-- The list is written to what its entries come to, one after the other. -/
lemma writeAll_eq (written : String) (entries : List Entry) :
    writeAll written entries = written ++ String.join (entries.flatMap Entry.linesBelow) := by
  fun_induction writeAll written entries with
  | case1 written => simp
  | case2 written e rest ih =>
    rw [ih, List.flatMap_append, List.flatMap_cons, linesBelow_eq e, List.cons_append,
      String.join_cons, String.append_assoc]

lemma linesBelow_root (t : Branch) :
    Entry.linesBelow ⟨0, none, t⟩ = (t.addresses.map (entryAt t)).map (· ++ "\n") := by
  rw [List.map_map]
  refine List.map_congr_left fun address _ => ?_
  have hlabel : (if address = [] then none else labelAt t address) = labelAt t address := by
    split
    · next h => rw [h, labelAt_nil]
    · rfl
  rw [Nat.zero_add, hlabel, bracketed_eq]
  rfl

end Outline

namespace Document

/-- The outline of a script is written from the entries of all places in its tree. -/
lemma outline_of_isEmpty_eq_false {d : Document} (h : d.root.isEmpty = false) :
    d.outline
      = String.join ((d.root.addresses.map (Outline.entryAt d.root)).map (· ++ "\n")) := by
  rw [outline, isEmpty, h, if_neg (by decide), Outline.writeAll_eq, List.flatMap_singleton,
    Outline.linesBelow_root, String.empty_append]

/-- The outline of a script without a root says so.  That of any other has one line for every place
in the tree, in the order of their addresses: indented by two spaces for each level, with the label
of the slot in brackets, and with what stands there.  Types are shown by their names. -/
theorem outline_eq_join (d : Document) :
    d.outline = (if d.root.isEmpty then "(empty)\n" else
      String.join ((d.root.addresses.map (Outline.entryAt d.root)).map (· ++ "\n"))) ∧
    (d.root.isEmpty ↔ d.root = .empty) ∧
    (∀ address, address ∈ d.root.addresses ↔ ∃ b, d.root.at? address = some b) ∧
    d.root.addresses.Pairwise (· < ·) ∧
    [.document, .template, .interactive, .flow, .webhook, .unknown].map NodeType.name
      = ["Document", "Template", "Interactive", "Flow", "Webhook", "Unknown"] := by
  refine ⟨?_, Tree.isEmpty_iff, fun address => Tree.mem_addresses_iff,
    Tree.pairwise_addresses d.root, rfl⟩
  cases h : d.root.isEmpty with
  | true => rw [outline, isEmpty, h, if_pos rfl, if_pos rfl]
  | false => rw [outline_of_isEmpty_eq_false h, if_neg (by decide)]

end Document

end Chatflow
