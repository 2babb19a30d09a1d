/-
# What a step shows

Every step of a compiled script is its node as the schema of the node's type lays it out.  What it
shows comes from four places: from the schema (`Schema`), from the data of the node itself
(`Layout.Shows`), from the data of the nodes that its edges lead to (`LeadsToLabelled`), and from
the number of a slot, after which a button is called.

This is said of nodes and edges as they are listed (`Compiler.Renders`): the edge of a slot is the
one that has the number of the slot among all that leave the node, and of several nodes with one id
the last counts.  What hangs in a slot has no part in the title of its button, so a marker that
leads back is titled like a step that leads on (`Compiler.renders_of_runLists`).
-/
import Chatflow.Proofs.Faults
import Chatflow.Proofs.Rewording

namespace Chatflow

/-! ### What data say -/

/-- Where no key is repeated, the value of a key is the one that it is listed with. -/
lemma Json.Members.get?_eq_some_iff {members : Members} (h : (members.map (·.1)).Nodup)
    {key : String} {value : Json} : members.get? key = some value ↔ (key, value) ∈ members := by
  induction members with
  | nil => simp [get?]
  | cons m rest ih =>
    obtain ⟨k, v⟩ := m
    obtain ⟨hk, hrest⟩ := List.nodup_cons.1 h
    by_cases hkey : key = k
    · subst hkey
      have hnot : (key, value) ∉ rest := fun hmem => hk (List.mem_map.2 ⟨_, hmem, rfl⟩)
      simp [get?, hnot, eq_comm]
    · rw [get?, List.lookup_cons, beq_false_of_ne hkey]
      simpa [get?, hkey] using ih hrest

namespace NodeData

variable {data : NodeData} {key text : String}

/-- The data have a text under the key. -/
def Says (data : NodeData) (key text : String) : Prop := (key, .str text) ∈ data.members

/-- Data are labelled by their title, and if they have none by their label. -/
def Labelled (data : NodeData) (label : String) : Prop :=
  data.Says "title" label ∨ (∀ title, ¬ data.Says "title" title) ∧ data.Says "label" label

lemma string?_eq_some_iff : data.string? key = some text ↔ data.Says key text := by
  rw [string?, Option.bind_eq_some_iff, Says, ← Json.Members.get?_eq_some_iff data.distinct.1]
  constructor
  · rintro ⟨value, hvalue, htext⟩
    cases value <;> simp_all [Json.string?]
  · intro h
    exact ⟨_, h, rfl⟩

lemma string?_eq_none_iff : data.string? key = none ↔ ∀ text, ¬ data.Says key text := by
  simp only [Option.eq_none_iff_forall_ne_some, ne_eq, string?_eq_some_iff]

lemma label?_eq_some_iff : data.label? = some text ↔ data.Labelled text := by
  rw [label?, Option.or_eq_some_iff, string?_eq_some_iff, string?_eq_none_iff,
    string?_eq_some_iff, Labelled]

end NodeData

/-- The text and the address that a layout gives the step of a node with these data: a document has
the address that its node names or else the default one, a leaf has the label of its node for a
text. -/
def Layout.Shows (data : NodeData) (text documentUrl : Option String) : Layout → Prop
  | document default => text = none ∧ ∃ url, documentUrl = some url ∧
      (data.Says "document_url" url ∨
        (∀ named, ¬ data.Says "document_url" named) ∧ url = default)
  | leaf => documentUrl = none ∧ ∀ label, text = some label ↔ data.Labelled label
  | buttons _ | action _ => text = none ∧ documentUrl = none

/-- The edge that has this number among those that leave a node leads to a node with this label. -/
def LeadsToLabelled (nodes : List Node) (edges : List Edge) (source : NodeId) (slot : Nat)
    (label : String) : Prop :=
  ∃ e n, (edges.filter (·.source == source))[slot]? = some e ∧
    nodes.reverse.find? (·.id == e.target) = some n ∧ n.data.Labelled label

lemma GraphIndex.slotLabel?_eq_some_iff {nodes : List Node} {edges : List Edge} {source : NodeId}
    {slot : Nat} {label : String} :
    (ofLists nodes edges).slotLabel? source slot = some label ↔
      LeadsToLabelled nodes edges source slot label := by
  simp only [slotLabel?, edgesFrom_ofLists, node?_ofLists, Option.bind_eq_some_iff]
  constructor
  · rintro ⟨n, ⟨e, he, hn⟩, hlabel⟩
    exact ⟨e, n, he, hn, NodeData.label?_eq_some_iff.1 hlabel⟩
  · rintro ⟨e, n, he, hn, hlabel⟩
    exact ⟨n, ⟨e, he, hn⟩, NodeData.label?_eq_some_iff.2 hlabel⟩

namespace Compiler

/-! ### Rendering -/

/-- The step with these slots is the node as the schema of its type lays it out. -/
structure Renders (c : Compiler) (nodes : List Node) (edges : List Edge) (n : Node) (s : Step)
    (slots : List Branch) : Prop where
  type_eq : s.type = n.type
  terminal_eq : s.terminal = (c.registry.schema n.type).terminal
  fields_eq : s.fields = (c.registry.schema n.type).fields
  slots_eq : slots.length = (c.registry.schema n.type).slots
  buttons_eq : s.buttons.length = (c.registry.schema n.type).titles.length
  /-- Buttons are called after their slots; the number of a slot is a machine word. -/
  button_id : ∀ slot b, s.buttons[slot]? = some b →
    b.id = "id" ++ toString (min (slot + 1) Counter.maximum)
  /-- A button has the label of the node that the edge of its slot leads to. -/
  button_label : ∀ slot b label, s.buttons[slot]? = some b →
    LeadsToLabelled nodes edges n.id slot label → b.title = label
  /-- Without such a label a button has the title of the schema. -/
  button_title : ∀ slot b, s.buttons[slot]? = some b →
    (∀ label, ¬ LeadsToLabelled nodes edges n.id slot label) →
    (c.registry.schema n.type).titles[slot]? = some b.title
  shows : (c.registry.schema n.type).layout.Shows n.data s.text s.documentUrl

variable {γ : Type} [IdGenerator γ] {c : Compiler} {i : GraphIndex} {nodes : List Node}
  {edges : List Edge} {n : Node} {s : Step} {slots : List Branch}

omit [IdGenerator γ] in
/-- What a node shows under the layout of its type. -/
lemma shows_layout (c : Compiler) (n : Node) :
    (c.registry.schema n.type).layout.Shows n.data (c.text? n) (c.documentUrl? n) := by
  rw [text?, documentUrl?]
  cases (c.registry.schema n.type).layout with
  | document default =>
    refine ⟨rfl, _, rfl, ?_⟩
    cases hurl : n.data.documentUrl? with
    | some url => exact Or.inl (NodeData.string?_eq_some_iff.1 hurl)
    | none => exact Or.inr ⟨NodeData.string?_eq_none_iff.1 hurl, rfl⟩
  | buttons titles => exact ⟨rfl, rfl⟩
  | action title => exact ⟨rfl, rfl⟩
  | leaf => exact ⟨rfl, fun label => NodeData.label?_eq_some_iff⟩

omit [IdGenerator γ] in
/-- The step made of a node shows what it should, whatever its id. -/
lemma renders_of_anonymous_eq (h : s.anonymous = c.makeStep (.ofLists nodes edges) n "")
    (hslots : slots.length = c.slots n) : c.Renders nodes edges n s slots := by
  have hbuttons : s.buttons = c.buttons (.ofLists nodes edges) n := congrArg Step.buttons h
  have hbutton : ∀ slot b, s.buttons[slot]? = some b →
      ∃ title, (c.registry.schema n.type).titles[slot]? = some title ∧
        Button.mk (buttonId slot)
          (((GraphIndex.ofLists nodes edges).slotLabel? n.id slot).getD title) = b := by
    intro slot b hb
    rwa [hbuttons, getElem?_buttons, Option.map_eq_some_iff] at hb
  have htext : s.text = c.text? n := congrArg Step.text h
  have hurl : s.documentUrl = c.documentUrl? n := congrArg Step.documentUrl h
  exact {
    type_eq := congrArg Step.type h
    terminal_eq := congrArg Step.terminal h
    fields_eq := congrArg Step.fields h
    slots_eq := hslots
    buttons_eq := by rw [hbuttons, buttons, List.length_map, List.length_zipIdx]
    button_id := by
      intro slot b hb
      obtain ⟨title, -, rfl⟩ := hbutton slot b hb
      rfl
    button_label := by
      intro slot b label hb hlabel
      obtain ⟨title, -, rfl⟩ := hbutton slot b hb
      rw [GraphIndex.slotLabel?_eq_some_iff.2 hlabel, Option.getD_some]
    button_title := by
      intro slot b hb hlabel
      obtain ⟨title, htitle, rfl⟩ := hbutton slot b hb
      have hnone : (GraphIndex.ofLists nodes edges).slotLabel? n.id slot = none := by
        simpa only [Option.eq_none_iff_forall_ne_some, ne_eq,
          GraphIndex.slotLabel?_eq_some_iff] using hlabel
      rw [htitle, hnone, Option.getD_none]
    shows := by
      rw [htext, hurl]
      exact c.shows_layout n }

/-- A step of a compiled tree is made of its node and has a branch for each of its slots. -/
lemma anonymous_eq_of_at? {root : NodeId} {generator : γ} {comp : Compilation}
    {address : List Nat} (h : (c.run i root generator).result = .ok comp)
    (hs : comp.root.at? address = some (.step s slots)) :
    ∃ n, i.node? s.origin = some n ∧ s.anonymous = c.makeStep i n "" ∧
      slots.length = c.slots n := by
  cases hroot : i.node? root with
  | none =>
    rw [run_of_absent hroot] at h
    obtain rfl := Except.ok.inj h
    simpa using (Tree.eq_of_at?_of_slots_eq_nil rfl hs).2
  | some n₀ =>
    -- where the tree has the step, the plan has its node
    have hat := Tree.at?_map Step.anonymous comp.root address
    rw [map_anonymous_of_run hroot h, Tree.at?_map, hs] at hat
    obtain ⟨t, hplan, ht⟩ := Option.map_eq_some_iff.1 hat
    rw [Tree.map_step] at ht
    obtain ⟨n, bs, rfl, hn, hbs⟩ := Tree.map_eq_step_iff.1 ht
    obtain ⟨front, hwalk, rfl⟩ := at?_plan_eq_step_iff.1 hplan
    have hid : i.node? n₀.id = some n₀ := by rw [i.id_eq hroot, hroot]
    have horigin : n.id = s.origin := congrArg Step.origin hn
    have hlength := congrArg List.length hbs
    refine ⟨n, ?_, hn.symm, ?_⟩
    · rw [← horigin]
      exact node?_of_mem_walk? hid hwalk.follows (by simp)
    · simpa [targets] using hlength.symm

/-- Every step of a compiled tree shows the node that it was compiled from, which is the last of
its id in the list. -/
theorem renders_of_runLists {root : NodeId} {generator : γ} {comp : Compilation}
    (h : (c.runLists nodes edges root generator).result = .ok comp) {address : List Nat}
    (hs : comp.root.at? address = some (.step s slots)) :
    ∃ n, nodes.reverse.find? (·.id == s.origin) = some n ∧ c.Renders nodes edges n s slots := by
  obtain ⟨n, hn, hmade, hslots⟩ := anonymous_eq_of_at? h hs
  exact ⟨n, by rwa [GraphIndex.node?_ofLists] at hn, renders_of_anonymous_eq hmade hslots⟩

/-- A menu with a title, whose first button leads back to it. -/
def titledMenu : Node := { menu with data := .titled "Menu" }

lemma plan_titledMenu :
    plan {} (.ofLists [titledMenu] menuEdges) [] titledMenu
      = .step titledMenu [.backReference "a", .empty] := by
  rw [plan_eq, show targets {} (.ofLists [titledMenu] menuEdges) titledMenu = [some "a", none]
    from rfl, List.map_cons, planSlot_of_mem (by decide) (by decide)]
  rfl

/-- The first button is titled like the menu although nothing but a marker hangs in its slot. -/
theorem renders_titledMenu : ∃ comp s slots,
    (runLists {} [titledMenu] menuEdges "a" IdScheme.standard.source).result = .ok comp ∧
      comp.root = .step s (.backReference "a" :: slots) ∧ s.buttons.length = 2 ∧
      (∀ b, s.buttons[0]? = some b → b.id = "id1" ∧ b.title = "Menu") ∧
      ∀ b, s.buttons[1]? = some b → b.id = "id2" ∧ b.title = "No" := by
  have hroot : (GraphIndex.ofLists [titledMenu] menuEdges).node? "a" = some titledMenu := rfl
  obtain ⟨comp, h⟩ := exists_run_eq_ok (c := {}) IdScheme.standard.source hroot
    (by rw [plan_titledMenu]; simp [fault?, defaultStepLimit])
  have htree := map_anonymous_of_run hroot h
  rw [plan_titledMenu, Tree.map_step] at htree
  obtain ⟨s, bs, hcomp, hs, hbs⟩ := Tree.map_eq_step_iff.1 htree
  obtain ⟨b, slots, rfl, hb, -⟩ := List.map_eq_cons_iff.1 hbs
  obtain rfl : b = .backReference "a" := by cases b <;> simp_all
  have hat : comp.root.at? [] = some (.step s (.backReference "a" :: slots)) := congrArg some hcomp
  obtain ⟨n, hn, hrenders⟩ := renders_of_runLists h hat
  have horigin : s.origin = "a" := congrArg Step.origin hs
  rw [horigin] at hn
  obtain rfl : titledMenu = n := Option.some.inj hn
  have hfirst : LeadsToLabelled [titledMenu] menuEdges "a" 0 "Menu" :=
    ⟨⟨"e1", "a", "a"⟩, titledMenu, rfl, rfl, Or.inl (List.mem_singleton.2 rfl)⟩
  have hsecond : ∀ label, ¬ LeadsToLabelled [titledMenu] menuEdges "a" 1 label := by
    rintro label ⟨e, m, he, -⟩
    exact Option.some_ne_none e (he.symm.trans rfl)
  refine ⟨comp, s, slots, h, hcomp, hrenders.buttons_eq, fun b hb => ?_, fun b hb => ?_⟩
  · exact ⟨hrenders.button_id 0 b hb, hrenders.button_label 0 b _ hb hfirst⟩
  · exact ⟨hrenders.button_id 1 b hb,
      (Option.some.inj (hrenders.button_title 1 b hb hsecond)).symm⟩

end Compiler

end Chatflow
