/-
# Settings change words, not scripts

The settings can give other titles for buttons and another address for documents.  Titles must keep
their number, and the first node type for which they do not decides the error
(`Config.registry_eq`).  The registry of the settings is then the standard one with other words in
the same places (`Schema.reword`): every type has the slots, the fields and the end that it has by
default.

Where a script goes, when it fails and which ids its steps get is decided by slots alone, so two
compilers that differ in words come to trees of the same shape, and step by step one tree is the
other with what the words make of its steps (`Compiler.Rewords`, `Compiler.Rewords.run_eq`).  What
they make of a step is little: a button is titled anew if its slot leads to no node with a label,
and a document has another address if its node names none (`Step.reword`).
-/
import Chatflow.Config
import Chatflow.Proofs.Diagnostics

namespace Chatflow

/-! ### Building with a change -/

namespace Build

variable {γ α β δ : Type}

/-- A change of what is built comes to a change of what was built. -/
lemma map_apply (f : α → β) (x : Build γ α) (l : Ledger γ) :
    (f <$> x) l = match x l with
      | .ok a l' => .ok (f a) l'
      | .error e l' => .error e l' := by
  show EStateM.map f x l = _
  rw [EStateM.map]
  cases x l <;> rfl

/-- A list is built with a change if every item is. -/
lemma mapM_eq_map {f : α → Build γ β} {h : α → Build γ δ} {g : β → δ} {xs : List α}
    (hxs : ∀ x ∈ xs, h x = g <$> f x) : xs.mapM h = List.map g <$> xs.mapM f := by
  induction xs with
  | nil => simp
  | cons x rest ih =>
    rw [List.mapM_cons, List.mapM_cons, hxs x (by simp), ih fun y hy => hxs y (by simp [hy])]
    simp only [map_eq_pure_bind, bind_assoc, pure_bind, List.map_cons]

end Build

/-- The outcome with the steps of the tree changed. -/
def Outcome.mapSteps {γ : Type} (f : Step → Step) (o : Outcome γ) : Outcome γ where
  result := o.result.map fun comp => { comp with root := comp.root.map f }
  generator := o.generator

namespace Compiler

variable {γ : Type} {c c' : Compiler} {i : GraphIndex} {f : Step → Step}

/-- The compilers differ in nothing but what `f` makes of the steps of nodes in the graph. -/
structure Rewords (c c' : Compiler) (i : GraphIndex) (f : Step → Step) : Prop where
  policy_eq : c'.policy = c.policy
  stepLimit_eq : c'.stepLimit = c.stepLimit
  slots_eq : ∀ n, c'.slots n = c.slots n
  makeStep_eq : ∀ n id, i.node? n.id = some n → c'.makeStep i n id = f (c.makeStep i n id)

namespace Rewords

lemma targets_eq (h : c.Rewords c' i f) (n : Node) : c'.targets i n = c.targets i n := by
  rw [targets, targets, h.slots_eq]

lemma noteStep_eq (h : c.Rewords c' i f) (n : Node) (d : Diagnostics) :
    c'.noteStep i n d = c.noteStep i n d := by
  rw [noteStep, noteStep, surplus, surplus, h.slots_eq]

variable [IdGenerator γ]

lemma openStep_eq (h : c.Rewords c' i f) {n : Node} (hn : i.node? n.id = some n) :
    (c'.openStep i n : Build γ Step) = f <$> c.openStep i n := by
  funext l
  rw [Build.map_apply]
  by_cases hlimit : c.stepLimit ≤ l.diagnostics.steps
  · rw [openStep_of_le hlimit, openStep_of_le (h.stepLimit_eq ▸ hlimit), h.stepLimit_eq]
  · rw [openStep_of_not_le hlimit, openStep_of_not_le (h.stepLimit_eq ▸ hlimit),
      h.makeStep_eq n _ hn, h.noteStep_eq]

omit [IdGenerator γ] in
lemma leadBack_eq (h : c.Rewords c' i f) (target : NodeId) :
    (c'.leadBack target : Build γ Branch) = Tree.map f <$> c.leadBack target := by
  funext l
  rw [Build.map_apply, leadBack, leadBack, h.policy_eq]
  cases c.policy with
  | reject => rfl
  | backReference => simp

/-- A plan is built with the change at every step. -/
lemma build_eq (h : c.Rewords c' i f) {p : Tree Node} (hp : ∀ n ∈ p.steps, i.node? n.id = some n) :
    (c'.build i p : Build γ Branch) = Tree.map f <$> c.build i p := by
  induction p with
  | empty => simp [build_empty]
  | backReference target => rw [build_backReference, build_backReference, h.leadBack_eq]
  | step n slots ih =>
    rw [Tree.steps_step] at hp
    have hslots : ∀ b ∈ slots, (c'.build i b : Build γ Branch) = Tree.map f <$> c.build i b := by
      intro b hb
      exact ih b hb fun m hm => hp m (List.mem_cons_of_mem n (List.mem_flatMap.2 ⟨b, hb, hm⟩))
    rw [build_step, build_step, h.openStep_eq (hp n List.mem_cons_self), Build.mapM_eq_map hslots]
    simp only [map_eq_pure_bind, bind_assoc, pure_bind, Tree.map_step]

/-- The compilers come to the same end but for the steps. -/
lemma run_eq (h : c.Rewords c' i f) (root : NodeId) (generator : γ) :
    c'.run i root generator = (c.run i root generator).mapSteps f := by
  cases hn : i.node? root with
  | none =>
    rw [run_of_absent hn, run_of_absent hn]
    simp [Outcome.mapSteps, Except.map]
  | some n =>
    have hid : i.node? n.id = some n := by rw [i.id_eq hn, hn]
    rw [run_eq_build hn, run_eq_build hn, plan_congr h.targets_eq,
      h.build_eq fun m hm => node?_of_mem_steps_plan hid hm, Build.map_apply]
    cases c.build i (c.plan i [] n) ⟨generator, {}⟩ <;> rfl

end Rewords

end Compiler

/-! ### Other words in the same places -/

/-- The layout with another address of documents and other titles, where they are given. -/
def Layout.reword (url : Option String) (titles : Option (List String)) : Layout → Layout
  | document old => document (url.getD old)
  | buttons old => buttons (titles.getD old)
  | action old => action ((titles.bind List.head?).getD old)
  | leaf => leaf

/-- The schema with other words in its layout. -/
def Schema.reword (url : Option String) (titles : Option (List String)) (s : Schema) : Schema :=
  { s with layout := s.layout.reword url titles }

namespace Layout

variable {url : Option String} {titles : Option (List String)}

@[simp] lemma fields_reword (l : Layout) : (l.reword url titles).fields = l.fields := by
  cases l <;> rfl

/-- Titles that keep their number keep the slots. -/
lemma slots_reword {l : Layout} (h : ∀ given ∈ titles, given.length = l.slots) :
    (l.reword url titles).slots = l.slots := by
  cases l with
  | buttons old =>
    cases titles with
    | none => rfl
    | some given => exact h given rfl
  | _ => rfl

/-- Titles that keep their number are the titles of the buttons. -/
lemma getElem?_titles_reword (url : Option String) {l : Layout}
    (h : ∀ given ∈ titles, given.length = l.slots) (slot : Nat) :
    (l.reword url titles).titles[slot]?
      = l.titles[slot]?.map fun old => (titles.bind (·[slot]?)).getD old := by
  cases titles with
  | none => cases l <;> simp [reword, Layout.titles]
  | some given =>
    have hlength : given.length = l.slots := h given rfl
    cases l with
    | document old => rfl
    | leaf => rfl
    | buttons old =>
      have hlength : given.length = old.length := hlength
      by_cases hslot : slot < old.length
      · simp [reword, Layout.titles, hslot, hlength]
      · simp [reword, Layout.titles, hslot, hlength]
    | action old =>
      obtain ⟨title, rfl⟩ := List.length_eq_one_iff.1 hlength
      cases slot <;> simp [reword, Layout.titles]

end Layout

/-- Setting titles is rewording if their number is that of the slots, and fails otherwise. -/
lemma Registry.retitle_eq (type : NodeType) {l : Layout} (hpos : 0 < l.slots)
    (titles : List String) :
    retitle type l titles = if titles.length = l.slots then .ok (l.reword none (some titles))
      else .error (.wrongCount type l.slots titles.length) := by
  cases l with
  | buttons old => rfl
  | action old =>
    match titles with
    | [] => rfl
    | [title] => rfl
    | title :: second :: rest => simp [retitle, Layout.slots]
  | document old => exact absurd hpos (Nat.lt_irrefl 0)
  | leaf => exact absurd hpos (Nat.lt_irrefl 0)

/-- Without other words nothing is changed. -/
lemma Registry.register_reword_none (r : Registry) (type : NodeType) :
    r.register type ((r.schema type).reword none none) = r := by
  have hschema : ∀ s : Schema, s.reword none none = s := by
    rintro ⟨layout, terminal⟩
    cases layout <;> rfl
  obtain ⟨schema⟩ := r
  rw [register, hschema]
  congr 1
  funext t
  split
  · next h => rw [h]
  · rfl

namespace Config

/-- The types whose buttons can be titled, in the order in which they are, with the number of
buttons that each has. -/
def titleCounts : List (NodeType × Nat) :=
  [(.template, 2), (.interactive, 2), (.flow, 1), (.webhook, 1)]

namespace Texts

/-- The titles given for a type. -/
def titles? (t : Texts) : NodeType → Option (List String)
  | .template => t.template
  | .interactive => t.interactive
  | .flow => t.flow
  | .webhook => t.webhook
  | .document | .unknown => none

/-- The titles given for the type, if any, have this number. -/
def Fits (t : Texts) (x : NodeType × Nat) : Prop :=
  ∀ titles, t.titles? x.1 = some titles → titles.length = x.2

/-- The error of titles that are given for the type in another number than this. -/
def misfit? (t : Texts) (x : NodeType × Nat) : Option TitleError :=
  (t.titles? x.1).bind fun titles =>
    if titles.length = x.2 then none else some (.wrongCount x.1 x.2 titles.length)

/-- The standard schemas with the given words. -/
def registry (t : Texts) : Registry where
  schema type := (Registry.standard.schema type).reword t.documentUrl (t.titles? type)

variable {t : Texts}

lemma misfit?_eq_none_iff {x : NodeType × Nat} : t.misfit? x = none ↔ t.Fits x := by
  rw [misfit?, Fits]
  cases t.titles? x.1 <;> simp

/-- Titles that fit are as many as a type has slots by default. -/
lemma length_of_fits (h : ∀ x ∈ titleCounts, t.Fits x) (type : NodeType) :
    ∀ given ∈ t.titles? type, given.length = (Registry.standard.schema type).layout.slots := by
  intro given hgiven
  cases type with
  | template => exact h (.template, 2) (by simp [titleCounts]) given hgiven
  | interactive => exact h (.interactive, 2) (by simp [titleCounts]) given hgiven
  | flow => exact h (.flow, 1) (by simp [titleCounts]) given hgiven
  | webhook => exact h (.webhook, 1) (by simp [titleCounts]) given hgiven
  | document => simp [titles?] at hgiven
  | unknown => simp [titles?] at hgiven

end Texts

/-- The registry with the titles given for a type. -/
def retitled (t : Texts) (r : Registry) (x : NodeType × Nat) : Registry :=
  r.register x.1 ((r.schema x.1).reword none (t.titles? x.1))

/-- Titles are set if there are none or their number is that of the slots. -/
lemma setTitles_eq (t : Texts) {r : Registry} {x : NodeType × Nat}
    (hslots : (r.schema x.1).slots = x.2) (hpos : 0 < x.2) :
    setTitles r (x.1, t.titles? x.1) = match t.misfit? x with
      | none => .ok (retitled t r x)
      | some e => .error e := by
  rw [setTitles, Texts.misfit?, retitled, ← hslots] at *
  cases t.titles? x.1 with
  | none => exact congrArg Except.ok (r.register_reword_none x.1).symm
  | some titles =>
    show Registry.setTitles r x.1 titles = _
    rw [Registry.setTitles, Registry.retitle_eq x.1 hpos]
    by_cases hfits : titles.length = (r.schema x.1).layout.slots
    · rw [if_pos hfits, Option.bind_some, Schema.slots, if_pos hfits]
      rfl
    · rw [if_neg hfits, Option.bind_some, Schema.slots, if_neg hfits]
      rfl

/-- Titles that fit keep the slots of all types. -/
lemma slots_retitled {t : Texts} {r : Registry} {x : NodeType × Nat}
    (hslots : (r.schema x.1).slots = x.2) (hfits : t.Fits x) (type : NodeType) :
    ((retitled t r x).schema type).slots = (r.schema type).slots := by
  rw [retitled, Registry.schema_register]
  split
  · next h =>
    rw [h]
    refine Layout.slots_reword fun given hgiven => ?_
    exact (hfits given hgiven).trans hslots.symm
  · rfl

/-- Titles are set type by type up to the first that do not fit. -/
lemma foldlM_setTitles (t : Texts) {xs : List (NodeType × Nat)} {r : Registry}
    (h : ∀ x ∈ xs, (r.schema x.1).slots = x.2 ∧ 0 < x.2) :
    (xs.map fun x => (x.1, t.titles? x.1)).foldlM setTitles r = match xs.findSome? t.misfit? with
      | none => .ok (xs.foldl (retitled t) r)
      | some e => .error e := by
  induction xs generalizing r with
  | nil => rfl
  | cons x rest ih =>
    obtain ⟨hslots, hpos⟩ := h x List.mem_cons_self
    rw [List.map_cons, List.foldlM_cons, setTitles_eq t hslots hpos, List.findSome?_cons]
    cases hmisfit : t.misfit? x with
    | some e => rfl
    | none =>
      have hfits := Texts.misfit?_eq_none_iff.1 hmisfit
      refine ih fun y hy => ?_
      rw [slots_retitled hslots hfits]
      exact h y (List.mem_cons_of_mem x hy)

/-- Setting the address comes first. -/
lemma registry_documentUrl (url : Option String) :
    Texts.registry { documentUrl := url }
      = (url.map Registry.standard.setDocumentUrl).getD .standard := by
  cases url
  all_goals
    show Registry.mk _ = Registry.mk _
    congr 1
    funext type
    cases type <;> rfl

/-- Then the titles of one type after the other. -/
lemma foldl_retitled (t : Texts) :
    titleCounts.foldl (retitled t) (Texts.registry { documentUrl := t.documentUrl })
      = t.registry := by
  show Registry.mk _ = Registry.mk _
  congr 1
  funext type
  cases type <;> rfl

/-- Settings give the standard registry with their words, unless titles do not fit. -/
lemma registry_eq (c : Config) :
    c.registry = match titleCounts.findSome? c.texts.misfit? with
      | none => .ok c.texts.registry
      | some e => .error e := by
  have hslots : ∀ x ∈ titleCounts, ((Texts.registry { documentUrl := c.texts.documentUrl }).schema
      x.1).slots = x.2 ∧ 0 < x.2 := by
    simp only [titleCounts, List.forall_mem_cons]
    exact ⟨⟨rfl, by decide⟩, ⟨rfl, by decide⟩, ⟨rfl, by decide⟩, ⟨rfl, by decide⟩, by simp⟩
  have hregistry : c.registry = (titleCounts.map fun x => (x.1, c.texts.titles? x.1)).foldlM
      setTitles (Texts.registry { documentUrl := c.texts.documentUrl }) := by
    rw [registry, registry_documentUrl]
    cases c.texts.documentUrl <;> rfl
  rw [hregistry, foldlM_setTitles c.texts hslots, foldl_retitled]

end Config

/-! ### Steps -/

/-- The label of the node that an edge leads to, the edges of its source being counted. -/
def GraphIndex.slotLabel? (i : GraphIndex) (source : NodeId) (slot : Nat) : Option String :=
  ((i.edgesFrom source)[slot]?.bind fun e => i.node? e.target).bind Node.label?

/-- The address that a node names for its document. -/
def GraphIndex.documentUrl? (i : GraphIndex) (id : NodeId) : Option String :=
  (i.node? id).bind (·.data.documentUrl?)

/-- The step with the given words: titles for the buttons whose slots lead to no node with a label,
and an address for a document whose node names none. -/
def Step.reword (t : Config.Texts) (i : GraphIndex) (s : Step) : Step :=
  { s with
    documentUrl := if s.type = .document ∧ i.documentUrl? s.origin = none then
        t.documentUrl.or s.documentUrl
      else s.documentUrl
    buttons := s.buttons.mapIdx fun slot b =>
      if (i.slotLabel? s.origin slot).isSome then b
      else { b with title := ((t.titles? s.type).bind (·[slot]?)).getD b.title } }

namespace Compiler

variable {t : Config.Texts} {policy : CyclePolicy} {limit : Nat} {i : GraphIndex}

/-- A button is titled by the node that the edge of its slot leads to. -/
lemma targetLabel?_targets (c : Compiler) (i : GraphIndex) (n : Node) {slot : Nat}
    (h : slot < c.slots n) : targetLabel? i (c.targets i n) slot = i.slotLabel? n.id slot := by
  rw [targetLabel?, getElem?_targets, if_pos h, target?, if_pos h, GraphIndex.slotLabel?]
  cases (i.edgesFrom n.id)[slot]? <;> rfl

lemma getElem?_buttons (c : Compiler) (i : GraphIndex) (n : Node) (slot : Nat) :
    (c.buttons i n)[slot]? = (c.registry.schema n.type).titles[slot]?.map fun title =>
      ⟨buttonId slot, (i.slotLabel? n.id slot).getD title⟩ := by
  rw [buttons, List.getElem?_map, List.getElem?_zipIdx]
  cases htitle : (c.registry.schema n.type).titles[slot]? with
  | none => rfl
  | some title =>
    have hslot : slot < c.slots n := by
      rw [slots, Schema.slots, Layout.slots_eq_length_titles]
      exact (List.getElem?_eq_some_iff.1 htitle).1
    simp only [Option.map_some, Nat.zero_add, targetLabel?_targets c i n hslot]

/-- The buttons of a step under the settings are those of the standard step with other titles. -/
lemma buttons_reword (h : ∀ x ∈ Config.titleCounts, t.Fits x) (i : GraphIndex) (n : Node) :
    buttons ⟨t.registry, policy, limit⟩ i n
      = (buttons ⟨.standard, policy, limit⟩ i n).mapIdx fun slot b =>
          if (i.slotLabel? n.id slot).isSome then b
          else { b with title := ((t.titles? n.type).bind (·[slot]?)).getD b.title } := by
  refine List.ext_getElem? fun slot => ?_
  have htitle : (t.registry.schema n.type).titles[slot]? = _ :=
    Layout.getElem?_titles_reword t.documentUrl (Config.Texts.length_of_fits h n.type) slot
  rw [List.getElem?_mapIdx, getElem?_buttons, getElem?_buttons, htitle, Option.map_map,
    Option.map_map]
  refine congrArg (Option.map · _) (funext fun title => ?_)
  cases i.slotLabel? n.id slot <;> simp

/-- The address in a step under the settings is another if the node names none. -/
lemma documentUrl?_reword (n : Node) :
    documentUrl? ⟨t.registry, policy, limit⟩ n
      = if n.type = .document ∧ n.data.documentUrl? = none then
          t.documentUrl.or (documentUrl? ⟨.standard, policy, limit⟩ n)
        else documentUrl? ⟨.standard, policy, limit⟩ n := by
  obtain ⟨id, type, data, position⟩ := n
  cases type with
  | document =>
    have hgiven : documentUrl? ⟨t.registry, policy, limit⟩ ⟨id, .document, data, position⟩
        = some (data.documentUrl?.getD (t.documentUrl.getD Registry.defaultUrl)) := rfl
    have hstandard : documentUrl? ⟨.standard, policy, limit⟩ ⟨id, .document, data, position⟩
        = some (data.documentUrl?.getD Registry.defaultUrl) := rfl
    rw [hgiven, hstandard]
    cases hurl : data.documentUrl? with
    | none => cases t.documentUrl <;> simp
    | some url => simp
  | _ => rfl

/-- Only leaves have a text of their own, and they have no words that could be given. -/
lemma text?_reword (n : Node) :
    text? ⟨t.registry, policy, limit⟩ n = text? ⟨.standard, policy, limit⟩ n := by
  obtain ⟨id, type, data, position⟩ := n
  cases type <;> rfl

/-- The settings do to a step what their words make of it. -/
lemma rewords_registry (h : ∀ x ∈ Config.titleCounts, t.Fits x) (policy : CyclePolicy)
    (limit : Nat) (i : GraphIndex) :
    Rewords ⟨.standard, policy, limit⟩ ⟨t.registry, policy, limit⟩ i (Step.reword t i) where
  policy_eq := rfl
  stepLimit_eq := rfl
  slots_eq n := Layout.slots_reword (Config.Texts.length_of_fits h n.type)
  makeStep_eq n id hn := by
    have hfields : (t.registry.schema n.type).fields = (Registry.standard.schema n.type).fields :=
      Layout.fields_reword _
    have hurl : i.documentUrl? n.id = n.data.documentUrl? := by
      rw [GraphIndex.documentUrl?, hn, Option.bind_some]
    simp only [makeStep, Step.reword, buttons_reword h, documentUrl?_reword, text?_reword, hfields,
      hurl]
    rfl

end Compiler

namespace Config

/-- Settings have a registry just if all titles that they give keep the number that their type has
by default; otherwise the first type for which they do not decides the error.  Compiled with that
registry, all nodes and edges come to the end that they come to with the standard one, but for the
titles of buttons whose slots lead to no node with a label and for the addresses of documents whose
nodes name none: these are as the settings say. -/
theorem only_words_differ (c : Config) :
    ((∃ r, c.registry = .ok r) ↔ ∀ x ∈ titleCounts, c.texts.Fits x) ∧
      (∀ e, (c.registry = .error e ↔ titleCounts.findSome? c.texts.misfit? = some e) ∧
        e.failure.kind = .configError) ∧
      ∀ r, c.registry = .ok r → ∀ {γ : Type} [IdGenerator γ] (policy : CyclePolicy) (limit : Nat)
        (nodes : List Node) (edges : List Edge) (root : NodeId) (generator : γ),
        Compiler.runLists ⟨r, policy, limit⟩ nodes edges root generator
          = (Compiler.runLists ⟨.standard, policy, limit⟩ nodes edges root generator).mapSteps
              (Step.reword c.texts (.ofLists nodes edges)) := by
  have hfits : titleCounts.findSome? c.texts.misfit? = none ↔
      ∀ x ∈ titleCounts, c.texts.Fits x := by
    rw [List.findSome?_eq_none_iff]
    simp only [Texts.misfit?_eq_none_iff]
  rw [registry_eq, ← hfits]
  cases hmisfit : titleCounts.findSome? c.texts.misfit? with
  | some e => exact ⟨by simp, fun e' => ⟨by simp, rfl⟩, by simp⟩
  | none =>
    refine ⟨by simp, fun e => ⟨by simp, rfl⟩, fun r hr γ _ policy limit nodes edges root g => ?_⟩
    obtain rfl := Except.ok.inj hr
    exact (Compiler.rewords_registry (hfits.1 hmisfit) policy limit _).run_eq root g

/-- Of two types with too few titles the one that comes first decides. -/
example : Config.registry { texts := { flow := some [], interactive := some ["Go"] } }
    = .error (.wrongCount .interactive 2 1) := rfl

end Config

end Chatflow
