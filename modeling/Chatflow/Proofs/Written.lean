/-
# Documents lose nothing

A document does not say from which node a step was compiled, and where a step writes no type it does
not say of which type that node was (`Step.written` is what is left).  Everything else can be read
off the text: two compilations have the same text just if their trees are the same up to that
(`Compiler.document_text_eq_iff`).

This rests on how steps are laid out.  The writer takes the continuation of a button from the slot
of its number, and `next_node` from the first slot, and would leave out any others; but the compiler
gives each step the slots, the buttons and the texts of one layout (`Branch.LaidOut`), for which
`Step.WrittenAs` says what is written, with every slot in one place.
-/
import Chatflow.Proofs.Json.Reading
import Chatflow.Proofs.Plan
import Chatflow.Document

namespace Chatflow

/-! ### Whole documents -/

namespace Branch

lemma whole_slotOrNull {slots : List Json} (h : ∀ j ∈ slots, j.Whole) (slot : Nat) :
    (slotOrNull slots slot).Whole := by
  rw [slotOrNull]
  cases hj : slots[slot]? with
  | none => simp [Json.Whole]
  | some j => exact h j (List.mem_of_getElem? hj)

lemma whole_contextJson {slots : List Json} (h : ∀ j ∈ slots, j.Whole) (s : Step) :
    (contextJson s slots).Whole := by
  have hbutton : ∀ button slot, (buttonJson s.nests slots button slot).Whole := by
    intro button slot
    rw [buttonJson]
    split
    · simp [Json.Whole, Json.MembersWhole, whole_slotOrNull h]
    · simp [Json.Whole, Json.MembersWhole]
  simp only [contextJson, Json.Whole, Json.MembersWhole, Json.itemsWhole_iff, List.mem_map,
    true_and, and_true]
  rintro _ ⟨⟨button, slot⟩, -, rfl⟩
  exact hbutton button slot

lemma whole_fieldJson {slots : List Json} (h : ∀ j ∈ slots, j.Whole) (s : Step) (f : Field) :
    (fieldJson s slots f).Whole := by
  have hstring : ∀ text, (Json.ofString? text).Whole := by
    intro text
    cases text <;> simp [Json.ofString?, Json.Whole]
  cases f with
  | documentUrl => exact hstring _
  | text => exact hstring _
  | context => exact whole_contextJson h s
  | nextNode => exact whole_slotOrNull h 0
  | _ => simp [fieldJson, Json.Whole]

/-- A document has no numbers that could be read otherwise than they were written. -/
lemma whole_toJson (b : Tree Step) : (toJson b).Whole := by
  induction b with
  | empty => simp [Json.Whole]
  | backReference target => simp [Json.Whole, Json.MembersWhole]
  | step s slots ih =>
    rw [toJson_step, stepJson, Json.Whole, Json.membersWhole_iff]
    intro m hm
    obtain ⟨f, -, rfl⟩ := List.mem_map.1 hm
    refine whole_fieldJson (fun j hj => ?_) s f
    obtain ⟨b, hb, rfl⟩ := List.mem_map.1 hj
    exact ih b hb

end Branch

/-- Documents have the same text just if what is written for their roots is the same. -/
lemma Document.text_eq_iff {d d' : Document} :
    d.text = d'.text ↔ d.root.toJson = d'.root.toJson := by
  constructor
  · intro h
    have hwhole : ∀ d : Document, d.toJson.Whole := by
      intro d
      simp [Document.toJson, Json.Whole, Json.MembersWhole, Json.ItemsWhole, Branch.whole_toJson]
    simpa [Document.toJson] using
      Json.write_inj Json.Style.blank_compact (hwhole d) (hwhole d') h
  · intro h
    simp only [text, Document.toJson, h]

/-! ### How steps are laid out -/

/-- The step has the fields, the buttons and the texts of a layout, and its number of slots. -/
structure Step.LaidOut (layout : Layout) (s : Step) (slots : Nat) : Prop where
  fields_eq : s.fields = layout.fields
  slots_eq : slots = layout.slots
  length_buttons : s.buttons.length = layout.titles.length
  text_eq : layout ≠ .leaf → s.text = none
  isSome_documentUrl : s.documentUrl.isSome ↔ ∃ url, layout = .document url

/-- Every step is laid out as the registry says for its type. -/
inductive Branch.LaidOut (r : Registry) : Branch → Prop where
  | empty : LaidOut r .empty
  | backReference (target : NodeId) : LaidOut r (.backReference target)
  | step {s : Step} {slots : List Branch}
    (laidOut : s.LaidOut (r.schema s.type).layout slots.length)
    (slotsLaidOut : ∀ b ∈ slots, LaidOut r b) : LaidOut r (.step s slots)

namespace Compiler

variable {c : Compiler} {i : GraphIndex}

lemma laidOut_makeStep (i : GraphIndex) (n : Node) (id : String) :
    (c.makeStep i n id).LaidOut (c.registry.schema n.type).layout (c.slots n) where
  fields_eq := rfl
  slots_eq := rfl
  length_buttons := by simp [makeStep, buttons, Schema.titles]
  text_eq := by
    intro hleaf
    simp only [makeStep, text?]
    split
    · contradiction
    all_goals rfl
  isSome_documentUrl := by
    simp only [makeStep, documentUrl?]
    split
    all_goals simp_all

/-- The steps of a plan are laid out. -/
lemma laidOut_plan (path : List NodeId) (n : Node) :
    Branch.LaidOut c.registry ((c.plan i path n).map fun m => c.makeStep i m "") := by
  induction path, n using plan.induct (i := i) with
  | case1 path n ih =>
    rw [plan_eq, Tree.map_step]
    refine .step ?_ ?_
    · rw [List.length_map, List.length_map, targets, List.length_map, List.length_range]
      exact laidOut_makeStep i n ""
    · intro b hb
      obtain ⟨p, hp, rfl⟩ := List.mem_map.1 hb
      obtain ⟨t, -, rfl⟩ := List.mem_map.1 hp
      rcases planSlot_cases c i (n.id :: path) t with
        ⟨-, hslot⟩ | ⟨target, -, -, -, hslot⟩ | ⟨target, m, -, hm, hp, hslot⟩
      · rw [hslot, Tree.map_empty]
        exact .empty
      · rw [hslot, Tree.map_backReference]
        exact .backReference target
      · rw [hslot]
        exact ih target m hm hp

end Compiler

namespace Branch

/-- Ids have no part in the layout. -/
lemma laidOut_of_map_anonymous {r : Registry} {b : Tree Step}
    (h : LaidOut r (b.map Step.anonymous)) : LaidOut r b := by
  induction b with
  | empty => exact .empty
  | backReference target => exact .backReference target
  | step s slots ih =>
    rw [Tree.map_step] at h
    cases h with
    | step laidOut slotsLaidOut =>
      obtain ⟨hfields, hslots, hbuttons, htext, hurl⟩ := laidOut
      rw [List.length_map] at hslots
      exact .step ⟨hfields, hslots, hbuttons, htext, hurl⟩ fun b hb =>
        ih b hb (slotsLaidOut _ (List.mem_map_of_mem hb))

/-- What stands below in a tree is laid out like the tree. -/
lemma LaidOut.at? {r : Registry} {t b : Branch} (h : t.LaidOut r) {address : List Nat}
    (hb : t.at? address = some b) : b.LaidOut r := by
  induction address generalizing t with
  | nil => exact Option.some.inj hb ▸ h
  | cons slot address ih =>
    rw [Tree.at?_cons, Option.bind_eq_some_iff] at hb
    obtain ⟨u, hu, hb⟩ := hb
    cases h with
    | empty => simp [Tree.slots] at hu
    | backReference target => simp [Tree.slots] at hu
    | step laidOut slotsLaidOut => exact ih (slotsLaidOut u (List.mem_of_getElem? hu)) hb

end Branch

/-! ### How steps are written -/

/-- What is written of a step in all: not the node it stands for, and its type only where the layout
has a field for it. -/
def Step.written (s : Step) : Step :=
  { s with origin := "", type := if Field.type ∈ s.fields then s.type else .document }

/-- A button with a continuation inside. -/
def Button.withNext (button : Button) (next : Json) : Json :=
  .obj [("id", .str button.id), ("title", .str button.title), ("next_node", next)]

/-- What is written for a step of a layout, given what is written in its slots. -/
inductive Step.WrittenAs : Layout → Step → List Json → Json → Prop where
  /-- A document has no slots. -/
  | document {defaultUrl url : String} {s : Step}
    (fields : s.fields = (Layout.document defaultUrl).fields) (text : s.text = none)
    (documentUrl : s.documentUrl = some url) (buttons : s.buttons = []) :
    WrittenAs (.document defaultUrl) s [] (.obj
      [("id", .str s.id), ("bot_terminate", .bool s.terminal), ("custom_type", .str "Document"),
        ("document_url", .str url)])
  /-- Each of the buttons has one of the slots inside. -/
  | buttons {titles : List String} {s : Step} {slots : List Json}
    (fields : s.fields = (Layout.buttons titles).fields) (text : s.text = none)
    (documentUrl : s.documentUrl = none) (buttons_length : s.buttons.length = titles.length)
    (slots_length : slots.length = titles.length) :
    WrittenAs (.buttons titles) s slots (.obj
      [("id", .str s.id), ("bot_terminate", .bool s.terminal), ("type", .str s.type.name),
        ("type_id", .str s.id),
        ("context", .obj [("type", .str "button_reply"),
          ("button_reply", .arr (s.buttons.zipWith Button.withNext slots))])])
  /-- An action has one button and one slot, which stands beside it. -/
  | action {title : String} {s : Step} {button : Button} {next : Json}
    (fields : s.fields = (Layout.action title).fields) (text : s.text = none)
    (documentUrl : s.documentUrl = none) (buttons : s.buttons = [button]) :
    WrittenAs (.action title) s [next] (.obj
      [("id", .str s.id), ("bot_terminate", .bool s.terminal), ("type", .str s.type.name),
        ("type_id", .str s.id),
        ("context", .obj [("type", .str "button_reply"),
          ("button_reply", .arr [.obj [("id", .str button.id), ("title", .str button.title)]])]),
        ("next_node", next)])
  /-- A leaf has no slots. -/
  | leaf {s : Step} (fields : s.fields = Layout.leaf.fields) (documentUrl : s.documentUrl = none)
    (buttons : s.buttons = []) :
    WrittenAs .leaf s [] (.obj
      [("id", .str s.id), ("type", .str s.type.name), ("text", .ofString? s.text),
        ("bot_terminate", .bool s.terminal)])

namespace Branch

/-- The buttons that nest continuations are written with a slot each. -/
lemma map_buttonJson_eq_zipWith {buttons : List Button} {slots : List Json}
    (h : slots.length = buttons.length) :
    (buttons.zipIdx.map fun (button, slot) => buttonJson true slots button slot)
      = buttons.zipWith Button.withNext slots := by
  refine List.ext_getElem (by simp [h]) fun slot hslot _ => ?_
  have hlt : slot < slots.length := by simpa [h] using hslot
  simp [buttonJson, Button.withNext, slotOrNull, hlt, Field.key]

/-- A step that is laid out is written as its layout says. -/
lemma writtenAs_of_laidOut {layout : Layout} {s : Step} {slots : List Json}
    (h : s.LaidOut layout slots.length) : s.WrittenAs layout slots (stepJson s slots) := by
  obtain ⟨hfields, hslots, hbuttons, htext, hurl⟩ := h
  cases layout with
  | document defaultUrl =>
    obtain ⟨url, hurl⟩ := Option.isSome_iff_exists.1 (hurl.2 ⟨defaultUrl, rfl⟩)
    obtain rfl := List.length_eq_zero_iff.1 hslots
    have hwritten := Step.WrittenAs.document hfields (htext (by simp)) hurl
      (List.length_eq_zero_iff.1 hbuttons)
    simpa [stepJson, hfields, Layout.fields, fieldJson, Field.key, hurl, Json.ofString?,
      NodeType.name] using hwritten
  | buttons titles =>
    have hurl : s.documentUrl = none := by simpa using hurl
    have hwritten : s.WrittenAs (.buttons titles) slots _ :=
      .buttons hfields (htext (by simp)) hurl hbuttons hslots
    have hnests : s.nests = true := by simp [Step.nests, hfields, Layout.fields]
    simpa [stepJson, hfields, Layout.fields, fieldJson, Field.key, contextJson, buttonReply, hnests,
      map_buttonJson_eq_zipWith (hslots.trans hbuttons.symm)] using hwritten
  | action title =>
    have hurl : s.documentUrl = none := by simpa using hurl
    obtain ⟨next, rfl⟩ := List.length_eq_one_iff.1 hslots
    obtain ⟨button, hbutton⟩ := List.length_eq_one_iff.1 hbuttons
    have hwritten : s.WrittenAs (.action title) [next] _ :=
      .action hfields (htext (by simp)) hurl hbutton
    have hnests : s.nests = false := by simp [Step.nests, hfields, Layout.fields]
    simpa [stepJson, hfields, Layout.fields, fieldJson, Field.key, contextJson, buttonReply, hnests,
      hbutton, buttonJson, slotOrNull] using hwritten
  | leaf =>
    have hurl : s.documentUrl = none := by simpa using hurl
    obtain rfl := List.length_eq_zero_iff.1 hslots
    have hwritten := Step.WrittenAs.leaf hfields hurl (List.length_eq_zero_iff.1 hbuttons)
    simpa [stepJson, hfields, Layout.fields, fieldJson, Field.key] using hwritten

end Branch

/-! ### Reading steps off -/

lemma NodeType.name_inj {t t' : NodeType} (h : t.name = t'.name) : t = t' := by
  cases t <;> cases t' <;> first | rfl | exact absurd h (by decide)

lemma Json.ofString?_inj {text text' : Option String} (h : ofString? text = ofString? text') :
    text = text' := by
  cases text <;> cases text' <;> simp_all [ofString?]

lemma Button.eq_of_id_eq {button button' : Button} (hid : button.id = button'.id)
    (htitle : button.title = button'.title) : button = button' := by
  cases button
  cases button'
  exact congrArg₂ Button.mk hid htitle

/-- The buttons and the slots can be read off the written buttons. -/
lemma Button.zipWith_inj {buttons buttons' : List Button} {slots slots' : List Json}
    (hlength : slots.length = buttons.length) (hlength' : slots'.length = buttons'.length)
    (h : buttons.zipWith withNext slots = buttons'.zipWith withNext slots') :
    buttons = buttons' ∧ slots = slots' := by
  induction buttons generalizing slots buttons' slots' with
  | nil => cases buttons' <;> cases slots <;> cases slots' <;> simp_all
  | cons button rest ih =>
    cases buttons' with
    | nil => cases slots <;> simp_all
    | cons button' rest' =>
      obtain ⟨next, slots, rfl⟩ := List.exists_cons_of_length_eq_add_one hlength
      obtain ⟨next', slots', rfl⟩ := List.exists_cons_of_length_eq_add_one hlength'
      obtain ⟨hhead, htail⟩ := List.cons.inj h
      obtain ⟨rfl, rfl⟩ := ih (Nat.succ.inj hlength) (Nat.succ.inj hlength') htail
      obtain ⟨hid, htitle, rfl⟩ := by simpa [withNext] using hhead
      rw [Button.eq_of_id_eq hid htitle]
      exact ⟨rfl, rfl⟩

namespace Step

/-- Steps are written alike if all but their origins is the same, and all but their types where
these are not written. -/
lemma written_eq {s s' : Step} (hid : s.id = s'.id) (hterminal : s.terminal = s'.terminal)
    (hfields : s.fields = s'.fields) (htype : Field.type ∈ s.fields → s.type = s'.type)
    (htext : s.text = s'.text) (hurl : s.documentUrl = s'.documentUrl)
    (hbuttons : s.buttons = s'.buttons) : s.written = s'.written := by
  have hkept : (if Field.type ∈ s.fields then s.type else .document)
      = if Field.type ∈ s'.fields then s'.type else .document := by
    rw [← hfields]
    split
    · next hmem => exact htype hmem
    · rfl
  rw [written, written, hkept, hid, hterminal, hfields, htext, hurl, hbuttons]

namespace WrittenAs

variable {layout layout' : Layout} {s s' : Step} {slots slots' : List Json} {j : Json}

/-- A written step begins with its id. -/
lemma exists_id (h : s.WrittenAs layout slots j) :
    ∃ members, j = .obj (("id", .str s.id) :: members) := by
  cases h with
  | _ => exact ⟨_, rfl⟩

/-- All that is written of a step can be read off it again, and so can what is written in its slots,
whatever the layouts are. -/
lemma inj (h : s.WrittenAs layout slots j) (h' : s'.WrittenAs layout' slots' j) :
    s.written = s'.written ∧ slots = slots' := by
  generalize hj : j = k at h'
  -- the layouts differ in their keys, so that only the same layouts are left
  cases h with
  | document fields text documentUrl buttons =>
    cases h' with
    | document fields' text' documentUrl' buttons' =>
      obtain ⟨hid, hterminal, hurl⟩ := by simpa using hj
      exact ⟨written_eq hid hterminal (fields.trans fields'.symm)
        (by simp [fields, Layout.fields]) (text.trans text'.symm)
        (by rw [documentUrl, documentUrl', hurl]) (buttons.trans buttons'.symm), rfl⟩
    | _ => simp at hj
  | buttons fields text documentUrl buttons_length slots_length =>
    cases h' with
    | buttons fields' text' documentUrl' buttons_length' slots_length' =>
      obtain ⟨hid, hterminal, htype, -, hcontext⟩ := by simpa using hj
      obtain ⟨hbuttons, hslots⟩ := Button.zipWith_inj (slots_length.trans buttons_length.symm)
        (slots_length'.trans buttons_length'.symm) hcontext
      exact ⟨written_eq hid hterminal (fields.trans fields'.symm)
        (fun _ => NodeType.name_inj htype) (text.trans text'.symm)
        (documentUrl.trans documentUrl'.symm) hbuttons, hslots⟩
    | _ => simp at hj
  | action fields text documentUrl buttons =>
    cases h' with
    | action fields' text' documentUrl' buttons' =>
      obtain ⟨hid, hterminal, htype, -, ⟨hbutton, htitle⟩, hnext⟩ := by simpa using hj
      exact ⟨written_eq hid hterminal (fields.trans fields'.symm)
        (fun _ => NodeType.name_inj htype) (text.trans text'.symm)
        (documentUrl.trans documentUrl'.symm)
        (by rw [buttons, buttons', Button.eq_of_id_eq hbutton htitle]), by rw [hnext]⟩
    | _ => simp at hj
  | leaf fields documentUrl buttons =>
    cases h' with
    | leaf fields' documentUrl' buttons' =>
      obtain ⟨hid, htype, htext, hterminal⟩ := by simpa using hj
      exact ⟨written_eq hid hterminal (fields.trans fields'.symm)
        (fun _ => NodeType.name_inj htype) (Json.ofString?_inj htext)
        (documentUrl.trans documentUrl'.symm) (buttons.trans buttons'.symm), rfl⟩
    | _ => simp at hj

end WrittenAs

end Step

/-! ### Reading trees off -/

namespace Branch

variable {r r' : Registry}

/-- What is not written has no part in the document. -/
lemma stepJson_written (s : Step) (slots : List Json) :
    stepJson s.written slots = stepJson s slots := by
  rw [stepJson, stepJson]
  refine congrArg Json.obj (List.map_congr_left fun f hf => ?_)
  have hf : f ∈ s.fields := hf
  cases f with
  | type => simp [fieldJson, Step.written, hf]
  | _ => rfl

lemma toJson_map_written (b : Tree Step) : toJson (b.map Step.written) = toJson b := by
  induction b with
  | empty => simp
  | backReference target => simp
  | step s slots ih =>
    rw [Tree.map_step, toJson_step, toJson_step, stepJson_written, List.map_map]
    exact congrArg (stepJson s) (List.map_congr_left ih)

lemma map_written_slots {slots slots' : List Branch}
    (h : ∀ b ∈ slots, ∀ b' ∈ slots', b.toJson = b'.toJson →
      b.map Step.written = b'.map Step.written)
    (hslots : slots.map toJson = slots'.map toJson) :
    slots.map (Tree.map Step.written) = slots'.map (Tree.map Step.written) := by
  induction slots generalizing slots' with
  | nil => simpa using hslots.symm
  | cons b rest ih =>
    cases slots' with
    | nil => simp at hslots
    | cons b' rest' =>
      obtain ⟨hb, hrest⟩ := List.cons.inj hslots
      rw [List.map_cons, List.map_cons, h b (by simp) b' (by simp) hb,
        ih (fun d hd d' hd' => h d (by simp [hd]) d' (by simp [hd'])) hrest]

/-- The steps of a tree that is laid out are written as the layouts of their types say. -/
lemma LaidOut.writtenAs {s : Step} {slots : List Branch} (h : LaidOut r (.step s slots)) :
    s.WrittenAs (r.schema s.type).layout (slots.map toJson) (toJson (.step s slots)) := by
  cases h with
  | step laidOut slotsLaidOut =>
    rw [toJson_step]
    exact writtenAs_of_laidOut (by rwa [List.length_map])

/-- Such a step is not written like a marker. -/
lemma toJson_step_ne {s : Step} {slots : List Branch} (h : LaidOut r (.step s slots))
    (target : NodeId) : toJson (.step s slots) ≠ .obj [(backReferenceKey, .str target)] := by
  obtain ⟨members, hj⟩ := h.writtenAs.exists_id
  rw [hj]
  simp [backReferenceKey]

/-- Trees that are laid out, by whatever registries, are written alike just if they are the same but
for what is not written. -/
lemma toJson_eq_iff {b b' : Tree Step} (hb : LaidOut r b) (hb' : LaidOut r' b') :
    toJson b = toJson b' ↔ b.map Step.written = b'.map Step.written := by
  refine ⟨fun h => ?_, fun h => by rw [← toJson_map_written, h, toJson_map_written]⟩
  induction b generalizing b' with
  | empty =>
    cases b' with
    | empty => rfl
    | backReference target => simp at h
    | step s' slots' => simp [stepJson] at h
  | backReference target =>
    cases b' with
    | empty => simp at h
    | backReference target' =>
      rw [toJson_backReference, toJson_backReference] at h
      simpa using h
    | step s' slots' =>
      rw [toJson_backReference] at h
      exact absurd h.symm (toJson_step_ne hb' target)
  | step s slots ih =>
    cases b' with
    | empty => simp [stepJson] at h
    | backReference target =>
      rw [toJson_backReference] at h
      exact absurd h (toJson_step_ne hb target)
    | step s' slots' =>
      obtain ⟨hs, hslots⟩ := hb.writtenAs.inj (h ▸ hb'.writtenAs)
      cases hb with
      | step laidOut slotsLaidOut =>
        cases hb' with
        | step laidOut' slotsLaidOut' =>
          rw [Tree.map_step, Tree.map_step, hs, map_written_slots (fun b hb b' hb' =>
            ih b hb (slotsLaidOut b hb) (slotsLaidOut' b' hb')) hslots]

end Branch

/-! ### Compilations -/

/-- The document says for every place in the tree what stands there. -/
structure Compilation.Shows (r : Registry) (comp : Compilation) : Prop where
  /-- A step is written as the layout of its type says, with what is written in its slots. -/
  writtenAs : ∀ address s slots, comp.root.at? address = some (.step s slots) →
    s.WrittenAs (r.schema s.type).layout (slots.map Branch.toJson) (Branch.toJson (.step s slots))
  /-- Only an empty slot is written as null. -/
  empty_iff : ∀ address b, comp.root.at? address = some b → (Branch.toJson b = .null ↔ b = .empty)
  /-- Only a marker is written as a marker, and it tells where it leads. -/
  backReference_iff : ∀ address b target, comp.root.at? address = some b →
    (Branch.toJson b = .obj [("$ref", .str target)] ↔ b = .backReference target)

namespace Compiler

variable {γ δ : Type} [IdGenerator γ] [IdGenerator δ] {c c' : Compiler} {i : GraphIndex}
  {nodes nodes' : List Node} {edges edges' : List Edge} {root root' : NodeId} {generator : γ}
  {generator' : δ} {comp comp' : Compilation}

lemma laidOut_of_run (h : (c.run i root generator).result = .ok comp) :
    Branch.LaidOut c.registry comp.root := by
  cases hroot : i.node? root with
  | none =>
    rw [run_of_absent hroot, Except.ok.injEq] at h
    rw [← h]
    exact .empty
  | some n =>
    refine Branch.laidOut_of_map_anonymous ?_
    rw [map_anonymous_of_run hroot h]
    exact laidOut_plan [] n

lemma shows_of_laidOut {r : Registry} (h : Branch.LaidOut r comp.root) : comp.Shows r where
  writtenAs _ _ _ hs := (h.at? hs).writtenAs
  empty_iff := by
    intro address b hb
    cases b with
    | empty => simp
    | backReference target => simp
    | step s slots => simp [Branch.stepJson]
  backReference_iff := by
    intro address b target hb
    cases b with
    | empty => simp
    | backReference target' => simp [Branch.backReferenceKey]
    | step s slots =>
      have hne : Branch.toJson (.step s slots) ≠ .obj [("$ref", .str target)] :=
        Branch.toJson_step_ne (h.at? hb) target
      exact iff_of_false hne (by simp)

/-- Whatever graphs are compiled, and however, two scripts have the same text just if their trees
are the same up to what no step writes; and every slot of a step is written in its own place. -/
theorem document_text_eq_iff (h : (c.runLists nodes edges root generator).result = .ok comp)
    (h' : (c'.runLists nodes' edges' root' generator').result = .ok comp') :
    (comp.document.text = comp'.document.text ↔
        comp.root.map Step.written = comp'.root.map Step.written) ∧ comp.Shows c.registry := by
  have hlaidOut := laidOut_of_run h
  refine ⟨?_, shows_of_laidOut hlaidOut⟩
  rw [Document.text_eq_iff]
  exact Branch.toJson_eq_iff hlaidOut (laidOut_of_run h')

/-- A graph in which a menu leads to an order, from which it goes back to the menu, and to a notice,
behind which there is nothing.  The menu has a third button that leads nowhere. -/
structure Leads (c : Compiler) (i : GraphIndex) (menu order notice : Node) : Prop where
  node_menu : i.node? menu.id = some menu
  node_order : i.node? order.id = some order
  node_notice : i.node? notice.id = some notice
  targets_menu : c.targets i menu = [some order.id, some notice.id, none]
  targets_order : c.targets i order = [some menu.id]
  targets_notice : c.targets i notice = []
  order_ne : order.id ≠ menu.id
  notice_ne : notice.id ≠ menu.id

namespace Leads

variable {menu order notice : Node}

omit [IdGenerator γ] in
lemma plan_eq (h : c.Leads i menu order notice) : c.plan i [] menu
    = .step menu [.step order [.backReference menu.id], .step notice [], .empty] := by
  have hmenu : (i.node? menu.id).isSome := by rw [h.node_menu]; rfl
  have horder : c.plan i [menu.id] order = .step order [.backReference menu.id] := by
    rw [Compiler.plan_eq, h.targets_order, List.map_singleton, planSlot_of_mem hmenu (by simp)]
  have hnotice : c.plan i [menu.id] notice = .step notice [] := by
    rw [Compiler.plan_eq, h.targets_notice, List.map_nil]
  rw [Compiler.plan_eq, h.targets_menu, List.map_cons, List.map_cons, List.map_singleton,
    planSlot_of_not_mem h.node_order (by simpa using h.order_ne), horder,
    planSlot_of_not_mem h.node_notice (by simpa using h.notice_ne), hnotice,
    planSlot_of_absent rfl]

/-- The compilation of such a graph. -/
lemma exists_run_eq_ok (h : c.Leads i menu order notice) (hpolicy : c.policy = .backReference)
    (hlimit : c.stepLimit = defaultStepLimit) :
    ∃ comp, (c.run i menu.id IdScheme.standard.source).result = .ok comp ∧
      comp.root = .step (c.makeStep i menu "id_1")
        [.step (c.makeStep i order "id_2") [.backReference menu.id],
          .step (c.makeStep i notice "id_3") [], .empty] := by
  rw [run_eq_build h.node_menu, h.plan_eq]
  simp only [build_step, build_backReference, build_empty, List.mapM_cons, List.mapM_nil, pure_bind,
    bind_assoc]
  rw [Build.bind_of_ok (openStep_of_not_le (by simp [hlimit, defaultStepLimit])),
    Build.bind_of_ok (openStep_of_not_le (by simp [hlimit, noteStep, defaultStepLimit])),
    Build.bind_of_ok (leadBack_backReference hpolicy _ _),
    Build.bind_of_ok (openStep_of_not_le (by simp [hlimit, noteStep, noteMarker, defaultStepLimit]))]
  exact ⟨_, rfl, rfl⟩

end Leads

/-- A menu, an order of any id and a notice of any type. -/
def leaflet (order : NodeId) (notice : NodeType) : List Node :=
  [{ id := "a", type := .template }, { id := order, type := .flow }, { id := "n", type := notice }]

/-- The edges between them. -/
def leafletEdges (order : NodeId) : List Edge :=
  [⟨"e1", "a", order⟩, ⟨"e2", "a", "n"⟩, ⟨"e3", order, "a"⟩]

lemma leads_leaflet {order : NodeId} {notice : NodeType} (hmenu : order ≠ "a")
    (hnotice : order ≠ "n") (hthree : (c.registry.schema .template).slots = 3)
    (hone : (c.registry.schema .flow).slots = 1) (hnone : (c.registry.schema notice).slots = 0) :
    c.Leads (.ofLists (leaflet order notice) (leafletEdges order))
      { id := "a", type := .template } { id := order, type := .flow }
      { id := "n", type := notice } := by
  constructor <;>
    simp [GraphIndex.node?_ofLists, GraphIndex.edgesFrom_ofLists, targets, slots, leaflet,
      leafletEdges, hmenu, hmenu.symm, hnotice.symm, hthree, hone, hnone, List.range_succ]

/-- A compiler to which menus have three buttons. -/
def threeButtons : Compiler where
  registry := Registry.standard.register .template (.ofLayout (.buttons ["Order", "Read", "Call"]))

/-- A compiler to which webhooks are documents besides. -/
def webhooksSend : Compiler where
  registry := threeButtons.registry.register .webhook (.ofLayout (.document Registry.defaultUrl))

theorem document_text_eq_leaflet : ∃ comp comp',
    (threeButtons.runLists (leaflet "b" .document) (leafletEdges "b") "a"
      IdScheme.standard.source).result = .ok comp ∧
    (webhooksSend.runLists (leaflet "c" .webhook) (leafletEdges "c") "a"
      IdScheme.standard.source).result = .ok comp' ∧
    comp.root.map (·.type)
      = .step .template [.step .flow [.backReference "a"], .step .document [], .empty] ∧
    comp.root ≠ comp'.root ∧ comp.document.text = comp'.document.text ∧
    comp.Shows threeButtons.registry := by
  have hdocument : (threeButtons.registry.schema .document).slots = 0 := rfl
  have hwebhook : (webhooksSend.registry.schema .webhook).slots = 0 := rfl
  have hleads := leads_leaflet (by decide : "b" ≠ "a") (by decide) rfl rfl hdocument
  have hleads' := leads_leaflet (by decide : "c" ≠ "a") (by decide) rfl rfl hwebhook
  obtain ⟨comp, h, hcomp⟩ := hleads.exists_run_eq_ok rfl rfl
  obtain ⟨comp', h', hcomp'⟩ := hleads'.exists_run_eq_ok rfl rfl
  have htext := document_text_eq_iff h h'
  refine ⟨comp, comp', h, h', ?_, ?_, htext.1.2 ?_, htext.2⟩
  · simp [hcomp, makeStep]
  · -- the orders were compiled from different nodes
    simp [hcomp, hcomp', makeStep]
  · simp only [hcomp, hcomp', Tree.map_step, List.map_cons, List.map_nil, Tree.map_backReference,
      Tree.map_empty, Tree.step.injEq, List.cons.injEq, and_true]
    exact ⟨by decide, by decide, by decide⟩

end Compiler

end Chatflow
