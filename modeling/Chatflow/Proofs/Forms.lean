/-
# The forms of a document

A document is shown as a JSON value, as compact text and as text over several lines.  All three are
the same document (`Document.FormsAgree`): the long text is the compact one with white space between
its tokens, both texts are read as the value by a reader that takes nothing but JSON to the letter,
and no object in it has a key twice.

Only the last of these rests on how steps are laid out, since the fields of a layout are written
under different keys (`Branch.keysDistinct_toJson`).  Hence it is stated of compiled documents
(`Compiler.formsAgree_document`), whatever the registry and however deep the tree.
-/
import Chatflow.Proofs.Json.Strict
import Chatflow.Proofs.OutlineLines

namespace Chatflow

lemma Field.key_injective : Function.Injective Field.key := by
  intro f g h
  cases f <;> cases g <;> first | rfl | exact absurd h (by decide)

/-- No layout writes a field twice. -/
lemma Layout.nodup_fields (l : Layout) : l.fields.Nodup := by
  cases l <;> simp [fields]

namespace Branch

lemma keysDistinct_slotOrNull {slots : List Json} (h : ∀ j ∈ slots, j.KeysDistinct)
    (slot : Nat) : (slotOrNull slots slot).KeysDistinct := by
  rw [slotOrNull]
  cases hj : slots[slot]? with
  | none => simp [Json.KeysDistinct]
  | some j => exact h j (List.mem_of_getElem? hj)

lemma keysDistinct_buttonJson {slots : List Json} (h : ∀ j ∈ slots, j.KeysDistinct)
    (nests : Bool) (button : Button) (slot : Nat) :
    (buttonJson nests slots button slot).KeysDistinct := by
  have hslot := keysDistinct_slotOrNull h slot
  cases nests <;> simp [buttonJson, Json.KeysDistinct, Json.MembersDistinct, Field.key, hslot]

lemma keysDistinct_fieldJson {slots : List Json} (h : ∀ j ∈ slots, j.KeysDistinct) (s : Step)
    (f : Field) : (fieldJson s slots f).KeysDistinct := by
  have hstring : ∀ text, (Json.ofString? text).KeysDistinct := by
    intro text
    cases text <;> simp [Json.ofString?, Json.KeysDistinct]
  cases f with
  | documentUrl => exact hstring _
  | text => exact hstring _
  | context =>
    simp only [fieldJson, contextJson, buttonReply, Json.KeysDistinct, Json.MembersDistinct,
      Json.itemsDistinct_iff, List.mem_map]
    refine ⟨by simp, trivial, ?_, trivial⟩
    rintro _ ⟨⟨button, slot⟩, -, rfl⟩
    exact keysDistinct_buttonJson h s.nests button slot
  | nextNode => exact keysDistinct_slotOrNull h 0
  | _ => simp [fieldJson, Json.KeysDistinct]

/-- In a tree that is laid out no step writes a key twice. -/
lemma keysDistinct_toJson {r : Registry} {b : Tree Step} (h : LaidOut r b) :
    (toJson b).KeysDistinct := by
  induction b with
  | empty => simp [Json.KeysDistinct]
  | backReference target => simp [Json.KeysDistinct, Json.MembersDistinct]
  | step s slots ih =>
    cases h with
    | step laidOut slotsLaidOut =>
      have hslots : ∀ j ∈ slots.map toJson, j.KeysDistinct := by
        intro j hj
        obtain ⟨b, hb, rfl⟩ := List.mem_map.1 hj
        exact ih b hb (slotsLaidOut b hb)
      rw [toJson_step, stepJson, Json.KeysDistinct, Json.membersDistinct_iff, List.map_map]
      refine ⟨?_, fun m hm => ?_⟩
      · rw [laidOut.fields_eq]
        exact (Layout.nodup_fields _).map Field.key_injective
      · obtain ⟨f, -, rfl⟩ := List.mem_map.1 hm
        exact keysDistinct_fieldJson hslots s f

end Branch

namespace Document

/-- The two texts of a document and its value are one document. -/
structure FormsAgree (d : Document) : Prop where
  /-- Without the white space between its tokens the long text is the compact one. -/
  withoutSpace_prettyText : Json.withoutSpace d.prettyText = d.text
  /-- The compact text is the value, with its members in their order. -/
  read?_text : Json.read? d.text = some d.toJson
  /-- And so is the long one. -/
  read?_prettyText : Json.read? d.prettyText = some d.toJson
  /-- No object in it repeats a key. -/
  keysDistinct_toJson : d.toJson.KeysDistinct

lemma whole_toJson (d : Document) : d.toJson.Whole := by
  simp [toJson, Json.Whole, Json.MembersWhole, Json.ItemsWhole, Branch.whole_toJson]

lemma formsAgree_of_keysDistinct {d : Document} (h : d.toJson.KeysDistinct) : d.FormsAgree where
  withoutSpace_prettyText := Json.withoutSpace_write Json.Style.blank_pretty d.whole_toJson
  read?_text := Json.read?_write Json.Style.blank_compact d.whole_toJson h
  read?_prettyText := Json.read?_write Json.Style.blank_pretty d.whole_toJson h
  keysDistinct_toJson := h

end Document

namespace Compiler

variable {γ : Type} [IdGenerator γ] {c : Compiler} {nodes : List Node} {edges : List Edge}
  {root : NodeId} {generator : γ} {comp : Compilation}

/-- The forms of a compiled document agree, whatever is compiled and whatever the registry is. -/
theorem formsAgree_document (h : (c.runLists nodes edges root generator).result = .ok comp) :
    comp.document.FormsAgree := by
  refine Document.formsAgree_of_keysDistinct ?_
  have hroot : (Branch.toJson comp.root).KeysDistinct :=
    Branch.keysDistinct_toJson (laidOut_of_run h)
  simpa [Compilation.document, Document.toJson, Json.KeysDistinct, Json.MembersDistinct,
    Json.ItemsDistinct] using hroot

theorem formsAgree_twoLineMenu : ∃ comp,
    (runLists {} [twoLineMenu] menuEdges "a" IdScheme.standard.source).result = .ok comp ∧
      comp.document.FormsAgree ∧
      Json.read? comp.document.prettyText = some (.obj [("create_bot_node", .arr [.obj
        [("id", .str "id_1"), ("bot_terminate", .bool false), ("type", .str "Template"),
          ("type_id", .str "id_1"),
          ("context", .obj [("type", .str "button_reply"), ("button_reply", .arr
            [.obj [("id", .str "id1"), ("title", .str "Main\nmenu"),
                ("next_node", .obj [("$ref", .str "a")])],
              .obj [("id", .str "id2"), ("title", .str "No"), ("next_node", .null)]])])]])]) := by
  obtain ⟨comp, h, hcomp⟩ := exists_run_loop (n := twoLineMenu) rfl plan_twoLineMenu
  have hstep : makeStep {} (.ofLists [twoLineMenu] menuEdges) twoLineMenu "id_1"
      = ⟨"id_1", "a", .template, false, (Layout.buttons []).fields, none, none,
          [⟨"id1", "Main\nmenu"⟩, ⟨"id2", "No"⟩]⟩ := rfl
  rw [hstep] at hcomp
  have hforms := formsAgree_document h
  refine ⟨comp, h, hforms, ?_⟩
  rw [hforms.read?_prettyText, Compilation.document, hcomp]
  cbv

end Compiler

end Chatflow
