/-
# Snapshots as editors write them

An editor may write the members of a snapshot, of its nodes, edges and positions in any order, may
put members of its own among them, may give an edge any type or none, and may call a node type by
its older tag.  `Snapshot.Edit` is one such difference between two drafts, and `Snapshot.Rewritten`
says that two texts spell drafts that differ in any number of them, with white space wherever it may
stand.  Such texts are read as the same snapshot, or neither is read (`ofText_eq_ok_iff`).
-/
import Chatflow.Proofs.Json.Records
import Chatflow.Proofs.Json.Syntax
import Chatflow.Snapshot

namespace Chatflow

open Json Json.Decoder

/-! ### Changes -/

/-- A node type under its name and under its older tag. -/
inductive NodeType.Renamed : Draft → Draft → Prop where
  | tag {t : NodeType} {tag : String} (alias_eq : t.alias? = some tag) :
    Renamed (.str (some t.name)) (.str (some tag))

/-- What may be given as the type of an edge. -/
inductive Edge.IsType : Draft → Prop where
  | null : IsType .null
  | string (s : String) : IsType (.str (some s))

/-- A change of an edge: its members are rearranged, its type becomes another one, or an edge
without a type gets one. -/
inductive Edge.Edit : Draft → Draft → Prop where
  | rearranged {d e : Draft} (change : Draft.Rearranged (fields.map (·.name)) d e) : Edit d e
  | retyped {d e : Draft} (change : Draft.Within "type" 3 (fun t u => IsType t ∧ IsType u) d e) :
    Edit d e
  | typed {members : List (Option String × Draft)} {closed : Bool} {t : Draft}
    (untyped : ∀ m ∈ members, m.1 ≠ some "type") (isType : IsType t) :
    Edit (.obj members closed) (.obj ((some "type", t) :: members) closed)

/-- A change of a position. -/
inductive Position.Edit : Draft → Draft → Prop where
  | rearranged {d e : Draft} (change : Draft.Rearranged (fields.map (·.name)) d e) : Edit d e

/-- A change of a node: its members are rearranged, its type is called by its other name, or its
position is changed. -/
inductive Node.Edit : Draft → Draft → Prop where
  | rearranged {d e : Draft} (change : Draft.Rearranged (fields.map (·.name)) d e) : Edit d e
  | renamed {d e : Draft} (change : Draft.Within "type" 1 NodeType.Renamed d e) : Edit d e
  | position {d e : Draft} (change : Draft.Within "position" 3 Position.Edit d e) : Edit d e

/-- A change of a snapshot: its members are rearranged, or one of its nodes or edges is changed. -/
inductive Snapshot.Edit : Draft → Draft → Prop where
  | rearranged {d e : Draft} (change : Draft.Rearranged (fields.map (·.name)) d e) : Edit d e
  | node {d e : Draft} (change : Draft.Within "nodes" 0 (Draft.Somewhere Node.Edit) d e) : Edit d e
  | edge {d e : Draft} (change : Draft.Within "edges" 1 (Draft.Somewhere Edge.Edit) d e) : Edit d e

/-- The second text is the first with any number of changes, made or taken back, and any changes of
white space between tokens. -/
def Snapshot.Rewritten (text text' : String) : Prop :=
  ∃ d d' : Draft, d.Spelled text ∧ d'.Spelled text' ∧ Relation.EqvGen Edit d d'

/-! ### Positions -/

namespace Position

lemma lawful_fields : Lawful fields where
  isSet_read field hfield := by
    intro room d parts parts' h
    simp only [fields, List.mem_cons, List.not_mem_nil, or_false] at hfield
    rcases hfield with rfl | rfl <;> obtain ⟨a, -, rfl⟩ := exists_of_map_eq_ok h <;> rfl
  independent f hf g hg hne := by
    simp only [fields, List.mem_cons, List.not_mem_nil, or_false] at hf hg
    rcases hf with rfl | rfl <;> rcases hg with rfl | rfl <;>
      first
      | exact absurd rfl hne
      | exact Field.independent_map (fun _ _ => rfl) (fun _ _ _ => rfl)

lemma alike_of_edit {d e : Draft} (h : Edit d e) : Alike decode d e := by
  cases h with
  | rearranged change => exact alike_of_rearranged lawful_fields change

end Position

/-! ### Edges -/

namespace Edge

lemma lawful_fields : Lawful fields where
  isSet_read field hfield := by
    intro room d parts parts' h
    simp only [fields, List.mem_cons, List.not_mem_nil, or_false] at hfield
    rcases hfield with rfl | rfl | rfl | rfl <;>
      obtain ⟨a, -, rfl⟩ := exists_of_map_eq_ok h <;> rfl
  independent f hf g hg hne := by
    simp only [fields, List.mem_cons, List.not_mem_nil, or_false] at hf hg
    rcases hf with rfl | rfl | rfl | rfl <;> rcases hg with rfl | rfl | rfl | rfl <;>
      first
      | exact absurd rfl hne
      | exact Field.independent_map (fun _ _ => rfl) (fun _ _ _ => rfl)

/-- The field of the type of an edge. -/
def typeField : Decoder.Field Parts :=
  ⟨"type", (·.typed), fun room d parts =>
    (orNull string room d).map fun _ => { parts with typed := true }⟩

/-- What a type is does not matter. -/
lemma read_typeField {t : Draft} (h : IsType t) (room : Nat) (parts : Parts) :
    typeField.read room t parts = .ok { parts with typed := true } := by
  cases h <;> rfl

lemma alike_of_edit {d e : Draft} (h : Edit d e) : Alike decode d e := by
  have hname : fields.find? (·.name == "type") = some typeField := rfl
  cases h with
  | rearranged change => exact alike_of_rearranged lawful_fields change
  | retyped change =>
    refine alike_of_within hname rfl (fun t u htu parts room => ?_) change
    simp only [read_typeField htu.1, read_typeField htu.2]
  | typed untyped isType =>
    exact alike_of_traceless lawful_fields hname rfl
      (fun room parts => ⟨_, read_typeField isType room parts, rfl⟩) untyped _

end Edge

/-! ### Nodes -/

namespace Node

lemma lawful_fields : Lawful fields where
  isSet_read field hfield := by
    intro room d parts parts' h
    simp only [fields, List.mem_cons, List.not_mem_nil, or_false] at hfield
    rcases hfield with rfl | rfl | rfl | rfl <;>
      obtain ⟨a, -, rfl⟩ := exists_of_map_eq_ok h <;> rfl
  independent f hf g hg hne := by
    simp only [fields, List.mem_cons, List.not_mem_nil, or_false] at hf hg
    rcases hf with rfl | rfl | rfl | rfl <;> rcases hg with rfl | rfl | rfl | rfl <;>
      first
      | exact absurd rfl hne
      | exact Field.independent_map (fun _ _ => rfl) (fun _ _ _ => rfl)

lemma alike_of_renamed {d e : Draft} (h : NodeType.Renamed d e) : Alike decodeType d e := by
  cases h with
  | tag alias_eq =>
    intro room
    rw [decodeType, decodeType, string, string, Except.map, Except.map, NodeType.ofTag_name,
      NodeType.ofTag_alias alias_eq]

lemma alike_of_edit {d e : Draft} (h : Edit d e) : Alike decode d e := by
  cases h with
  | rearranged change => exact alike_of_rearranged lawful_fields change
  | renamed change =>
    exact alike_of_within rfl rfl
      (fun d e hde => Field.readsAlike_map (alike_of_renamed hde)) change
  | position change =>
    exact alike_of_within rfl rfl
      (fun d e hde => Field.readsAlike_map (Position.alike_of_edit hde)) change

end Node

/-! ### Snapshots -/

namespace Snapshot

lemma lawful_fields : Lawful fields where
  isSet_read field hfield := by
    intro room d parts parts' h
    simp only [fields, List.mem_cons, List.not_mem_nil, or_false] at hfield
    rcases hfield with rfl | rfl <;> obtain ⟨a, -, rfl⟩ := exists_of_map_eq_ok h <;> rfl
  independent f hf g hg hne := by
    simp only [fields, List.mem_cons, List.not_mem_nil, or_false] at hf hg
    rcases hf with rfl | rfl <;> rcases hg with rfl | rfl <;>
      first
      | exact absurd rfl hne
      | exact Field.independent_map (fun _ _ => rfl) (fun _ _ _ => rfl)

/-- No change makes a difference to the reader. -/
lemma alike_of_edit {d e : Draft} (h : Edit d e) : Alike decode d e := by
  cases h with
  | rearranged change => exact alike_of_rearranged lawful_fields change
  | node change =>
    exact alike_of_within rfl rfl (fun d e hde => Field.readsAlike_map
      (alike_list (fun _ _ => Node.alike_of_edit) hde)) change
  | edge change =>
    exact alike_of_within rfl rfl (fun d e hde => Field.readsAlike_map
      (alike_list (fun _ _ => Edge.alike_of_edit) hde)) change

/-- A text of a draft is read as what the draft is decoded to. -/
lemma ofText_eq_ok_iff_of_spelled {d : Draft} {text : String} (h : d.Spelled text) (s : Snapshot) :
    ofText text = .ok s ↔ (decode maxNesting d).toOption = some s := by
  rw [ofText, Decoder.ofText, ofReading, Reading.ofText_of_spelled h]
  cases decode maxNesting d <;> simp [Except.toOption, close]

/-- A text is read just if its rewritten forms are, and then as the same snapshot. -/
theorem ofText_eq_ok_iff_of_rewritten {text text' : String} (h : Rewritten text text')
    (s : Snapshot) : ofText text = .ok s ↔ ofText text' = .ok s := by
  obtain ⟨d, d', hd, hd', hedits⟩ := h
  have halike : (decode maxNesting d).toOption = (decode maxNesting d').toOption :=
    alike_of_eqvGen (fun _ _ => alike_of_edit) hedits maxNesting
  rw [ofText_eq_ok_iff_of_spelled hd, ofText_eq_ok_iff_of_spelled hd', halike]

/-- A snapshot of one node, under a tag, and one edge, which may have further members. -/
def exported (tag : String) (more : List (Option String × Draft)) : Draft :=
  .obj [(some "nodes", .arr [.obj [(some "id", .str (some "1")), (some "type", .str (some tag))]
      true] true),
    (some "edges", .arr [.obj (more ++ [(some "id", .str (some "e")),
      (some "source", .str (some "1")), (some "target", .str (some "1"))]) true] true)] true

/-- The same in another order, with a member of the editor. -/
def rearranged (tag : String) (more : List (Option String × Draft)) : Draft :=
  .obj [(some "view", .arr [.bool true, .arr [] true] true),
    (some "edges", .arr [.obj (more ++ [(some "id", .str (some "e")),
      (some "source", .str (some "1")), (some "target", .str (some "1"))]) true] true),
    (some "nodes", .arr [.obj [(some "id", .str (some "1")), (some "type", .str (some tag))]
      true] true)] true

lemma eqvGen_rearranged :
    Relation.EqvGen Edit (exported "Template" [])
      (rearranged "customNode2" [(some "type", .null)]) := by
  have hnode : Edit (exported "Template" []) (exported "customNode2" []) :=
    .node (@Draft.Within.member "nodes" 0 _ [] _ true _ _
      (@Draft.Somewhere.item _ [] [] true _ _ (.renamed
        (@Draft.Within.member "type" 1 _ [_] [] true _ _ (@NodeType.Renamed.tag .template _ rfl)))))
  have hedge : Edit (exported "customNode2" [])
      (exported "customNode2" [(some "type", .null)]) :=
    .edge (@Draft.Within.member "edges" 1 _ [_] [] true _ _
      (@Draft.Somewhere.item _ [] [] true _ _ (.typed (by simp) .null)))
  refine .trans _ _ _ (.rel _ _ hnode) (.trans _ _ _ (.rel _ _ hedge) ?_)
  exact .trans _ _ _ (.rel _ _ (.rearranged (.reorder (.swap _ _ []))))
    (.rel _ _ (.rearranged (.add (by decide))))

/-- A text of the one. -/
def exportedText : String :=
  "\x7b\"nodes\":[\x7b\"id\":\"1\",\"type\":\"Template\"\x7d]," ++
  "\"edges\":[\x7b\"id\":\"e\",\"source\":\"1\",\"target\":\"1\"\x7d]\x7d"

/-- A text of the other. -/
def rearrangedText : String :=
  "\x7b \"view\": [true, []],\n  \"edges\": [\x7b\"type\": null, \"id\": \"e\", " ++
  "\"source\": \"1\", \"target\": \"1\"\x7d],\n  \"nodes\": [ \x7b\"id\": \"1\", " ++
  "\"type\": \"customNode2\"\x7d ] \x7d\n"

lemma spelled_exported : (exported "Template" []).Spelled exportedText := by
  rw [← Reading.ofText_eq_iff]
  cbv

lemma spelled_rearranged :
    (rearranged "customNode2" [(some "type", .null)]).Spelled rearrangedText := by
  rw [← Reading.ofText_eq_iff]
  cbv

theorem ofText_rearrangedText : Rewritten exportedText rearrangedText ∧
    ofText exportedText
      = .ok ⟨[{ id := "1", type := .template }], [⟨"e", "1", "1"⟩]⟩ ∧
    ofText rearrangedText
      = .ok ⟨[{ id := "1", type := .template }], [⟨"e", "1", "1"⟩]⟩ := by
  have hrewritten : Rewritten exportedText rearrangedText :=
    ⟨_, _, spelled_exported, spelled_rearranged, eqvGen_rearranged⟩
  have hread : ofText exportedText
      = .ok ⟨[{ id := "1", type := .template }], [⟨"e", "1", "1"⟩]⟩ := by
    rw [ofText_eq_ok_iff_of_spelled spelled_exported]
    rfl
  exact ⟨hrewritten, hread, (ofText_eq_ok_iff_of_rewritten hrewritten _).1 hread⟩

end Snapshot

end Chatflow
