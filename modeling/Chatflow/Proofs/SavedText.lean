/-
# Saved graphs are read as they were

The text of a snapshot is read part by part: a position, an edge, a node and the lists of them, each
from its draft.  Two things can go wrong.  A coordinate is read through a double, so one that is not
among the doubles comes back as another (`Position.reread`).  And the data of a node stands three
levels deep in the text, so it may nest at most 124 levels; if the data of any node nests deeper,
nothing of the text is read.

`Snapshot.ofText_write` says both for any text in which a snapshot is written, among other members
and in any style.  Where neither happens the snapshot is read as it was: its nodes and its edges in
their order, and the members of all data in theirs (`Snapshot.ofText_text`).
-/
import Chatflow.Proofs.Json.Reading
import Chatflow.Proofs.WholeDoubles
import Chatflow.Snapshot

namespace Chatflow

open Json (Decoder)

/-- A member of an unknown name is passed over. -/
lemma Json.Decoder.fieldsByName_of_unknown {σ : Type} {fields : List (Field σ)} {room : Nat}
    {closed : Bool} {parts : σ} {key : String} {d : Draft} {rest : List (Option String × Draft)}
    (h : fields.find? (·.name == key) = none) :
    fieldsByName fields room closed parts ((some key, d) :: rest)
      = fieldsByName fields room closed parts rest := by
  rw [fieldsByName, h]

/-! ### Deep values -/

namespace Json

/-- Arrays nested in each other. -/
def tower : Nat → Json
  | 0 => .null
  | n + 1 => .arr [tower n]

@[simp] lemma nesting_tower (n : Nat) : (tower n).nesting = n := by
  induction n with
  | zero => rfl
  | succ n ih => simp [tower, nesting, itemsNesting, ih, Nat.add_comm]

lemma keysDistinct_tower (n : Nat) : (tower n).KeysDistinct := by
  induction n with
  | zero => trivial
  | succ n ih => exact ⟨ih, trivial⟩

lemma whole_tower (n : Nat) : (tower n).Whole := by
  induction n with
  | zero => trivial
  | succ n ih => exact ⟨ih, trivial⟩

end Json

/-! ### Nodes and edges -/

/-- Data is decoded if there is room for its nesting. -/
lemma NodeData.decode_toDraft (data : NodeData) (room : Nat) :
    decode room data.toJson.toDraft
      = if data.toJson.nesting ≤ room then .ok data else .error .malformed := by
  have hjson : (Decoder.members room data.toJson.toDraft).map Json.obj
      = if data.toJson.nesting ≤ room then .ok data.toJson else .error .malformed := by
    have hdistinct : data.toJson.KeysDistinct := data.distinct
    rw [← Decoder.json_toDraft hdistinct room]
    cases room <;> rfl
  rw [decode]
  by_cases hroom : data.toJson.nesting ≤ room
  · rw [if_pos hroom] at hjson ⊢
    split
    · next members h =>
      rw [h] at hjson
      have hmembers : members = data.members := by simpa [Except.map, toJson] using hjson
      rw [Except.ok.injEq, NodeData.mk.injEq, hmembers]
    · next e h => simp [h, Except.map] at hjson
  · rw [if_neg hroom] at hjson ⊢
    split
    · next members h => simp [h, Except.map] at hjson
    · next e h => simpa [h, Except.map] using hjson

namespace Position

/-- The place as it is read back, each coordinate through a double. -/
def reread (p : Position) : Position := ⟨(Double.ofInt p.x).toInt64, (Double.ofInt p.y).toInt64⟩

lemma decode_toDraft (p : Position) (room : Nat) :
    decode (room + 1) p.toJson.toDraft = .ok p.reread := rfl

/-- The place is read back as it is. -/
def Steady (p : Position) : Prop := p.reread = p

instance : DecidablePred Steady := fun p => inferInstanceAs (Decidable (p.reread = p))

/-- Both coordinates are signed 64-bit integers. -/
structure InRange (p : Position) : Prop where
  x : minCoordinate ≤ p.x ∧ p.x ≤ maxCoordinate
  y : minCoordinate ≤ p.y ∧ p.y ≤ maxCoordinate

/-- A place that is read back as it is has coordinates in range. -/
lemma Steady.inRange {p : Position} (h : p.Steady) : p.InRange := by
  have hrange : ∀ d : Double, minCoordinate ≤ d.toInt64 ∧ d.toInt64 ≤ maxCoordinate := by
    intro d
    rw [Double.toInt64_eq]
    simp only [minCoordinate, maxCoordinate, Double.minInt64, Double.maxInt64]
    split <;> omega
  rw [Steady, reread] at h
  rw [← h]
  exact ⟨hrange _, hrange _⟩

lemma steady_of_le {p : Position} (hx : p.x.natAbs ≤ 2 ^ 53) (hy : p.y.natAbs ≤ 2 ^ 53) :
    p.Steady := by
  have hrange : p.InRange := by
    constructor <;> simp only [minCoordinate, maxCoordinate, Double.minInt64, Double.maxInt64] <;>
      omega
  rw [Steady, reread, Double.toInt64_ofInt (Double.fits_of_le hx) hrange.x.1 hrange.x.2,
    Double.toInt64_ofInt (Double.fits_of_le hy) hrange.y.1 hrange.y.2]

end Position

namespace Node

/-- The node as it is read back. -/
def reread (n : Node) : Node := { n with position := n.position.reread }

/-- Nodes are read back as they are just if their places are. -/
lemma map_reread_eq_iff {nodes : List Node} :
    nodes.map reread = nodes ↔ ∀ n ∈ nodes, n.position.Steady := by
  have hnode : ∀ n : Node, n.reread = n ↔ n.position.Steady := by
    rintro ⟨id, type, data, position⟩
    simp [reread, Position.Steady]
  have hmap := @List.map_inj_left _ _ nodes reread fun n => n
  rw [List.map_id'] at hmap
  simpa [hnode] using hmap

lemma decode_toDraft (n : Node) (room : Nat) :
    decode (room + 2) n.toJson.toDraft
      = if n.data.toJson.nesting ≤ room + 1 then .ok n.reread else .error .malformed := by
  have hdata := NodeData.decode_toDraft n.data (room + 1)
  -- everything but the data is decoded by computation
  have hdecode : decode (room + 2) n.toJson.toDraft
      = (NodeData.decode (room + 1) n.data.toJson.toDraft).bind fun data =>
          .ok { n.reread with data } := by
    cases h : NodeData.decode (room + 1) n.data.toJson.toDraft <;>
      simp [decode, Node.toJson, Json.toDraft, Json.membersToDraft, Decoder.record,
        Decoder.recordParts, Decoder.fieldsByName, fields, decodeType, Decoder.string, Except.map,
        Except.bind, Decoder.close, Position.decode_toDraft, reread, h]
  rw [hdecode, hdata]
  split <;> rfl

end Node

lemma Edge.decode_toDraft (e : Edge) (room : Nat) :
    decode (room + 1) e.toJson.toDraft = .ok e := rfl

namespace Snapshot

/-- The snapshot as it is read back. -/
def reread (s : Snapshot) : Snapshot := { s with nodes := s.nodes.map Node.reread }

lemma list_nodes_toDraft (nodes : List Node) (room : Nat) :
    Decoder.list Node.decode (room + 3) (Json.arr (nodes.map Node.toJson)).toDraft
      = if ∀ n ∈ nodes, n.data.toJson.nesting ≤ room + 1 then .ok (nodes.map Node.reread)
        else .error .malformed :=
  Decoder.items_toDraft (fun n _ => n.decode_toDraft room) []

lemma list_edges_toDraft (edges : List Edge) (room : Nat) :
    Decoder.list Edge.decode (room + 2) (Json.arr (edges.map Edge.toJson)).toDraft = .ok edges := by
  have hlist : Decoder.list Edge.decode (room + 2) (Json.arr (edges.map Edge.toJson)).toDraft
      = if ∀ e ∈ edges, True then .ok (edges.map id) else .error .malformed :=
    Decoder.items_toDraft (fun e _ => e.decode_toDraft room) []
  simpa using hlist

/-- Members of other names are passed over, and the two lists are read. -/
lemma decode_toDraft (s : Snapshot) {extra : Json.Members}
    (hextra : ∀ m ∈ extra, m.1 ≠ "nodes" ∧ m.1 ≠ "edges") (room : Nat) :
    decode (room + 4) (Json.obj (extra ++ s.members)).toDraft
      = if ∀ n ∈ s.nodes, n.data.toJson.nesting ≤ room + 1 then .ok s.reread
        else .error .malformed := by
  have hparts : Decoder.fieldsByName fields (room + 3) true {}
      (Json.membersToDraft (extra ++ s.members))
        = if ∀ n ∈ s.nodes, n.data.toJson.nesting ≤ room + 1
          then .ok ⟨some (s.nodes.map Node.reread), some s.edges⟩ else .error .malformed := by
    induction extra with
    | nil =>
      have hnodes := list_nodes_toDraft s.nodes room
      have hedges := list_edges_toDraft s.edges (room + 1)
      rw [List.nil_append, members]
      by_cases h : ∀ n ∈ s.nodes, n.data.toJson.nesting ≤ room + 1
      · rw [if_pos h] at hnodes ⊢
        simp [Json.membersToDraft, Decoder.fieldsByName, fields, hnodes, hedges, Except.map,
          Decoder.close]
      · rw [if_neg h] at hnodes ⊢
        simp [Json.membersToDraft, Decoder.fieldsByName, fields, hnodes, Except.map]
    | cons m rest ih =>
      obtain ⟨hnodes, hedges⟩ := hextra m (by simp)
      have hunknown : fields.find? (·.name == m.1) = none := by
        simp [fields, hnodes.symm, hedges.symm]
      rw [List.cons_append, Json.membersToDraft, Decoder.fieldsByName_of_unknown hunknown]
      exact ih fun k hk => hextra k (by simp [hk])
  rw [decode, Decoder.record, Json.toDraft, Decoder.recordParts, hparts]
  by_cases h : ∀ n ∈ s.nodes, n.data.toJson.nesting ≤ room + 1
  · rw [if_pos h, if_pos h]
    rfl
  · rw [if_neg h, if_neg h]

/-- All numbers of a written snapshot are integers if those of the data are. -/
lemma whole_members {s : Snapshot} (hdata : ∀ n ∈ s.nodes, n.data.toJson.Whole)
    (hplaces : ∀ n ∈ s.nodes, n.position.InRange) : Json.MembersWhole s.members := by
  have hcoordinate : ∀ n : Int, Position.minCoordinate ≤ n ∧ n ≤ Position.maxCoordinate →
      (Json.Number.int n).IsWhole := by
    rintro n ⟨hmin, hmax⟩
    rw [Position.minCoordinate, Double.minInt64] at hmin
    rw [Position.maxCoordinate, Double.maxInt64] at hmax
    exact ⟨hmin, by omega⟩
  have hnodes : ∀ n ∈ s.nodes, n.toJson.Whole := by
    intro n hn
    have hx := hcoordinate _ (hplaces n hn).x
    have hy := hcoordinate _ (hplaces n hn).y
    simp [Node.toJson, Position.toJson, Json.Whole, Json.MembersWhole, hdata n hn, hx, hy]
  have hedges : ∀ e ∈ s.edges, e.toJson.Whole := by
    intro e _
    simp [Edge.toJson, Json.Whole, Json.MembersWhole]
  simpa [members, Json.MembersWhole, Json.Whole, Json.itemsWhole_iff] using ⟨hnodes, hedges⟩

/-- A text in which a snapshot is written, among members of other names and in any style, is read
just if the data of no node nests more than 124 levels, and then with every place as it is read
back. -/
lemma ofText_write {style : Json.Style} (hstyle : style.Blank) {s : Snapshot}
    {extra : Json.Members} (hextra : ∀ m ∈ extra, m.1 ≠ "nodes" ∧ m.1 ≠ "edges")
    (hwhole : Json.MembersWhole extra) (hdata : ∀ n ∈ s.nodes, n.data.toJson.Whole)
    (hplaces : ∀ n ∈ s.nodes, n.position.InRange) :
    ofText ((Json.obj (extra ++ s.members)).write style)
      = if ∀ n ∈ s.nodes, n.data.toJson.nesting ≤ 124 then .ok s.reread
        else .error .unreadable := by
  have hmembers : (Json.obj (extra ++ s.members)).Whole := by
    rw [Json.Whole, Json.membersWhole_iff]
    intro m hm
    rcases List.mem_append.1 hm with hm | hm
    · exact (Json.membersWhole_iff _).1 hwhole m hm
    · exact (Json.membersWhole_iff _).1 (whole_members hdata hplaces) m hm
  have hdecode := s.decode_toDraft hextra 123
  rw [ofText, Decoder.ofText_write _ hstyle hmembers, Json.maxNesting, hdecode]
  by_cases h : ∀ n ∈ s.nodes, n.data.toJson.nesting ≤ 124
  · rw [if_pos h, if_pos h]
  · rw [if_neg h, if_neg h]

lemma ofText_text_of_steady {s : Snapshot} (hdata : ∀ n ∈ s.nodes, n.data.toJson.Whole)
    (hnesting : ∀ n ∈ s.nodes, n.data.toJson.nesting ≤ 124)
    (hplaces : ∀ n ∈ s.nodes, n.position.Steady) : ofText s.text = .ok s := by
  have htext := @ofText_write .pretty Json.Style.blank_pretty s [] (by simp) trivial hdata
    fun n hn => (hplaces n hn).inRange
  rw [if_pos hnesting, reread, Node.map_reread_eq_iff.2 hplaces] at htext
  exact htext

/-- The text of a snapshot is read as that snapshot, with nodes, edges and the members of all data
in their order, if the numbers in the data are 64-bit integers, the data nests at most 124 levels
and coordinates are at most `2 ^ 53` in magnitude. -/
theorem ofText_text (s : Snapshot) (hdata : ∀ n ∈ s.nodes, n.data.toJson.Whole)
    (hnesting : ∀ n ∈ s.nodes, n.data.toJson.nesting ≤ 124)
    (hplaces : ∀ n ∈ s.nodes, n.position.x.natAbs ≤ 2 ^ 53 ∧ n.position.y.natAbs ≤ 2 ^ 53) :
    ofText s.text = .ok s := by
  refine ofText_text_of_steady hdata hnesting fun n hn => ?_
  obtain ⟨hx, hy⟩ := hplaces n hn
  exact Position.steady_of_le hx hy

/-- A snapshot that no graph has: its two nodes have one id, and so have its two edges, which lead
nowhere.  The data of the first node nests as deep as it may. -/
def untidy : Snapshot where
  nodes := [
    { id := "\"\\/\n\x01é", type := .unknown, position := ⟨-0x20000000000000, 0x20000000000000⟩,
      data := ⟨[("", .tower 123), ("\t", .num (.int 0xFFFFFFFFFFFFFFFF)),
          ("b", .arr [.num (.int (-0x8000000000000000)), .bool true, .str "\x1f😀", .obj []])],
        by simp [Json.KeysDistinct, Json.MembersDistinct, Json.ItemsDistinct,
          Json.keysDistinct_tower]⟩ },
    { id := "\"\\/\n\x01é", type := .flow }]
  edges := [⟨"", "x", "y"⟩, ⟨"", "y", "x"⟩]

theorem ofText_text_untidy : (∃ n ∈ untidy.nodes, n.data.toJson.nesting = 124) ∧
    ofText untidy.text = .ok untidy := by
  refine ⟨⟨_, List.mem_cons_self, ?_⟩, ofText_text untidy ?_ ?_ (by decide)⟩
  · simp [NodeData.toJson, Json.nesting, Json.membersNesting, Json.itemsNesting]
  · simp [untidy, NodeData.toJson, NodeData.empty, Json.Whole, Json.MembersWhole, Json.ItemsWhole,
      Json.whole_tower, Json.Number.IsWhole]
  · simp [untidy, NodeData.toJson, NodeData.empty, Json.nesting, Json.membersNesting,
      Json.itemsNesting]

end Snapshot

end Chatflow
