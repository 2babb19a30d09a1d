/-
# Places that are read are read again

A place that is read, from a saved text or from a request, has been rounded to what a double can
hold.  So whatever the text is, the places that come of it are read back as they are: that of a
single decoder (`Position.steady_of_decode`), and those of all nodes of a snapshot
(`Snapshot.steady_of_ofText`).
-/
import Chatflow.Proofs.Json.Decoding
import Chatflow.Proofs.SavedText

namespace Chatflow

open Json (Decoder)

namespace Position

/-- A place that is moved stays in range. -/
lemma inRange_offset (p : Position) (dx dy : Int) : (p.offset dx dy).InRange := by
  have hclamp : ∀ n, minCoordinate ≤ clamp n ∧ clamp n ≤ maxCoordinate := by
    intro n
    simp only [clamp, minCoordinate, maxCoordinate, Double.minInt64, Double.maxInt64]
    omega
  exact ⟨hclamp _, hclamp _⟩

lemma steady_default : Steady {} := by decide

lemma steady_of_decodeCoordinate {room : Nat} {d : Json.Draft} {c : Int}
    (h : decodeCoordinate room d = .ok c) : (Double.ofInt c).toInt64 = c := by
  obtain ⟨n, -, rfl⟩ := Decoder.exists_of_map_eq_ok h
  cases n with
  | int n => exact Double.toInt64_ofInt_toInt64 _
  | double x => exact Double.toInt64_ofInt_toInt64 x

/-- A place that was read is read back as it is. -/
lemma steady_of_decode {room : Nat} {d : Json.Draft} {p : Position} (h : decode room d = .ok p) :
    p.Steady := by
  obtain ⟨⟨x, y⟩, hparts, hcomplete⟩ := Decoder.exists_of_record h
  have hsteady : (∀ c ∈ x, (Double.ofInt c).toInt64 = c) ∧
      ∀ c ∈ y, (Double.ofInt c).toInt64 = c := by
    refine Decoder.recordParts_induct (P := fun parts : Parts =>
      (∀ c ∈ parts.x, (Double.ofInt c).toInt64 = c) ∧
        ∀ c ∈ parts.y, (Double.ofInt c).toInt64 = c) hparts (by simp) ?_
    simp only [fields, List.forall_mem_cons]
    refine ⟨Decoder.Field.keeps_map ?_, Decoder.Field.keeps_map ?_, by simp⟩
    · intro room d c parts hc hold
      simpa using ⟨steady_of_decodeCoordinate hc, hold.2⟩
    · intro room d c parts hc hold
      simpa using ⟨hold.1, steady_of_decodeCoordinate hc⟩
  cases x with
  | none => simp at hcomplete
  | some x =>
    cases y with
    | none => simp at hcomplete
    | some y =>
      obtain rfl : (⟨x, y⟩ : Position) = p := by simpa using hcomplete
      rw [Steady, reread, hsteady.1 x rfl, hsteady.2 y rfl]

end Position

/-- The place of a node that was read is read back as it is. -/
lemma Node.steady_of_decode {room : Nat} {d : Json.Draft} {n : Node} (h : decode room d = .ok n) :
    n.position.Steady := by
  obtain ⟨⟨id, type, data, position⟩, hparts, hcomplete⟩ := Decoder.exists_of_record h
  have hsteady : ∀ p ∈ position, p.Steady := by
    refine Decoder.recordParts_induct (P := fun parts : Parts => ∀ p ∈ parts.position, p.Steady)
      hparts (by simp) ?_
    simp only [fields, List.forall_mem_cons]
    refine ⟨Decoder.Field.keeps_map fun _ _ _ _ _ hold => hold,
      Decoder.Field.keeps_map fun _ _ _ _ _ hold => hold,
      Decoder.Field.keeps_map fun _ _ _ _ _ hold => hold, Decoder.Field.keeps_map ?_, by simp⟩
    intro room d p parts hp _
    simpa using Position.steady_of_decode hp
  cases id with
  | none => simp at hcomplete
  | some id =>
    cases type with
    | none => simp at hcomplete
    | some type =>
      obtain rfl : _ = n := by simpa using hcomplete
      cases position with
      | none => exact Position.steady_default
      | some position => exact hsteady position rfl

/-- All places of a snapshot that was read are read back as they are. -/
lemma Snapshot.steady_of_ofText {text : String} {s : Snapshot} (h : ofText text = .ok s) :
    ∀ n ∈ s.nodes, n.position.Steady := by
  rw [ofText] at h
  split at h
  · next hdecode =>
    obtain rfl := Except.ok.inj h
    obtain ⟨d, hd⟩ := Decoder.exists_of_ofText hdecode
    obtain ⟨⟨nodes, edges⟩, hparts, hcomplete⟩ := Decoder.exists_of_record hd
    have hsteady : ∀ list ∈ nodes, ∀ n ∈ list, n.position.Steady := by
      refine Decoder.recordParts_induct
        (P := fun parts : Parts => ∀ list ∈ parts.nodes, ∀ n ∈ list, n.position.Steady)
        hparts (by simp) ?_
      simp only [fields, List.forall_mem_cons]
      refine ⟨Decoder.Field.keeps_map ?_, Decoder.Field.keeps_map fun _ _ _ _ _ hold => hold,
        by simp⟩
      intro room d list parts hlist _
      simpa using Decoder.forall_of_list (fun _ _ _ => Node.steady_of_decode) hlist
    obtain rfl := Option.some.inj hcomplete
    cases nodes with
    | none => simp
    | some nodes => exact hsteady nodes rfl
  · simp at h

end Chatflow
