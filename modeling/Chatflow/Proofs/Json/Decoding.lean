/-
# What a decoder can give

A decoded list has only items that the decoder of its items gives (`Decoder.forall_of_list`), and a
decoded record has parts that can be come to from the blank ones by reading fields, in whatever
order (`Decoder.recordParts_induct`).  So what every field keeps holds of every decoded record,
whatever the text is.
-/
import Mathlib.Data.List.Basic
import Chatflow.Json.Decode

namespace Chatflow.Json.Decoder

variable {α β σ : Type}

lemma exists_of_map_eq_ok {ε : Type} {x : Except ε α} {f : α → β} {b : β} (h : x.map f = .ok b) :
    ∃ a, x = .ok a ∧ f a = b := by
  cases x with
  | error e => simp [Except.map] at h
  | ok a => exact ⟨a, rfl, Except.ok.inj h⟩

lemma exists_of_bind_eq_ok {ε : Type} {x : Except ε α} {f : α → Except ε β} {b : β}
    (h : x.bind f = .ok b) : ∃ a, x = .ok a ∧ f a = .ok b := by
  cases x with
  | error e => simp [Except.bind] at h
  | ok a => exact ⟨a, rfl, h⟩

/-- What a text is decoded to is decoded from a draft. -/
lemma exists_of_ofText {decode : Decoder α} {text : String} {a : α}
    (h : ofText decode text = .ok a) : ∃ d, decode maxNesting d = .ok a := by
  refine ⟨(Reading.ofText text).draft, ?_⟩
  rw [ofText, ofReading] at h
  split at h
  · simp at h
  · next hdecode =>
    rw [close] at h
    split at h
    · rwa [← Except.ok.inj h]
    · simp at h

/-- What is refused gives nothing. -/
lemma refuse_ne_ok (d : Draft) (a : α) : (d.refuse : Except Fault α) ≠ .ok a := by
  unfold Draft.refuse
  split <;> simp

lemma forall_of_items {P : α → Prop} {decode : Draft → Except Fault α} {closed : Bool}
    (hdecode : ∀ d a, decode d = .ok a → P a) {before as : List α} {ds : List Draft}
    (hbefore : ∀ a ∈ before, P a) (h : items decode closed before ds = .ok as) :
    ∀ a ∈ as, P a := by
  induction ds generalizing before with
  | nil =>
    rw [items, close] at h
    split at h
    · obtain rfl := Except.ok.inj h
      simpa using hbefore
    · simp at h
  | cons d rest ih =>
    rw [items] at h
    split at h
    · next a ha =>
      refine ih (fun b hb => ?_) h
      rcases List.mem_cons.1 hb with rfl | hb
      · exact hdecode d b ha
      · exact hbefore b hb
    · simp at h

/-- What holds of all that a decoder gives holds of the items of a list. -/
lemma forall_of_list {P : α → Prop} {decode : Decoder α}
    (hdecode : ∀ room d a, decode room d = .ok a → P a) {room : Nat} {d : Draft} {as : List α}
    (h : list decode room d = .ok as) : ∀ a ∈ as, P a := by
  unfold list at h
  split at h
  · simp at h
  · exact forall_of_items (hdecode _) (by simp) h
  · exact absurd h (refuse_ne_ok _ _)

section

variable {P : σ → Prop} {fields : List (Field σ)}

/-- Reading the field keeps the property, whatever is read. -/
def Field.Keeps (P : σ → Prop) (field : Field σ) : Prop :=
  ∀ room d parts parts', P parts → field.read room d parts = .ok parts' → P parts'

/-- A field that puts a decoded value among the parts keeps what putting such a value keeps. -/
lemma Field.keeps_map {name : String} {isSet : σ → Bool} {decode : Decoder α} {put : σ → α → σ}
    (h : ∀ room d a parts, decode room d = .ok a → P parts → P (put parts a)) :
    Keeps P ⟨name, isSet, fun room d parts => (decode room d).map (put parts)⟩ := by
  intro room d parts parts' hparts hread
  obtain ⟨a, ha, rfl⟩ := exists_of_map_eq_ok hread
  exact h room d a parts ha hparts

lemma fieldsByName_induct (hkeeps : ∀ field ∈ fields, field.Keeps P) {room : Nat} {closed : Bool}
    {parts parts' : σ} {members : List (Option String × Draft)} (hparts : P parts)
    (h : fieldsByName fields room closed parts members = .ok parts') : P parts' := by
  induction members generalizing parts with
  | nil =>
    rw [fieldsByName, close] at h
    split at h
    · rwa [← Except.ok.inj h]
    · simp at h
  | cons m rest ih =>
    obtain ⟨key, d⟩ := m
    cases key with
    | none => simp [fieldsByName] at h
    | some key =>
      rw [fieldsByName] at h
      split at h
      · exact ih hparts h
      · next field hfield =>
        split at h
        · simp at h
        · split at h
          · next hread =>
            exact ih (hkeeps field (List.mem_of_find?_eq_some hfield) _ _ _ _ hparts hread) h
          · simp at h

lemma fieldsInOrder_induct (hkeeps : ∀ field ∈ fields, field.Keeps P) {room : Nat} {closed : Bool}
    {parts parts' : σ} {ds : List Draft} (hparts : P parts)
    (h : fieldsInOrder room closed fields parts ds = .ok parts') : P parts' := by
  induction ds generalizing fields parts with
  | nil =>
    rw [fieldsInOrder, close] at h
    split at h
    · rwa [← Except.ok.inj h]
    · simp at h
  | cons d rest ih =>
    cases fields with
    | nil => simp [fieldsInOrder] at h
    | cons field fields =>
      rw [fieldsInOrder] at h
      split at h
      · next hread =>
        exact ih (fun f hf => hkeeps f (List.mem_cons_of_mem _ hf))
          (hkeeps field List.mem_cons_self _ _ _ _ hparts hread) h
      · simp at h

/-- What holds of the blank parts and is kept by every field holds of the parts of a decoded
record. -/
lemma recordParts_induct {blank parts : σ} {room : Nat} {d : Draft}
    (h : recordParts fields blank room d = .ok parts) (hblank : P blank)
    (hkeeps : ∀ field ∈ fields, field.Keeps P) : P parts := by
  unfold recordParts at h
  split at h
  · simp at h
  · simp at h
  · exact fieldsByName_induct hkeeps hblank h
  · exact fieldsInOrder_induct hkeeps hblank h
  · exact absurd h (refuse_ne_ok _ _)

end

/-- A decoded record is put together from its parts. -/
lemma exists_of_record {fields : List (Field σ)} {blank : σ} {complete : σ → Option α} {room : Nat}
    {d : Draft} {a : α} (h : record fields blank complete room d = .ok a) :
    ∃ parts, recordParts fields blank room d = .ok parts ∧ complete parts = some a := by
  rw [record] at h
  split at h
  · simp at h
  · next parts hparts =>
    split at h
    · next hcomplete => exact ⟨parts, hparts, by rw [hcomplete, Except.ok.inj h]⟩
    · simp at h

end Chatflow.Json.Decoder
