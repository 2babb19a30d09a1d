/-
# Decoding drafts

A decoder takes a draft apart in text order and stops at the first fault: `Fault.malformed` where
the text is not JSON, `Fault.mismatched` where it is JSON but not what is expected.  A value that a
decoder passes over is only required to be well-formed text: half of a surrogate pair, a number too
large for a double and nesting of any depth are faults only in values that are used.  In those at
most 127 arrays and objects may be nested.

Records are decoded from an object, with members in any order, members of other names ignored and
none of its own names repeated; or from an array of the fields in their order, where fields may be
missing only at the end.  `Decoder.record` does both from one list of fields.
-/
import Chatflow.Json.Draft

namespace Chatflow.Json

/-- Why a draft cannot be decoded. -/
inductive Fault where
  /-- The text is not JSON. -/
  | malformed
  /-- The value has not the expected shape. -/
  | mismatched
deriving DecidableEq, Repr

/-- How many arrays and objects may be nested in each other. -/
def maxNesting : Nat := 127

/-- A decoder of values.  The first argument is how many more containers may be opened. -/
abbrev Decoder (α : Type) := Nat → Draft → Except Fault α

/-- The fault of a draft that has not the expected shape; a text that stops being JSON there is
malformed all the same. -/
def Draft.refuse {α : Type} : Draft → Except Fault α
  | .cut | .num none | .str none => .error .malformed
  | _ => .error .mismatched

namespace Decoder

/-- Decodes a string. -/
def string : Decoder String
  | _, .str (some s) => .ok s
  | _, d => d.refuse

/-- Decodes a number. -/
def number : Decoder Number
  | _, .num (some n) => .ok n
  | _, d => d.refuse

/-- Decodes a value that may also be null. -/
def orNull {α : Type} (decode : Decoder α) : Decoder (Option α)
  | _, .null => .ok none
  | room, d => (decode room d).map some

/-- The end of a container: it must have been closed. -/
def close {α : Type} (closed : Bool) (a : α) : Except Fault α :=
  if closed then .ok a else .error .malformed

/-- Decodes items behind those decoded so far, which come last first. -/
def items {α : Type} (decode : Draft → Except Fault α) (closed : Bool) :
    List α → List Draft → Except Fault (List α)
  | before, [] => close closed before.reverse
  | before, d :: rest =>
    match decode d with
    | .ok a => items decode closed (a :: before) rest
    | .error e => .error e

/-- Decodes an array of like items. -/
def list {α : Type} (decode : Decoder α) : Decoder (List α)
  | 0, .arr _ _ => .error .malformed
  | room + 1, .arr ds closed => items (decode room) closed [] ds
  | _, d => d.refuse

/-! ### Records -/

/-- A field of a record whose parts are collected in `σ`. -/
structure Field (σ : Type) where
  /-- The name of the field. -/
  name : String
  /-- Whether the field has been read. -/
  isSet : σ → Bool
  /-- Reads the field. -/
  read : Nat → Draft → σ → Except Fault σ

/-- Decodes the members of an object. -/
def fieldsByName {σ : Type} (fields : List (Field σ)) (room : Nat) (closed : Bool) :
    σ → List (Option String × Draft) → Except Fault σ
  | parts, [] => close closed parts
  | _, (none, _) :: _ => .error .malformed
  | parts, (some key, d) :: rest =>
    match fields.find? (·.name == key) with
    | none => fieldsByName fields room closed parts rest
    | some field =>
      if field.isSet parts then .error .mismatched
      else match field.read room d parts with
        | .ok parts => fieldsByName fields room closed parts rest
        | .error e => .error e

/-- Decodes the items of an array as the fields in their order. -/
def fieldsInOrder {σ : Type} (room : Nat) (closed : Bool) :
    List (Field σ) → σ → List Draft → Except Fault σ
  | _, parts, [] => close closed parts
  | [], _, _ :: _ => .error .malformed
  | field :: fields, parts, d :: rest =>
    match field.read room d parts with
    | .ok parts => fieldsInOrder room closed fields parts rest
    | .error e => .error e

/-- Decodes the parts of a record. -/
def recordParts {σ : Type} (fields : List (Field σ)) (blank : σ) : Decoder σ
  | 0, .arr _ _ => .error .malformed
  | 0, .obj _ _ => .error .malformed
  | room + 1, .obj members closed => fieldsByName fields room closed blank members
  | room + 1, .arr ds closed => fieldsInOrder room closed fields blank ds
  | _, d => d.refuse

/-- Decodes a record.  When the container has been read `complete` puts the parts together; it has
no answer if a part is missing. -/
def record {σ α : Type} (fields : List (Field σ)) (blank : σ) (complete : σ → Option α) :
    Decoder α := fun room d =>
  match recordParts fields blank room d with
  | .error e => .error e
  | .ok parts => match complete parts with
    | some a => .ok a
    | none => .error .mismatched

/-! ### Any value -/

mutual

/-- Decodes any value.  Of the members with one key the last gives the value and the first the
place. -/
def json : Nat → Draft → Except Fault Json
  | _, .cut => .error .malformed
  | _, .null => .ok .null
  | _, .bool b => .ok (.bool b)
  | _, .num (some n) => .ok (.num n)
  | _, .num none => .error .malformed
  | _, .str (some s) => .ok (.str s)
  | _, .str none => .error .malformed
  | 0, .arr _ _ => .error .malformed
  | room + 1, .arr ds closed => (jsonItems room closed [] ds).map .arr
  | 0, .obj _ _ => .error .malformed
  | room + 1, .obj ms closed => (jsonMembers room closed [] ms).map .obj

/-- Decodes the items of an array behind those decoded so far, which come last first. -/
def jsonItems (room : Nat) (closed : Bool) :
    List Json → List Draft → Except Fault (List Json)
  | before, [] => close closed before.reverse
  | before, d :: rest =>
    match json room d with
    | .ok j => jsonItems room closed (j :: before) rest
    | .error e => .error e

/-- Decodes the members of an object into those decoded so far. -/
def jsonMembers (room : Nat) (closed : Bool) :
    Members → List (Option String × Draft) → Except Fault Members
  | before, [] => close closed before
  | _, (none, _) :: _ => .error .malformed
  | before, (some key, d) :: rest =>
    match json room d with
    | .ok j => jsonMembers room closed (before.insert key j) rest
    | .error e => .error e

end

/-- Decodes the members of an object. -/
def members : Decoder Members
  | 0, .obj _ _ => .error .malformed
  | room + 1, .obj ms closed => jsonMembers room closed [] ms
  | _, d => d.refuse

mutual

/-- A decoded value repeats no key. -/
theorem keysDistinct_of_json : ∀ {room : Nat} {d : Draft} {j : Json},
    json room d = .ok j → j.KeysDistinct
  | _, .cut, _, h | _, .num none, _, h | _, .str none, _, h | 0, .arr _ _, _, h
  | 0, .obj _ _, _, h => by simp [json] at h
  | _, .null, _, h | _, .bool _, _, h | _, .num (some _), _, h | _, .str (some _), _, h => by
    simp only [json, Except.ok.injEq] at h; subst h; simp [KeysDistinct]
  | room + 1, .arr ds closed, j, h => by
    simp only [json] at h
    cases hi : jsonItems room closed [] ds with
    | error e => simp [hi, Except.map] at h
    | ok js =>
      simp only [hi, Except.map, Except.ok.injEq] at h
      subst h
      exact itemsDistinct_of_jsonItems (by simp [ItemsDistinct]) hi
  | room + 1, .obj ms closed, j, h => by
    simp only [json] at h
    cases hi : jsonMembers room closed [] ms with
    | error e => simp [hi, Except.map] at h
    | ok js =>
      simp only [hi, Except.map, Except.ok.injEq] at h
      subst h
      exact keysDistinct_of_jsonMembers keysDistinct_obj_nil hi

theorem itemsDistinct_of_jsonItems {room : Nat} {closed : Bool} :
    ∀ {ds : List Draft} {before js : List Json}, ItemsDistinct before →
      jsonItems room closed before ds = .ok js → ItemsDistinct js
  | [], before, js, hb, h => by
    cases closed <;> simp [jsonItems, close] at h
    subst h
    simpa [itemsDistinct_iff] using hb
  | d :: rest, before, js, hb, h => by
    rw [jsonItems] at h
    cases hd : json room d with
    | error e => simp [hd] at h
    | ok j =>
      simp only [hd] at h
      have hb' : ItemsDistinct (j :: before) := ⟨keysDistinct_of_json hd, hb⟩
      exact itemsDistinct_of_jsonItems hb' h

theorem keysDistinct_of_jsonMembers {room : Nat} {closed : Bool} :
    ∀ {ms : List (Option String × Draft)} {before js : Members}, (obj before).KeysDistinct →
      jsonMembers room closed before ms = .ok js → (obj js).KeysDistinct
  | [], before, js, hb, h => by
    cases closed <;> simp [jsonMembers, close] at h
    subst h
    exact hb
  | (none, _) :: _, _, _, _, h => by simp [jsonMembers] at h
  | (some key, d) :: rest, before, js, hb, h => by
    rw [jsonMembers] at h
    cases hd : json room d with
    | error e => simp [hd] at h
    | ok j =>
      simp only [hd] at h
      exact keysDistinct_of_jsonMembers (keysDistinct_insert (keysDistinct_of_json hd) hb) h

end

/-- Decoded members repeat no key. -/
theorem keysDistinct_of_members {room : Nat} {d : Draft} {ms : Members}
    (h : members room d = .ok ms) : (obj ms).KeysDistinct := by
  unfold members at h
  split at h
  · simp at h
  · exact keysDistinct_of_jsonMembers keysDistinct_obj_nil h
  · rename_i d _ _
    unfold Draft.refuse at h
    split at h <;> simp at h

/-! ### Whole texts -/

/-- Decodes a whole text; nothing but white space may come behind the value. -/
def ofReading {α : Type} (decode : Decoder α) (r : Reading) : Except Fault α :=
  match decode maxNesting r.draft with
  | .error e => .error e
  | .ok a => close r.ended a

/-- Decodes a whole text. -/
def ofText {α : Type} (decode : Decoder α) (s : String) : Except Fault α :=
  ofReading decode (.ofText s)

end Decoder

end Chatflow.Json
