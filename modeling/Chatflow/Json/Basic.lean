/-
# JSON values

Objects keep the order of their members.  A number is either an integer or a double; integers
are those written without fraction and exponent in the range of a signed or unsigned 64-bit word.

`Json.KeysDistinct` says that no object inside a value repeats a key.  Every value read from text
has this property (`Json.Members.insert` replaces the value of a key that is already there and leaves
it in its place), and so does every value the library writes.
-/
import Chatflow.Decimal.Double

namespace Chatflow

/-- A JSON number. -/
inductive Json.Number where
  /-- A whole number. -/
  | int (n : Int)
  /-- Any other number. -/
  | double (d : Double)
deriving DecidableEq, Repr

/-- A JSON value. -/
inductive Json where
  | null
  | bool (b : Bool)
  | num (n : Json.Number)
  | str (s : String)
  | arr (items : List Json)
  | obj (members : List (String × Json))
deriving Repr, Inhabited

namespace Json

/-- The members of an object, in order. -/
abbrev Members := List (String × Json)

/-- A natural number as a JSON value. -/
def ofNat (n : Nat) : Json := .num (.int n)

/-- A JSON array of strings. -/
def ofStrings (xs : List String) : Json := .arr (xs.map .str)

/-- A string, or null where there is none. -/
def ofString? : Option String → Json
  | some s => .str s
  | none => .null

/-- The value of the first member called `key`. -/
def Members.get? (members : Members) (key : String) : Option Json := members.lookup key

/-- The value of a member of an object; nothing for other values. -/
def get? (j : Json) (key : String) : Option Json :=
  match j with
  | .obj members => Members.get? members key
  | _ => none

/-- The text of a string value. -/
def string? : Json → Option String
  | .str s => some s
  | _ => none

/-- Sets a member: in its old place if the key is there, at the end otherwise. -/
def Members.insert (key : String) (value : Json) : Members → Members
  | [] => [(key, value)]
  | (k, v) :: rest =>
    if k = key then (k, value) :: rest else (k, v) :: insert key value rest

/-! ### Equality -/

mutual

/-- Equality of values is decided along their structure. -/
def decEq : (a b : Json) → Decidable (a = b)
  | .null, .null => isTrue rfl
  | .bool a, .bool b => if h : a = b then isTrue (h ▸ rfl) else isFalse (by simpa using h)
  | .num a, .num b => if h : a = b then isTrue (h ▸ rfl) else isFalse (by simpa using h)
  | .str a, .str b => if h : a = b then isTrue (h ▸ rfl) else isFalse (by simpa using h)
  | .arr a, .arr b =>
    match decEqItems a b with
    | isTrue h => isTrue (h ▸ rfl)
    | isFalse h => isFalse (by simpa using h)
  | .obj a, .obj b =>
    match decEqMembers a b with
    | isTrue h => isTrue (h ▸ rfl)
    | isFalse h => isFalse (by simpa using h)
  | .null, .bool _ | .null, .num _ | .null, .str _ | .null, .arr _ | .null, .obj _
  | .bool _, .null | .bool _, .num _ | .bool _, .str _ | .bool _, .arr _ | .bool _, .obj _
  | .num _, .null | .num _, .bool _ | .num _, .str _ | .num _, .arr _ | .num _, .obj _
  | .str _, .null | .str _, .bool _ | .str _, .num _ | .str _, .arr _ | .str _, .obj _
  | .arr _, .null | .arr _, .bool _ | .arr _, .num _ | .arr _, .str _ | .arr _, .obj _
  | .obj _, .null | .obj _, .bool _ | .obj _, .num _ | .obj _, .str _ | .obj _, .arr _ =>
    isFalse (by simp)

/-- Equality of the items of two arrays. -/
def decEqItems : (a b : List Json) → Decidable (a = b)
  | [], [] => isTrue rfl
  | [], _ :: _ | _ :: _, [] => isFalse (by simp)
  | a :: as, b :: bs =>
    match decEq a b, decEqItems as bs with
    | isTrue h, isTrue hs => isTrue (h ▸ hs ▸ rfl)
    | isFalse h, _ => isFalse (by simp [h])
    | _, isFalse hs => isFalse (by simp [hs])

/-- Equality of the members of two objects. -/
def decEqMembers : (a b : List (String × Json)) → Decidable (a = b)
  | [], [] => isTrue rfl
  | [], _ :: _ | _ :: _, [] => isFalse (by simp)
  | (j, a) :: as, (k, b) :: bs =>
    if hk : j = k then
      match decEq a b, decEqMembers as bs with
      | isTrue h, isTrue hs => isTrue (hk ▸ h ▸ hs ▸ rfl)
      | isFalse h, _ => isFalse (by simp [h])
      | _, isFalse hs => isFalse (by simp [hs])
    else isFalse (by simp [hk])

end

instance : DecidableEq Json := decEq

/-! ### Distinct keys -/

mutual

/-- No object inside the value repeats a key. -/
def KeysDistinct : Json → Prop
  | .arr items => ItemsDistinct items
  | .obj members => (members.map (·.1)).Nodup ∧ MembersDistinct members
  | _ => True

/-- The same of every item. -/
def ItemsDistinct : List Json → Prop
  | [] => True
  | item :: rest => KeysDistinct item ∧ ItemsDistinct rest

/-- The same of every member's value. -/
def MembersDistinct : List (String × Json) → Prop
  | [] => True
  | (_, value) :: rest => KeysDistinct value ∧ MembersDistinct rest

end

theorem itemsDistinct_iff (items : List Json) :
    ItemsDistinct items ↔ ∀ j ∈ items, j.KeysDistinct := by
  induction items with
  | nil => simp [ItemsDistinct]
  | cons j rest ih => simp [ItemsDistinct, ih]

theorem membersDistinct_iff (members : Members) :
    MembersDistinct members ↔ ∀ m ∈ members, m.2.KeysDistinct := by
  induction members with
  | nil => simp [MembersDistinct]
  | cons m rest ih => simp [MembersDistinct, ih]

theorem Members.mem_keys_insert (key : String) (value : Json) (members : Members) (k : String) :
    k ∈ (Members.insert key value members).map (·.1) ↔ k = key ∨ k ∈ members.map (·.1) := by
  fun_induction Members.insert key value members <;> grind

theorem Members.nodup_insert {key : String} {value : Json} {members : Members}
    (h : (members.map (·.1)).Nodup) : ((Members.insert key value members).map (·.1)).Nodup := by
  fun_induction Members.insert key value members with
  | case1 => simp
  | case2 v rest => simpa using h
  | case3 k v rest hk ih =>
    simp only [List.map_cons, List.nodup_cons, Members.mem_keys_insert] at h ⊢
    exact ⟨by grind, ih h.2⟩

theorem Members.distinct_insert {key : String} {value : Json} {members : Members}
    (hv : value.KeysDistinct) (h : MembersDistinct members) :
    MembersDistinct (Members.insert key value members) := by
  fun_induction Members.insert key value members <;> simp_all [MembersDistinct]

/-- An object without members repeats no key. -/
theorem keysDistinct_obj_nil : (Json.obj []).KeysDistinct := by
  simp [KeysDistinct, MembersDistinct]

/-- Setting a member of an object keeps its keys distinct. -/
theorem keysDistinct_insert {key : String} {value : Json} {members : Members}
    (hv : value.KeysDistinct) (h : (Json.obj members).KeysDistinct) :
    (Json.obj (Members.insert key value members)).KeysDistinct := by
  simp only [KeysDistinct] at h ⊢
  exact ⟨Members.nodup_insert h.1, Members.distinct_insert hv h.2⟩

end Json

end Chatflow
