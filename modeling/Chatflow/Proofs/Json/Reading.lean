/-
# Reading written text

The tokens of a value are read into its draft (`Reading.ofText_write`), so different values are
written to different texts (`write_inj`).  The draft is decoded to the value again if no more arrays
and objects are nested in it than the decoder has room for (`Json.nesting`); if there are more, the
text is taken for malformed (`Decoder.json_toDraft`).
-/
import Mathlib.Data.List.Nodup
import Chatflow.Json.Decode
import Chatflow.Proofs.Json.Syntax

namespace Chatflow.Json

/-! ### Drafts -/

lemma complete_toDraft (j : Json) : j.toDraft.Complete := by
  induction j using induct with
  | arr items ih =>
    rw [toDraft, Draft.Complete, Draft.itemsComplete_iff]
    refine ⟨rfl, ?_⟩
    induction items with
    | nil => simp [itemsToDraft]
    | cons j rest ihrest =>
      rw [itemsToDraft, List.forall_mem_cons]
      exact ⟨ih j List.mem_cons_self, ihrest fun k hk => ih k (List.mem_cons_of_mem j hk)⟩
  | obj members ih =>
    rw [toDraft, Draft.Complete, Draft.membersComplete_iff]
    refine ⟨rfl, ?_⟩
    induction members with
    | nil => simp [membersToDraft]
    | cons m rest ihrest =>
      rw [membersToDraft, List.forall_mem_cons]
      exact ⟨ih m List.mem_cons_self, ihrest fun k hk => ih k (List.mem_cons_of_mem m hk)⟩
  | _ => trivial

lemma itemTokens_itemsToDraft {items : List Json} (h : ∀ j ∈ items, j.toDraft.tokens = j.tokens) :
    Draft.itemTokens (itemsToDraft items) = itemTokens items := by
  induction items with
  | nil => rfl
  | cons j rest ih =>
    rw [itemsToDraft, Draft.itemTokens, h j List.mem_cons_self,
      ih fun k hk => h k (List.mem_cons_of_mem j hk), itemTokens]

lemma memberTokens_membersToDraft {members : Members}
    (h : ∀ m ∈ members, m.2.toDraft.tokens = m.2.tokens) :
    Draft.memberTokens (membersToDraft members) = memberTokens members := by
  induction members with
  | nil => rfl
  | cons m rest ih =>
    rw [membersToDraft, Draft.memberTokens, h m List.mem_cons_self,
      ih fun k hk => h k (List.mem_cons_of_mem m hk), memberTokens]

/-- A value has the tokens of its draft. -/
lemma tokens_toDraft (j : Json) : j.toDraft.tokens = j.tokens := by
  induction j using induct with
  | arr items ih =>
    cases items with
    | nil => rfl
    | cons j rest =>
      have hrest := itemTokens_itemsToDraft fun k hk => ih k (List.mem_cons_of_mem j hk)
      rw [toDraft, itemsToDraft, Draft.tokens, ih j List.mem_cons_self, hrest, tokens]
  | obj members ih =>
    cases members with
    | nil => rfl
    | cons m rest =>
      have hrest := memberTokens_membersToDraft fun k hk => ih k (List.mem_cons_of_mem m hk)
      rw [toDraft, membersToDraft, Draft.tokens, ih m List.mem_cons_self, hrest, tokens]
  | _ => rfl

/-- A text that is written is read into the draft of the value. -/
lemma Reading.ofText_write {style : Style} (hstyle : style.Blank) {j : Json} (hj : j.Whole) :
    Reading.ofText (j.write style) = ⟨j.toDraft, true⟩ := by
  rw [Reading.ofText, Reading.ofTokens, Json.ofText_write hstyle hj, ← tokens_toDraft,
    Reader.foldl_tokens j.complete_toDraft]
  rfl

/-! ### Telling values apart -/

lemma itemsToDraft_inj {items items' : List Json}
    (h : ∀ j ∈ items, ∀ k : Json, j.toDraft = k.toDraft → j = k)
    (heq : itemsToDraft items = itemsToDraft items') : items = items' := by
  induction items generalizing items' with
  | nil => cases items' <;> simp_all [itemsToDraft]
  | cons j rest ih =>
    cases items' with
    | nil => simp [itemsToDraft] at heq
    | cons k rest' =>
      rw [itemsToDraft, itemsToDraft] at heq
      obtain ⟨hj, hrest⟩ := List.cons.inj heq
      rw [h j List.mem_cons_self k hj, ih (fun l hl => h l (List.mem_cons_of_mem j hl)) hrest]

lemma membersToDraft_inj {members members' : Members}
    (h : ∀ m ∈ members, ∀ k : Json, m.2.toDraft = k.toDraft → m.2 = k)
    (heq : membersToDraft members = membersToDraft members') : members = members' := by
  induction members generalizing members' with
  | nil => cases members' <;> simp_all [membersToDraft]
  | cons m rest ih =>
    cases members' with
    | nil => simp [membersToDraft] at heq
    | cons m' rest' =>
      rw [membersToDraft, membersToDraft] at heq
      obtain ⟨hm, hrest⟩ := List.cons.inj heq
      obtain ⟨hkey, hvalue⟩ := Prod.mk.inj hm
      rw [Prod.ext (Option.some.inj hkey) (h m List.mem_cons_self _ hvalue),
        ih (fun k hk => h k (List.mem_cons_of_mem m hk)) hrest]

/-- Values with the same draft are the same. -/
lemma toDraft_inj {j k : Json} (h : j.toDraft = k.toDraft) : j = k := by
  induction j using induct generalizing k with
  | null => cases k <;> simp_all [toDraft]
  | bool b => cases k <;> simp_all [toDraft]
  | num n => cases k <;> simp_all [toDraft]
  | str s => cases k <;> simp_all [toDraft]
  | arr items ih =>
    cases k with
    | arr items' =>
      rw [toDraft, toDraft, Draft.arr.injEq] at h
      rw [itemsToDraft_inj (fun j hj k => ih j hj) h.1]
    | _ => simp [toDraft] at h
  | obj members ih =>
    cases k with
    | obj members' =>
      rw [toDraft, toDraft, Draft.obj.injEq] at h
      rw [membersToDraft_inj (fun m hm k => ih m hm) h.1]
    | _ => simp [toDraft] at h

/-- Values that are written to the same text are the same. -/
lemma write_inj {style : Style} (hstyle : style.Blank) {j k : Json} (hj : j.Whole)
    (hk : k.Whole) (h : j.write style = k.write style) : j = k := by
  have hread := congrArg Reading.ofText h
  rw [Reading.ofText_write hstyle hj, Reading.ofText_write hstyle hk, Reading.mk.injEq] at hread
  exact toDraft_inj hread.1

/-! ### Nesting -/

mutual

/-- How many arrays and objects are nested in each other, the value itself included. -/
def nesting : Json → Nat
  | .arr items => 1 + itemsNesting items
  | .obj members => 1 + membersNesting members
  | _ => 0

/-- The most of it among items. -/
def itemsNesting : List Json → Nat
  | [] => 0
  | j :: rest => max (nesting j) (itemsNesting rest)

/-- The most of it among the members' values. -/
def membersNesting : List (String × Json) → Nat
  | [] => 0
  | (_, j) :: rest => max (nesting j) (membersNesting rest)

end

lemma itemsNesting_le_iff {items : List Json} {room : Nat} :
    itemsNesting items ≤ room ↔ ∀ j ∈ items, j.nesting ≤ room := by
  induction items with
  | nil => simp [itemsNesting]
  | cons j rest ih => rw [itemsNesting, Nat.max_le, ih, List.forall_mem_cons]

/-! ### Decoding -/

/-- A new member is set at the end. -/
lemma Members.insert_of_notMem {key : String} {value : Json} {members : Members}
    (h : key ∉ members.map (·.1)) :
    Members.insert key value members = members ++ [(key, value)] := by
  induction members with
  | nil => rfl
  | cons m rest ih =>
    rw [List.map_cons, List.mem_cons, not_or] at h
    rw [Members.insert, if_neg (Ne.symm h.1), ih h.2]
    rfl

namespace Decoder

/-- Items that can each be decoded or not are decoded if they all can be. -/
lemma items_toDraft {α β : Type} {decode : Draft → Except Fault β} {json : α → Json} {value : α → β}
    {fits : α → Prop} [DecidablePred fits] {e : Fault} {as : List α}
    (h : ∀ a ∈ as, decode (json a).toDraft = if fits a then .ok (value a) else .error e)
    (before : List β) :
    items decode true before (itemsToDraft (as.map json))
      = if ∀ a ∈ as, fits a then .ok (before.reverse ++ as.map value) else .error e := by
  induction as generalizing before with
  | nil => simp [items, itemsToDraft, close]
  | cons a rest ih =>
    rw [List.map_cons, itemsToDraft, items, h a (by simp)]
    by_cases ha : fits a
    · simp only [if_pos ha, ih fun b hb => h b (by simp [hb])]
      simp [ha]
    · simp [ha]

lemma jsonItems_eq_items (room : Nat) (closed : Bool) (before : List Json) (ds : List Draft) :
    jsonItems room closed before ds = items (json room) closed before ds := by
  induction ds generalizing before with
  | nil => rfl
  | cons d rest ih =>
    rw [jsonItems, items]
    cases json room d with
    | ok j => exact ih _
    | error e => rfl

lemma jsonMembers_toDraft {room : Nat} {members : Members}
    (h : ∀ m ∈ members,
      json room m.2.toDraft = if m.2.nesting ≤ room then .ok m.2 else .error .malformed)
    {before : Members} (hkeys : ((before ++ members).map (·.1)).Nodup) :
    jsonMembers room true before (membersToDraft members)
      = if membersNesting members ≤ room then .ok (before ++ members) else .error .malformed := by
  induction members generalizing before with
  | nil => simp [jsonMembers, membersToDraft, close, membersNesting]
  | cons m rest ih =>
    obtain ⟨key, value⟩ := m
    have hkey : key ∉ before.map (·.1) := by
      rw [List.map_append, List.nodup_append] at hkeys
      exact fun hmem => hkeys.2.2 key hmem key (by simp) rfl
    have hkeys' : (((before ++ [(key, value)]) ++ rest).map (·.1)).Nodup := by
      rwa [List.append_assoc, List.singleton_append]
    -- the key is new, so the member goes to the end and replaces no other
    simp only [membersToDraft, jsonMembers, h (key, value) (by simp), membersNesting, Nat.max_le]
    by_cases hvalue : value.nesting ≤ room
    · simp only [if_pos hvalue, Members.insert_of_notMem hkey,
        ih (fun k hk => h k (by simp [hk])) hkeys']
      simp [hvalue]
    · simp [hvalue]

/-- A value is decoded if there is room for its nesting; else its text is malformed. -/
lemma json_toDraft {j : Json} (hj : j.KeysDistinct) (room : Nat) :
    json room j.toDraft = if j.nesting ≤ room then .ok j else .error .malformed := by
  induction j using induct generalizing room with
  | null => simp [json, toDraft, nesting]
  | bool b => simp [json, toDraft, nesting]
  | num n => simp [json, toDraft, nesting]
  | str s => simp [json, toDraft, nesting]
  | arr items' ih =>
    rw [KeysDistinct, itemsDistinct_iff] at hj
    cases room with
    | zero => simp [json, toDraft, nesting]
    | succ room =>
      have hitems := @items_toDraft Json Json (json room) id id (·.nesting ≤ room) _ .malformed
        items' (fun j hm => ih j hm (hj j hm) room) []
      rw [List.map_id] at hitems
      rw [toDraft, json, jsonItems_eq_items, hitems, nesting, Nat.add_comm 1]
      simp only [Nat.succ_le_succ_iff, itemsNesting_le_iff]
      split <;> simp [Except.map]
  | obj members ih =>
    rw [KeysDistinct, membersDistinct_iff] at hj
    cases room with
    | zero => simp [json, toDraft, nesting]
    | succ room =>
      rw [toDraft, json, jsonMembers_toDraft (fun m hm => ih m hm (hj.2 m hm) room)
        (by simpa using hj.1), nesting, Nat.add_comm 1]
      simp only [Nat.succ_le_succ_iff]
      split <;> simp [Except.map]

/-- A text that is written is decoded like the draft of the value. -/
lemma ofText_write {α : Type} (decode : Decoder α) {style : Style} (hstyle : style.Blank) {j : Json}
    (hj : j.Whole) : ofText decode (j.write style) = decode maxNesting j.toDraft := by
  rw [ofText, Reading.ofText_write hstyle hj, ofReading]
  cases decode maxNesting j.toDraft <;> rfl

end Decoder

end Chatflow.Json
