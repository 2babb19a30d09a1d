/-
# What the reading of a record does not depend on

Two drafts are alike to a decoder if it gives the same for both, or nothing for either
(`Decoder.Alike`); why it gives nothing may differ, since another fault may come first.  To the
decoder of a record an object stays alike if its members change places and if members of other names
are added (`Draft.Rearranged`), provided that its fields are read into parts of their own
(`Decoder.Field.Independent`).  And a record or a list stays alike if the draft of one field or of
one item is replaced by one that is alike to the decoder of that (`Draft.Within`,
`Draft.Somewhere`).
-/
import Mathlib.Data.List.Perm.Basic
import Mathlib.Logic.Relation
import Chatflow.Proofs.Json.Decoding

namespace Chatflow.Json

/-! ### Changes of drafts -/

namespace Draft

/-- An object with its members in another order, or with one more member of a name that is none of
the given ones. -/
inductive Rearranged (names : List String) : Draft → Draft → Prop where
  | reorder {members members' : List (Option String × Draft)} {closed : Bool}
    (perm : members.Perm members') : Rearranged names (.obj members closed) (.obj members' closed)
  | add {members : List (Option String × Draft)} {closed : Bool} {key : String} {d : Draft}
    (key_notMem : key ∉ names) :
    Rearranged names (.obj members closed) (.obj ((some key, d) :: members) closed)

/-- A record in which one field is changed: a member of its name, or, where the record is an array,
the item at its place. -/
inductive Within (name : String) (place : Nat) (R : Draft → Draft → Prop) :
    Draft → Draft → Prop where
  | member {before after : List (Option String × Draft)} {closed : Bool} {d e : Draft}
    (change : R d e) : Within name place R (.obj (before ++ (some name, d) :: after) closed)
      (.obj (before ++ (some name, e) :: after) closed)
  | item {before after : List Draft} {closed : Bool} {d e : Draft}
    (before_length : before.length = place) (change : R d e) :
    Within name place R (.arr (before ++ d :: after) closed) (.arr (before ++ e :: after) closed)

/-- An array in which one item is changed. -/
inductive Somewhere (R : Draft → Draft → Prop) : Draft → Draft → Prop where
  | item {before after : List Draft} {closed : Bool} {d e : Draft} (change : R d e) :
    Somewhere R (.arr (before ++ d :: after) closed) (.arr (before ++ e :: after) closed)

end Draft

namespace Decoder

variable {α β σ : Type}

/-! ### Drafts that are alike -/

/-- The decoder gives the same for both drafts, if it gives anything. -/
def Alike (decode : Decoder α) (d e : Draft) : Prop :=
  ∀ room, (decode room d).toOption = (decode room e).toOption

lemma alike_of_eqvGen {decode : Decoder α} {R : Draft → Draft → Prop}
    (h : ∀ d e, R d e → Alike decode d e) {d e : Draft} (hde : Relation.EqvGen R d e) :
    Alike decode d e := by
  induction hde with
  | rel d e hde => exact h d e hde
  | refl d => exact fun room => rfl
  | symm d e _ ih => exact fun room => (ih room).symm
  | trans d e f _ _ ihde ihef => exact fun room => (ihde room).trans (ihef room)

lemma toOption_map {ε : Type} (x : Except ε α) (f : α → β) :
    (x.map f).toOption = x.toOption.map f := by
  cases x <;> rfl

/-- What is alike stays alike if the decoded values are mapped. -/
lemma Alike.map {decode : Decoder α} {d e : Draft} (h : Alike decode d e) (f : α → β) :
    Alike (fun room d => (decode room d).map f) d e := by
  intro room
  rw [toOption_map, toOption_map, h room]

lemma toOption_eq_some_iff {ε : Type} {x : Except ε α} {a : α} :
    x.toOption = some a ↔ x = .ok a := by
  cases x <;> simp [Except.toOption]

/-! ### Lists -/

lemma toOption_items_replace {decode : Draft → Except Fault α} {closed : Bool} {d e : Draft}
    (h : (decode d).toOption = (decode e).toOption) (done : List α) (before after : List Draft) :
    (items decode closed done (before ++ d :: after)).toOption
      = (items decode closed done (before ++ e :: after)).toOption := by
  induction before generalizing done with
  | nil =>
    rw [List.nil_append, List.nil_append, items, items]
    cases hd : decode d <;> cases he : decode e <;> simp_all [Except.toOption]
  | cons b rest ih =>
    rw [List.cons_append, List.cons_append, items, items]
    cases decode b with
    | ok a => exact ih (a :: done)
    | error fault => rfl

/-- A list with an item replaced by one that is alike is alike. -/
lemma alike_list {decode : Decoder α} {R : Draft → Draft → Prop}
    (h : ∀ d e, R d e → Alike decode d e) {d e : Draft} (hde : Draft.Somewhere R d e) :
    Alike (list decode) d e := by
  intro room
  cases hde with
  | item change =>
    cases room with
    | zero => rfl
    | succ room => exact toOption_items_replace (h _ _ change room) _ _ _

/-! ### Fields -/

/-- Whether the field is read alike from both drafts. -/
def Field.ReadsAlike (field : Field σ) (d e : Draft) : Prop :=
  ∀ parts, Alike (fun room d => field.read room d parts) d e

lemma Field.readsAlike_map {name : String} {isSet : σ → Bool} {decode : Decoder α}
    {put : σ → α → σ} {d e : Draft} (h : Alike decode d e) :
    ReadsAlike ⟨name, isSet, fun room d parts => (decode room d).map (put parts)⟩ d e :=
  fun parts => h.map (put parts)

/-- Reading the one field leaves alone whether the other has been read, and it does not matter which
of them is read first. -/
structure Field.Independent (f g : Field σ) : Prop where
  isSet_read : ∀ {room : Nat} {d : Draft} {parts parts' : σ},
    f.read room d parts = .ok parts' → g.isSet parts' = g.isSet parts
  read_comm : ∀ (room : Nat) (d e : Draft) (parts : σ),
    ((f.read room d parts).bind (g.read room e)).toOption
      = ((g.read room e parts).bind (f.read room d)).toOption

/-- Fields that are put into different parts are independent. -/
lemma Field.independent_map {name name' : String} {isSet isSet' : σ → Bool} {decode : Decoder α}
    {decode' : Decoder β} {put : σ → α → σ} {put' : σ → β → σ}
    (hisSet : ∀ parts a, isSet' (put parts a) = isSet' parts)
    (hcomm : ∀ parts a b, put' (put parts a) b = put (put' parts b) a) :
    Independent ⟨name, isSet, fun room d parts => (decode room d).map (put parts)⟩
      ⟨name', isSet', fun room d parts => (decode' room d).map (put' parts)⟩ where
  isSet_read h := by
    obtain ⟨a, -, rfl⟩ := exists_of_map_eq_ok h
    exact hisSet _ a
  read_comm room d e parts := by
    cases hd : decode room d <;> cases he : decode' room e <;>
      simp [Except.map, Except.bind, Except.toOption, hd, he, hcomm]

/-- The fields of a record: reading one marks it as read, and different ones are independent. -/
structure Lawful (fields : List (Field σ)) : Prop where
  isSet_read : ∀ field ∈ fields, ∀ {room : Nat} {d : Draft} {parts parts' : σ},
    field.read room d parts = .ok parts' → field.isSet parts' = true
  independent : ∀ f ∈ fields, ∀ g ∈ fields, f.name ≠ g.name → f.Independent g

variable {fields : List (Field σ)} {room : Nat}

/-! ### Members in any order -/

/-- Reads a member of an object into the parts read before, if no fault has been met. -/
def accept (fields : List (Field σ)) (room : Nat) (parts? : Option σ)
    (member : Option String × Draft) : Option σ :=
  parts?.bind fun parts => member.1.bind fun key =>
    match fields.find? (·.name == key) with
    | none => some parts
    | some field =>
      if field.isSet parts then none else (field.read room member.2 parts).toOption

/-- A member of no field is passed over. -/
lemma accept_of_find?_eq_none {key : String} (h : fields.find? (·.name == key) = none)
    (parts? : Option σ) (d : Draft) : accept fields room parts? (some key, d) = parts? := by
  cases parts? with
  | none => rfl
  | some parts => simp [accept, h]

/-- A member of a field is read, unless the field has been read before. -/
lemma accept_of_find?_eq_some {key : String} {field : Field σ}
    (h : fields.find? (·.name == key) = some field) (parts : σ) (d : Draft) :
    accept fields room (some parts) (some key, d)
      = if field.isSet parts then none else (field.read room d parts).toOption := by
  simp [accept, h]

lemma foldl_accept_none (members : List (Option String × Draft)) :
    members.foldl (accept fields room) none = none := by
  induction members with
  | nil => rfl
  | cons m rest ih => exact ih

/-- The members of an object are accepted one by one. -/
lemma toOption_fieldsByName (closed : Bool) (parts : σ) (members : List (Option String × Draft)) :
    (fieldsByName fields room closed parts members).toOption
      = if closed then members.foldl (accept fields room) (some parts) else none := by
  induction members generalizing parts with
  | nil => cases closed <;> rfl
  | cons m rest ih =>
    obtain ⟨key, d⟩ := m
    cases key with
    | none =>
      rw [fieldsByName, List.foldl_cons, show accept fields room (some parts) (none, d) = none
        from rfl, foldl_accept_none, ite_self]
      rfl
    | some key =>
      rw [fieldsByName, List.foldl_cons]
      cases hfield : fields.find? (·.name == key) with
      | none => rw [accept_of_find?_eq_none hfield, ← ih]
      | some field =>
        rw [accept_of_find?_eq_some hfield]
        by_cases hset : field.isSet parts
        · simp [hset, foldl_accept_none, Except.toOption]
        · cases hread : field.read room d parts with
          | error fault => simp [hset, hread, foldl_accept_none, Except.toOption]
          | ok parts' => simpa [hset, hread, Except.toOption] using ih parts'

lemma name_of_find?_eq_some {key : String} {field : Field σ}
    (h : fields.find? (·.name == key) = some field) : field ∈ fields ∧ field.name = key :=
  ⟨List.mem_of_find?_eq_some h, by simpa using List.find?_some h⟩

/-- A field is not read twice. -/
lemma accept_twice (hfields : Lawful fields) {key : String} {field : Field σ}
    (hfield : fields.find? (·.name == key) = some field) (parts? : Option σ) (d d' : Draft) :
    accept fields room (accept fields room parts? (some key, d)) (some key, d') = none := by
  cases parts? with
  | none => rfl
  | some parts =>
    rw [accept_of_find?_eq_some hfield]
    split
    · rfl
    · cases hread : field.read room d parts with
      | error fault => rfl
      | ok parts' =>
        have hset := hfields.isSet_read field (name_of_find?_eq_some hfield).1 hread
        rw [Except.toOption, accept_of_find?_eq_some hfield, if_pos hset]

/-- Two fields are read one after the other if neither has been read. -/
lemma accept_accept (hfields : Lawful fields) {key key' : String} (hne : key ≠ key')
    {f g : Field σ} (hf : fields.find? (·.name == key) = some f)
    (hg : fields.find? (·.name == key') = some g) (parts : σ) (d d' : Draft) :
    accept fields room (accept fields room (some parts) (some key, d)) (some key', d')
      = if f.isSet parts ∨ g.isSet parts then none
        else ((f.read room d parts).bind (g.read room d')).toOption := by
  obtain ⟨hfmem, hfname⟩ := name_of_find?_eq_some hf
  obtain ⟨hgmem, hgname⟩ := name_of_find?_eq_some hg
  have hindependent : f.Independent g :=
    hfields.independent f hfmem g hgmem (by rw [hfname, hgname]; exact hne)
  rw [accept_of_find?_eq_some hf]
  by_cases hset : f.isSet parts
  · simp [hset, accept]
  · cases hread : f.read room d parts with
    | error fault => simp [hset, Except.toOption, Except.bind, accept]
    | ok parts' =>
      have hsame := hindependent.isSet_read hread
      simp [hset, Except.toOption, Except.bind, accept_of_find?_eq_some hg, hsame]

/-- It does not matter which of two members is accepted first. -/
lemma accept_comm (hfields : Lawful fields) (parts? : Option σ) (m m' : Option String × Draft) :
    accept fields room (accept fields room parts? m) m'
      = accept fields room (accept fields room parts? m') m := by
  have hnone : ∀ (parts? : Option σ) (d : Draft), accept fields room parts? (none, d) = none := by
    intro parts? d
    cases parts? <;> rfl
  obtain ⟨_ | key, d⟩ := m
  · rw [hnone, hnone]
    rfl
  obtain ⟨_ | key', d'⟩ := m'
  · rw [hnone, hnone]
    rfl
  cases hf : fields.find? (·.name == key) with
  | none => rw [accept_of_find?_eq_none hf, accept_of_find?_eq_none hf]
  | some f =>
    cases hg : fields.find? (·.name == key') with
    | none => rw [accept_of_find?_eq_none hg, accept_of_find?_eq_none hg]
    | some g =>
      by_cases hkey : key = key'
      · subst hkey
        rw [accept_twice hfields hf, accept_twice hfields hf]
      · cases parts? with
        | none => rfl
        | some parts =>
          obtain ⟨hfmem, hfname⟩ := name_of_find?_eq_some hf
          obtain ⟨hgmem, hgname⟩ := name_of_find?_eq_some hg
          have hindependent : f.Independent g :=
            hfields.independent f hfmem g hgmem (by rw [hfname, hgname]; exact hkey)
          rw [accept_accept hfields hkey hf hg, accept_accept hfields (Ne.symm hkey) hg hf,
            hindependent.read_comm]
          simp only [or_comm]

/-! ### Records -/

/-- A record is decoded by putting its parts together. -/
lemma toOption_record (blank : σ) (complete : σ → Option α) (room : Nat) (d : Draft) :
    (record fields blank complete room d).toOption
      = (recordParts fields blank room d).toOption.bind complete := by
  rw [record]
  cases recordParts fields blank room d with
  | error fault => rfl
  | ok parts => cases hcomplete : complete parts <;> simp [hcomplete, Except.toOption]

lemma alike_record {blank : σ} {complete : σ → Option α} {d e : Draft}
    (h : Alike (recordParts fields blank) d e) : Alike (record fields blank complete) d e := by
  intro room
  rw [toOption_record, toOption_record, h room]

/-- A record is read alike in whatever order its members stand and whatever members of other names
are among them. -/
lemma alike_of_rearranged (hfields : Lawful fields) {blank : σ} {complete : σ → Option α}
    {d e : Draft} (h : Draft.Rearranged (fields.map (·.name)) d e) :
    Alike (record fields blank complete) d e := by
  refine alike_record fun room => ?_
  cases room with
  | zero => cases h <;> rfl
  | succ room =>
    cases h with
    | @reorder members members' closed perm =>
      have hfold : members.foldl (accept fields room) (some blank)
          = members'.foldl (accept fields room) (some blank) :=
        perm.foldl_eq' (fun m _ m' _ parts? => accept_comm hfields parts? m m') _
      rw [recordParts, recordParts, toOption_fieldsByName, toOption_fieldsByName, hfold]
    | @add members closed key d key_notMem =>
      have hfield : fields.find? (·.name == key) = none := by
        rw [List.find?_eq_none]
        intro field hmem hname
        exact key_notMem (List.mem_map.2 ⟨field, hmem, by simpa using hname⟩)
      rw [recordParts, recordParts, toOption_fieldsByName, toOption_fieldsByName,
        List.foldl_cons, accept_of_find?_eq_none hfield]

/-- Whether a field has been read is left alone by members of other names. -/
lemma isSet_of_foldl_accept (hfields : Lawful fields) {field : Field σ} (hfield : field ∈ fields)
    {members : List (Option String × Draft)} (h : ∀ m ∈ members, m.1 ≠ some field.name)
    {parts parts' : σ} (hparts : members.foldl (accept fields room) (some parts) = some parts') :
    field.isSet parts' = field.isSet parts := by
  induction members generalizing parts with
  | nil => rw [Option.some.inj hparts]
  | cons m rest ih =>
    obtain ⟨hm, hrest⟩ := List.forall_mem_cons.1 h
    rw [List.foldl_cons] at hparts
    cases hnext : accept fields room (some parts) m with
    | none => simp [hnext, foldl_accept_none] at hparts
    | some next =>
      rw [hnext] at hparts
      rw [ih hrest hparts]
      obtain ⟨_ | key, d⟩ := m
      · simp [accept] at hnext
      · cases hother : fields.find? (·.name == key) with
        | none =>
          rw [accept_of_find?_eq_none hother] at hnext
          rw [Option.some.inj hnext]
        | some other =>
          obtain ⟨hmem, rfl⟩ := name_of_find?_eq_some hother
          rw [accept_of_find?_eq_some hother, Option.ite_none_left_eq_some,
            toOption_eq_some_iff] at hnext
          have hne : other.name ≠ field.name := fun heq => hm (congrArg some heq)
          exact (hfields.independent other hmem field hfield hne).isSet_read hnext.2

/-- A member that is always read and leaves no trace in the record may be there or not. -/
lemma alike_of_traceless (hfields : Lawful fields) {name : String} {field : Field σ}
    (hname : fields.find? (·.name == name) = some field) {blank : σ} {complete : σ → Option α}
    (hblank : field.isSet blank = false) {d : Draft}
    (hread : ∀ room parts, ∃ parts', field.read room d parts = .ok parts' ∧
      complete parts' = complete parts)
    {members : List (Option String × Draft)} (h : ∀ m ∈ members, m.1 ≠ some name) (closed : Bool) :
    Alike (record fields blank complete) (.obj members closed)
      (.obj ((some name, d) :: members) closed) := by
  intro room
  rw [toOption_record, toOption_record]
  cases room with
  | zero => rfl
  | succ room =>
    -- the member may as well be read last
    have hlast : ((some name, d) :: members).foldl (accept fields room) (some blank)
        = accept fields room (members.foldl (accept fields room) (some blank)) (some name, d) := by
      have hperm : ((some name, d) :: members).Perm (members ++ [(some name, d)]) :=
        (List.perm_append_singleton _ _).symm
      rw [hperm.foldl_eq' (fun m _ m' _ parts? => accept_comm hfields parts? m m') _,
        List.foldl_append]
      rfl
    rw [recordParts, recordParts, toOption_fieldsByName, toOption_fieldsByName, hlast]
    cases closed with
    | false => rfl
    | true =>
      cases hparts : members.foldl (accept fields room) (some blank) with
      | none => rfl
      | some parts =>
        obtain ⟨hmem, rfl⟩ := name_of_find?_eq_some hname
        have hset : field.isSet parts = false := by
          rw [isSet_of_foldl_accept hfields hmem h hparts, hblank]
        obtain ⟨parts', hparts', hcomplete⟩ := hread room parts
        simp [accept_of_find?_eq_some hname, hset, hparts', hcomplete, Except.toOption]

lemma toOption_fieldsInOrder_replace {place : Nat} {d e : Draft}
    (h : ∀ field, fields[place]? = some field → field.ReadsAlike d e) (closed : Bool) (parts : σ)
    {before : List Draft} (hbefore : before.length = place) (after : List Draft) :
    (fieldsInOrder room closed fields parts (before ++ d :: after)).toOption
      = (fieldsInOrder room closed fields parts (before ++ e :: after)).toOption := by
  induction before generalizing fields parts place with
  | nil =>
    subst hbefore
    cases fields with
    | nil => rfl
    | cons field fields =>
      have hread := h field rfl parts room
      rw [List.nil_append, List.nil_append, fieldsInOrder, fieldsInOrder]
      cases hd : field.read room d parts <;> cases he : field.read room e parts <;>
        simp_all [Except.toOption]
  | cons b rest ih =>
    subst hbefore
    cases fields with
    | nil => rfl
    | cons field fields =>
      rw [List.cons_append, List.cons_append, fieldsInOrder, fieldsInOrder]
      cases field.read room b parts with
      | ok parts' => exact @ih fields rest.length (fun f hf => h f hf) parts' rfl
      | error fault => rfl

/-- A record is read alike if a field is replaced by a draft from which it is read alike. -/
lemma alike_of_within {name : String} {place : Nat} {R : Draft → Draft → Prop}
    {field : Field σ} (hname : fields.find? (·.name == name) = some field)
    (hplace : fields[place]? = some field) (hread : ∀ d e, R d e → field.ReadsAlike d e)
    {blank : σ} {complete : σ → Option α} {d e : Draft} (h : Draft.Within name place R d e) :
    Alike (record fields blank complete) d e := by
  refine alike_record fun room => ?_
  cases room with
  | zero => cases h <;> rfl
  | succ room =>
    cases h with
    | @member before after closed d e change =>
      have haccept : ∀ parts?, accept fields room parts? (some name, d)
          = accept fields room parts? (some name, e) := by
        intro parts?
        cases parts? with
        | none => rfl
        | some parts =>
          rw [accept_of_find?_eq_some hname, accept_of_find?_eq_some hname,
            hread d e change parts room]
      rw [recordParts, recordParts, toOption_fieldsByName, toOption_fieldsByName,
        List.foldl_append, List.foldl_append, List.foldl_cons, List.foldl_cons, haccept]
    | item before_length change =>
      refine toOption_fieldsInOrder_replace (fun f hf => ?_) _ _ before_length _
      obtain rfl : field = f := Option.some.inj (hplace.symm.trans hf)
      exact hread _ _ change

end Decoder

end Chatflow.Json
