/-
# Reading texts to the letter, and texts without white space

`Json.read?` reads a text as one value and refuses whatever is not JSON to the letter: a text that
breaks off or goes on behind the value, half of a surrogate pair, a number too large to have a
value, a key that an object has already.  It keeps the members of an object in their order, and
nesting may be as deep as it likes.  Whatever white space is put around the punctuation, the text of
a value is read as that value (`read?_write`).

That white space is all that the ways of writing differ in: taking out the white space that is not
inside a string literal (`withoutSpace`) leaves the compact text (`withoutSpace_write`).
-/
import Chatflow.Proofs.Json.Reading

namespace Chatflow.Json

/-! ### The strict reader -/

namespace Draft

mutual

/-- The value of a draft that is JSON to the letter. -/
def value? : Draft → Option Json
  | .cut => none
  | .null => some .null
  | .bool b => some (.bool b)
  | .num n => n.map .num
  | .str s => s.map .str
  | .arr items closed => do
    let js ← itemValues? items
    if closed then some (.arr js) else none
  | .obj members closed => do
    let ms ← memberValues? members
    if closed ∧ (ms.map (·.1)).Nodup then some (.obj ms) else none

/-- The values of items. -/
def itemValues? : List Draft → Option (List Json)
  | [] => some []
  | d :: rest => do
    let j ← value? d
    let js ← itemValues? rest
    some (j :: js)

/-- The members with their values. -/
def memberValues? : List (Option String × Draft) → Option (List (String × Json))
  | [] => some []
  | (key, d) :: rest => do
    let k ← key
    let j ← value? d
    let ms ← memberValues? rest
    some ((k, j) :: ms)

end

lemma itemValues?_eq_some_iff {ds : List Draft}
    (h : ∀ d ∈ ds, ∀ j, d.value? = some j ↔ d = j.toDraft ∧ j.KeysDistinct) {js : List Json} :
    itemValues? ds = some js ↔ ds = itemsToDraft js ∧ ItemsDistinct js := by
  induction ds generalizing js with
  | nil => cases js <;> simp [itemValues?, itemsToDraft, ItemsDistinct]
  | cons d rest ih =>
    have hd := h d (by simp)
    have hrest := @ih fun e he => h e (by simp [he])
    cases js with
    | nil => simp [itemValues?, itemsToDraft, Option.bind_eq_some_iff]
    | cons j js =>
      simp only [itemValues?, itemsToDraft, ItemsDistinct, Option.bind_eq_bind,
        Option.bind_eq_some_iff, hd, hrest, Option.some.injEq, List.cons.injEq]
      constructor
      · rintro ⟨j', ⟨hj, hdistinct⟩, js', ⟨hjs, hdistincts⟩, rfl, rfl⟩
        exact ⟨⟨hj, hjs⟩, hdistinct, hdistincts⟩
      · rintro ⟨⟨hj, hjs⟩, hdistinct, hdistincts⟩
        exact ⟨j, ⟨hj, hdistinct⟩, js, ⟨hjs, hdistincts⟩, rfl, rfl⟩

lemma memberValues?_eq_some_iff {members : List (Option String × Draft)}
    (h : ∀ m ∈ members, ∀ j, m.2.value? = some j ↔ m.2 = j.toDraft ∧ j.KeysDistinct)
    {ms : Members} :
    memberValues? members = some ms ↔ members = membersToDraft ms ∧ MembersDistinct ms := by
  induction members generalizing ms with
  | nil => cases ms <;> simp [memberValues?, membersToDraft, MembersDistinct]
  | cons m rest ih =>
    obtain ⟨key, d⟩ := m
    have hd := h (key, d) (by simp)
    have hrest := @ih fun e he => h e (by simp [he])
    cases ms with
    | nil => simp [memberValues?, membersToDraft, Option.bind_eq_some_iff]
    | cons m ms =>
      obtain ⟨k, j⟩ := m
      simp only [memberValues?, membersToDraft, MembersDistinct, Option.bind_eq_bind,
        Option.bind_eq_some_iff, hd, hrest, Option.some.injEq, List.cons.injEq, Prod.mk.injEq]
      constructor
      · rintro ⟨k', hk, j', ⟨hj, hdistinct⟩, ms', ⟨hms, hdistincts⟩, ⟨rfl, rfl⟩, rfl⟩
        exact ⟨⟨⟨hk, hj⟩, hms⟩, hdistinct, hdistincts⟩
      · rintro ⟨⟨⟨hk, hj⟩, hms⟩, hdistinct, hdistincts⟩
        exact ⟨k, hk, j, ⟨hj, hdistinct⟩, ms, ⟨hms, hdistincts⟩, ⟨rfl, rfl⟩, rfl⟩

/-- The drafts that are JSON to the letter are those of the values without repeated keys. -/
lemma value?_eq_some_iff {d : Draft} {j : Json} :
    d.value? = some j ↔ d = j.toDraft ∧ j.KeysDistinct := by
  induction d using induct generalizing j with
  | cut => cases j <;> simp [value?, toDraft]
  | null => cases j <;> simp [value?, toDraft, KeysDistinct]
  | bool b => cases j <;> simp [value?, toDraft, KeysDistinct]
  | num n => cases j <;> simp [value?, toDraft, KeysDistinct]
  | str s => cases j <;> simp [value?, toDraft, KeysDistinct]
  | arr items closed ih =>
    have hitems := @itemValues?_eq_some_iff items fun d hd j => ih d hd
    cases j with
    | arr js =>
      simp only [value?, toDraft, Option.bind_eq_bind, Option.bind_eq_some_iff, hitems,
        Option.ite_none_right_eq_some, Option.some.injEq, Json.arr.injEq, ↓existsAndEq,
        and_true, arr.injEq, KeysDistinct]
      exact and_right_comm
    | _ => simp [value?, toDraft, Option.bind_eq_some_iff]
  | obj members closed ih =>
    have hmembers := @memberValues?_eq_some_iff members fun m hm j => ih m hm
    cases j with
    | obj ms =>
      simp only [value?, toDraft, Option.bind_eq_bind, Option.bind_eq_some_iff, hmembers,
        Option.ite_none_right_eq_some, Option.some.injEq, Json.obj.injEq, ↓existsAndEq,
        and_true, obj.injEq, KeysDistinct]
      tauto
    | _ => simp [value?, toDraft, Option.bind_eq_some_iff]

end Draft

/-- Reads a text that is JSON to the letter. -/
def read? (s : String) : Option Json :=
  if (Reading.ofText s).ended then (Reading.ofText s).draft.value? else none

/-- A text is read as a value just if it is a text of that value and no object in it repeats a
key. -/
lemma read?_eq_some_iff {s : String} {j : Json} :
    read? s = some j ↔ j.toDraft.Spelled s ∧ j.KeysDistinct := by
  rw [read?, ← Reading.ofText_eq_iff]
  obtain ⟨d, ended⟩ := Reading.ofText s
  simp only [Option.ite_none_right_eq_some, Draft.value?_eq_some_iff, Reading.mk.injEq]
  tauto

/-- A text that is written is read as the value. -/
lemma read?_write {style : Style} (hstyle : style.Blank) {j : Json} (hwhole : j.Whole)
    (hdistinct : j.KeysDistinct) : read? (j.write style) = some j :=
  read?_eq_some_iff.2 ⟨Reading.ofText_eq_iff.1 (Reading.ofText_write hstyle hwhole), hdistinct⟩

/-! ### White space -/

/-- Where in a JSON text a character stands. -/
inductive Site where
  /-- Not inside a string literal. -/
  | outside
  /-- Inside a string literal. -/
  | inside
  /-- Behind the backslash of an escape. -/
  | escaped
deriving DecidableEq

/-- Where the character behind a character stands. -/
def Site.next : Site → Char → Site
  | .outside, c => if c = '"' then .inside else .outside
  | .inside, c => if c = '"' then .outside else if c = '\\' then .escaped else .inside
  | .escaped, _ => .inside

/-- The characters from a site on that are not white space between tokens. -/
def dropSpace : Site → List Char → List Char
  | _, [] => []
  | site, c :: rest =>
    if site = .outside ∧ isSpace c then dropSpace site rest
    else c :: dropSpace (site.next c) rest

/-- A text without the white space that is not inside a string literal. -/
def withoutSpace (s : String) : String := String.ofList (dropSpace .outside s.toList)

/-- Between tokens, wherever it stands, the text comes to this without white space. -/
def Condenses (cs ds : List Char) : Prop :=
  ∀ rest, dropSpace .outside (cs ++ rest) = ds ++ dropSpace .outside rest

lemma condenses_nil : Condenses [] [] := fun _ => rfl

section

variable {cs ds cs' ds' : List Char}

lemma Condenses.append (h : Condenses cs ds) (h' : Condenses cs' ds') :
    Condenses (cs ++ cs') (ds ++ ds') := by
  intro rest
  rw [List.append_assoc, h, h', List.append_assoc]

/-- A character that is neither white space nor a quote stays. -/
lemma Condenses.cons {c : Char} (hspace : isSpace c = false) (hquote : c ≠ '"')
    (h : Condenses cs ds) : Condenses (c :: cs) (c :: ds) := by
  intro rest
  rw [List.cons_append, dropSpace, if_neg (by simp [hspace]), Site.next, if_neg hquote, h]
  rfl

/-- White space goes. -/
lemma condenses_space {spaces : List Char} (h : ∀ c ∈ spaces, isSpace c) :
    Condenses spaces [] := by
  induction spaces with
  | nil => exact condenses_nil
  | cons c rest ih =>
    intro cs
    have hc : Site.outside = Site.outside ∧ isSpace c := ⟨rfl, h c List.mem_cons_self⟩
    rw [List.cons_append, dropSpace, if_pos hc, ih fun d hd => h d (List.mem_cons_of_mem c hd)]

/-- Text with neither white space nor quotes stays. -/
lemma condenses_self (h : ∀ c ∈ cs, isSpace c = false ∧ c ≠ '"') : Condenses cs cs := by
  induction cs with
  | nil => exact condenses_nil
  | cons c rest ih =>
    obtain ⟨hspace, hquote⟩ := h c List.mem_cons_self
    exact .cons hspace hquote (ih fun d hd => h d (List.mem_cons_of_mem c hd))

end

/-- Inside a literal a character stays that neither ends it nor escapes the next one. -/
lemma dropSpace_literal {c : Char} (hquote : c ≠ '"') (hbackslash : c ≠ '\\')
    (rest : List Char) : dropSpace .inside (c :: rest) = c :: dropSpace .inside rest := by
  rw [dropSpace, if_neg (by simp), Site.next, if_neg hquote, if_neg hbackslash]

/-- So does an escape, whatever is escaped. -/
lemma dropSpace_escape (c : Char) (rest : List Char) :
    dropSpace .inside ('\\' :: c :: rest) = '\\' :: c :: dropSpace .inside rest := by
  simp [dropSpace, Site.next]

/-- An escaped character stays, and the literal goes on behind it. -/
lemma dropSpace_escapeChar (c : Char) (rest : List Char) :
    dropSpace .inside (escapeChar c ++ rest) = escapeChar c ++ dropSpace .inside rest := by
  have hhex : ∀ n < 16, hexDigit n ≠ '"' ∧ hexDigit n ≠ '\\' := by decide
  unfold escapeChar
  split_ifs with hquote hbackslash _ _ _ _ _ hcontrol
  iterate 7 exact dropSpace_escape _ rest
  · obtain ⟨hhigh, hhigh'⟩ := hhex (c.toNat / 16) (by omega)
    obtain ⟨hlow, hlow'⟩ := hhex (c.toNat % 16) (Nat.mod_lt _ (by decide))
    simp only [List.cons_append, List.nil_append, dropSpace_escape]
    rw [dropSpace_literal (by decide) (by decide), dropSpace_literal (by decide) (by decide),
      dropSpace_literal hhigh hhigh', dropSpace_literal hlow hlow']
  · exact dropSpace_literal hquote hbackslash rest

/-- String literals stay as they are, with whatever white space is in them. -/
lemma condenses_quote (s : String) : Condenses (quote s).toList (quote s).toList := by
  have hinside : ∀ cs rest : List Char, dropSpace .inside (cs.flatMap escapeChar ++ rest)
      = cs.flatMap escapeChar ++ dropSpace .inside rest := by
    intro cs rest
    induction cs with
    | nil => rfl
    | cons c cs ih =>
      rw [List.flatMap_cons, List.append_assoc, dropSpace_escapeChar, ih, List.append_assoc]
  intro rest
  rw [toList_quote]
  simp [dropSpace, Site.next, hinside, isSpace]

lemma condenses_int (n : Int) :
    Condenses (Number.int n).text.toList (Number.int n).text.toList := by
  have hdigits : ∀ k, ∀ c ∈ Nat.toDigits 10 k, isSpace c = false ∧ c ≠ '"' := by
    intro k c hc
    have hdigit : c.isDigit := Nat.isDigit_of_mem_toDigits (by decide) (by decide) hc
    refine ⟨Bool.eq_false_iff.2 fun hspace => ?_, ?_⟩
    · simp only [isSpace, decide_eq_true_eq] at hspace
      rcases hspace with rfl | rfl | rfl | rfl <;> exact absurd hdigit (by decide)
    · rintro rfl
      exact absurd hdigit (by decide)
  rw [show (Number.int n).text = n.repr from rfl, Int.repr_eq_if]
  split
  · rw [Nat.toList_repr]
    exact condenses_self (hdigits _)
  · rw [String.toList_append, Nat.toList_repr]
    exact .cons (by decide) (by decide) (condenses_self (hdigits _))

section

variable {style : Style}

/-- A way of writing puts white space where the compact one puts nothing. -/
lemma condenses_lineBreak (hstyle : style.Blank) (depth : Nat) :
    Condenses (style.lineBreak depth).toList (Style.compact.lineBreak depth).toList :=
  condenses_space (hstyle.lineBreak depth)

lemma condenses_afterColon (hstyle : style.Blank) :
    Condenses style.afterColon.toList Style.compact.afterColon.toList :=
  condenses_space hstyle.afterColon

lemma condenses_spellItems (hstyle : style.Blank) {depth : Nat} {items : List Json}
    (h : ∀ j ∈ items, Condenses (j.spell style depth) (j.spell .compact depth)) :
    Condenses (spellItems style depth items) (spellItems .compact depth items) := by
  induction items with
  | nil => exact condenses_nil
  | cons j rest ih =>
    have hrest := ih fun k hk => h k (List.mem_cons_of_mem j hk)
    rw [spellItems, spellItems]
    exact .cons (by decide) (by decide)
      ((condenses_lineBreak hstyle depth).append ((h j List.mem_cons_self).append hrest))

lemma condenses_spellMembers (hstyle : style.Blank) {depth : Nat} {members : Members}
    (h : ∀ m ∈ members, Condenses (m.2.spell style depth) (m.2.spell .compact depth)) :
    Condenses (spellMembers style depth members) (spellMembers .compact depth members) := by
  induction members with
  | nil => exact condenses_nil
  | cons m rest ih =>
    have hrest := ih fun k hk => h k (List.mem_cons_of_mem m hk)
    rw [spellMembers, spellMembers]
    exact .cons (by decide) (by decide) ((condenses_lineBreak hstyle depth).append
      ((condenses_quote m.1).append (.cons (by decide) (by decide)
        ((condenses_afterColon hstyle).append ((h m List.mem_cons_self).append hrest)))))

/-- Without white space the text of a value is its compact text. -/
lemma condenses_spell (hstyle : style.Blank) {j : Json} (hj : j.Whole) (depth : Nat) :
    Condenses (j.spell style depth) (j.spell .compact depth) := by
  have hnull : ∀ c ∈ "null".toList, isSpace c = false ∧ c ≠ '"' := by simp [isSpace]
  have htrue : ∀ c ∈ "true".toList, isSpace c = false ∧ c ≠ '"' := by simp [isSpace]
  have hfalse : ∀ c ∈ "false".toList, isSpace c = false ∧ c ≠ '"' := by simp [isSpace]
  induction j using induct generalizing depth with
  | null => exact condenses_self hnull
  | bool b =>
    cases b with
    | true => exact condenses_self htrue
    | false => exact condenses_self hfalse
  | num n =>
    cases n with
    | int n => exact condenses_int n
    | double d => exact hj.elim
  | str s => exact condenses_quote s
  | arr items ih =>
    cases items with
    | nil => exact .cons (by decide) (by decide) (.cons (by decide) (by decide) condenses_nil)
    | cons j rest =>
      rw [Whole, itemsWhole_iff] at hj
      have hhead := ih j (by simp) (hj j (by simp)) (depth + 1)
      have hrest := condenses_spellItems hstyle fun k hk =>
        ih k (List.mem_cons_of_mem j hk) (hj k (List.mem_cons_of_mem j hk)) (depth + 1)
      have hclose : Condenses [']'] [']'] := .cons (by decide) (by decide) condenses_nil
      rw [spell, spell]
      exact .cons (by decide) (by decide) ((condenses_lineBreak hstyle _).append
        (hhead.append (hrest.append ((condenses_lineBreak hstyle depth).append hclose))))
  | obj members ih =>
    cases members with
    | nil => exact .cons (by decide) (by decide) (.cons (by decide) (by decide) condenses_nil)
    | cons m rest =>
      rw [Whole, membersWhole_iff] at hj
      have hhead := ih m (by simp) (hj m (by simp)) (depth + 1)
      have hrest := condenses_spellMembers hstyle fun k hk =>
        ih k (List.mem_cons_of_mem m hk) (hj k (List.mem_cons_of_mem m hk)) (depth + 1)
      have hclose : Condenses ['\x7d'] ['\x7d'] := .cons (by decide) (by decide) condenses_nil
      rw [spell, spell]
      exact .cons (by decide) (by decide) ((condenses_lineBreak hstyle _).append
        ((condenses_quote m.1).append (.cons (by decide) (by decide)
          ((condenses_afterColon hstyle).append (hhead.append
            (hrest.append ((condenses_lineBreak hstyle depth).append hclose)))))))

/-- However a value is written, without white space it is the compact text. -/
lemma withoutSpace_write (hstyle : style.Blank) {j : Json} (hj : j.Whole) :
    withoutSpace (j.write style) = j.compact := by
  have hspell := condenses_spell hstyle hj 0 []
  rw [List.append_nil, dropSpace, List.append_nil] at hspell
  rw [withoutSpace, toList_write, hspell, ← toList_write, String.ofList_toList, compact]

end

end Chatflow.Json
