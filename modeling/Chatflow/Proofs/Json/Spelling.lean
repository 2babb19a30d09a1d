/-
# The text of a value by recursion

`Json.write` keeps the pieces still to be written in a list.  Here the text of a value is put
together by plain recursion (`Json.spell`), and the writer is shown to write that
(`toList_write`).
-/
import Mathlib.Data.List.Basic
import Chatflow.Json.Writer

namespace Chatflow.Json

/-- What holds of an array whenever it holds of its items, and of an object whenever it holds of
its members' values, holds of every value that is not a container and so of all. -/
@[elab_as_elim]
lemma induct {P : Json → Prop} (null : P .null) (bool : ∀ b, P (.bool b)) (num : ∀ n, P (.num n))
    (str : ∀ s, P (.str s)) (arr : ∀ items, (∀ j ∈ items, P j) → P (.arr items))
    (obj : ∀ members : Members, (∀ m ∈ members, P m.2) → P (.obj members)) (j : Json) : P j := by
  refine Json.rec (motive_1 := P) (motive_2 := fun items => ∀ j ∈ items, P j)
    (motive_3 := fun members => ∀ m ∈ members, P m.2) (motive_4 := fun m => P m.2)
    null bool num str arr obj ?_ ?_ ?_ ?_ ?_ j
  · simp
  · intro j rest hj hrest
    simpa using ⟨hj, hrest⟩
  · simp
  · intro m rest hm hrest k hk
    rcases List.mem_cons.1 hk with rfl | hk
    · exact hm
    · exact hrest k hk
  · exact fun _ _ hj => hj

mutual

/-- The characters of a value at a nesting depth. -/
def spell (style : Style) (depth : Nat) : Json → List Char
  | .null => "null".toList
  | .bool true => "true".toList
  | .bool false => "false".toList
  | .num n => n.text.toList
  | .str s => (quote s).toList
  | .arr [] => ['[', ']']
  | .arr (j :: rest) =>
    '[' :: ((style.lineBreak (depth + 1)).toList ++ (spell style (depth + 1) j ++
      (spellItems style (depth + 1) rest ++ ((style.lineBreak depth).toList ++ [']']))))
  | .obj [] => ['\x7b', '\x7d']
  | .obj ((k, j) :: rest) =>
    '\x7b' :: ((style.lineBreak (depth + 1)).toList ++ ((quote k).toList ++
      ':' :: (style.afterColon.toList ++ (spell style (depth + 1) j ++
        (spellMembers style (depth + 1) rest ++ ((style.lineBreak depth).toList ++ ['\x7d']))))))

/-- The characters of items after the first. -/
def spellItems (style : Style) (depth : Nat) : List Json → List Char
  | [] => []
  | j :: rest =>
    ',' :: ((style.lineBreak depth).toList ++ (spell style depth j ++ spellItems style depth rest))

/-- The characters of members after the first. -/
def spellMembers (style : Style) (depth : Nat) : List (String × Json) → List Char
  | [] => []
  | (k, j) :: rest =>
    ',' :: ((style.lineBreak depth).toList ++ ((quote k).toList ++
      ':' :: (style.afterColon.toList ++ (spell style depth j ++ spellMembers style depth rest))))

end

namespace Piece

variable {style : Style}

/-- The characters that a piece comes to. -/
def spell (style : Style) : Piece → List Char
  | text s => s.toList
  | value depth j => j.spell style depth

lemma flatMap_spell_moreItems (depth : Nat) (items : List Json) :
    (moreItems style depth items).flatMap (spell style) = spellItems style depth items := by
  induction items with
  | nil => rfl
  | cons j rest ih =>
    rw [moreItems, List.flatMap_cons, List.flatMap_cons, ih, spellItems]
    simp [spell]

lemma flatMap_spell_moreMembers (depth : Nat) (members : Members) :
    (moreMembers style depth members).flatMap (spell style) = spellMembers style depth members := by
  induction members with
  | nil => rfl
  | cons m rest ih =>
    rw [moreMembers, List.flatMap_cons, List.flatMap_cons, ih, spellMembers]
    simp [spell]

/-- One level of a value comes to the same as the value. -/
lemma flatMap_spell_unfold (depth : Nat) (j : Json) :
    (unfold style depth j).flatMap (spell style) = j.spell style depth := by
  fun_cases unfold style depth j <;>
    simp [spell, Json.spell, flatMap_spell_moreItems, flatMap_spell_moreMembers]

/-- What is written of pieces is what they come to, one after the other. -/
lemma toList_writeAll (written : String) (pieces : List Piece) :
    (writeAll style written pieces).toList
      = written.toList ++ pieces.flatMap (spell style) := by
  fun_induction writeAll style written pieces with
  | case1 written => simp
  | case2 written s rest ih => rw [ih]; simp [spell]
  | case3 written depth j rest ih =>
    rw [ih, List.flatMap_append, flatMap_spell_unfold, List.flatMap_cons]
    rfl

end Piece

/-- The writer writes the text of a value. -/
lemma toList_write (style : Style) (j : Json) : (j.write style).toList = j.spell style 0 := by
  rw [write, Piece.toList_writeAll]
  simp [Piece.spell]

/-! ### String literals -/

/-- Between the quotes of a string literal stand its characters, escaped one by one. -/
lemma toList_quote (s : String) :
    (quote s).toList = '"' :: (s.toList.flatMap escapeChar ++ ['"']) := by
  have hpush : ∀ (cs : List Char) (acc : String),
      (cs.foldl String.push acc).toList = acc.toList ++ cs := by
    intro cs
    induction cs with
    | nil => simp
    | cons c rest ih => simp [ih]
  have hfold : ∀ (cs : List Char) (acc : String),
      (cs.foldl (fun acc c => (escapeChar c).foldl String.push acc) acc).toList
        = acc.toList ++ cs.flatMap escapeChar := by
    intro cs
    induction cs with
    | nil => simp
    | cons c rest ih => simp [ih, hpush]
  rw [quote, String.foldl_eq_foldl_toList, String.toList_push, hfold]
  rfl

end Chatflow.Json
