/-
# The tokens of written text

The text of a value is read token by token.  What the scanner makes of a piece of text does not
depend on what follows, as long as that cannot make a number longer (`Token.Stops`); so the
tokens of a text are put together from those of its pieces (`Token.Spells`).

A string is read as it was, whatever characters it has (`Token.scan_quote`), and an integer that
fits into a 64-bit word, signed or unsigned, is read as that integer (`Token.scan_int`).  Hence the
text of a value in which every number is such an integer (`Json.Whole`) is read as the tokens of the
value (`ofText_write`).
-/
import Chatflow.Json.Draft
import Chatflow.Proofs.Json.Spelling

namespace Chatflow.Json

/-! ### Integers of sixty-four bits -/

/-- An integer of the range in which integers are read as such. -/
def Number.IsWhole : Number → Prop
  | .int n => -0x8000000000000000 ≤ n ∧ n ≤ 0xFFFFFFFFFFFFFFFF
  | .double _ => False

instance : DecidablePred Number.IsWhole
  | .int n => inferInstanceAs (Decidable (_ ≤ n ∧ n ≤ _))
  | .double _ => inferInstanceAs (Decidable False)

mutual

/-- Every number in the value is an integer of that range. -/
def Whole : Json → Prop
  | .num n => n.IsWhole
  | .arr items => ItemsWhole items
  | .obj members => MembersWhole members
  | _ => True

/-- The same of every item. -/
def ItemsWhole : List Json → Prop
  | [] => True
  | j :: rest => Whole j ∧ ItemsWhole rest

/-- The same of every member's value. -/
def MembersWhole : List (String × Json) → Prop
  | [] => True
  | (_, j) :: rest => Whole j ∧ MembersWhole rest

end

lemma itemsWhole_iff (items : List Json) : ItemsWhole items ↔ ∀ j ∈ items, j.Whole := by
  induction items with
  | nil => simp [ItemsWhole]
  | cons j rest ih => simp [ItemsWhole, ih]

lemma membersWhole_iff (members : Members) :
    MembersWhole members ↔ ∀ m ∈ members, m.2.Whole := by
  induction members with
  | nil => simp [MembersWhole]
  | cons m rest ih => simp [MembersWhole, ih]

namespace Token

/-! ### Numbers -/

/-- The value of digits read behind a significand is no less than that. -/
lemma le_ofDigitChars (digits : List Char) (n : Nat) : n ≤ Nat.ofDigitChars 10 digits n := by
  induction digits generalizing n with
  | nil => exact Nat.le_refl n
  | cons c rest ih =>
    rw [Nat.ofDigitChars_cons]
    have := ih (10 * n + (c.toNat - '0'.toNat))
    omega

/-- Digits are read as their value as long as it stays within sixty-four bits. -/
lemma absorb_eq {digits : List Char} {n : Nat}
    (h : Nat.ofDigitChars 10 digits n ≤ maxSignificand) :
    absorb n digits = (Nat.ofDigitChars 10 digits n, []) := by
  induction digits generalizing n with
  | nil => rfl
  | cons c rest ih =>
    have hdigit : n * 10 + digitValue c = 10 * n + (c.toNat - '0'.toNat) := by
      rw [digitValue, Nat.mul_comm]
      rfl
    rw [Nat.ofDigitChars_cons] at h ⊢
    rw [absorb, hdigit, if_pos (Nat.le_trans (le_ofDigitChars rest _) h), ih h]

/-- A number starts with a zero only if it is zero. -/
lemma head?_toDigits {n : Nat} (h : (Nat.toDigits 10 n).head? = some '0') : n = 0 := by
  induction n using Nat.strongRecOn with
  | ind n ih =>
    rw [Nat.toDigits_eq_if (by decide)] at h
    split at h
    · next hn =>
      have hsmall : ∀ d < 10, [Nat.digitChar d].head? = some '0' → d = 0 := by decide
      exact hsmall n hn h
    · next hn =>
      have hne : Nat.toDigits 10 (n / 10) ≠ [] := Nat.toDigits_ne_nil
      rw [List.head?_append_of_ne_nil _ hne] at h
      have := ih (n / 10) (by omega) h
      omega

/-- A character that can make a number longer. -/
def isNumberChar (c : Char) : Bool := c.isDigit ∨ c = '.' ∨ c = 'e' ∨ c = 'E'

/-- Text that does not make a number before it longer. -/
def Stops (cs : List Char) : Prop := ∀ c ∈ cs.head?, isNumberChar c = false

lemma stops_nil : Stops [] := by simp [Stops]

lemma stops_cons {c : Char} (h : isNumberChar c = false) (cs : List Char) : Stops (c :: cs) := by
  simpa [Stops] using h

lemma Stops.append {cs ds : List Char} (hcs : Stops cs) (hds : Stops ds) : Stops (cs ++ ds) := by
  cases cs with
  | nil => exact hds
  | cons c rest => simpa [Stops] using hcs

/-- A row of digits is split off text that does not go on with a digit. -/
lemma digits_append {ds rest : List Char} (h : ∀ c ∈ ds, c.isDigit)
    (hrest : ∀ c ∈ rest.head?, c.isDigit = false) : digits (ds ++ rest) = (ds, rest) := by
  rw [digits, List.takeWhile_append_of_pos h, List.dropWhile_append_of_pos h]
  cases rest with
  | nil => simp
  | cons c rest => simp [hrest c rfl]

lemma Stops.isDigit_head? {rest : List Char} (h : Stops rest) :
    ∀ c ∈ rest.head?, c.isDigit = false := by
  intro c hc
  have hchar := h c hc
  simp only [isNumberChar, decide_eq_false_iff_not, not_or, Bool.not_eq_true] at hchar
  exact hchar.1

lemma digits_toDigits (n : Nat) {rest : List Char} (h : Stops rest) :
    digits (Nat.toDigits 10 n ++ rest) = (Nat.toDigits 10 n, rest) :=
  digits_append (fun _ hc => Nat.isDigit_of_mem_toDigits (by decide) (by decide) hc)
    h.isDigit_head?

/-- Where nothing makes a number longer there is neither fraction nor exponent. -/
lemma scanFraction_of_stops {rest : List Char} (h : Stops rest) :
    scanFraction rest = some ([], rest) := by
  unfold scanFraction
  split
  · next rest => exact absurd (h '.' rfl) (by decide)
  · rfl

lemma scanExponent_of_stops {rest : List Char} (h : Stops rest) :
    scanExponent rest = some (none, rest) := by
  unfold scanExponent
  split
  · exact absurd (h 'e' rfl) (by decide)
  · exact absurd (h 'E' rfl) (by decide)
  · rfl

/-- The text of a natural number behind a sign is read as a numeral with its digits. -/
lemma scanNumeral_toDigits {cs : List Char} {negative : Bool} {n : Nat} {rest : List Char}
    (hsign : scanMinus cs = (negative, Nat.toDigits 10 n ++ rest)) (h : Stops rest) :
    scanNumeral cs = some (⟨negative, Nat.toDigits 10 n, [], none⟩, rest) := by
  have hzero : ¬ (Nat.toDigits 10 n = [] ∨
      ((Nat.toDigits 10 n).head? = some '0' ∧ (Nat.toDigits 10 n).length ≠ 1)) := by
    rintro (hnil | ⟨hhead, hlength⟩)
    · exact Nat.toDigits_ne_nil hnil
    · rw [head?_toDigits hhead] at hlength
      exact hlength rfl
  simp only [scanNumeral, hsign, digits_toDigits n h, if_neg hzero, scanFraction_of_stops h,
    Option.bind_eq_bind, Option.bind_some, scanExponent_of_stops h]

/-- The digits of a number do not start with a sign. -/
lemma scanMinus_toDigits (n : Nat) (rest : List Char) :
    scanMinus (Nat.toDigits 10 n ++ rest) = (false, Nat.toDigits 10 n ++ rest) := by
  unfold scanMinus
  split
  · next heq =>
    obtain ⟨c, ds, hds⟩ := List.exists_cons_of_ne_nil (Nat.toDigits_ne_nil (b := 10) (n := n))
    rw [hds, List.cons_append, List.cons.injEq] at heq
    have hsign : '-' ∈ Nat.toDigits 10 n := by simp [hds, heq.1]
    exact absurd (Nat.isDigit_of_mem_toDigits (by decide) (by decide) hsign) (by decide)
  · rfl

/-- A numeral of digits alone stands for their value. -/
lemma absorb_toDigits {n : Nat} (h : n ≤ maxSignificand) :
    absorb 0 (Nat.toDigits 10 n) = (n, []) := by
  have hvalue : Nat.ofDigitChars 10 (Nat.toDigits 10 n) 0 = n := Nat.ofDigitChars_ten_toDigits
  rw [absorb_eq (by rwa [hvalue]), hvalue]

/-- The text of an integer of sixty-four bits is read as a numeral that stands for it. -/
lemma exists_scanNumeral_int {n : Int} (hn : (Number.int n).IsWhole) {rest : List Char}
    (h : Stops rest) :
    ∃ numeral, scanNumeral ((Number.int n).text.toList ++ rest) = some (numeral, rest) ∧
      numeral.number? = some (.int n) := by
  obtain ⟨hlow, hhigh⟩ := hn
  rw [show (Number.int n).text = n.repr from rfl, Int.repr_eq_if]
  split
  · next hpos =>
    obtain ⟨k, rfl⟩ := Int.eq_ofNat_of_zero_le hpos
    have hk : k ≤ maxSignificand := Int.ofNat_le.1 hhigh
    rw [Int.toNat_natCast, Nat.toList_repr]
    refine ⟨_, scanNumeral_toDigits (scanMinus_toDigits k rest) h, ?_⟩
    simp [Numeral.number?, absorb_toDigits hk]
  · next hneg =>
    obtain ⟨k, rfl⟩ := Int.exists_eq_neg_ofNat (Int.le_of_lt (Int.not_le.1 hneg))
    have hk : k ≤ 0x8000000000000000 := by omega
    have hpos : 0 < k := by omega
    have hsignificand : k ≤ maxSignificand := Nat.le_trans hk (by decide)
    -- the sign is taken off first; behind it stand the digits of a natural number
    have hsign : scanMinus ("-".toList ++ Nat.toDigits 10 k ++ rest)
        = (true, Nat.toDigits 10 k ++ rest) := rfl
    rw [Int.neg_neg, Int.toNat_natCast, String.toList_append, Nat.toList_repr]
    refine ⟨_, scanNumeral_toDigits hsign h, ?_⟩
    simp [Numeral.number?, absorb_toDigits hsignificand, hpos, hk]

/-! ### Strings -/

/-- The two digits of an escaped control character are read as its code. -/
lemma hexWord?_hexDigit {n : Nat} (h : n < 32) :
    hexWord? '0' '0' (hexDigit (n / 16)) (hexDigit (n % 16)) = some n := by
  have hall : ∀ n < 32, hexWord? '0' '0' (hexDigit (n / 16)) (hexDigit (n % 16)) = some n := by
    decide
  exact hall n h

lemma ofWord_of_lt {c : Char} (h : c.toNat < 32) : Unit.ofWord c.toNat = .char c := by
  have hsurrogate : ¬ (isHighSurrogate c.toNat ∨ isLowSurrogate c.toNat) := by
    simp only [isHighSurrogate, isLowSurrogate, decide_eq_true_eq]
    omega
  rw [Unit.ofWord, if_neg hsurrogate, Char.ofNat_toNat]

/-- A character that is neither a quote nor a backslash nor a control character stands for
itself. -/
lemma scanUnits_of_literal {c : Char} (hquote : c ≠ '"') (hbackslash : c ≠ '\\')
    (hcontrol : ¬ c.toNat < 32) (before : List Unit) (rest : List Char) :
    scanUnits before (c :: rest) = scanUnits (.char c :: before) rest := by
  rw [scanUnits.eq_def]
  split
  · next heq => simp at heq
  · next heq => exact absurd (List.cons.inj heq).1 hquote
  · next heq => exact absurd (List.cons.inj heq).1 hbackslash
  · next heq => exact absurd (List.cons.inj heq).1 hbackslash
  · next heq =>
    obtain ⟨rfl, rfl⟩ := List.cons.inj heq
    exact if_neg (not_or.2 ⟨hcontrol, hbackslash⟩)

/-- An escaped character is read as that character. -/
lemma scanUnits_escapeChar (before : List Unit) (c : Char) (rest : List Char) :
    scanUnits before (escapeChar c ++ rest) = scanUnits (.char c :: before) rest := by
  unfold escapeChar
  split_ifs with h1 h2 h3 h4 h5 h6 h7 h8
  · subst h1; simp [scanUnits, escape?]
  · subst h2; simp [scanUnits, escape?]
  · subst h3; simp [scanUnits, escape?]
  · subst h4; simp [scanUnits, escape?]
  · subst h5; simp [scanUnits, escape?]
  · subst h6; simp [scanUnits, escape?]
  · subst h7; simp [scanUnits, escape?]
  · simp [scanUnits, hexWord?_hexDigit h8, ofWord_of_lt h8]
  · exact scanUnits_of_literal h1 h2 h8 before rest

/-- Characters are read up to the closing quote. -/
lemma scanUnits_escaped (before : List Unit) (cs rest : List Char) :
    scanUnits before (cs.flatMap escapeChar ++ '"' :: rest)
      = some (cs.reverse.map .char ++ before, rest) := by
  induction cs generalizing before with
  | nil => simp [scanUnits]
  | cons c cs ih =>
    rw [List.flatMap_cons, List.append_assoc, scanUnits_escapeChar, ih]
    simp

/-- Where there are no halves of surrogate pairs, nothing has to be joined. -/
lemma joinUnits_map_char (after cs : List Char) :
    joinUnits after (cs.map .char) = some (cs.reverse ++ after) := by
  induction cs generalizing after with
  | nil => rfl
  | cons c rest ih => rw [List.map_cons, joinUnits, ih, List.reverse_cons, List.append_assoc]; rfl

/-! ### Tokens -/

/-- The text of a string literal is read as a token with that string. -/
lemma scan_quote (s : String) (rest : List Char) :
    scan ((quote s).toList ++ rest) = some (.str (some s), rest) := by
  have htext : textOfUnits? (s.toList.reverse.map .char) = some s := by
    rw [textOfUnits?, joinUnits_map_char, List.append_nil, List.reverse_reverse, Option.map_some,
      String.ofList_toList]
  rw [toList_quote, List.cons_append, List.append_assoc, List.singleton_append, scan,
    scanUnits_escaped, List.append_nil, Option.map_some]
  simp only [htext]

/-- Text that is read as a numeral is read as a number token. -/
lemma scan_of_scanNumeral {cs rest : List Char} {n : Numeral}
    (h : scanNumeral cs = some (n, rest)) : scan cs = some (.num n.number?, rest) := by
  unfold scan
  split
  case h_11 => rw [h, Option.map_some]
  -- no numeral starts with the first character of any other token
  all_goals simp [scanNumeral, scanMinus, digits] at h

lemma scan_int {n : Int} (hn : (Number.int n).IsWhole) {rest : List Char} (h : Stops rest) :
    scan ((Number.int n).text.toList ++ rest) = some (.num (some (.int n)), rest) := by
  obtain ⟨numeral, hscan, hnumber⟩ := exists_scanNumeral_int hn h
  rw [scan_of_scanNumeral hscan, hnumber]

/-- A token starts with a character that is no white space. -/
lemma exists_cons_of_scan {cs rest : List Char} {t : Token} (h : scan cs = some (t, rest)) :
    ∃ c ds, cs = c :: ds ∧ isSpace c = false := by
  cases cs with
  | nil => simp [scan, scanNumeral, scanMinus, digits] at h
  | cons c ds =>
    refine ⟨c, ds, rfl, Bool.eq_false_iff.2 fun hspace => ?_⟩
    simp only [isSpace, decide_eq_true_eq] at hspace
    rcases hspace with rfl | rfl | rfl | rfl <;> simp [scan, scanNumeral, scanMinus, digits] at h

/-! ### Rows of tokens -/

/-- White space in front is skipped. -/
lemma scanAll_append_of_space {spaces : List Char} (h : ∀ c ∈ spaces, isSpace c)
    (before : List Token) (rest : List Char) :
    scanAll before (spaces ++ rest) = scanAll before rest := by
  rw [scanAll.eq_def, scanAll.eq_def before rest, List.dropWhile_append_of_pos h]

/-- A token in front is read. -/
lemma scanAll_of_scan {cs rest : List Char} {t : Token} (h : scan cs = some (t, rest))
    (before : List Token) : scanAll before cs = scanAll (t :: before) rest := by
  obtain ⟨c, ds, rfl, hc⟩ := exists_cons_of_scan h
  have hdrop : (c :: ds).dropWhile isSpace = c :: ds := by simp [hc]
  rw [scanAll.eq_def]
  split
  · next hs => simp [hdrop] at hs
  · next hs =>
    obtain ⟨rfl, rfl⟩ := List.cons.inj (hdrop.symm.trans hs)
    split
    · next ht => simp [h] at ht
    · next ht =>
      obtain ⟨rfl, rfl⟩ : t = _ ∧ rest = _ := by simpa [h] using ht
      rfl

lemma scanAll_nil (before : List Token) : scanAll before [] = before.reverse := by
  rw [scanAll.eq_def]
  rfl

/-- Text that is read as a row of tokens wherever it stands, unless what follows makes a number
at its end longer. -/
def Spells (cs : List Char) (tokens : List Token) : Prop :=
  ∀ before rest, Stops rest → scanAll before (cs ++ rest) = scanAll (tokens.reverse ++ before) rest

lemma spells_nil : Spells [] [] := fun _ _ _ => rfl

/-- Text that is one token where it stops. -/
lemma spells_of_scan {cs : List Char} {t : Token}
    (h : ∀ rest, Stops rest → scan (cs ++ rest) = some (t, rest)) : Spells cs [t] :=
  fun before rest hrest => scanAll_of_scan (h rest hrest) before

section

variable {cs ds : List Char} {ts us : List Token}

lemma Spells.append (hcs : Spells cs ts) (hds : Spells ds us) (hstops : Stops ds) :
    Spells (cs ++ ds) (ts ++ us) := by
  intro before rest h
  rw [List.append_assoc, hcs before _ (hstops.append h), hds _ _ h, List.reverse_append,
    List.append_assoc]

lemma Spells.space {spaces : List Char} (hspaces : ∀ c ∈ spaces, isSpace c)
    (hds : Spells ds us) : Spells (spaces ++ ds) us := by
  intro before rest h
  rw [List.append_assoc, scanAll_append_of_space hspaces, hds before rest h]

/-- A string literal ends whatever follows. -/
lemma Spells.quote (s : String) (hds : Spells ds us) :
    Spells ((Json.quote s).toList ++ ds) (.str (some s) :: us) := by
  intro before rest hrest
  rw [List.append_assoc, scanAll_of_scan (scan_quote s _), hds _ _ hrest, List.reverse_cons,
    List.append_assoc]
  rfl

/-- So does a token of one character. -/
lemma Spells.cons {c : Char} {t : Token} (h : ∀ rest, scan (c :: rest) = some (t, rest))
    (hds : Spells ds us) : Spells (c :: ds) (t :: us) := by
  intro before rest hrest
  rw [List.cons_append, scanAll_of_scan (h _), hds _ _ hrest, List.reverse_cons, List.append_assoc]
  rfl

end

/-- A whole text that is read as a row of tokens. -/
lemma Spells.ofText {s : String} {ts : List Token} (h : Spells s.toList ts) : ofText s = ts := by
  have hall := h [] [] stops_nil
  rwa [List.append_nil, List.append_nil, scanAll_nil, List.reverse_reverse] at hall

end Token

/-! ### Values -/

open Token

mutual

/-- The tokens of a value. -/
def tokens : Json → List Token
  | .null => [.null]
  | .bool b => [.bool b]
  | .num n => [.num (some n)]
  | .str s => [.str (some s)]
  | .arr [] => [.openArray, .closeArray]
  | .arr (j :: rest) => .openArray :: (tokens j ++ (itemTokens rest ++ [.closeArray]))
  | .obj [] => [.openObject, .closeObject]
  | .obj ((k, j) :: rest) =>
    .openObject :: .str (some k) :: .colon :: (tokens j ++ (memberTokens rest ++ [.closeObject]))

/-- The tokens of items after the first. -/
def itemTokens : List Json → List Token
  | [] => []
  | j :: rest => .comma :: (tokens j ++ itemTokens rest)

/-- The tokens of members after the first. -/
def memberTokens : List (String × Json) → List Token
  | [] => []
  | (k, j) :: rest => .comma :: .str (some k) :: .colon :: (tokens j ++ memberTokens rest)

end

/-- Only white space stands around punctuation. -/
structure Style.Blank (style : Style) : Prop where
  lineBreak : ∀ depth, ∀ c ∈ (style.lineBreak depth).toList, isSpace c
  afterColon : ∀ c ∈ style.afterColon.toList, isSpace c

lemma Style.blank_compact : Style.compact.Blank where
  lineBreak _ := by simp [Style.compact]
  afterColon := by simp [Style.compact]

lemma Style.blank_pretty : Style.pretty.Blank where
  lineBreak depth c hc := by
    simp only [Style.pretty, String.toList_ofList, List.mem_cons] at hc
    rcases hc with rfl | hc
    · decide
    · rw [List.eq_of_mem_replicate hc]
      decide
  afterColon c hc := by
    obtain rfl : c = ' ' := by simpa [Style.pretty] using hc
    decide

variable {style : Style}

/-- White space and a closing bracket behind it make no number longer. -/
lemma stops_lineBreak (hstyle : style.Blank) (depth : Nat) {ds : List Char} (hds : Stops ds) :
    Stops ((style.lineBreak depth).toList ++ ds) := by
  refine Stops.append (fun c hc => ?_) hds
  have hspace := hstyle.lineBreak depth c (List.mem_of_mem_head? hc)
  simp only [isSpace, decide_eq_true_eq] at hspace
  rcases hspace with rfl | rfl | rfl | rfl <;> decide

lemma stops_spellItems (depth : Nat) (items : List Json) :
    Stops (spellItems style depth items) := by
  cases items with
  | nil => exact stops_nil
  | cons j rest =>
    rw [spellItems]
    exact stops_cons (by decide) _

lemma stops_spellMembers (depth : Nat) (members : Members) :
    Stops (spellMembers style depth members) := by
  cases members with
  | nil => exact stops_nil
  | cons m rest =>
    rw [spellMembers]
    exact stops_cons (by decide) _

/-- What follows the first item of an array, or the first member of an object, up to the bracket
that closes it. -/
lemma Token.Spells.close {cs : List Char} {ts : List Token} {c : Char} {t : Token}
    (hstyle : style.Blank) (depth : Nat) (hcs : Spells cs ts) (hstops : Stops cs)
    (hscan : ∀ rest, scan (c :: rest) = some (t, rest)) (hc : isNumberChar c = false) :
    Spells (cs ++ ((style.lineBreak depth).toList ++ [c])) (ts ++ [t]) ∧
      Stops (cs ++ ((style.lineBreak depth).toList ++ [c])) := by
  have hbreak : Stops ((style.lineBreak depth).toList ++ [c]) :=
    stops_lineBreak hstyle depth (stops_cons hc [])
  have hend : Spells ((style.lineBreak depth).toList ++ [c]) [t] :=
    .space (hstyle.lineBreak depth) (.cons hscan spells_nil)
  exact ⟨hcs.append hend hbreak, hstops.append hbreak⟩

lemma spells_spellItems (hstyle : style.Blank) (depth : Nat) {items : List Json}
    (h : ∀ j ∈ items, Spells (j.spell style depth) j.tokens) :
    Spells (spellItems style depth items) (itemTokens items) := by
  induction items with
  | nil => exact spells_nil
  | cons j rest ih =>
    rw [spellItems, itemTokens]
    refine .cons (fun _ => rfl) (.space (hstyle.lineBreak depth) (.append (h j (by simp)) ?_ ?_))
    · exact ih fun k hk => h k (by simp [hk])
    · exact stops_spellItems depth rest

lemma spells_spellMembers (hstyle : style.Blank) (depth : Nat) {members : Members}
    (h : ∀ m ∈ members, Spells (m.2.spell style depth) m.2.tokens) :
    Spells (spellMembers style depth members) (memberTokens members) := by
  induction members with
  | nil => exact spells_nil
  | cons m rest ih =>
    rw [spellMembers, memberTokens]
    refine .cons (fun _ => rfl) (.space (hstyle.lineBreak depth) (.quote m.1 (.cons (fun _ => rfl)
      (.space hstyle.afterColon (.append (h m (by simp)) ?_ ?_)))))
    · exact ih fun k hk => h k (by simp [hk])
    · exact stops_spellMembers depth rest

/-- The text of a value is read as the tokens of the value. -/
lemma spells_spell (hstyle : style.Blank) {j : Json} (hj : j.Whole) (depth : Nat) :
    Spells (j.spell style depth) j.tokens := by
  induction j using induct generalizing depth with
  | null => exact spells_of_scan fun _ _ => rfl
  | bool b => cases b <;> exact spells_of_scan fun _ _ => rfl
  | num n =>
    cases n with
    | int n => exact spells_of_scan fun _ => scan_int hj
    | double d => exact hj.elim
  | str s => exact spells_of_scan fun rest _ => scan_quote s rest
  | arr items ih =>
    cases items with
    | nil => exact .cons (fun _ => rfl) (.cons (fun _ => rfl) spells_nil)
    | cons j rest =>
      rw [Whole, itemsWhole_iff] at hj
      have hrest : Spells (spellItems style (depth + 1) rest) (itemTokens rest) :=
        spells_spellItems hstyle _ fun k hk => ih k (by simp [hk]) (hj k (by simp [hk])) _
      obtain ⟨hclose, hstops⟩ := hrest.close hstyle depth (stops_spellItems _ rest)
        (c := ']') (fun _ => rfl) (by decide)
      rw [spell, tokens]
      exact .cons (fun _ => rfl) (.space (hstyle.lineBreak _)
        (.append (ih j (by simp) (hj j (by simp)) _) hclose hstops))
  | obj members ih =>
    cases members with
    | nil => exact .cons (fun _ => rfl) (.cons (fun _ => rfl) spells_nil)
    | cons m rest =>
      rw [Whole, membersWhole_iff] at hj
      have hrest : Spells (spellMembers style (depth + 1) rest) (memberTokens rest) :=
        spells_spellMembers hstyle _ fun k hk => ih k (by simp [hk]) (hj k (by simp [hk])) _
      obtain ⟨hclose, hstops⟩ := hrest.close hstyle depth (stops_spellMembers _ rest)
        (c := '\x7d') (fun _ => rfl) (by decide)
      rw [spell, tokens]
      exact .cons (fun _ => rfl) (.space (hstyle.lineBreak _) (.quote m.1 (.cons (fun _ => rfl)
        (.space hstyle.afterColon (.append (ih m (by simp) (hj m (by simp)) _) hclose hstops)))))

/-- A text that is written is read as the tokens of the value. -/
lemma ofText_write (hstyle : style.Blank) {j : Json} (hj : j.Whole) :
    Token.ofText (j.write style) = j.tokens := by
  refine Spells.ofText ?_
  rw [toList_write]
  exact spells_spell hstyle hj 0

end Chatflow.Json
