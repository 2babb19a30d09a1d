/-
# The texts of drafts

A draft is complete if the text did not stop being JSON in it (`Draft.Complete`).  Such a draft is
spelled by every text of its tokens, with any white space around them (`Draft.Spelled`); these are
all texts of JSON, those included in which a string has half of a surrogate pair or a number is too
large.

The reader reads a text to its end just if the text spells a draft, and then it gives that draft
(`Reading.ofText_eq_iff`).  In one direction the automaton is followed through the tokens of a
draft; in the other, each of its states tells which tokens were read before (`Reader.State.Reads`).
-/
import Chatflow.Proofs.Json.Grammar

namespace Chatflow.Json

open Token

namespace Draft

/-- What holds of an array whenever it holds of its items, and of an object whenever it holds of its
members' values, holds of every draft that is not a container and so of all. -/
@[elab_as_elim]
lemma induct {P : Draft → Prop} (cut : P .cut) (null : P .null) (bool : ∀ b, P (.bool b))
    (num : ∀ n, P (.num n)) (str : ∀ s, P (.str s))
    (arr : ∀ items closed, (∀ d ∈ items, P d) → P (.arr items closed))
    (obj : ∀ (members : List (Option String × Draft)) closed, (∀ m ∈ members, P m.2) →
      P (.obj members closed)) (d : Draft) : P d := by
  refine Draft.rec (motive_1 := P) (motive_2 := fun items => ∀ d ∈ items, P d)
    (motive_3 := fun members => ∀ m ∈ members, P m.2) (motive_4 := fun m => P m.2)
    cut null bool num str arr obj ?_ ?_ ?_ ?_ ?_ d
  · simp
  · intro d rest hd hrest
    simpa using ⟨hd, hrest⟩
  · simp
  · intro m rest hm hrest k hk
    rcases List.mem_cons.1 hk with rfl | hk
    · exact hm
    · exact hrest k hk
  · exact fun _ _ hd => hd

/-! ### Complete drafts and their tokens -/

mutual

/-- The text did not stop being JSON. -/
def Complete : Draft → Prop
  | .cut => False
  | .arr items closed => closed = true ∧ ItemsComplete items
  | .obj members closed => closed = true ∧ MembersComplete members
  | _ => True

/-- It did not in any of the items. -/
def ItemsComplete : List Draft → Prop
  | [] => True
  | d :: rest => Complete d ∧ ItemsComplete rest

/-- It did not in any of the members' values. -/
def MembersComplete : List (Option String × Draft) → Prop
  | [] => True
  | (_, d) :: rest => Complete d ∧ MembersComplete rest

end

lemma itemsComplete_iff {items : List Draft} :
    ItemsComplete items ↔ ∀ d ∈ items, d.Complete := by
  induction items with
  | nil => simp [ItemsComplete]
  | cons d rest ih => simp [ItemsComplete, ih]

lemma membersComplete_iff {members : List (Option String × Draft)} :
    MembersComplete members ↔ ∀ m ∈ members, m.2.Complete := by
  induction members with
  | nil => simp [MembersComplete]
  | cons m rest ih => simp [MembersComplete, ih]

mutual

/-- The tokens of a complete draft. -/
def tokens : Draft → List Token
  | .cut => []
  | .null => [.null]
  | .bool b => [.bool b]
  | .num n => [.num n]
  | .str s => [.str s]
  | .arr [] _ => [.openArray, .closeArray]
  | .arr (d :: rest) _ => .openArray :: (tokens d ++ (itemTokens rest ++ [.closeArray]))
  | .obj [] _ => [.openObject, .closeObject]
  | .obj ((k, d) :: rest) _ =>
    .openObject :: .str k :: .colon :: (tokens d ++ (memberTokens rest ++ [.closeObject]))

/-- The tokens of items after the first. -/
def itemTokens : List Draft → List Token
  | [] => []
  | d :: rest => .comma :: (tokens d ++ itemTokens rest)

/-- The tokens of members after the first. -/
def memberTokens : List (Option String × Draft) → List Token
  | [] => []
  | (k, d) :: rest => .comma :: .str k :: .colon :: (tokens d ++ memberTokens rest)

end

/-- The text is one of the texts of the draft. -/
def Spelled (d : Draft) (text : String) : Prop :=
  d.Complete ∧ Spaced text.toList d.tokens

end Draft

/-! ### No number runs into another -/

namespace Token

lemma Apart.cons {t : Token} {ts : List Token} (ht : t.isNum = false) (h : Apart ts) :
    Apart (t :: ts) :=
  List.isChain_cons.2 ⟨fun _ _ hnum => absurd hnum (by simp [ht]), h⟩

lemma Apart.append {ts us : List Token} (hts : Apart ts) (hus : Apart us)
    (hnum : ∀ u ∈ us.head?, u.isNum = false) : Apart (ts ++ us) :=
  List.isChain_append.2 ⟨hts, hus, fun _ _ u hu _ => hnum u hu⟩

end Token

namespace Draft

lemma apart_itemTokens (close : Token) {items : List Draft} (h : ∀ d ∈ items, Apart d.tokens)
    (hclose : close.isNum = false) : Apart (itemTokens items ++ [close]) ∧
      ∀ u ∈ (itemTokens items ++ [close]).head?, u.isNum = false := by
  induction items with
  | nil => exact ⟨List.isChain_singleton _, by simpa [itemTokens] using hclose⟩
  | cons d rest ih =>
    obtain ⟨hrest, hhead⟩ := ih fun e he => h e (List.mem_cons_of_mem d he)
    have happart := (h d List.mem_cons_self).append hrest hhead
    rw [itemTokens, List.cons_append, List.append_assoc]
    exact ⟨.cons rfl happart, by simp [isNum]⟩

lemma apart_memberTokens (close : Token) {members : List (Option String × Draft)}
    (h : ∀ m ∈ members, Apart m.2.tokens) (hclose : close.isNum = false) :
    Apart (memberTokens members ++ [close]) ∧
      ∀ u ∈ (memberTokens members ++ [close]).head?, u.isNum = false := by
  induction members with
  | nil => exact ⟨List.isChain_singleton _, by simpa [memberTokens] using hclose⟩
  | cons m rest ih =>
    obtain ⟨hrest, hhead⟩ := ih fun k hk => h k (List.mem_cons_of_mem m hk)
    have happart := (h m List.mem_cons_self).append hrest hhead
    rw [memberTokens, List.cons_append, List.cons_append, List.cons_append, List.append_assoc]
    exact ⟨.cons rfl (.cons rfl (.cons rfl happart)), by simp [isNum]⟩

lemma apart_tokens (d : Draft) : Apart d.tokens := by
  induction d using induct with
  | cut => exact List.isChain_nil
  | null => exact List.isChain_singleton _
  | bool b => exact List.isChain_singleton _
  | num n => exact List.isChain_singleton _
  | str s => exact List.isChain_singleton _
  | arr items closed ih =>
    cases items with
    | nil => exact .cons rfl (List.isChain_singleton _)
    | cons d rest =>
      obtain ⟨hrest, hhead⟩ :=
        apart_itemTokens .closeArray (fun e he => ih e (List.mem_cons_of_mem d he)) rfl
      exact .cons rfl ((ih d List.mem_cons_self).append hrest hhead)
  | obj members closed ih =>
    cases members with
    | nil => exact .cons rfl (List.isChain_singleton _)
    | cons m rest =>
      obtain ⟨hrest, hhead⟩ :=
        apart_memberTokens .closeObject (fun k hk => ih k (List.mem_cons_of_mem m hk)) rfl
      exact .cons rfl (.cons rfl (.cons rfl ((ih m List.mem_cons_self).append hrest hhead)))

end Draft

/-! ### The reader follows the tokens -/

namespace Reader

/-- Behind an opening bracket the first item is read as any value. -/
lemma foldl_firstItem {d : Draft} (hd : d.Complete) (outer : List Nest) :
    d.tokens.foldl feed (.firstItem outer) = d.tokens.foldl feed (.value (.item [] :: outer)) := by
  fun_cases Draft.tokens d
  case case1 => exact hd.elim
  all_goals rfl

lemma foldl_itemTokens {items : List Draft}
    (h : ∀ d ∈ items, ∀ outer, d.tokens.foldl feed (.value outer) = .after d outer)
    (d : Draft) (before : List Draft) (outer : List Nest) :
    (Draft.itemTokens items ++ [Token.closeArray]).foldl feed (.after d (.item before :: outer))
      = .after (.arr (before.reverse ++ d :: items) true) outer := by
  induction items generalizing d before with
  | nil => simp [Draft.itemTokens, feed, feedAfter]
  | cons e rest ih =>
    rw [Draft.itemTokens, List.cons_append, List.foldl_cons, List.append_assoc, List.foldl_append,
      show feed (.after d (.item before :: outer)) .comma = .value (.item (d :: before) :: outer)
        from rfl, h e (by simp), ih fun k hk => h k (by simp [hk])]
    simp

lemma foldl_memberTokens {members : List (Option String × Draft)}
    (h : ∀ m ∈ members, ∀ outer, m.2.tokens.foldl feed (.value outer) = .after m.2 outer)
    (d : Draft) (key : Option String) (before : List (Option String × Draft))
    (outer : List Nest) :
    (Draft.memberTokens members ++ [Token.closeObject]).foldl feed
        (.after d (.member before key :: outer))
      = .after (.obj (before.reverse ++ (key, d) :: members) true) outer := by
  induction members generalizing d key before with
  | nil => simp [Draft.memberTokens, feed, feedAfter]
  | cons m rest ih =>
    rw [Draft.memberTokens, List.cons_append, List.cons_append, List.cons_append, List.foldl_cons,
      List.foldl_cons, List.foldl_cons, List.append_assoc, List.foldl_append,
      show feed (feed (feed (.after d (.member before key :: outer)) .comma) (.str m.1))
          .colon = .value (.member ((key, d) :: before) m.1 :: outer) from rfl,
      h m (by simp), ih fun k hk => h k (by simp [hk])]
    simp

/-- Where a value is expected, the tokens of a complete draft are read into it. -/
lemma foldl_tokens {d : Draft} (hd : d.Complete) (outer : List Nest) :
    d.tokens.foldl feed (.value outer) = .after d outer := by
  induction d using Draft.induct generalizing outer with
  | cut => exact hd.elim
  | null => rfl
  | bool b => rfl
  | num n => rfl
  | str s => rfl
  | arr items closed ih =>
    obtain ⟨rfl, hitems⟩ := hd
    rw [Draft.itemsComplete_iff] at hitems
    cases items with
    | nil => rfl
    | cons d rest =>
      have hrest := @foldl_itemTokens rest fun e he =>
        ih e (List.mem_cons_of_mem d he) (hitems e (List.mem_cons_of_mem d he))
      have hd : d.Complete := hitems d List.mem_cons_self
      rw [Draft.tokens, List.foldl_cons, List.foldl_append,
        show feed (.value outer) .openArray = .firstItem outer from rfl, foldl_firstItem hd,
        ih d (by simp) hd, hrest]
      rfl
  | obj members closed ih =>
    obtain ⟨rfl, hmembers⟩ := hd
    rw [Draft.membersComplete_iff] at hmembers
    cases members with
    | nil => rfl
    | cons m rest =>
      have hrest := @foldl_memberTokens rest fun k hk =>
        ih k (List.mem_cons_of_mem m hk) (hmembers k (List.mem_cons_of_mem m hk))
      rw [Draft.tokens, List.foldl_cons, List.foldl_cons, List.foldl_cons, List.foldl_append,
        show feed (feed (feed (.value outer) .openObject) (.str m.1)) .colon
          = .value (.member [] m.1 :: outer) from rfl,
        ih m (by simp) (hmembers m List.mem_cons_self), hrest]
      rfl

end Reader

/-- A text of a draft is read to its end, into that draft. -/
lemma Reading.ofText_of_spelled {d : Draft} {text : String} (h : d.Spelled text) :
    Reading.ofText text = ⟨d, true⟩ := by
  obtain ⟨hcomplete, hspaced⟩ := h
  rw [Reading.ofText, Reading.ofTokens, ofText_of_spaced hspaced d.apart_tokens,
    Reader.foldl_tokens hcomplete]
  rfl

/-! ### What has been read -/

namespace Draft

lemma itemTokens_append (items more : List Draft) :
    itemTokens (items ++ more) = itemTokens items ++ itemTokens more := by
  induction items with
  | nil => rfl
  | cons d rest ih => simp [itemTokens, ih]

lemma memberTokens_append (members more : List (Option String × Draft)) :
    memberTokens (members ++ more) = memberTokens members ++ memberTokens more := by
  induction members with
  | nil => rfl
  | cons m rest ih => simp [memberTokens, ih]

end Draft

namespace Reader

/-- The tokens of an array before the place where the next item goes; the items come last first. -/
def itemsRead : List Draft → List Token
  | [] => [.openArray]
  | d :: before => itemsRead before ++ (d.tokens ++ [.comma])

/-- The tokens of an object before the place where the next key goes; the members come last
first. -/
def membersRead : List (Option String × Draft) → List Token
  | [] => [.openObject]
  | (k, d) :: before => membersRead before ++ (.str k :: .colon :: (d.tokens ++ [.comma]))

/-- The items read so far and another one are the array of them, once it is closed. -/
lemma itemsRead_closed (d : Draft) (before : List Draft) (closed : Bool) :
    (Draft.arr (d :: before).reverse closed).tokens
      = itemsRead before ++ (d.tokens ++ [.closeArray]) := by
  induction before generalizing d with
  | nil => rfl
  | cons e before ih =>
    obtain ⟨a, rest, hitems⟩ : ∃ a rest, (e :: before).reverse = a :: rest :=
      List.exists_cons_of_ne_nil (by simp)
    have hopen : .openArray :: (a.tokens ++ Draft.itemTokens rest)
        = itemsRead before ++ e.tokens := by
      have hclosed := ih e
      rw [hitems, Draft.tokens] at hclosed
      refine @List.append_cancel_right _ _ [.closeArray] _ ?_
      simpa using hclosed
    calc (Draft.arr (d :: e :: before).reverse closed).tokens
      _ = .openArray :: (a.tokens ++ Draft.itemTokens rest)
          ++ (.comma :: (d.tokens ++ [.closeArray])) := by
        rw [List.reverse_cons, hitems, List.cons_append, Draft.tokens, Draft.itemTokens_append]
        simp [Draft.itemTokens]
      _ = itemsRead (e :: before) ++ (d.tokens ++ [.closeArray]) := by
        rw [hopen, itemsRead]
        simp

lemma membersRead_closed (key : Option String) (d : Draft) (before : List (Option String × Draft))
    (closed : Bool) :
    (Draft.obj ((key, d) :: before).reverse closed).tokens
      = membersRead before ++ (.str key :: .colon :: (d.tokens ++ [.closeObject])) := by
  induction before generalizing key d with
  | nil => rfl
  | cons m before ih =>
    obtain ⟨k, e⟩ := m
    obtain ⟨a, rest, hmembers⟩ : ∃ a rest, ((k, e) :: before).reverse = a :: rest :=
      List.exists_cons_of_ne_nil (by simp)
    have hopen : .openObject :: .str a.1 :: .colon :: (a.2.tokens ++ Draft.memberTokens rest)
        = membersRead before ++ (.str k :: .colon :: e.tokens) := by
      have hclosed := ih k e
      rw [hmembers, Draft.tokens] at hclosed
      refine @List.append_cancel_right _ _ [.closeObject] _ ?_
      simpa using hclosed
    calc (Draft.obj ((key, d) :: (k, e) :: before).reverse closed).tokens
      _ = .openObject :: .str a.1 :: .colon :: (a.2.tokens ++ Draft.memberTokens rest)
          ++ (.comma :: .str key :: .colon :: (d.tokens ++ [.closeObject])) := by
        rw [List.reverse_cons, hmembers, List.cons_append, Draft.tokens, Draft.memberTokens_append]
        simp [Draft.memberTokens]
      _ = membersRead ((k, e) :: before)
          ++ (.str key :: .colon :: (d.tokens ++ [.closeObject])) := by
        rw [hopen, membersRead]
        simp

/-- The tokens of a container before the place in it. -/
def Nest.tokens : Nest → List Token
  | .item before => itemsRead before
  | .member before key => membersRead before ++ [.str key, .colon]

/-- All drafts before the place are complete. -/
def Nest.Complete : Nest → Prop
  | .item before => ∀ d ∈ before, d.Complete
  | .member before _ => ∀ m ∈ before, m.2.Complete

/-- The tokens before a place; the containers around it come innermost first. -/
def tokensAround : List Nest → List Token
  | [] => []
  | nest :: outer => tokensAround outer ++ nest.tokens

/-- The state after some tokens have been read, unless the reading was broken off. -/
def State.Reads (tokens : List Token) : State → Prop
  | .value outer => (∀ n ∈ outer, n.Complete) ∧ tokens = tokensAround outer
  | .firstItem outer => (∀ n ∈ outer, n.Complete) ∧ tokens = tokensAround outer ++ [.openArray]
  | .firstKey outer => (∀ n ∈ outer, n.Complete) ∧ tokens = tokensAround outer ++ [.openObject]
  | .key before outer => (∀ n ∈ outer, n.Complete) ∧ (∀ m ∈ before, m.2.Complete) ∧
      tokens = tokensAround outer ++ membersRead before
  | .colon before k outer => (∀ n ∈ outer, n.Complete) ∧ (∀ m ∈ before, m.2.Complete) ∧
      tokens = tokensAround outer ++ (membersRead before ++ [.str k])
  | .after d outer => (∀ n ∈ outer, n.Complete) ∧ d.Complete ∧
      tokens = tokensAround outer ++ d.tokens
  | .stopped r => r.ended = false

variable {tokens : List Token}

lemma reads_breakOff (d : Draft) (outer : List Nest) : (breakOff d outer).Reads tokens := rfl

lemma reads_feedValue {outer : List Nest} (houter : ∀ n ∈ outer, n.Complete)
    (h : tokens = tokensAround outer) (t : Token) :
    (feedValue outer t).Reads (tokens ++ [t]) := by
  subst h
  cases t with
  | openArray => exact ⟨houter, rfl⟩
  | openObject => exact ⟨houter, rfl⟩
  | null => exact ⟨houter, trivial, rfl⟩
  | bool b => exact ⟨houter, trivial, rfl⟩
  | num n => exact ⟨houter, trivial, rfl⟩
  | str s => exact ⟨houter, trivial, rfl⟩
  | _ => exact reads_breakOff _ _

lemma reads_feedAfter {d : Draft} {outer : List Nest} (hall : ∀ n ∈ outer, n.Complete)
    (hd : d.Complete) (h : tokens = tokensAround outer ++ d.tokens) (t : Token) :
    (feedAfter d outer t).Reads (tokens ++ [t]) := by
  subst h
  cases outer with
  | nil => exact rfl
  | cons nest outer =>
    obtain ⟨hnest, houter⟩ := List.forall_mem_cons.1 hall
    cases nest with
    | item before =>
      have hitems : ∀ e ∈ d :: before, e.Complete := List.forall_mem_cons.2 ⟨hd, hnest⟩
      cases t with
      | comma =>
        refine ⟨List.forall_mem_cons.2 ⟨hitems, houter⟩, ?_⟩
        simp [tokensAround, Nest.tokens, itemsRead]
      | closeArray =>
        refine ⟨houter, ⟨rfl, ?_⟩, ?_⟩
        · rw [Draft.itemsComplete_iff]
          exact fun e he => hitems e (List.mem_reverse.1 he)
        · rw [itemsRead_closed]
          simp [tokensAround, Nest.tokens]
      | _ => exact reads_breakOff _ _
    | member before key =>
      have hmembers : ∀ m ∈ (key, d) :: before, m.2.Complete :=
        List.forall_mem_cons.2 ⟨hd, hnest⟩
      cases t with
      | comma =>
        refine ⟨houter, hmembers, ?_⟩
        simp [tokensAround, Nest.tokens, membersRead]
      | closeObject =>
        refine ⟨houter, ⟨rfl, ?_⟩, ?_⟩
        · rw [Draft.membersComplete_iff]
          exact fun m hm => hmembers m (List.mem_reverse.1 hm)
        · rw [membersRead_closed]
          simp [tokensAround, Nest.tokens]
      | _ => exact reads_breakOff _ _

/-- One more token is read. -/
lemma State.Reads.feed {s : State} (h : s.Reads tokens) (t : Token) :
    (feed s t).Reads (tokens ++ [t]) := by
  cases s with
  | value outer => exact reads_feedValue h.1 h.2 t
  | firstItem outer =>
    obtain ⟨houter, rfl⟩ := h
    cases t with
    | closeArray =>
      refine ⟨houter, ⟨rfl, trivial⟩, ?_⟩
      simp [Draft.tokens]
    | _ =>
      have hitem : ∀ n ∈ Nest.item [] :: outer, n.Complete :=
        List.forall_mem_cons.2 ⟨by simp [Nest.Complete], houter⟩
      exact reads_feedValue hitem rfl _
  | firstKey outer =>
    obtain ⟨houter, rfl⟩ := h
    cases t with
    | closeObject =>
      refine ⟨houter, ⟨rfl, trivial⟩, ?_⟩
      simp [Draft.tokens]
    | str s =>
      refine ⟨houter, by simp, ?_⟩
      simp [membersRead]
    | _ => exact reads_breakOff _ _
  | key before outer =>
    obtain ⟨houter, hbefore, rfl⟩ := h
    cases t with
    | str s => exact ⟨houter, hbefore, by simp⟩
    | _ => exact reads_breakOff _ _
  | colon before key outer =>
    obtain ⟨houter, hbefore, rfl⟩ := h
    cases t with
    | colon =>
      refine ⟨List.forall_mem_cons.2 ⟨hbefore, houter⟩, ?_⟩
      simp [tokensAround, Nest.tokens]
    | _ => exact reads_breakOff _ _
  | after d outer => exact reads_feedAfter h.1 h.2.1 h.2.2 t
  | stopped r => exact h

/-- So are any more tokens. -/
lemma State.Reads.foldl {s : State} (h : s.Reads tokens) (more : List Token) :
    (more.foldl Reader.feed s).Reads (tokens ++ more) := by
  induction more generalizing s tokens with
  | nil => rwa [List.append_nil]
  | cons t rest ih =>
    have hrest := ih (h.feed t)
    rwa [List.append_assoc, List.singleton_append] at hrest

/-- A reading that came to its end has read the tokens of a complete draft. -/
lemma State.Reads.finish {s : State} (h : s.Reads tokens) {d : Draft}
    (hfinish : Reader.finish s = ⟨d, true⟩) : d.Complete ∧ tokens = d.tokens := by
  unfold Reader.finish at hfinish
  split at hfinish
  · obtain ⟨rfl, -⟩ := Reading.mk.inj hfinish
    exact ⟨h.2.1, h.2.2⟩
  · have hended : _ = false := h
    rw [hfinish] at hended
    simp at hended
  · -- the tokens ran out too early
    have hfault := h.feed .fault
    split at hfinish
    · next heq =>
      rw [heq, hfinish] at hfault
      have hended : true = false := hfault
      simp at hended
    · simp at hfinish

end Reader

namespace Draft

lemma fault_notMem_itemTokens {items : List Draft} (h : ∀ d ∈ items, .fault ∉ d.tokens) :
    .fault ∉ itemTokens items := by
  induction items with
  | nil => simp [itemTokens]
  | cons d rest ih =>
    have hrest := ih fun e he => h e (List.mem_cons_of_mem d he)
    simp [itemTokens, h d List.mem_cons_self, hrest]

lemma fault_notMem_memberTokens {members : List (Option String × Draft)}
    (h : ∀ m ∈ members, .fault ∉ m.2.tokens) : .fault ∉ memberTokens members := by
  induction members with
  | nil => simp [memberTokens]
  | cons m rest ih =>
    have hrest := ih fun k hk => h k (List.mem_cons_of_mem m hk)
    simp [memberTokens, h m List.mem_cons_self, hrest]

lemma fault_notMem_tokens (d : Draft) : .fault ∉ d.tokens := by
  induction d using induct with
  | arr items closed ih =>
    cases items with
    | nil => simp [tokens]
    | cons d rest =>
      have hrest := fault_notMem_itemTokens fun e he => ih e (List.mem_cons_of_mem d he)
      simp [tokens, ih d List.mem_cons_self, hrest]
  | obj members closed ih =>
    cases members with
    | nil => simp [tokens]
    | cons m rest =>
      have hrest := fault_notMem_memberTokens fun k hk => ih k (List.mem_cons_of_mem m hk)
      simp [tokens, ih m List.mem_cons_self, hrest]
  | _ => simp [tokens]

end Draft

/-- The texts that are read to their end are those of the complete drafts, and each is read into the
draft that it spells. -/
lemma Reading.ofText_eq_iff {d : Draft} {text : String} :
    Reading.ofText text = ⟨d, true⟩ ↔ d.Spelled text := by
  refine ⟨fun h => ?_, ofText_of_spelled⟩
  have hstart : (Reader.State.value []).Reads [] := ⟨by simp, rfl⟩
  obtain ⟨hcomplete, htokens⟩ := (hstart.foldl (Token.ofText text)).finish h
  rw [List.nil_append] at htokens
  refine ⟨hcomplete, ?_⟩
  rw [← htokens]
  exact spaced_of_ofText (htokens ▸ d.fault_notMem_tokens)

end Chatflow.Json
